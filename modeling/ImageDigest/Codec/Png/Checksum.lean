namespace ImageDigest.Codec.Png

def polynomial : UInt32 := 0xEDB88320

def shiftOut (crc : UInt32) : UInt32 :=
  if crc % 2 = 1 then (crc >>> 1) ^^^ polynomial else crc >>> 1

def feed (crc : UInt32) (byte : UInt8) : UInt32 :=
  Nat.repeat shiftOut 8 (crc ^^^ byte.toUInt32)

def checksum (bytes : List UInt8) : UInt32 := ~~~ (bytes.foldl feed 0xFFFFFFFF)

end ImageDigest.Codec.Png
