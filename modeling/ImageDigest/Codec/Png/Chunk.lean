import ImageDigest.Codec.Png.Checksum

namespace ImageDigest.Codec.Png

def bigEndian (a b c d : UInt8) : Nat :=
  16777216 * a.toNat + 65536 * b.toNat + 256 * c.toNat + d.toNat

structure Chunk where
  kind : List UInt8
  data : List UInt8
  deriving DecidableEq, Repr

def headerKind : List UInt8 := [73, 72, 68, 82]

def dataKind : List UInt8 := [73, 68, 65, 84]

def Chunk.read? : List UInt8 → Option (Chunk × List UInt8)
  | l₃ :: l₂ :: l₁ :: l₀ :: rest =>
    let length := bigEndian l₃ l₂ l₁ l₀
    let kind := rest.take 4
    let data := (rest.drop 4).take length
    match (rest.drop 4).drop length with
    | c₃ :: c₂ :: c₁ :: c₀ :: after =>
      if (checksum (kind ++ data)).toNat = bigEndian c₃ c₂ c₁ c₀ then some (⟨kind, data⟩, after)
      else none
    | _ => none
  | _ => none

/-- The type of the chunk that begins the bytes, as far as it can be told from its head. -/
def nextKind? : List UInt8 → Option (List UInt8)
  | _ :: _ :: _ :: _ :: k₃ :: k₂ :: k₁ :: k₀ :: _ => some [k₃, k₂, k₁, k₀]
  | _ => none

/-- The contents of the data chunks that begin the bytes, up to the head of another chunk. Each
takes at least twelve bytes, so `fuel` bytes hold no more than `fuel` chunks. -/
def readData? : Nat → List UInt8 → Option (List (List UInt8))
  | 0, _ => none
  | fuel + 1, bytes => do
    if (← nextKind? bytes) ≠ dataKind then return []
    let (chunk, rest) ← Chunk.read? bytes
    return chunk.data :: (← readData? fuel rest)

/-- The contents of the leading data chunks. What comes behind them need only have a head, and is
not read. -/
def leadingData? (bytes : List UInt8) : Option (List (List UInt8)) := readData? bytes.length bytes

end ImageDigest.Codec.Png
