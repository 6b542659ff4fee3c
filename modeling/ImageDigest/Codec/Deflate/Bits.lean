/-!
Bits of a stream of bytes, the lowest bit of a byte first.
-/

namespace ImageDigest.Codec.Deflate

/-- Why reading stops: bits are missing, or those that are there make no sense. -/
inductive Fault where
  | short
  | broken
  deriving DecidableEq, Repr

/-- Bytes, with the number of bits that have been taken and of those that had to be there. -/
structure BitSource where
  bytes : Array UInt8
  taken : Nat := 0
  seen : Nat := 0

namespace BitSource

def size (s : BitSource) : Nat := 8 * s.bytes.size

def bit (s : BitSource) (k : Nat) : Nat :=
  ((s.bytes.getD (k / 8) 0).toNat >>> (k % 8)) % 2

def value (s : BitSource) (start : Nat) : Nat → Nat
  | 0 => 0
  | count + 1 => s.bit start + 2 * s.value (start + 1) count

end BitSource

abbrev Reader := StateT BitSource (Except Fault)

namespace Reader

def look (count : Nat) : Reader Nat := fun s =>
  let stop := s.taken + count
  if stop ≤ s.size then .ok (s.value s.taken count, { s with seen := max s.seen stop })
  else .error .short

def take (count : Nat) : Reader Nat := do
  let value ← look count
  modify fun s => { s with taken := s.taken + count }
  return value

def takeMany (width : Nat) : Nat → Reader (List Nat)
  | 0 => return []
  | count + 1 => do
    let value ← take width
    return value :: (← takeMany width count)

def toByte : Reader Unit := do
  let _ ← take ((8 - (← get).taken % 8) % 8)

def takeBytes (count : Nat) : Reader (Array UInt8) := fun s =>
  let start := s.taken / 8
  let stop := start + count
  if stop ≤ s.bytes.size then
    .ok (s.bytes.extract start stop, { s with taken := 8 * stop, seen := max s.seen (8 * stop) })
  else .error .short

end Reader

end ImageDigest.Codec.Deflate
