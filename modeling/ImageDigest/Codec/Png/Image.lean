import ImageDigest.Codec.Deflate.Stream
import ImageDigest.Codec.Layout
import ImageDigest.Codec.Png.Chunk

/-!
Images without interlacing, with 8 or 16 bits a sample and unfiltered rows.
-/

namespace ImageDigest.Codec.Png

def signature : List UInt8 := [137, 80, 78, 71, 13, 10, 26, 10]

structure Header where
  size : Size
  wide : Bool
  layout : Layout
  deriving DecidableEq, Repr

def layoutOf? (colorType : UInt8) : Option Layout :=
  if colorType = 0 then some .gray
  else if colorType = 4 then some .grayAlpha
  else if colorType = 2 then some .color
  else if colorType = 6 then some .colorAlpha
  else none

def Header.ofData? : List UInt8 → Option Header
  | [w₃, w₂, w₁, w₀, h₃, h₂, h₁, h₀, depth, colorType, 0, 0, 0] => do
    let layout ← layoutOf? colorType
    let size : Size := ⟨bigEndian w₃ w₂ w₁ w₀, bigEndian h₃ h₂ h₁ h₀⟩
    if size.area = 0 then none
    else if depth = 8 then return ⟨size, false, layout⟩
    else if depth = 16 then return ⟨size, true, layout⟩
    else none
  | _ => none

def Header.rowBytes (h : Header) : Nat :=
  h.size.width * h.layout.channels * (if h.wide then 2 else 1)

def Header.dataBytes (h : Header) : Nat := h.size.height * (1 + h.rowBytes)

/-- The rows of the image, each behind a byte that says it is unfiltered. What comes behind the
last row is left out. -/
def rows? (rowBytes : Nat) : Nat → List UInt8 → Option (List UInt8)
  | 0, _ => some []
  | count + 1, mark :: rest =>
    let row := rest.take rowBytes
    if mark ≠ 0 ∨ row.length < rowBytes then none
    else (rows? rowBytes count (rest.drop rowBytes)).map (row ++ ·)
  | _ + 1, [] => none

/-- Samples of two bytes, the high one first. -/
def words : List UInt8 → List UInt16
  | high :: low :: rest => UInt16.ofNat (256 * high.toNat + low.toNat) :: words rest
  | _ => []

structure Image where
  header : Header
  bytes : List UInt8
  deriving Repr

def readHeader? (bytes : List UInt8) : Option (Header × List UInt8) := do
  let (first, rest) ← Chunk.read? bytes
  if first.kind ≠ headerKind then none
  return (← Header.ofData? first.data, rest)

def image? (bytes : List UInt8) : Option Image := do
  if bytes.take 8 ≠ signature then none
  let (header, rest) ← readHeader? (bytes.drop 8)
  let data ← Deflate.inflate? header.dataBytes (← leadingData? rest)
  return ⟨header, ← rows? header.rowBytes header.size.height data⟩

end ImageDigest.Codec.Png
