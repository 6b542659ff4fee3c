import ImageDigest.Codec.Deflate.Block

/-!
Compressed streams that come in pieces, read as far as their contents are needed.
-/

namespace ImageDigest.Codec.Deflate

open Reader

/-- The first two bytes name the deflate method with a window of at most 32768 bytes and no preset
dictionary, and pass their check. -/
def isStreamHead (method flags : Nat) : Bool :=
  method % 16 = 8 && method / 16 ≤ 7 && flags / 32 % 2 = 0 && (256 * method + flags) % 31 = 0

def streamHead : Reader Unit := do
  let head ← take 16
  if !isStreamHead (head % 256) (head / 256) then throw .broken

/-- Where a stream has been read to: at the head of a block, in stored contents with some bytes
left, in contents in codes with some bytes left of a copy, or behind the last block. -/
inductive Place where
  | atHead
  | inStored (last : Bool) (left : Nat)
  | inCoded (last : Bool) (codes : Codes) (left : Nat)
  | atEnd

namespace Place

def behind (last : Bool) : Place := if last then .atEnd else .atHead

def stored (last : Bool) (left : Nat) : Place :=
  if 0 < left then .inStored last left else behind last

def ofBlock (last : Bool) : Block → Place
  | .stored length => stored last length
  | .coded codes => .inCoded last codes 0

end Place

def nextBlock : Reader Place := do
  let (last, block) ← blockHead
  return .ofBlock last block

abbrev Range := Nat × Nat

def lengthRanges : Array Range :=
  #[(3, 0), (4, 0), (5, 0), (6, 0), (7, 0), (8, 0), (9, 0), (10, 0), (11, 1), (13, 1), (15, 1),
    (17, 1), (19, 2), (23, 2), (27, 2), (31, 2), (35, 3), (43, 3), (51, 3), (59, 3), (67, 4),
    (83, 4), (99, 4), (115, 4), (131, 5), (163, 5), (195, 5), (227, 5), (258, 0)]

def distanceRanges : Array Range :=
  #[(1, 0), (2, 0), (3, 0), (4, 0), (5, 1), (7, 1), (9, 2), (13, 2), (17, 3), (25, 3), (33, 4),
    (49, 4), (65, 5), (97, 5), (129, 6), (193, 6), (257, 7), (385, 7), (513, 8), (769, 8),
    (1025, 9), (1537, 9), (2049, 10), (3073, 10), (4097, 11), (6145, 11), (8193, 12),
    (12289, 12), (16385, 13), (24577, 13)]

def inRange (ranges : Array Range) (symbol : Nat) : Reader Nat :=
  match ranges[symbol]? with
  | some (least, bits) => return least + (← take bits)
  | none => throw .broken

def copy (distance : Nat) : Nat → Array UInt8 → Array UInt8
  | 0, contents => contents
  | count + 1, contents =>
    copy distance count (contents.push (contents.getD (contents.size - distance) 0))

def codedStep (needed : Nat) (last : Bool) (codes : Codes) (contents : Array UInt8) :
    Reader (Place × Array UInt8) := do
  let symbol ← codes.literals.symbol
  if symbol < endOfBlock then
    return (.inCoded last codes 0, contents.push (UInt8.ofNat symbol))
  else if symbol = endOfBlock then return (.behind last, contents)
  else
    let length ← inRange lengthRanges (symbol - 257)
    let distance ← inRange distanceRanges (← codes.distances.symbol)
    if contents.size < distance then throw .broken
    let count := min length (needed - contents.size)
    return (.inCoded last codes (length - count), copy distance count contents)

def step (needed : Nat) (contents : Array UInt8) : Place → Reader (Place × Array UInt8)
  | .atHead => return (← nextBlock, contents)
  | .inStored last left => do
    let count := min left (needed - contents.size)
    let bytes ← takeBytes count
    return (.stored last (left - count), contents ++ bytes)
  | .inCoded last codes _ => codedStep needed last codes contents
  | .atEnd => throw .short

/-- The needed contents, and where they end. Every step takes a bit at least. -/
def contentsFrom (needed : Nat) : Nat → Place → Array UInt8 → Reader (Place × Array UInt8)
  | 0, _, _ => throw .short
  | fuel + 1, place, contents => do
    if needed ≤ contents.size then return (place, contents)
    let (place, contents) ← step needed contents place
    contentsFrom needed fuel place contents

def neededContents (needed : Nat) : Reader (Place × Array UInt8) := do
  streamHead
  contentsFrom needed ((← get).size + 1) .atHead #[]

/-- Reads on behind the needed contents as long as blocks end and begin. -/
def settle : Nat → Place → Reader Unit
  | fuel + 1, .atHead => do settle fuel (← nextBlock)
  | fuel + 1, .inCoded last codes 0 => do
    let _ ← look Code.longest
    if (← codes.literals.symbol) = endOfBlock then settle fuel (.behind last)
  | _, _ => return

/-- How many bytes the pieces have up to the end of the one that holds the given bit. -/
def endOfPiece (bit : Nat) : List (List UInt8) → Nat
  | [] => 0
  | piece :: pieces =>
    if bit ≤ 8 * piece.length then piece.length
    else piece.length + endOfPiece (bit - 8 * piece.length) pieces

/-- The first `needed` bytes of the contents of a stream. In the piece in which they end, no block
behind them may have a broken head; the pieces behind it are not read. -/
def inflate? (needed : Nat) (pieces : List (List UInt8)) : Option (List UInt8) :=
  let bytes := pieces.flatten.toArray
  match (neededContents needed).run { bytes } with
  | .error _ => none
  | .ok ((place, contents), source) =>
    let piece := { source with bytes := bytes.take (endOfPiece source.seen pieces) }
    match (settle (piece.size + 1) place).run piece with
    | .error .broken => none
    | _ => some contents.toList

end ImageDigest.Codec.Deflate
