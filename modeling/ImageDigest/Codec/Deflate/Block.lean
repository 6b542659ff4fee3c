import ImageDigest.Codec.Deflate.Code

namespace ImageDigest.Codec.Deflate

open Reader

structure Codes where
  literals : Code
  distances : Code
  deriving DecidableEq, Repr

inductive Block where
  | stored (length : Nat)
  | coded (codes : Codes)

def endOfBlock : Nat := 256

def fixedCodes : Codes where
  literals := .ofLengths
    (.replicate 144 8 ++ .replicate 112 9 ++ .replicate 24 7 ++ .replicate 8 8)
  distances := .ofLengths (.replicate 32 5)

def storedBlock : Reader Block := do
  toByte
  let length ← take 16
  if length + (← take 16) ≠ 65535 then throw .broken
  return .stored length

/-- A block that ends where it begins counts as a stored one. -/
def fixedBlock : Reader Block := do
  if (← look 7) = 0 then
    let _ ← take 7
    return .stored 0
  return .coded fixedCodes

def lengthOrder : List Nat :=
  [16, 17, 18, 0, 8, 7, 9, 6, 10, 5, 11, 4, 12, 3, 13, 2, 14, 1, 15]

def lengthCode (count : Nat) : Reader Code := do
  let written := lengthOrder.zip (← takeMany 3 count)
  let code := Code.ofLengths
    ((List.range lengthOrder.length).map fun symbol => (written.lookup symbol).getD 0)
  if !code.isComplete then throw .broken
  return code

/-- One word length, or several that are equal: the one before, or zeros. -/
def lengthRun (code : Code) (before : Option Nat) : Reader (List Nat) := do
  let _ ← look 7
  let symbol ← code.symbol
  if symbol < 16 then return [symbol]
  else if symbol = 16 then
    let count := 3 + (← take 2)
    match before with
    | some length => return .replicate count length
    | none => throw .broken
  else if symbol = 17 then return .replicate (3 + (← take 3)) 0
  else return .replicate (11 + (← take 7)) 0

def wordLengths (code : Code) (total : Nat) : Nat → Array Nat → Reader (List Nat)
  | 0, lengths => if lengths.size = total then return lengths.toList else throw .broken
  | fuel + 1, lengths => do
    if lengths.size < total then
      let run ← lengthRun code lengths.back?
      wordLengths code total fuel (lengths ++ run)
    else if lengths.size = total then return lengths.toList
    else throw .broken

def dynamicBlock : Reader Block := do
  let _ ← look 14
  let literalCount := 257 + (← take 5)
  let distanceCount := 1 + (← take 5)
  let count := 4 + (← take 4)
  if 286 < literalCount ∨ 30 < distanceCount then throw .broken
  let total := literalCount + distanceCount
  let lengths ← wordLengths (← lengthCode count) total total #[]
  let literalLengths := lengths.take literalCount
  let literals := Code.ofLengths literalLengths
  let distances := Code.ofLengths (lengths.drop literalCount)
  if literalLengths.getD endOfBlock 0 = 0 || !literals.isComplete then throw .broken
  if !distances.isComplete && !distances.isSparse then throw .broken
  return .coded ⟨literals, distances⟩

/-- Whether a block is the last one, and the block. Ten bits have to be there. -/
def blockHead : Reader (Bool × Block) := do
  let _ ← look 10
  let last := (← take 1) = 1
  let method ← take 2
  if method = 0 then return (last, ← storedBlock)
  else if method = 1 then return (last, ← fixedBlock)
  else if method = 2 then return (last, ← dynamicBlock)
  else throw .broken

end ImageDigest.Codec.Deflate
