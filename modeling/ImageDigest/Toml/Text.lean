import ImageDigest.Text.Hex
import ImageDigest.Toml.Reader

namespace ImageDigest.Toml

open Reader

def hexValue? (digits : List Char) : Option Nat :=
  digits.foldlM (fun n c => (Text.Hex.value? c).map (16 * n + ·)) 0

def scalar? (n : Nat) : Option Char := if n.isValidChar then some (Char.ofNat n) else none

def numbered (count : Nat) : Reader Char := fun s => do
  let digits := s.take count
  if digits.length < count then none
  return (← scalar? (← hexValue? digits), s.drop count)

def escapeCode (c : Char) : Reader Char :=
  match c with
  | 'b' => pure '\x08'
  | 't' => pure '\t'
  | 'n' => pure '\n'
  | 'f' => pure '\x0c'
  | 'r' => pure '\r'
  | '"' => pure '"'
  | '\\' => pure '\\'
  | 'u' => numbered 4
  | 'U' => numbered 8
  | _ => failure

def escape : Reader Char := do
  skip '\\'
  escapeCode (← satisfy fun _ => true)

def plainUpTo (quote : Char) (c : Char) : Bool := isText c && c ≠ quote && c ≠ '\\'

def basicText : Reader (List Char) := do
  skip '"'
  let cs ← many (satisfy (plainUpTo '"') <|> escape)
  skip '"'
  return cs

def literalText : Reader (List Char) := do
  skip '\''
  let cs ← takeWhile fun c => isText c && c ≠ '\''
  skip '\''
  return cs

/-- A backslash at the end of a line joins the line to the next text. -/
def lineJoin : Reader Unit := do
  skip '\\'
  blanks
  newline
  let _ ← many ((do let _ ← satisfy isBlank) <|> newline)

def lineBreak : Reader (List Char) := do
  newline
  return ['\n']

def single (p : Reader Char) : Reader (List Char) := return [← p]

def innerQuotes (quote : Char) : Reader (List Char) := fun s =>
  let run := s.takeWhile (· = quote)
  if run.length = 1 ∨ run.length = 2 then some (run, s.dropWhile (· = quote)) else none

/-- The closing three quotes, with up to two quotes of the text before them. -/
def closingQuotes (quote : Char) : Reader (List Char) := fun s =>
  let run := s.takeWhile (· = quote)
  if 3 ≤ run.length ∧ run.length ≤ 5 then some (run.drop 3, s.dropWhile (· = quote)) else none

/-- Text over several lines, made of the given parts. A line end after the opening quotes is no
part of it. -/
def longText (quote : Char) (part : Reader (List Char)) : Reader (List Char) := do
  skipAll [quote, quote, quote]
  let _ ← option? newline
  let parts ← many (part <|> innerQuotes quote)
  return parts.flatten ++ (← closingQuotes quote)

def longBasicText : Reader (List Char) :=
  longText '"' (single (satisfy (plainUpTo '"')) <|> (do lineJoin; return []) <|> single escape
    <|> lineBreak)

def longLiteralText : Reader (List Char) :=
  longText '\'' (single (satisfy fun c => isText c && c ≠ '\'') <|> lineBreak)

def quotedText : Reader String := do
  return String.ofList (← longBasicText <|> basicText <|> longLiteralText <|> literalText)

end ImageDigest.Toml
