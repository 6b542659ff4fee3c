/-!
Readers of text: each takes what it reads off the front of the remaining characters, or fails
and takes nothing.
-/

namespace ImageDigest.Toml

abbrev Reader := StateT (List Char) Option

namespace Reader

variable {α : Type}

def atEnd : Reader Bool := fun s => some (s.isEmpty, s)

def satisfy (p : Char → Bool) : Reader Char
  | c :: rest => if p c then some (c, rest) else none
  | [] => none

def skip (c : Char) : Reader Unit := do
  let _ ← satisfy (· = c)

def skipAll : List Char → Reader Unit
  | [] => pure ()
  | c :: rest => do
    skip c
    skipAll rest

def takeWhile (p : Char → Bool) : Reader (List Char) :=
  fun s => some (s.takeWhile p, s.dropWhile p)

def option? (p : Reader α) : Reader (Option α) := (some <$> p) <|> pure none

def manyFrom (p : Reader α) : List Char → Reader (List α)
  | [] => pure []
  | _ :: rest =>
    (do
      let a ← p
      return a :: (← manyFrom p rest)) <|> pure []

/-- As many as there are, of something that is at least one character long. -/
def many (p : Reader α) : Reader (List α) := fun s => manyFrom p s s

def separated (p : Reader α) (separator : Reader Unit) : Reader (List α) := do
  let first ← p
  let rest ← many (do separator; p)
  return first :: rest

def newline : Reader Unit := skip '\n' <|> skipAll ['\r', '\n']

def isBlank (c : Char) : Bool := c = ' ' || c = '\t'

def blanks : Reader Unit := do
  let _ ← takeWhile isBlank

def isText (c : Char) : Bool := c = '\t' || (' ' ≤ c && c ≠ '\x7f')

def comment : Reader Unit := do
  skip '#'
  let _ ← takeWhile isText

def gap : Reader Unit := do
  let _ ← many ((do let _ ← satisfy isBlank) <|> newline <|> comment)

end Reader

end ImageDigest.Toml
