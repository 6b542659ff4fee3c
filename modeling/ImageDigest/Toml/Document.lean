import ImageDigest.Toml.Datetime
import ImageDigest.Toml.Tree

/-!
Documents: lines that open tables or assign values, and the table that they add up to.
-/

namespace ImageDigest.Toml

open Reader

/-- Keys are never longer, nor values deeper, than this. -/
def depthLimit : Nat := 79

def isBareKey (c : Char) : Bool := c.isAlphanum || c = '-' || c = '_'

def bareKey : Reader String := do
  let first ← satisfy isBareKey
  let rest ← takeWhile isBareKey
  return String.ofList (first :: rest)

def keyText : Reader String :=
  (do return String.ofList (← basicText)) <|> (do return String.ofList (← literalText)) <|> bareKey

def keyPart : Reader String := do
  blanks
  let key ← keyText
  blanks
  return key

def key : Reader Path := do
  let path ← separated keyPart (skip '.')
  if depthLimit < path.length then failure
  return path

def boolean : Reader Bool :=
  (skipAll ['t', 'r', 'u', 'e'] *> pure true) <|> (skipAll ['f', 'a', 'l', 's', 'e'] *> pure false)

def plainValue : Reader Node :=
  .leaf <$>
    (.string <$> quotedText <|> .boolean <$> boolean <|> .datetime <$> datetime
      <|> .float <$> float <|> .integer <$> integer)

/-- Values between brackets, with a comma after each but perhaps the last. -/
def arrayOf (item : Reader Node) : Reader Node := do
  skip '['
  let items ← option? (do
    let items ← separated (do gap; let v ← item; gap; return v) (skip ',')
    let _ ← option? (skip ',')
    return items)
  gap
  skip ']'
  return .array (items.getD [])

def pairOf (item : Reader Node) : Reader (Path × Node) := do
  let path ← key
  skip '='
  blanks
  let v ← item
  blanks
  return (path, v)

def inlineTableOf (item : Reader Node) : Reader Node := do
  skip '\x7b'
  let pairs ← option? (separated (pairOf item) (skip ','))
  blanks
  skip '\x7d'
  match inlineTable? (pairs.getD []) with
  | some v => return v
  | none => failure

/-- A value with at most the given number of arrays and tables around each other. -/
def value : Nat → Reader Node
  | 0 => plainValue
  | depth + 1 => arrayOf (value depth) <|> inlineTableOf (value depth) <|> plainValue

inductive Line where
  | declare (element : Bool) (path : Path)
  | assign (path : Path) (v : Node)

def header : Reader Line :=
  (do
    skipAll ['[', '[']
    let path ← key
    skipAll [']', ']']
    return .declare true path) <|>
  (do
    skip '['
    let path ← key
    skip ']'
    return .declare false path)

def assignment : Reader Line := do
  let (path, v) ← pairOf (value depthLimit)
  return .assign path v

/-- The lines of a text, those with nothing on them left out. There are fewer line ends than
`fuel`. -/
def linesFrom : Nat → Reader (List Line)
  | 0 => failure
  | fuel + 1 => do
    blanks
    let line ← option? (header <|> assignment)
    blanks
    let _ ← option? comment
    if ← atEnd then return line.toList
    newline
    return line.toList ++ (← linesFrom fuel)

def lines? (text : List Char) : Option (List Line) :=
  let body := if text.head? = some '\uFEFF' then text.drop 1 else text
  (linesFrom (body.length + 1) body).map Prod.fst

/-- The tables read so far, and the path of the table that assignments go to. -/
structure Draft where
  root : Node := .table .header []
  current : Path := []

def Draft.add (draft : Draft) : Line → Option Draft
  | .declare element path => do
    return { root := ← draft.root.declare element path, current := path }
  | .assign path v => do
    return { draft with root := ← draft.root.update false (Node.assign path v) draft.current }

/-- The table that a document describes, or the date that such a table stands for. -/
def parse? (text : String) : Option Value := do
  let lines ← lines? text.toList
  let draft ← lines.foldlM Draft.add {}
  draft.root.toValue?

end ImageDigest.Toml
