import ImageDigest.Number.Decimal.Shortest
import ImageDigest.Text.Hex

/-!
Data in object notation, printed over several lines with two spaces for each level.
-/

namespace ImageDigest.Report

inductive Json where
  | null
  | boolean (b : Bool)
  | number (text : String)
  | string (s : String)
  | array (items : List Json)
  | object (fields : List (String × Json))

namespace Json

/-- Numbers are written without an exponent from 0.00001 up to 16 digits before the point. -/
def numberLayout : Number.Decimal.Layout := ⟨-5, 16⟩

def ofNat (n : Nat) : Json := .number (String.ofList (Nat.toDigits 10 n))

/-- What is no finite number is written as nothing. -/
def ofFloat (x : Float) : Json :=
  match Number.Decimal.shortestText? numberLayout x with
  | some text => .number text
  | none => .null

def orNull {α : Type} (f : α → Json) (x : Option α) : Json := (x.map f).getD .null

def escape (c : Char) : List Char :=
  match c with
  | '"' => ['\\', '"']
  | '\\' => ['\\', '\\']
  | '\x08' => ['\\', 'b']
  | '\x0c' => ['\\', 'f']
  | '\n' => ['\\', 'n']
  | '\r' => ['\\', 'r']
  | '\t' => ['\\', 't']
  | c =>
    if c < ' ' then ['\\', 'u', '0', '0'] ++ Text.Hex.ofByte (UInt8.ofNat c.toNat) else [c]

def quoted (s : String) : List Char := '"' :: s.toList.flatMap escape ++ ['"']

def lineAt (level : Nat) : List Char := '\n' :: List.replicate (2 * level) ' '

mutual

def write (level : Nat) : Json → List Char
  | .null => ['n', 'u', 'l', 'l']
  | .boolean true => ['t', 'r', 'u', 'e']
  | .boolean false => ['f', 'a', 'l', 's', 'e']
  | .number text => text.toList
  | .string s => quoted s
  | .array [] => ['[', ']']
  | .array (item :: items) =>
    '[' :: lineAt (level + 1) ++ write (level + 1) item ++ writeItems (level + 1) items
      ++ lineAt level ++ [']']
  | .object [] => ['\x7b', '\x7d']
  | .object ((name, v) :: fields) =>
    '\x7b' :: lineAt (level + 1) ++ quoted name ++ [':', ' '] ++ write (level + 1) v
      ++ writeFields (level + 1) fields ++ lineAt level ++ ['\x7d']

def writeItems (level : Nat) : List Json → List Char
  | [] => []
  | item :: items => ',' :: lineAt level ++ write level item ++ writeItems level items

def writeFields (level : Nat) : List (String × Json) → List Char
  | [] => []
  | (name, v) :: fields =>
    ',' :: lineAt level ++ quoted name ++ [':', ' '] ++ write level v ++ writeFields level fields

end

def text (j : Json) : String := String.ofList (write 0 j)

end Json

end ImageDigest.Report
