/-!
The arguments of a command, taken apart: words, switches, and options with their values.
-/

namespace ImageDigest.CommandLine

inductive Switch where
  | json
  | version
  deriving DecidableEq, Repr

inductive Field where
  | config
  | algorithm
  | threshold
  deriving DecidableEq, Repr

def Switch.name : Switch → String
  | .json => "json"
  | .version => "version"

def Field.name : Field → String
  | .config => "config"
  | .algorithm => "algorithm"
  | .threshold => "threshold"

def Switch.ofName? (name : String) : Option Switch :=
  [Switch.json, .version].find? fun s => s.name = name

def Field.ofName? (name : String) : Option Field :=
  [Field.config, .algorithm, .threshold].find? fun f => f.name = name

/-- What one argument looks like. A dash alone is a plain word. -/
inductive Shape where
  | plain
  | escape
  | long (name : String) (value : Option String)
  | short (letter : Char)
  deriving DecidableEq, Repr

def Shape.ofChars : List Char → Shape
  | ['-', '-'] => .escape
  | '-' :: '-' :: text =>
    let value := text.dropWhile (· ≠ '=')
    .long (String.ofList (text.takeWhile (· ≠ '=')))
      (if value = [] then none else some (String.ofList value.tail))
  | '-' :: letter :: _ => .short letter
  | _ => .plain

def Shape.of (argument : String) : Shape := .ofChars argument.toList

/-- An argument, or an option with the argument that is its value. Behind an escape all
arguments are words, and behind an invalid item nothing is read. -/
inductive Item where
  | word (text : String)
  | escape
  | switch (s : Switch)
  | field (f : Field) (value : String)
  | invalid
  deriving DecidableEq, Repr

/-- The items of a list of arguments. A value stands behind an equals sign or in an argument of
its own, which is then a plain word. -/
def Item.ofArguments : List String → List Item
  | [] => []
  | argument :: rest =>
    match Shape.of argument with
    | .plain => .word argument :: ofArguments rest
    | .escape => .escape :: rest.map .word
    | .short letter => if letter = 'V' then .switch .version :: ofArguments rest else [.invalid]
    | .long name (some value) =>
      match Field.ofName? name with
      | some f => .field f value :: ofArguments rest
      | none => [.invalid]
    | .long name none =>
      match Switch.ofName? name with
      | some s => .switch s :: ofArguments rest
      | none =>
        match rest with
        | [] => [.invalid]
        | value :: behind =>
          match Field.ofName? name, Shape.of value with
          | some f, .plain => .field f value :: ofArguments behind
          | _, _ => [.invalid]

end ImageDigest.CommandLine
