import ImageDigest.CommandLine.Item
import ImageDigest.Number.Decimal.Read
import ImageDigest.Settings.Basic

namespace ImageDigest.CommandLine

structure Options where
  config : Option String := none
  json : Bool := false
  algorithm : Option Algorithm := none
  threshold : Option Float := none
  deriving DecidableEq, Repr

namespace Options

def algorithm? (name : String) : Option Algorithm :=
  [Algorithm.difference, .average].find? fun a => a.name = name

def set? (o : Options) (f : Field) (value : String) : Option Options :=
  match f with
  | .config =>
    if o.config.isNone && !value.isEmpty then some { o with config := some value } else none
  | .algorithm =>
    if o.algorithm.isNone then (algorithm? value).map fun a => { o with algorithm := some a }
    else none
  | .threshold =>
    if o.threshold.isNone then
      (Number.Decimal.float? value).map fun x => { o with threshold := some x }
    else none

def setJson? (o : Options) : Option Options :=
  if o.json then none else some { o with json := true }

/-- The options given behind a command's name, and those in front of it where there are none. -/
def orElse (inner outer : Options) : Options :=
  { inner with config := inner.config <|> outer.config, json := inner.json || outer.json }

end Options

structure Arguments where
  options : Options
  words : List String
  deriving DecidableEq, Repr

/-- Reads the items behind a command's name. No word is empty, and a field that is not allowed, or
any option given twice, is refused. -/
def Arguments.ofItems? (allowed : List Field) : Options → List Item → Option Arguments
  | o, [] => some ⟨o, []⟩
  | o, .word text :: rest => do
    if text.isEmpty then none
    let arguments ← ofItems? allowed o rest
    return { arguments with words := text :: arguments.words }
  | o, .escape :: rest => ofItems? allowed o rest
  | o, .switch .json :: rest => do ofItems? allowed (← o.setJson?) rest
  | o, .field f value :: rest =>
    if allowed.contains f then do ofItems? allowed (← o.set? f value) rest else none
  | _, .switch .version :: _ => none
  | _, .invalid :: _ => none

inductive Command where
  | palette (paths : List String)
  | hash (paths : List String)
  | compare (left right : String)
  | quality (paths : List String)
  | duplicates (paths : List String)
  | stockSettings
  deriving DecidableEq, Repr

def Command.paths : Command → List String
  | .palette paths => paths
  | .hash paths => paths
  | .compare left right => [left, right]
  | .quality paths => paths
  | .duplicates paths => paths
  | .stockSettings => []

/-- The fields that a command takes, and the command that the words behind its name make. -/
structure Grammar where
  name : String
  allowed : List Field
  command? : List String → Option Command

def atLeastOne (command : List String → Command) : List String → Option Command
  | [] => none
  | paths => some (command paths)

def grammars : List Grammar :=
  [⟨"palette", [.config], atLeastOne .palette⟩,
   ⟨"hash", [.config, .algorithm, .threshold], atLeastOne .hash⟩,
   ⟨"compare", [.config, .algorithm, .threshold], fun
     | [left, right] => some (.compare left right)
     | _ => none⟩,
   ⟨"quality", [.config], atLeastOne .quality⟩,
   ⟨"duplicates", [.config, .algorithm, .threshold], atLeastOne .duplicates⟩,
   ⟨"gen-config", [.config], fun
     | [] => some .stockSettings
     | _ => none⟩]

inductive Request where
  | version
  | run (options : Options) (command : Command)
  deriving DecidableEq, Repr

def Request.paths : Request → List String
  | .version => []
  | .run options command => options.config.toList ++ command.paths

def Request.ofCommand? (outer : Options) (name : String) (items : List Item) : Option Request := do
  let grammar ← grammars.find? fun g => g.name = name
  let arguments ← Arguments.ofItems? grammar.allowed {} items
  return .run (arguments.options.orElse outer) (← grammar.command? arguments.words)

/-- Reads the options in front of a command's name, then the rest by the command's own grammar. -/
def Request.ofItems? (outer : Options) : List Item → Option Request
  | .word name :: rest => ofCommand? outer name rest
  | .switch .version :: _ => some .version
  | .switch .json :: rest => do ofItems? (← outer.setJson?) rest
  | .field .config value :: rest => do ofItems? (← outer.set? .config value) rest
  | _ => none

def Request.ofArguments? (arguments : List String) : Option Request :=
  ofItems? {} (Item.ofArguments arguments)

end ImageDigest.CommandLine
