import ImageDigest.Toml.Datetime

/-!
Documents while they are being read, with the rules on what may still be added to a table, and
the values that they stand for in the end.
-/

namespace ImageDigest.Toml

/-- How a table came to be: under a header of its own, above one, or inside a dotted key. -/
inductive Origin where
  | header
  | aboveHeader
  | dottedKey
  deriving DecidableEq, Repr

/-- A plain value, an array, a table on one line, or what later lines may add to: a table, or a
list of tables, of which the latest comes first. Entries stand in the order of the text. -/
inductive Node where
  | leaf (v : Value)
  | array (items : List Node)
  | inline (entries : List (String × Node))
  | table (origin : Origin) (entries : List (String × Node))
  | tables (items : List Node)

abbrev Path := List String

namespace Node

def setEntry (key : String) (node : Node) : List (String × Node) → List (String × Node)
  | [] => [(key, node)]
  | (k, n) :: rest => if k = key then (k, node) :: rest else (k, n) :: setEntry key node rest

def changeHead (f : Node → Option Node) : List Node → Option (List Node)
  | [] => none
  | latest :: earlier => do return (← f latest) :: earlier

/-- Changes the table at the end of a path. Missing tables on the way are made, and a list of
tables is entered at its latest one. Keys of a dotted path enter no table that has a header. -/
def update (dotted : Bool) (f : Node → Option Node) : Path → Node → Option Node
  | [], node => f node
  | key :: rest, .table origin entries => do
    let made : Node := .table (if dotted then .dottedKey else .aboveHeader) []
    let changed ←
      match (entries.lookup key).getD made with
      | .table inner es =>
        if dotted && inner = .header then none else update dotted f rest (.table inner es)
      | .tables items => (changeHead (update dotted f rest) items).map .tables
      | _ => none
    return .table origin (setEntry key changed entries)
  | _ :: _, _ => none

/-- Adds a value under a new key. A table inside a dotted key takes values by dotted keys only,
and any other table at the end of a dotted key takes none. -/
def addValue (dotted : Bool) (key : String) (v : Node) : Node → Option Node
  | .table origin entries =>
    if (origin = .dottedKey) = dotted ∧ (entries.lookup key).isNone then
      some (.table origin (entries ++ [(key, v)]))
    else none
  | _ => none

/-- Gives a table its header, once. It then comes behind the entries that are there. -/
def openTable (key : String) : Node → Option Node
  | .table origin entries =>
    match entries.lookup key with
    | none => some (.table origin (entries ++ [(key, .table .header [])]))
    | some (.table .aboveHeader es) =>
      some (.table origin (entries.filter (·.1 ≠ key) ++ [(key, .table .header es)]))
    | some _ => none
  | _ => none

def openElement (key : String) : Node → Option Node
  | .table origin entries =>
    match entries.lookup key with
    | none => some (.table origin (entries ++ [(key, .tables [.table .header []])]))
    | some (.tables items) =>
      some (.table origin (setEntry key (.tables (.table .header [] :: items)) entries))
    | some _ => none
  | _ => none

def assign (path : Path) (v : Node) (node : Node) : Option Node := do
  let key ← path.getLast?
  let above := path.dropLast
  update true (addValue (!above.isEmpty) key v) above node

def declare (element : Bool) (path : Path) (node : Node) : Option Node := do
  let key ← path.getLast?
  update false (if element then openElement key else openTable key) path.dropLast node

end Node

def insertSorted (entry : String × Value) : Entries → Entries
  | [] => [entry]
  | other :: rest =>
    if other.1 < entry.1 then other :: insertSorted entry rest else entry :: other :: rest

/-- The key that, at the front of a table, makes the table stand for a date in quotes. -/
def dateKey : String := "$__toml_private_datetime"

def beginsWithDate : List (String × Node) → Bool
  | (key, _) :: _ => key = dateKey
  | [] => false

def dateOf? : List (String × Node) → Option Value
  | (_, .leaf (.string text)) :: _ => (datetime? text).map .datetime
  | _ => none

mutual

def Node.toValue? : Node → Option Value
  | .leaf v => some v
  | .array items => (toItems? items).map .array
  | .inline entries =>
    if beginsWithDate entries then dateOf? entries else (toEntries? entries).map .table
  | .table _ entries =>
    if beginsWithDate entries then dateOf? entries else (toEntries? entries).map .table
  | .tables items => (toItems? items).map fun values => .array values.reverse

def toEntries? : List (String × Node) → Option Entries
  | [] => some []
  | (key, node) :: rest => do
    let v ← node.toValue?
    return insertSorted (key, v) (← toEntries? rest)

def toItems? : List Node → Option (List Value)
  | [] => some []
  | node :: rest => do
    let v ← node.toValue?
    return v :: (← toItems? rest)

end

def inlineTable? (pairs : List (Path × Node)) : Option Node := do
  let start : Node := .table .header []
  match ← pairs.foldlM (fun node (path, v) => Node.assign path v node) start with
  | .table _ entries => return .inline entries
  | _ => none

end ImageDigest.Toml
