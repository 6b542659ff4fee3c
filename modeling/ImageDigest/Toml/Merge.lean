import ImageDigest.Toml.Value

namespace ImageDigest.Toml

def setKey (key : String) (v : Value) : Entries → Entries
  | [] => [(key, v)]
  | (k, w) :: rest =>
    if k < key then (k, w) :: setKey key v rest
    else if k = key then (k, v) :: rest
    else (key, v) :: (k, w) :: rest

mutual

/-- Two tables are laid over each other key by key; in all other cases the upper value replaces
the lower. -/
def merge (base : Value) : Value → Value
  | .table overlay =>
    match base with
    | .table entries => .table (mergeEntries entries overlay)
    | _ => .table overlay
  | v => v

def mergeEntries (base : Entries) : Entries → Entries
  | [] => base
  | (key, v) :: rest =>
    let merged :=
      match base.lookup key with
      | some below => merge below v
      | none => v
    mergeEntries (setKey key merged base) rest

end

end ImageDigest.Toml
