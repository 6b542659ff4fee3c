namespace ImageDigest

inductive FileTree where
  | file (content : List UInt8)
  | directory (entries : List (String × FileTree))

namespace FileTree

def content? : FileTree → Option (List UInt8)
  | .file content => some content
  | .directory _ => none

mutual

def files : FileTree → List (List String × List UInt8)
  | .file content => [([], content)]
  | .directory entries => filesOfEntries entries

def filesOfEntries : List (String × FileTree) → List (List String × List UInt8)
  | [] => []
  | (name, tree) :: rest =>
    (files tree).map (fun (steps, content) => (name :: steps, content)) ++ filesOfEntries rest

end

def sortedFiles (tree : FileTree) : List (List String × List UInt8) :=
  tree.files.mergeSort fun a b => !decide (b.1 < a.1)

end FileTree

end ImageDigest
