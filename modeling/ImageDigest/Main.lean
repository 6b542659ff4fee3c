import ImageDigest.Codec.Standard
import ImageDigest.CommandLine.Run

namespace ImageDigest.CommandLine

/-- The tree below an entry of a directory. Links and what cannot be read are left out. -/
partial def readTree (entry : IO.FS.DirEntry) : IO FileTree := do
  if ← entry.path.isDir then
    let mut entries := []
    for child in ← entry.path.readDir do
      let kind := (← child.path.symlinkMetadata).type
      if kind == .dir || kind == .file then
        try
          entries := (child.fileName, ← readTree child) :: entries
        catch _ => continue
    return .directory entries
  else
    return .file (← IO.FS.readBinFile entry.path).toList

def readPaths (paths : List String) : IO Files := do
  let mut trees := []
  for path in paths do
    try
      trees := (path, ← readTree ⟨".", path⟩) :: trees
    catch _ => continue
  let found := trees
  return fun path => found.lookup path

end ImageDigest.CommandLine

open ImageDigest ImageDigest.CommandLine in
def main (arguments : List String) : IO UInt32 := do
  let paths := ((Request.ofArguments? arguments).map Request.paths).getD []
  let outcome := run Codec.standard (← readPaths paths) arguments
  IO.print outcome.output
  if let some failure := outcome.failure then
    IO.eprintln ("Error: " ++ failure.message)
  return UInt32.ofNat outcome.exitCode
