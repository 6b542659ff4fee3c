import ImageDigest.FileTree
import ImageDigest.Image.Fingerprint

namespace ImageDigest.CommandLine

abbrev Files := String → Option FileTree

/-- The content at a path, unless it cannot be read. -/
abbrev LabeledFile := String × Option (List UInt8)

def contentAt (files : Files) (path : String) : Option (List UInt8) :=
  (files path).bind FileTree.content?

def extensions : List String := ["jpg", "jpeg", "png", "tif", "tiff", "webp"]

/-- The part of a name behind its last point, if something stands in front of it. -/
def extension? (name : String) : Option String :=
  let behind := name.toList.reverse.takeWhile (· ≠ '.')
  if behind.length + 1 < name.length then some (String.ofList behind.reverse) else none

def isImageName (name : String) : Bool :=
  (extension? name).any fun e => extensions.contains (String.ofList (e.toList.map Char.toLower))

def joined (directory : String) (steps : List String) : String :=
  (if directory.endsWith "/" then directory else directory ++ "/") ++ "/".intercalate steps

/-- The image files below a directory, sorted; any other path is kept as it is. -/
def expand (files : Files) (path : String) : List LabeledFile :=
  match files path with
  | some (.directory entries) =>
    let images := (FileTree.directory entries).sortedFiles.filter fun (steps, _) =>
      (steps.getLast?).any isImageName
    images.map fun (steps, content) => (joined path steps, some content)
  | _ => [(path, contentAt files path)]

def fingerprintOf? (codec : Codec) (algorithm : Algorithm) (content : Option (List UInt8)) :
    Option Fingerprint := do
  let b ← (codec.decode (← content)).toOption
  (Image.fingerprint codec algorithm b).result.toOption

/-- The labels and the fingerprints of the files that can be read, decoded and hashed, in order. -/
def hashFiles (codec : Codec) (algorithm : Algorithm) :
    List LabeledFile → List String × List Fingerprint
  | [] => ([], [])
  | (label, content) :: rest =>
    let (labels, hashes) := hashFiles codec algorithm rest
    match fingerprintOf? codec algorithm content with
    | some h => (label :: labels, h :: hashes)
    | none => (labels, hashes)

end ImageDigest.CommandLine
