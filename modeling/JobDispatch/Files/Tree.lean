import JobDispatch.Files.Path
import JobDispatch.Image.Reader

/-!
# Files

A tree of directories and files, as a handler sees it.  A path is followed component by component
from the working directory, or from the root if it begins with a slash.

## Main definitions

* `FileContent` — the bytes of a file, or an image whose bytes do not matter.
* `FileContent.image?` — the image in a file.
* `FileError` — the ways in which reaching a file can fail, and what is said about each.
* `FileTree` — the directories and files.
* `FileTree.empty` — a tree with an empty working directory.
* `FileTree.resolve`, `FileTree.readText`, `FileTree.write` — reaching, reading and writing a file.
-/

namespace JobDispatch

/-- What is in a file. -/
inductive FileContent
  | bytes (content : ByteArray)
  | image (image : Image)

/-- **The image in a file**, if it has the given format. -/
def FileContent.image? (format : ImageFormat) : FileContent → Option Image
  | .bytes content => Image.ofBytes? format content.toList
  | .image i => if i.format = format then some i else none

/-- The ways in which reaching a file can fail. -/
inductive FileError
  /-- There is nothing at the path. -/
  | notFound
  /-- A file was expected. -/
  | isDirectory
  /-- A directory was expected. -/
  | notDirectory
  /-- The content is no text. -/
  | notText
  /-- The path holds a character with the number zero. -/
  | badName
  /-- The path, or a name in it, takes too many bytes. -/
  | tooLong
  /-- Any other failure, in its own words. -/
  | other (message : String)
  deriving DecidableEq

/-- What is said about a file that could not be reached. -/
def FileError.message : FileError → String
  | notFound => "No such file or directory (os error 2)"
  | isDirectory => "Is a directory (os error 21)"
  | notDirectory => "Not a directory (os error 20)"
  | notText => "stream did not contain valid UTF-8"
  | badName => "file name contained an unexpected NUL byte"
  | tooLong => "File name too long (os error 36)"
  | other message => message

/-- What is at a place of a tree. -/
inductive FileNode
  | directory
  | file (content : FileContent)

/-- Directories and files by their places.  A place is the list of names from the root. -/
structure FileTree where
  nodes : List (List (List Char) × FileNode) := []
  /-- The place from which paths are followed. -/
  workingDirectory : List (List Char) := []

namespace FileTree

/-- The directories that every system has at its root. -/
def rootDirectories : List String :=
  ["bin", "boot", "dev", "etc", "home", "lib", "media", "mnt", "opt", "proc", "root", "run", "sbin",
    "srv", "sys", "tmp", "usr", "var"]

/-- A tree with an empty working directory.  It lies among the temporary files, under a name that
nothing can tell: the empty one, which no path names. -/
def empty : FileTree :=
  let place := ["tmp".toList, []]
  { nodes := (place, .directory) :: (["dev".toList, "null".toList], .file (.bytes .empty)) ::
      rootDirectories.map fun name => ([name.toList], .directory)
    workingDirectory := place }

/-- What is at a place. -/
def at? (t : FileTree) (place : List (List Char)) : Option FileNode :=
  if place.isEmpty then some .directory
  else (t.nodes.find? fun n => n.1 == place).map Prod.snd

/-- Puts something at a place, whatever was there. -/
def put (t : FileTree) (place : List (List Char)) (node : FileNode) : FileTree :=
  { t with nodes := (place, node) :: t.nodes.filter fun n => n.1 != place }

/-- The most bytes that a name takes. -/
def maxName : Nat := 255

/-- The most bytes that a path takes. -/
def maxPath : Nat := 4095

/-- What is wrong with a path, whatever the tree. -/
def flaw? (path : List Char) : Option FileError :=
  if path.any (fun c => c.toNat == 0) then some .badName
  else if maxPath < Path.byteLength path then some .tooLong
  else none

/-- Follows the parts of a path from a place.  A name is looked up in the directory that it is in, and
only there found to be too long. -/
def follow (t : FileTree) : List (List Char) → List (List Char) → Except FileError (List (List Char))
  | place, [] => .ok place
  | place, part :: rest =>
    match t.at? place with
    | none => .error .notFound
    | some (.file _) => .error .notDirectory
    | some .directory =>
      if Path.isIdle part then follow t place rest
      else if part = ['.', '.'] then follow t place.dropLast rest
      else if maxName < Path.byteLength part then .error .tooLong
      else
        match t.at? (place ++ [part]) with
        | none => .error .notFound
        | some _ => follow t (place ++ [part]) rest

/-- The place from which a path is followed. -/
def start (t : FileTree) (path : List Char) : List (List Char) :=
  if path.head? = some '/' then [] else t.workingDirectory

/-- **The place that a path leads to, and what is there.** -/
def resolve (t : FileTree) (path : List Char) : Except FileError (List (List Char) × FileNode) :=
  match flaw? path with
  | some e => .error e
  | none =>
    match t.follow (t.start path) (Path.segments path) with
    | .error e => .error e
    | .ok place =>
      match t.at? place with
      | none => .error .notFound
      | some node => .ok (place, node)

/-- The content of the file that a path leads to. -/
def read (t : FileTree) (path : List Char) : Except FileError FileContent :=
  match t.resolve path with
  | .error e => .error e
  | .ok (_, .directory) => .error .isDirectory
  | .ok (_, .file content) => .ok content

/-- The text of the file that a path leads to.  An image is no text. -/
def readText (t : FileTree) (path : List Char) : Except FileError String :=
  match t.read path with
  | .error e => .error e
  | .ok (.image _) => .error .notText
  | .ok (.bytes content) =>
    match String.fromUTF8? content with
    | some s => .ok s
    | none => .error .notText

/-- Writes a file at a path whose directory exists. -/
def write (t : FileTree) (path : List Char) (content : FileContent) : Except FileError FileTree :=
  match flaw? path with
  | some e => .error e
  | none =>
    let parts := Path.segments path
    match t.follow (t.start path) parts.dropLast with
    | .error e => .error e
    | .ok place =>
      let name := parts.getLast?.getD []
      match t.at? place with
      | none => .error .notFound
      | some (.file _) => .error .notDirectory
      | some .directory =>
        if !Path.isName name then .error .isDirectory
        else if maxName < Path.byteLength name then .error .tooLong
        else
          match t.at? (place ++ [name]) with
          | some .directory => .error .isDirectory
          | _ => .ok (t.put (place ++ [name]) (.file content))

/-- The place within the working directory that names lead to. -/
def placeOf (t : FileTree) (path : List Char) : List (List Char) :=
  t.workingDirectory ++ (Path.segments path).filter Path.isName

/-- The tree with a directory at a place, and all directories above it. -/
def withDirectory (t : FileTree) (place : List (List Char)) : FileTree :=
  (List.range place.length).foldl (fun t n =>
    match t.at? (place.take (n + 1)) with
    | none => t.put (place.take (n + 1)) .directory
    | some _ => t) t

/-- The tree with a file at a path within the working directory, and all directories above it. -/
def withFile (t : FileTree) (path : List Char) (content : FileContent) : FileTree :=
  let place := t.placeOf path
  (t.withDirectory place.dropLast).put place (.file content)

end FileTree

end JobDispatch
