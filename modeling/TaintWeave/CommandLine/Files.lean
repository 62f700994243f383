import TaintWeave.Fault

/-!
# Files

What a command finds under the paths that it is given. A path is resolved
against the working directory; `.` and `..` are carried out on the names.

* `Path.resolve`: the absolute path of a given one.
* `Files.get?`: what is under a path.
* `Files.checkWritable`: whether a file can be written, with the directories
  above it.
-/

namespace TaintWeave.CommandLine

/-- An absolute path: the names from the root on. -/
structure Path where
  /-- The names. -/
  names : List String
  deriving DecidableEq, Repr

namespace Path

/-- A path as it is shown. -/
def display (p : Path) : String := "/" ++ String.intercalate "/" p.names

/-- The names in a text, between slashes. -/
def splitSlashes : List Char → List (List Char)
  | [] => [[]]
  | c :: cs =>
    if c = '/' then [] :: splitSlashes cs
    else match splitSlashes cs with
      | [] => [[c]]
      | name :: names => (c :: name) :: names

/-- The path that is reached from a path by a name. -/
def enter (p : Path) (name : String) : Path :=
  if name = "" ∨ name = "." then p
  else if name = ".." then ⟨p.names.dropLast⟩
  else ⟨p.names ++ [name]⟩

/-- The absolute path of a given one; the directory is that of relative paths. -/
def resolve (directory : Path) (given : String) : Path :=
  let start := if given.toList.head? = some '/' then ⟨[]⟩ else directory
  ((splitSlashes given.toList).map String.ofList).foldl enter start

/-- The path of the directory that a path is in. -/
def parent (p : Path) : Path := ⟨p.names.dropLast⟩

/-- A path and those of all directories above it, from the root on. -/
def lineage (p : Path) : List Path :=
  (List.range (p.names.length + 1)).map fun n => ⟨p.names.take n⟩

end Path

/-- What can be under a path. -/
inductive Entry where
  /-- A directory. -/
  | directory
  /-- A file with a text. -/
  | file (text : String)
  deriving DecidableEq, Repr

/-- The files around a working directory. -/
structure Files where
  /-- The working directory. -/
  directory : Path
  /-- What is under paths. -/
  entries : List (Path × Entry)

namespace Files

/-- Files with texts, and the directories that they need. -/
def ofTexts (directory : Path) (texts : List (String × String)) : Files :=
  let files := texts.map fun (path, text) => (directory.resolve path, text)
  let directories := directory.lineage ++ files.flatMap fun f => f.1.parent.lineage
  ⟨directory, files.map (fun f => (f.1, .file f.2)) ++
    directories.map fun p => (p, .directory)⟩

/-- The absolute path of a given one. -/
def resolve (files : Files) (path : String) : Path := files.directory.resolve path

/-- What is under a path. -/
def get? (files : Files) (p : Path) : Option Entry := files.entries.lookup p

/-- Whether a file is under a path. -/
def isFile (files : Files) (p : Path) : Bool :=
  match files.get? p with
  | some (.file _) => true
  | _ => false

/-- Whether a file can be written: nothing above it is a file, and it is no
    directory itself. -/
def checkWritable (files : Files) (p : Path) : Except Fault Unit :=
  if p.parent.parent.lineage.any files.isFile then .error .notDirectory
  else if files.isFile p.parent then .error .alreadyExists
  else if files.get? p = some .directory then .error .isDirectory
  else .ok ()

end Files

end TaintWeave.CommandLine
