/-!
# File trees

A file tree maps paths to files and directories, below one root that is always a directory. A
location is a path as someone wrote it.

* `FileTree.resolve`: the path that a location leads to; all on the way must be directories.
* `FileTree.read`, `FileTree.write`, `FileTree.createDirectory`: as an operating system does them,
  with its reasons for refusing.
* `FileAccess`: the same for any kind of program.
* `FileAccess.createDirectories`: a directory together with those on the way to it.
-/

namespace ReleaseGate

/-- Why the file system refuses. -/
inductive FileProblem where
  | missing
  | exists
  | notDirectory
  | isDirectory
  | nameTooLong
  /-- A name holds the character that ends texts for the system. -/
  | nulInName
  /-- Any other reason, in the system's words. -/
  | other (message : String)
  deriving DecidableEq

/-- The wording of a refusal. -/
def FileProblem.message : FileProblem → String
  | .missing => "No such file or directory (os error 2)"
  | .exists => "File exists (os error 17)"
  | .notDirectory => "Not a directory (os error 20)"
  | .isDirectory => "Is a directory (os error 21)"
  | .nameTooLong => "File name too long (os error 36)"
  | .nulInName => "file name contained an unexpected NUL byte"
  | .other message => message

/-! ## Locations -/

/-- A path as someone wrote it. -/
structure Location where
  text : String
  /-- What stands between the slashes. -/
  parts : List String
  deriving DecidableEq

namespace Location

/-- A location takes fewer bytes than this. -/
def byteLimit : Nat := 4096

/-- A location that the system takes at all: no NUL in it, and not too long. -/
def check (location : Location) : Except FileProblem Unit :=
  if location.text.contains '\x00' then .error .nulInName
  else if byteLimit ≤ location.text.utf8ByteSize then .error .nameTooLong
  else .ok ()

/-- The location that a text names. -/
def ofText (text : String) : Location :=
  ⟨text, (text.toList.splitOn '/').map String.ofList⟩

/-- The location of parts between slashes. -/
def ofParts (parts : List String) : Location := ⟨String.intercalate "/" parts, parts⟩

/-- A file or directory below. -/
def below (location : Location) (name : String) : Location :=
  if location.text = "" then ⟨name, [name]⟩
  else
    let slash := if location.text.endsWith "/" then "" else "/"
    ⟨location.text ++ slash ++ name, location.parts ++ [name]⟩

/-- What follows the last dot of a name, unless the name starts with that dot. -/
def extensionOf? (name : String) : Option String :=
  match name.toList.reverse.span (· ≠ '.') with
  | (tail, _ :: front) => if front.isEmpty then none else some (String.ofList tail.reverse)
  | (_, []) => none

/-- The extension of the last name. -/
def extension? (location : Location) : Option String :=
  match (location.parts.filter fun part => part ≠ "" ∧ part ≠ ".").getLast? with
  | some name => if name = ".." then none else extensionOf? name
  | none => none

end Location

/-! ## Trees -/

/-- The names from the root to a file or directory. -/
abbrev Path := List String

/-- The greatest number of bytes in a name. -/
def longestName : Nat := 255

/-- One part further: two dots go back by one name, one dot and nothing say nothing. -/
def Path.step (path : Path) (part : String) : Path :=
  if part = "" ∨ part = "." then path
  else if part = ".." then path.dropLast
  else path ++ [part]

/-- What a path leads to. -/
inductive FileEntry where
  | file (content : String)
  | directory
  deriving DecidableEq

/-- Files and directories by path. -/
structure FileTree where
  entries : List (Path × FileEntry)

namespace FileTree

/-- A root without anything below. -/
def empty : FileTree := ⟨[]⟩

/-- What a path leads to. -/
def get? (tree : FileTree) (path : Path) : Option FileEntry :=
  if path = [] then some .directory else tree.entries.lookup path

/-- Put a file or directory at a path. -/
def set (tree : FileTree) (path : Path) (entry : FileEntry) : FileTree :=
  ⟨(path, entry) :: tree.entries.filter fun e => e.1 ≠ path⟩

/-- Go on from a directory. -/
def enter (tree : FileTree) (path : Path) (part : String) : Except FileProblem Path :=
  match tree.get? path with
  | some .directory =>
    if longestName < part.utf8ByteSize then .error .nameTooLong else .ok (path.step part)
  | some (.file _) => .error .notDirectory
  | none => .error .missing

/-- The path that parts lead to, which need not exist itself. -/
def resolve (tree : FileTree) (parts : List String) : Except FileProblem Path :=
  parts.foldlM tree.enter []

/-- The content of a file. -/
def read (tree : FileTree) (location : Location) : Except FileProblem String := do
  location.check
  if location.text = "" then throw .missing
  match tree.get? (← tree.resolve location.parts) with
  | some (.file content) => return content
  | some .directory => throw .isDirectory
  | none => throw .missing

/-- Write a file into a directory that exists. -/
def write (tree : FileTree) (location : Location) (content : String) :
    Except FileProblem FileTree := do
  location.check
  let path ← tree.resolve location.parts
  match tree.get? path with
  | some .directory => throw .isDirectory
  | _ => return tree.set path (.file content)

/-- Create a directory in one that exists. -/
def createDirectory (tree : FileTree) (location : Location) : Except FileProblem FileTree := do
  location.check
  let path ← tree.resolve location.parts
  match tree.get? path with
  | some _ => throw .exists
  | none => return tree.set path .directory

/-- Whether a location leads to a directory. -/
def isDirectory (tree : FileTree) (location : Location) : Bool :=
  match tree.resolve location.parts with
  | .ok path => tree.get? path == some .directory
  | .error _ => false

/-- Files and their contents, by path. -/
def files (tree : FileTree) : List (Path × String) :=
  tree.entries.filterMap fun
    | (path, .file content) => some (path, content)
    | (_, .directory) => none

end FileTree

/-! ## Programs with files -/

/-- A kind of program that has files. -/
class FileAccess (m : Type → Type) where
  /-- The content of a file. -/
  readFile : Location → m (Except FileProblem String)
  /-- Write a file into a directory that exists. -/
  writeFile : Location → String → m (Except FileProblem Unit)
  /-- Create a directory in one that exists. -/
  createDirectory : Location → m (Except FileProblem Unit)
  /-- Whether a location leads to a directory. -/
  isDirectory : Location → m Bool

namespace FileAccess

variable {m : Type → Type} [Monad m] [FileAccess m]

/-- Create a directory; a refusal does not matter if the directory is there. -/
def settle (location : Location) (result : Except FileProblem Unit) :
    m (Except FileProblem Unit) := do
  match result with
  | .ok () => return .ok ()
  | .error problem => return if ← isDirectory location then .ok () else .error problem

/-- Make sure that a directory exists, its last part given first, and those on the way to it where
they are missing. What was created stays, also if a later step is refused. -/
def createUpTo : (reversed : List String) → m (Except FileProblem Unit)
  | [] => return .ok ()
  | last :: before => do
    let location := Location.ofParts (last :: before).reverse
    match ← createDirectory location with
    | .error .missing =>
      match ← createUpTo before with
      | .ok () => settle location (← createDirectory location)
      | refused => return refused
    | result => settle location result

/-- Make sure that a directory and all on the way to it exist. -/
def createDirectories (location : Location) : m (Except FileProblem Unit) :=
  createUpTo location.parts.reverse

end FileAccess

/-- The result of a step, and the tree that it leaves. -/
def updateTree (step : FileTree → Except FileProblem FileTree) :
    StateM FileTree (Except FileProblem Unit) := do
  match step (← get) with
  | .ok tree => do
    set tree
    return .ok ()
  | .error problem => return .error problem

instance : FileAccess (StateM FileTree) where
  readFile location := do return (← get).read location
  writeFile location content := updateTree fun tree => tree.write location content
  createDirectory location := updateTree fun tree => tree.createDirectory location
  isDirectory location := do return (← get).isDirectory location

namespace FileTree

/-- A file together with the directories on the way to it. -/
def place (tree : FileTree) (location : Location) (content : String) : FileTree :=
  let way : StateM FileTree (Except FileProblem Unit) :=
    FileAccess.createUpTo location.parts.reverse.tail
  (way.run tree).2.set (location.parts.foldl Path.step []) (.file content)

/-- The tree of files at given locations. -/
def ofFiles (files : List (Location × String)) : FileTree :=
  files.foldl (fun tree (location, content) => tree.place location content) empty

end FileTree

end ReleaseGate
