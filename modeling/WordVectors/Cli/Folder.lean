import WordVectors.Cli.FileTask

/-!
# Folders

A task is run in a folder of files. A path leads there name by name, from the folder or from the
root, and each name is looked up in the directory that the ones before it lead to. Outside the
folder there are the directories that it tells of, and the file that is always empty; other names
there are free.

## Main definitions

* `absolutePath`: the full path of a file
* `Place`: where a path leads to
* `Folder.place`: the place at the end of a path
* `Folder.read`, `Folder.write`: the content of a file, and the folder with a content put into one
* `Folder.run`: the result of a task in a folder
-/

namespace WordVectors

/-! ## Paths -/

/-- The names between the slashes of a path. -/
def pathNames (path : String) : List String :=
  (path.splitOn "/").filter fun name => !name.isEmpty

/-- The full path of a file, when relative paths start from `directory`. Two slashes at the front
are kept, and more are one. -/
def absolutePath (directory path : String) : String :=
  let joined := String.intercalate "/" ((pathNames path).filter (· ≠ "."))
  if path.startsWith "//" && !path.startsWith "///" then "//" ++ joined
  else if path.startsWith "/" then "/" ++ joined
  else if joined.isEmpty then directory
  else directory ++ "/" ++ joined

/-- A path has fewer octets than this. -/
def pathLimit : Nat := 4096

/-- A name has at most this many octets. -/
def nameLimit : Nat := 255

/-- Whether a name leads to a directory that has no name of its own where it stands. -/
def isDots (name : String) : Bool := name == "." || name == ".."

/-- The file that is always empty: what is written to it is not kept. -/
def emptyFile : List String := ["dev", "null"]

/-- **Where a path leads to.** -/
inductive Place where
  | folder
  /-- To a directory outside the folder, by its names from the root. -/
  | outside (names : List String)
  | file (name : String) (content : Bytes)
  /-- To the file that is always empty. -/
  | void
  /-- To no file, under a name of the folder or of another directory. -/
  | free (name : Option String)
deriving DecidableEq, Repr

/-! ## Folders -/

/-- **A folder** without folders in it, and what is around it. -/
structure Folder where
  /-- The files, by name. -/
  files : List (String × Bytes)
  /-- The directories outside, by their names from the root. -/
  directories : List (List String)
  /-- The directory outside that the folder lies in. -/
  parent : List String
deriving DecidableEq, Repr

namespace Folder

variable (folder : Folder)

/-- The content of a file. -/
def find? (name : String) : Option Bytes := folder.files.lookup name

/-- The folder with a file set to a content. -/
def put (name : String) (content : Bytes) : Folder :=
  if folder.files.any fun file => file.1 == name then
    { folder with
      files := folder.files.map fun file => if file.1 == name then (name, content) else file }
  else { folder with files := folder.files ++ [(name, content)] }

/-- The directory that another lies in; the root lies in itself. -/
def above : Place → Place
  | .outside names => .outside names.dropLast
  | _ => .outside folder.parent

/-- The place of a name in a directory. -/
def lookUp (directory : Place) (name : String) : Place :=
  match directory with
  | .folder =>
    match folder.find? name with
    | some content => .file name content
    | none => .free (some name)
  | .outside names =>
    let path := names ++ [name]
    if folder.directories.contains path then .outside path
    else if path = emptyFile then .void
    else .free none
  | _ => .free none

/-- The place one name further on a path. -/
def step (path : String) (place : Place) (name : String) : Except FileError Place :=
  match place with
  | .file .. => .error (.notDirectory path)
  | .void => .error (.notDirectory path)
  | .free _ => .error (.absent path)
  | directory =>
    if name = "." then .ok directory
    else if name = ".." then .ok (folder.above directory)
    else if nameLimit < name.utf8ByteSize then .error (.tooLong path)
    else .ok (folder.lookUp directory name)

/-- The place that names lead to from another. -/
def walk (path : String) : Place → List String → Except FileError Place
  | place, [] => .ok place
  | place, name :: names =>
    match folder.step path place name with
    | .error e => .error e
    | .ok next => walk path next names

/-- The place where a path starts. -/
def start (path : String) : Except FileError Place :=
  if path.contains '\x00' then .error .nul
  else if path.isEmpty then .error (.absent path)
  else if pathLimit ≤ path.utf8ByteSize then .error (.tooLong path)
  else .ok (if path.startsWith "/" then .outside [] else .folder)

/-- **The place at the end of a path.** -/
def place (path : String) : Except FileError Place := do
  folder.walk path (← start path) (pathNames path)

/-- The content of the file that a path leads to. A slash at the end asks for a directory. -/
def read (path : String) : Except FileError Bytes :=
  match folder.place path with
  | .error e => .error e
  | .ok (.file _ content) => if path.endsWith "/" then .error (.notDirectory path) else .ok content
  | .ok .void => if path.endsWith "/" then .error (.notDirectory path) else .ok []
  | .ok (.free _) => .error (.absent path)
  | .ok _ => .error (.isDirectory path)

/-- Whether a path ends with the name of a directory, in a directory that is there. -/
def asksForDirectory (path : String) : Bool :=
  let names := pathNames path
  path.endsWith "/" && !isDots (names.getLastD ".") &&
    match (start path).bind fun place => folder.walk path place names.dropLast with
    | .ok (.file ..) => false
    | .ok .void => false
    | .ok (.free _) => false
    | .ok _ => true
    | .error _ => false

/-- **The folder with a content put into the file** that a path leads to. A file outside the
folder is not kept. -/
def write (path : String) (content : Bytes) : Except FileError Folder :=
  if folder.asksForDirectory path then .error (.isDirectory path)
  else
    match folder.place path with
    | .error e => .error e
    | .ok (.file name _) => .ok (folder.put name content)
    | .ok (.free (some name)) => .ok (folder.put name content)
    | .ok (.free none) => .ok folder
    | .ok .void => .ok folder
    | .ok _ => .error (.isDirectory path)

/-- The result of a task in a folder, and the folder after it. -/
def run {α : Type} (folder : Folder) : FileTask α → Folder × α
  | .done a => (folder, a)
  | .read path next => run folder (next (folder.read path))
  | .write path content next =>
    match folder.write path content with
    | .error e => run folder (next (.error e))
    | .ok folder => run folder (next (.ok ()))

end Folder

end WordVectors
