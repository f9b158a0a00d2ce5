/-!
# File trees

The files and directories that a run can see, as a value. A directory is there
if it is listed itself or has something inside. A path leads through directories
only, from the top or from the working directory.
-/

namespace CampusQuery

/-- A named place: a file with its text, or a directory. -/
inductive FileNode where
  | file (content : String)
  | directory
deriving DecidableEq, Repr

/-- Why a path cannot be used. -/
inductive FileFault where
  | missing
  | isDirectory
  | notDirectory
  | alreadyThere
deriving DecidableEq, Repr

namespace FileFault

/-- The system's number of a fault. -/
def code : FileFault → Nat
  | .missing => 2
  | .alreadyThere => 17
  | .notDirectory => 20
  | .isDirectory => 21

/-- The system's wording of a fault. -/
def wording : FileFault → String
  | .missing => "No such file or directory"
  | .isDirectory => "Is a directory"
  | .notDirectory => "Not a directory"
  | .alreadyThere => "File exists"

/-- The wording of a fault with its number. -/
def message (fault : FileFault) : String :=
  fault.wording ++ " (os error " ++ toString fault.code ++ ")"

end FileFault

/-- A place as the names that lead to it from the top. -/
abbrev Place := List String

/-- Nodes by place; the first node of a place counts. -/
structure FileTree where
  nodes : List (Place × FileNode)
  workingDirectory : Place := []
deriving Repr

namespace FileTree

/-- The path of a name inside a directory. -/
def join (directory name : String) : String :=
  if directory.isEmpty || directory.endsWith "/" then directory ++ name
  else directory ++ "/" ++ name

/-- The next name below a directory on the way to a place. -/
def childName? : Place → Place → Option String
  | [], name :: _ => some name
  | a :: directory, b :: place => if a = b then childName? directory place else none
  | _, [] => none

/-- Whether something lies below a directory. -/
def hasChildren (tree : FileTree) (directory : Place) : Bool :=
  tree.nodes.any fun node => (childName? directory node.1).isSome

/-- What stands at a place. The top is a directory. -/
def node? (tree : FileTree) (place : Place) : Option FileNode :=
  match tree.nodes.find? fun node => node.1 = place with
  | some (_, node) => some node
  | none => if place.isEmpty || tree.hasChildren place then some .directory else none

/-- The place that a name leads to from a directory. -/
def step (directory : Place) (name : String) : Place :=
  if name = "" || name = "." then directory
  else if name = ".." then directory.dropLast
  else directory ++ [name]

/-- Follow a name from a place, which must be a directory. -/
def enter (tree : FileTree) (place : Place) (name : String) : Except FileFault Place :=
  match tree.node? place with
  | some .directory => .ok (step place name)
  | some (.file _) => .error .notDirectory
  | none => .error .missing

def start (tree : FileTree) (path : String) : Place :=
  if path.startsWith "/" then [] else tree.workingDirectory

/-- The place that a path leads to; whether something stands there is left open. -/
def locate (tree : FileTree) (path : String) : Except FileFault Place :=
  if path.isEmpty then .error .missing
  else (path.splitOn "/").foldlM tree.enter (tree.start path)

/-- The place that a path names, whether its directories are there or not. -/
def place (tree : FileTree) (path : String) : Place :=
  (path.splitOn "/").foldl step (tree.start path)

/-- Whether something stands where a path leads. -/
def holds (tree : FileTree) (path : String) : Bool :=
  match tree.locate path with
  | .ok place => (tree.node? place).isSome
  | .error _ => false

def read (tree : FileTree) (path : String) : Except FileFault String := do
  match tree.node? (← tree.locate path) with
  | some (.file content) => .ok content
  | some .directory => .error .isDirectory
  | none => .error .missing

/-- The names in a directory, in no particular order. -/
def list (tree : FileTree) (path : String) : Except FileFault (List String) := do
  let place ← tree.locate path
  match tree.node? place with
  | some .directory => .ok (tree.nodes.filterMap fun node => childName? place node.1).eraseDups
  | some (.file _) => .error .notDirectory
  | none => .error .missing

def put (tree : FileTree) (place : Place) (node : FileNode) : FileTree :=
  { tree with nodes := (place, node) :: tree.nodes.filter fun other => other.1 != place }

/-- The place of a file that may be written: its directory is there and it is none itself. -/
def writable (tree : FileTree) (path : String) : Except FileFault Place := do
  let place ← tree.locate path
  if tree.node? place = some .directory then .error .isDirectory else .ok place

/-- Replace the text of a file, or create it. -/
def write (tree : FileTree) (path content : String) : Except FileFault FileTree := do
  let place ← tree.writable path
  .ok (tree.put place (.file content))

/-- Open a file to add to it; it is created empty if it is not there. -/
def openAppend (tree : FileTree) (path : String) : Except FileFault FileTree := do
  let place ← tree.writable path
  match tree.node? place with
  | some _ => .ok tree
  | none => .ok (tree.put place (.file ""))

/-- Create the directories that names lead through from a place, as far as they are missing. -/
def createAlong (tree : FileTree) (place : Place) : List String → Except FileFault FileTree
  | [] => .ok tree
  | name :: rest =>
      match tree.node? (step place name) with
      | some .directory => createAlong tree (step place name) rest
      | some (.file _) => .error (if rest.isEmpty then .alreadyThere else .notDirectory)
      | none => createAlong (tree.put (step place name) .directory) (step place name) rest

/-- Create a directory and all directories on the way to it. The empty path needs none. -/
def createDirectories (tree : FileTree) (path : String) : Except FileFault FileTree :=
  if path.isEmpty then .ok tree else tree.createAlong (tree.start path) (path.splitOn "/")

/-- The directory that a path lies in, which may be the empty path; the top lies in none. -/
def parent? (path : String) : Option String :=
  let names := (path.splitOn "/").reverse.dropWhile fun name => name = "" || name = "."
  match names with
  | [] => none
  | _ :: rest =>
      let rest := rest.dropWhile (· = "")
      if rest.isEmpty then some (if path.startsWith "/" then "/" else "")
      else some ("/".intercalate rest.reverse)

end FileTree

end CampusQuery
