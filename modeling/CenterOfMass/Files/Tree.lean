import CenterOfMass.Files.Basic

namespace CenterOfMass

inductive FileNode
  | file (bytes : List UInt8)
  | directory (entries : List (String × FileNode))

/-- Where something lies: the names on the way to it from the root. -/
abbrev Location := List String

namespace FileNode

/-- What a directory holds under a name. -/
def entry? (name : String) : FileNode → Option FileNode
  | .file _ => none
  | .directory entries => entries.lookup name

/-- What lies at the end of some names. -/
def at? (node : FileNode) : Location → Option FileNode
  | [] => some node
  | name :: place => (node.entry? name).bind (·.at? place)

/-- Entries with one more of them, or with another one under its name. -/
def putEntry (name : String) (node : FileNode) :
    List (String × FileNode) → List (String × FileNode)
  | [] => [(name, node)]
  | e :: rest => if e.1 = name then (name, node) :: rest else e :: putEntry name node rest

theorem lookup_putEntry (name other : String) (node : FileNode)
    (entries : List (String × FileNode)) : (putEntry name node entries).lookup other =
      if other = name then some node else entries.lookup other := by
  induction entries with
  | nil => by_cases h : other = name <;> simp [putEntry, List.lookup_cons, h, beq_false_of_ne]
  | cons e rest ih =>
    obtain ⟨found, held⟩ := e
    by_cases he : found = name
    · by_cases h : other = name <;> simp [putEntry, List.lookup_cons, he, h, beq_false_of_ne]
    · by_cases h : other = found
      · simp [putEntry, he, h]
      · simp [putEntry, List.lookup_cons, he, beq_false_of_ne h, ih]

/-- Puts something at the end of some names, all but the last of which lead to directories. -/
def put : FileNode → Location → FileNode → FileNode
  | _, [], new => new
  | .directory entries, name :: place, new =>
    let held := (entries.lookup name).getD (.directory [])
    .directory (putEntry name (held.put place new) entries)
  | .file bytes, _ :: _, _ => .file bytes

end FileNode

/-- All files from the root on, and where relative paths start. -/
structure FileTree where
  root : FileNode
  workingDirectory : Location

/-- The longest name that a file can have, in bytes. -/
def longestName : Nat := 255

/-- The length in bytes that a path stays below. -/
def pathLimit : Nat := 4096

namespace FileTree

/-- A place and what lies there; the names to it stand in reverse. -/
structure Reached where
  place : Location
  node : FileNode

/-- Looks a name up in a directory. A name for the directory itself or for the one above it is
one. -/
def enter (t : FileTree) (r : Reached) (name : String) : Except FileFault Reached :=
  match r.node with
  | .file _ => .error .notDirectory
  | .directory entries =>
    if name = "." then .ok r
    else if name = ".." then
      let outer := r.place.tail
      .ok ⟨outer, (t.root.at? outer.reverse).getD (.directory [])⟩
    else if longestName < name.utf8ByteSize then .error .longName
    else
      match entries.lookup name with
      | some node => .ok ⟨name :: r.place, node⟩
      | none => .error .missing

/-- Follows names from a directory on. -/
def follow (t : FileTree) (start : Reached) (names : List String) : Except FileFault Reached :=
  names.foldlM t.enter start

/-- The names of a path as they are followed. An empty path leads nowhere, and there are bounds for
what a path can hold. -/
def stepsOf (path : String) : Except FileFault (List String) :=
  if '\x00' ∈ path.toList then .error (.other "file name contained an unexpected NUL byte")
  else if path = "" then .error .missing
  else if pathLimit ≤ path.utf8ByteSize then .error .longName
  else .ok (pathSteps path)

/-- Follows the names of a path, given without some of the last ones. -/
def reach (t : FileTree) (path : String) (names : List String) : Except FileFault Reached := do
  let root : Reached := ⟨[], t.root⟩
  if path.startsWith "/" then t.follow root names
  else t.follow (← t.follow root t.workingDirectory) names

/-- What a path leads to; a slash at its end asks for a directory. -/
def find (t : FileTree) (path : String) : Except FileFault FileNode := do
  let names ← stepsOf path
  return (← t.reach path (if path.endsWith "/" then names ++ ["."] else names)).node

def readFile (t : FileTree) (path : String) : Except FileFault (List UInt8) := do
  match ← t.find path with
  | .file bytes => return bytes
  | .directory _ => throw .isDirectory

def isDirectory (t : FileTree) (path : String) : Bool := t.find path matches .ok (.directory _)

/-- The place for something new, and what is there so far. What a name for the directory itself or
for the one above it leads to is there. -/
def slot (t : FileTree) (path : String) : Except FileFault (Location × Option FileNode) := do
  let names ← stepsOf path
  let r ← t.reach path names.dropLast
  match names.getLast? with
  | none => return (r.place.reverse, some r.node)
  | some name =>
    match t.enter r name with
    | .ok found => return (found.place.reverse, some found.node)
    | .error .missing => return ((name :: r.place).reverse, none)
    | .error fault => throw fault

def makeDirectory (t : FileTree) (path : String) : Except FileFault FileTree := do
  match ← t.slot path with
  | (_, some _) => throw .occupied
  | (place, none) => return { t with root := t.root.put place (.directory []) }

def writeFile (t : FileTree) (path : String) (bytes : List UInt8) : Except FileFault FileTree := do
  match ← t.slot path with
  | (_, some (.directory _)) => throw .isDirectory
  | (place, _) =>
    if path.endsWith "/" then throw .isDirectory
    return { t with root := t.root.put place (.file bytes) }

/-- Takes over a change of the tree, if there is one. -/
def update (change : FileTree → Except FileFault FileTree) :
    StateM FileTree (Except FileFault Unit) := do
  match change (← get) with
  | .ok t =>
    set t
    return .ok ()
  | .error fault => return .error fault

/-- The file system that keeps its files in a tree. -/
def system : FileSystem (StateM FileTree) where
  read path := do return (← get).readFile path
  isDirectory path := do return (← get).isDirectory path
  makeDirectory path := update (·.makeDirectory path)
  write path bytes := update (·.writeFile path bytes)

end FileTree

end CenterOfMass
