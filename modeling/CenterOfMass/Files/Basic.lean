namespace CenterOfMass

/-- Why a file cannot be read or written. -/
inductive FileFault
  | missing
  | occupied
  | notDirectory
  | isDirectory
  | longName
  | other (message : String)
  deriving DecidableEq

def FileFault.message : FileFault → String
  | .missing => "No such file or directory (os error 2)"
  | .occupied => "File exists (os error 17)"
  | .notDirectory => "Not a directory (os error 20)"
  | .isDirectory => "Is a directory (os error 21)"
  | .longName => "File name too long (os error 36)"
  | .other message => message

/-- The path of a name within a directory; a name from the root on stands for itself. -/
def joinPath (directory name : String) : String :=
  if name.startsWith "/" then name
  else if directory = "" || directory.endsWith "/" then directory ++ name
  else directory ++ "/" ++ name

/-- What stands between the slashes of a path. -/
def pathSteps (path : String) : List String :=
  (path.splitToList (· == '/')).filter (· ≠ "")

/-- The names in a path. A point counts only at the start of a path that does not begin at the
root. -/
def pathNames (path : String) : List String :=
  match pathSteps path with
  | "." :: names => (if path.startsWith "/" then [] else ["."]) ++ names.filter (· ≠ ".")
  | names => names.filter (· ≠ ".")

/-- The path through some names, from the root on or not. -/
def pathOf (fromRoot : Bool) (names : List String) : String :=
  (if fromRoot then "/" else "") ++ "/".intercalate names

/-- A path and the directories that it passes through, the nearest one first. The root and the
working directory are left out. -/
def withAncestors (path : String) : List String :=
  let names := pathNames path
  let outer := ((List.range names.length).drop 1).reverse.map fun n =>
    pathOf (path.startsWith "/") (names.take n)
  if names.isEmpty then [] else path :: outer

/-- What a program needs of a file system. -/
structure FileSystem (m : Type → Type) where
  read : String → m (Except FileFault (List UInt8))
  isDirectory : String → m Bool
  /-- Makes a directory that is not there yet, in one that is. -/
  makeDirectory : String → m (Except FileFault Unit)
  /-- Makes a file or replaces what is in it. -/
  write : String → List UInt8 → m (Except FileFault Unit)

namespace FileSystem

variable {m : Type → Type} [Monad m]

/-- Makes a directory unless it is there already. -/
def provide (fs : FileSystem m) (path : String) : m (Except FileFault Unit) := do
  match ← fs.makeDirectory path with
  | .error .occupied => return if ← fs.isDirectory path then .ok () else .error .occupied
  | made => return made

/-- Makes the first of some directories; where that cannot be for one that is missing, the others
are made before it in the same way. -/
def provideFirst (fs : FileSystem m) : List String → m (Except FileFault Unit)
  | [] => return .ok ()
  | path :: outer => do
    match ← fs.provide path with
    | .error .missing =>
      match ← fs.provideFirst outer with
      | .ok () => fs.provide path
      | failed => return failed
    | made => return made

/-- Makes a directory and those that it lies in, as far as they are missing. Those that were made
stay even if one further in cannot be made. -/
def makeDirectories (fs : FileSystem m) (path : String) : m (Except FileFault Unit) :=
  fs.provideFirst (withAncestors path)

end FileSystem

end CenterOfMass
