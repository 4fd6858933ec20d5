/-!
# Files

What a run reads and leaves behind: texts under paths, and directories. A path is followed name by
name, so every name but the last one has to be that of a directory; `./a`, `a` and `b/../a` are the
same place where `b` is a directory. A `Disk` is how a file that is there takes up its text.
-/

namespace WorkloadReplay

/-- The names that lead to a file or directory. An absolute place begins with an empty name. -/
abbrev Place := List String

/-- One more name of a path, after names held last first. -/
def Place.step : Place → String → Place
  | names, "" => names
  | names, "." => names
  | [""], ".." => [""]
  | [], ".." => [".."]
  | ".." :: names, ".." => ".." :: ".." :: names
  | _ :: names, ".." => names
  | names, name => name :: names

/-- Where a path begins. -/
def Place.origin (path : String) : Place := if path.startsWith "/" then [""] else []

/-- The names that a path is written with; some may be empty. -/
def pathNames (path : String) : List String := path.splitOn "/"

/-- The place that a path names where all directories on the way are there. -/
def Place.ofPath (path : String) : Place :=
  ((pathNames path).foldl Place.step (origin path)).reverse

/-- A path below a directory, or the path itself if it is absolute. -/
def joinPath (dir name : String) : String :=
  if name.startsWith "/" then name
  else if dir = "" ∨ dir.endsWith "/" then dir ++ name
  else dir ++ "/" ++ name

/-- The directory part of a path as it is written; `none` for a path without names. -/
def parentPath? (path : String) : Option String :=
  let names := (pathNames path).filter fun n => n ≠ "" ∧ n ≠ "."
  if names.isEmpty then none
  else
    let kept := names.dropLast
    let root := if path.startsWith "/" then "/" else ""
    some (root ++ String.intercalate "/" kept)

/-- Files and directories. -/
structure Files where
  /-- The texts, in the order in which their places were first written. -/
  texts : List (Place × String)
  directories : List Place
  deriving Inhabited

namespace Files

/-- No files. -/
def empty : Files := ⟨[], []⟩

/-- There is a file at a place. -/
def isFileAt (fs : Files) (place : Place) : Bool := fs.texts.any (·.1 = place)

/-- There is a directory at a place: the current directory and those above it, the root, and those
made. -/
def isDirectoryAt (fs : Files) (place : Place) : Bool :=
  place.all (· = "..") || place = [""] || place ∈ fs.directories

/-- Follows names from a place held last first. -/
def follow? (fs : Files) (here : Place) : List String → Option Place
  | [] => some here.reverse
  | name :: names =>
    if fs.isDirectoryAt here.reverse then follow? fs (here.step name) names else none

/-- The place that a path leads to, where something may be or not; `none` if the way is not
there. -/
def resolve? (fs : Files) (path : String) : Option Place :=
  fs.follow? (Place.origin path) (pathNames path)

/-- The text of a file. -/
def read? (fs : Files) (path : String) : Option String :=
  (fs.resolve? path).bind fun place => (fs.texts.find? (·.1 = place)).map (·.2)

/-- There is a file under a path. -/
def isFile (fs : Files) (path : String) : Bool := (fs.resolve? path).any fs.isFileAt

/-- There is a directory under a path. -/
def isDirectory (fs : Files) (path : String) : Bool := (fs.resolve? path).any fs.isDirectoryAt

/-- Makes all directories on a way that are not there, unless a file is in the way. -/
def makeWay (fs : Files) (here : Place) : List String → Option Files
  | [] => some fs
  | name :: names =>
    let next := here.step name
    if fs.isDirectoryAt next.reverse then makeWay fs next names
    else if fs.isFileAt next.reverse then none
    else makeWay { fs with directories := fs.directories ++ [next.reverse] } next names

/-- Makes the directory of a path with all above it; `none` if a file is in the way. A directory
that is not there cannot be made under the name `.`. -/
def makeDirectories (fs : Files) (path : String) : Option Files :=
  let names := pathNames path
  if (names.filter (· ≠ "")).getLast? = some "." ∧ !fs.isDirectory path then none
  else fs.makeWay (Place.origin path) names

/-- Sets a text in place of one that is there. -/
def setText (place : Place) (text : String) : List (Place × String) → List (Place × String)
  | [] => [(place, text)]
  | (p, t) :: rest => if p = place then (p, text) :: rest else (p, t) :: setText place text rest

/-- Writes a file; `none` if its directory is not there, or if there is a directory in its place. -/
def write (fs : Files) (path text : String) : Option Files :=
  match fs.resolve? path with
  | some place =>
    if fs.isDirectoryAt place then none else some { fs with texts := setText place text fs.texts }
  | none => none

/-- Adds a file with all directories on the way to it. -/
def add (fs : Files) (path text : String) : Files :=
  let fs := (fs.makeWay (Place.origin path) (pathNames path).dropLast).getD fs
  { fs with texts := setText (Place.ofPath path) text fs.texts }

end Files

/-! ## Disks -/

/-- How files take up what is written to them. A text may have to wait before it is on the disk, so
that a failure may show only when the file is completed. -/
structure Disk where
  /-- The answer to writing on, from a text to a longer one. -/
  write : (path before after : String) → Except String Unit
  /-- The answer to the completion of a file with a text. -/
  flush : (path text : String) → Except String Unit
  /-- What is there in the end of a text that has been written. -/
  kept : (path text : String) → String
  /-- A file that is completed is there as a whole. -/
  kept_of_flush : ∀ path text, flush path text = .ok () → kept path text = text

/-- A disk on which nothing fails. -/
def Disk.sound : Disk where
  write _ _ _ := .ok ()
  flush _ _ := .ok ()
  kept _ text := text
  kept_of_flush _ _ _ := rfl

end WorkloadReplay
