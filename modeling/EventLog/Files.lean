import EventLog.Failure

/-!
# Files

A file system as a value: files by their places, and the directory that a program works in. A place
is the list of the names that lead to it from the root. The directories are the working directory,
the ones above it, and the ones with files in them. `Files.locate` follows a path to a place, and
reading and writing give the faults that a real file system would give on the way and at its end;
`Files.content?_put_of_ne` says that writing leaves all other files as they are.
-/

namespace EventLog

/-- The names that lead from the root to a file or a directory. -/
abbrev Place := List String

/-- Files by their places, and the working directory. -/
structure Files where
  home : Place
  entries : List (Place × ByteArray)

namespace Files

/-! ## Paths -/

/-- How many bytes a name in a path may have. -/
def maxNameSize : Nat := 255

/-- How many bytes a path may have. -/
def maxPathSize : Nat := 4095

/-- Whether a path ends in a slash. -/
def endsInSlash (path : String) : Bool :=
  path.toList.getLast? == some '/'

/-- The segments of a path. Slashes in a row separate like one, and one at the end stands for a
point behind it, which asks for a directory. -/
def segments (path : String) : List String :=
  ((path.toList.splitOn '/').map String.ofList).filter (· ≠ "") ++
    if endsInSlash path then ["."] else []

/-- The fault of a path that is refused before anything is looked up. -/
def pathFault? (path : String) : Option FileFault :=
  if path.toList.contains '\x00' then some .nulByte
  else if path = "" then some .notFound
  else if maxPathSize < path.utf8ByteSize then some .nameTooLong
  else none

/-- The place that a segment leads to from a directory: a point stays, two points go up, and the
root is above itself. -/
def child (directory : Place) (segment : String) : Except FileFault Place :=
  if segment = "." then .ok directory
  else if segment = ".." then .ok directory.dropLast
  else if maxNameSize < segment.utf8ByteSize then .error .nameTooLong
  else .ok (directory ++ [segment])

/-! ## Places -/

/-- The content of a file. -/
def content? (files : Files) (place : Place) : Option ByteArray :=
  files.entries.lookup place

/-- Whether a place is a directory. -/
def isDirectory (files : Files) (place : Place) : Bool :=
  place.isPrefixOf files.home ||
    files.entries.any fun (other, _) => place.isPrefixOf other && place ≠ other

/-- A place, if it is a directory. -/
def enter (files : Files) (place : Place) : Except FileFault Place :=
  if files.isDirectory place then .ok place
  else if (files.content? place).isSome then .error .notDirectory
  else .error .notFound

/-- The directory that segments lead to, all of them through directories. -/
def walk (files : Files) (start : Place) (segments : List String) : Except FileFault Place :=
  segments.foldlM (fun place segment => do files.enter (← child place segment)) start

/-- Where a path starts: at the root if it begins with a slash, else in the working directory. -/
def start (files : Files) (path : String) : Place :=
  if path.toList.head? = some '/' then [] else files.home

/-- The place that a path leads to, through directories. There may be nothing at that place. -/
def locate (files : Files) (path : String) : Except FileFault Place :=
  match pathFault? path with
  | some fault => .error fault
  | none => do
    let directory ← files.walk (files.start path) (segments path).dropLast
    child directory ((segments path).getLast?.getD ".")

/-- The place of a file that can be written. Nothing is created behind a slash: such a path is
refused as that of a directory as soon as the directories on the way are there. -/
def locateOutput (files : Files) (path : String) : Except FileFault Place :=
  if (pathFault? path).isNone && endsInSlash path then do
    let _ ← files.walk (files.start path) (segments path).dropLast.dropLast
    .error .isDirectory
  else do
    let place ← files.locate path
    if files.isDirectory place then .error .isDirectory else .ok place

/-! ## Reading and writing -/

/-- Reads a file. -/
def read (files : Files) (path : String) : Except FileFault ByteArray := do
  let place ← files.locate path
  if files.isDirectory place then .error .isDirectory
  else match files.content? place with
    | some content => .ok content
    | none => .error .notFound

/-- The files with another content at a place. -/
def put (files : Files) (place : Place) (content : ByteArray) : Files :=
  { files with entries := (place, content) :: files.entries.filter fun (other, _) => other ≠ place }

/-- Writes a file as a whole. -/
def write (files : Files) (path : String) (content : ByteArray) : Except FileFault Files :=
  (files.locateOutput path).map fun place => files.put place content

/-- A file that was written is there with its content. -/
theorem content?_put_self (files : Files) (place : Place) (content : ByteArray) :
    (files.put place content).content? place = some content := by
  simp [put, content?]

/-- Writing a file changes no other file. -/
theorem content?_put_of_ne (files : Files) {place other : Place} (h : other ≠ place)
    (content : ByteArray) : (files.put place content).content? other = files.content? other := by
  have hb : (other == place) = false := by simpa using h
  simp only [put, content?, List.lookup_cons, hb]
  induction files.entries with
  | nil => rfl
  | cons entry rest ih =>
    obtain ⟨name, old⟩ := entry
    by_cases he : name = place
    · have hne : (other == name) = false := by rw [he]; exact hb
      rw [List.filter_cons_of_neg (by simpa using he), ih]
      simp only [List.lookup_cons, hne]
    · rw [List.filter_cons_of_pos (by simpa using he)]
      simp only [List.lookup_cons, ih]

/-- The files without the one at a place. -/
def erase (files : Files) (place : Place) : Files :=
  { files with entries := files.entries.filter fun (other, _) => other ≠ place }

/-- Files by their paths, with a working directory. -/
def ofList (home : Place) (contents : List (String × ByteArray)) : Files :=
  contents.foldl (fun files (path, content) => files.put (files.start path ++ segments path) content)
    ⟨home, []⟩

end Files

end EventLog
