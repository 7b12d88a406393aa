import StreamScan.Source.Input

/-!
# File systems — what paths lead to

A file system tells what a path leads to.  A regular file holds its content, a pipe or a device
gives bytes as they come, and where nothing can be opened the operating system says why: there is
nothing, or a directory, or no way to it, or no permission.  It may also refuse to open a regular
file.

One of them is given by a listing: files named by the components of their paths from the root, and a
working directory from which other paths start.  The directories of a listing are those that its
files and its working directory lie in.  In a listing, a path is walked component by component.  Two
dots go back, and one dot or an empty component stays in place, but all three only in a directory:
there is no way through a file, not even with a slash at the end.  The empty path leads nowhere.

* **`FileSystem.regular?`** — a regular file, opened.
* **`FileSystem.opened`** — whatever a path leads to, opened.
* **`Listing.fileSystem`** — the file system of a listing.
-/

namespace StreamScan

/-- What a path leads to. -/
inductive Entry where
  | file (content : Block)
  /-- A regular file that is not opened. -/
  | locked (error : SystemError)
  /-- A pipe or a device. -/
  | device (input : Input)
  /-- No regular file, and nothing that is opened. -/
  | refused (error : SystemError)

namespace Entry

/-- Nothing at all. -/
def missing : Entry := .refused .noEntry

def directory : Entry := .refused .isDirectory

end Entry

/-- What every path leads to.  Of paths with a zero character this is not asked. -/
structure FileSystem where
  find : String → Entry

namespace FileSystem

/-- Whether there is a zero character in a path. -/
def hasZero (path : String) : Bool := path.toList.contains '\x00'

/-- Opens the regular file that a path leads to; none if it leads to none. -/
def regular? (fs : FileSystem) (path : String) : Option (Except Failure Block) :=
  if hasZero path then none
  else
    match fs.find path with
    | .file content => some (.ok content)
    | .locked error => some (.error (.unopened error path))
    | .device _ | .refused _ => none

/-- Opens what a path leads to. -/
def opened (fs : FileSystem) (path : String) : Except Failure Input :=
  if hasZero path then .error .zeroInPath
  else
    match fs.find path with
    | .file content => .ok (.ofBytes content.toList)
    | .device input => .ok input
    | .locked error | .refused error => .error (.unopened error path)

end FileSystem

/-- The number of bytes that a component may have. -/
def maxNameLength : Nat := 255

/-- The number of bytes that no path has. -/
def pathLimit : Nat := 4096

/-- Files by the components of their paths, and the working directory. -/
structure Listing where
  workingDirectory : List String
  files : List (List String × Block)
deriving Repr

namespace Listing

/-- Whether components lead to a directory. -/
def isDirectory (l : Listing) (place : List String) : Bool :=
  place.isPrefixOf l.workingDirectory ||
    l.files.any fun file => place.isPrefixOf file.1.dropLast

/-- What there is at a place. -/
def entryAt (l : Listing) (place : List String) : Entry :=
  match l.files.lookup place with
  | some content => .file content
  | none => if l.isDirectory place then .directory else .missing

/-- Walks along components from a place on. -/
def walk (l : Listing) : List String → List String → Except SystemError (List String)
  | place, [] => .ok place
  | place, component :: rest =>
    if l.isDirectory place then
      if component = "" || component = "." then l.walk place rest
      else if component = ".." then l.walk place.dropLast rest
      else if maxNameLength < component.utf8ByteSize then .error .nameTooLong
      else l.walk (place ++ [component]) rest
    else if (l.files.lookup place).isSome then .error .notDirectory
    else .error .noEntry

/-- The components of a path; a path from the root has an empty one first. -/
def components (path : String) : List String := path.splitOn "/"

/-- The place that a path leads to, if there is a way. -/
def place (l : Listing) (path : String) : Except SystemError (List String) :=
  if path.isEmpty then .error .noEntry
  else if pathLimit ≤ path.utf8ByteSize then .error .nameTooLong
  else if path.startsWith "/" then l.walk [] (components path)
  else l.walk l.workingDirectory (components path)

/-- What a path leads to. -/
def find (l : Listing) (path : String) : Entry :=
  match l.place path with
  | .ok place => l.entryAt place
  | .error error => .refused error

/-- The file system of a listing. -/
def fileSystem (l : Listing) : FileSystem := ⟨l.find⟩

end Listing

end StreamScan
