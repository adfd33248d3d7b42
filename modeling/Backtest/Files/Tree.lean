namespace Backtest

abbrev PathParts := List String

structure FileTree where
  /-- The latest content of a file stands first. -/
  files : List (PathParts × ByteArray)
  directories : List PathParts

namespace FileTree

def empty : FileTree := ⟨[], []⟩

/-- The names between the slashes; an empty name or a single dot stays where it is. -/
def partsOf (path : String) : PathParts :=
  ((path.toList.splitOn '/').map String.ofList).filter fun name => name != "" && name != "."

/-- The path of a file in a directory; a name that begins with a slash stands alone. -/
def join (directory name : String) : String :=
  if directory == "" || "/".isPrefixOf name then name
  else if directory.endsWith "/" then directory ++ name
  else directory ++ "/" ++ name

def content? (t : FileTree) (path : String) : Option ByteArray := t.files.lookup (partsOf path)

def isFile (t : FileTree) (path : String) : Bool := (t.content? path).isSome

def isDirectory (t : FileTree) (path : String) : Bool :=
  (partsOf path).isEmpty || t.directories.contains (partsOf path)

def holds (t : FileTree) (path : String) : Bool := t.isFile path || t.isDirectory path

def beginnings (parts : PathParts) : List PathParts :=
  (List.range parts.length).map fun n => parts.take (n + 1)

/-- Creates a directory and those above it, unless a file stands in the way. -/
def createDirectories (t : FileTree) (path : String) : Option FileTree :=
  let needed := beginnings (partsOf path)
  if needed.any fun p => (t.files.lookup p).isSome then none
  else some { t with directories := t.directories ++ needed.filter (!t.directories.contains ·) }

def write (t : FileTree) (path : String) (content : ByteArray) : Option FileTree :=
  let parts := partsOf path
  let parent := parts.dropLast
  if !parent.isEmpty && !t.directories.contains parent then none
  else if t.directories.contains parts || parts.isEmpty then none
  else some { t with files := (parts, content) :: t.files.filter (·.1 != parts) }

def filesIn (t : FileTree) (path : String) : List (String × ByteArray) :=
  t.files.filterMap fun (parts, content) =>
    if parts.dropLast = partsOf path then parts.getLast?.map (·, content) else none

end FileTree
end Backtest
