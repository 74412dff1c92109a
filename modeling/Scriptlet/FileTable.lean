import Scriptlet.Failure
import Scriptlet.Text.Line

/-!
# File tables

The files below one directory. A file name is a path from that directory on, its parts separated by
`/`. The directories on the way to a file exist with it.

A path is followed part by part. An empty part and `.` stay where they are, `..` goes up, and any of
them needs a directory to start from. Above the directory of the table nothing is known to exist but
directories on the way up.
-/

namespace Scriptlet

/-- Files and directories by the parts of their paths. -/
structure FileTable where
  files : List (List String × List UInt8)
  directories : List (List String)

namespace FileTable

/-- The table without files. -/
def empty : FileTable := ⟨[], []⟩

/-- The parts of a path. -/
def parts (path : String) : List String := (Text.split '/' path.toList).map String.ofList

/-- Adds a file. -/
def addFile (name : String) (content : List UInt8) (t : FileTable) : FileTable :=
  { t with files := t.files ++ [(parts name, content)] }

/-- Adds a directory. -/
def addDirectory (name : String) (t : FileTable) : FileTable :=
  { t with directories := t.directories ++ [parts name] }

/-- Where following a path can lead. -/
inductive Place where
  | file (content : List UInt8)
  /-- A directory of the table. -/
  | directory (path : List String)
  /-- A directory that holds the one of the table. -/
  | above

/-- Whether a directory is in the table, or on the way to something in it. -/
def hasDirectory (path : List String) (t : FileTable) : Bool :=
  (t.directories ++ t.files.map Prod.fst).any (path.isPrefixOf ·)

/-- What a path in the table leads to. -/
def find (path : List String) (t : FileTable) : Except Failure Place :=
  match t.files.lookup path with
  | some content => .ok (.file content)
  | none => if t.hasDirectory path then .ok (.directory path) else .error .notFound

/-- Follows one part of a path. -/
def follow (t : FileTable) : Place → String → Except Failure Place
  | .file _, _ => .error .notDirectory
  | .above, part => if part ∈ ["", ".", ".."] then .ok .above else .error .notFound
  | .directory path, part =>
    if part ∈ ["", "."] then .ok (.directory path)
    else if part = ".." then
      if path.isEmpty then .ok .above else .ok (.directory path.dropLast)
    else t.find (path ++ [part])

/-- Where a path begins: at the top of all directories if its first part is empty. -/
def start (path : String) : Place :=
  if path.toList.head? = some '/' then .above else .directory []

/-- The content of the file that a path leads to. -/
def content (path : String) (t : FileTable) : Except Failure (List UInt8) :=
  if path.isEmpty then .error .notFound
  else
    match (parts path).foldlM t.follow (start path) with
    | .ok (.file content) => .ok content
    | .ok _ => .error .isDirectory
    | .error failure => .error failure

/-- The text in the file that a path leads to. -/
def text (path : String) (t : FileTable) : Except Failure (List UInt8) :=
  (t.content path).bind ensureText

end FileTable

end Scriptlet
