import BlockTree.Failure

/-! The part of a disk that a command sees: files and directories by their paths from the working
directory. -/
namespace BlockTree.CommandLine

structure Path where
  rooted : Bool
  names : List String
deriving DecidableEq, Repr

namespace Path

def partsOf (s : String) : List String := (s.toList.splitOn '/').map String.ofList

def origin (s : String) : Path := ⟨s.startsWith "/", []⟩

/-- One step further: a name is entered, and two dots go back where there is a name to go back from.
-/
def step (p : Path) (part : String) : Path :=
  if part = "" || part = "." then p
  else if part ≠ ".." then { p with names := p.names ++ [part] }
  else match p.names.getLast? with
    | none => if p.rooted then p else { p with names := [".."] }
    | some ".." => { p with names := p.names ++ [".."] }
    | some _ => { p with names := p.names.dropLast }

def ofText (s : String) : Path := (partsOf s).foldl step (origin s)

def text (p : Path) : String := (if p.rooted then "/" else "") ++ "/".intercalate p.names

def plain (s : String) : String :=
  let t := (ofText s).text
  if t = "" then "." else t

def isAbove (p : Path) : Bool := p.names.all (· = "..")

end Path

/-- Files by their paths, and directories beside those that hold a file. -/
structure Disk where
  files : List (String × ByteArray)
  directories : List String

/-- What a path leads to: a file, a directory, a place in a directory where nothing is yet, or
nothing, because a directory on the way is missing, a file stands in its place, or a name is too
long. -/
inductive Found
  | file (path : String) (bytes : ByteArray)
  | directory
  | free (path : String)
  | missing
  | blocked
  | tooLong

namespace Disk

variable (d : Disk)

def isDirectory (p : Path) : Bool :=
  p.isAbove || d.directories.contains p.text ||
    (d.directories ++ d.files.map (·.1)).any fun q => (p.text ++ "/").toList.isPrefixOf q.toList

def nameLimit : Nat := 255

def follow (p : Path) : List String → Found
  | [] => .directory
  | part :: parts =>
    let q := p.step part
    if ["", ".", ".."].contains part then follow q parts
    else if nameLimit < part.utf8ByteSize then .tooLong
    else match d.files.lookup q.text with
      | some bytes => if parts.isEmpty then .file q.text bytes else .blocked
      | none =>
        if d.isDirectory q then follow q parts
        else if parts.isEmpty then .free q.text else .missing

def find (path : String) : Found :=
  if path = "" then .missing else d.follow (Path.origin path) (Path.partsOf path)

def put (name : String) (bytes : ByteArray) :
    List (String × ByteArray) → List (String × ByteArray)
  | [] => [(name, bytes)]
  | (n, b) :: fs => if n = name then (n, bytes) :: fs else (n, b) :: put name bytes fs

def write (path : String) (bytes : ByteArray) : Except Failure Disk :=
  match d.find path with
  | .file p _ | .free p => .ok { d with files := put p bytes d.files }
  | .directory => .error (.isDirectory path)
  | .blocked => .error (.notDirectory path)
  | .missing => .error (.noFile path)
  | .tooLong => .error (.longName path)

def contents (path : String) : ByteArray :=
  match d.find path with
  | .file _ b => b
  | _ => .empty

def append (path : String) (text : String) : Except Failure Disk :=
  d.write path (d.contents path ++ text.toUTF8)

def changes (old : Disk) : List (String × ByteArray) :=
  d.files.filter fun f => (old.files.lookup f.1).map (·.toList) ≠ some f.2.toList

end Disk

end BlockTree.CommandLine
