import TemplateHost.Files.Content
import TemplateHost.Files.Path

/-!
# File trees

A tree binds places to directories and files. A place is the list of names that leads to it from
the root. Operations follow a path step by step, so that every step but the last has to be a
directory.
-/
namespace TemplateHost

abbrev Place := List String

inductive Node where
  | directory
  | file (c : Content)

namespace Node

def isDirectory : Node → Bool
  | .directory => true
  | .file _ => false

end Node

inductive FileErrorKind where
  | notFound
  | notDirectory
  | isDirectory
  | exists
  | permission
  | nameTooLong
  | sameFile
deriving DecidableEq

namespace FileErrorKind

def name : FileErrorKind → String
  | .notFound => "FileNotFoundError"
  | .notDirectory => "NotADirectoryError"
  | .isDirectory => "IsADirectoryError"
  | .exists => "FileExistsError"
  | .permission => "PermissionError"
  | .nameTooLong => "OSError"
  | .sameFile => "SameFileError"

def text : FileErrorKind → String
  | .notFound => "[Errno 2] No such file or directory"
  | .notDirectory => "[Errno 20] Not a directory"
  | .isDirectory => "[Errno 21] Is a directory"
  | .exists => "[Errno 17] File exists"
  | .permission => "[Errno 13] Permission denied"
  | .nameTooLong => "[Errno 36] File name too long"
  | .sameFile => "the two files are the same"

end FileErrorKind

structure FileError where
  kind : FileErrorKind
  path : Option String
deriving DecidableEq

def FileError.message (e : FileError) : String :=
  match e.path with
  | some p => e.kind.text ++ ": " ++ Text.quoted p
  | none => e.kind.text

structure FileTree where
  nodes : Table Place Node
  /-- Where relative paths start. -/
  cwd : Place

namespace FileTree

/-- The tree in which there is nothing but a working directory. -/
def empty (cwd : Place) : FileTree :=
  ⟨.ofList ((List.range cwd.length).map fun n => (cwd.take (n + 1), .directory)), cwd⟩

def node? (t : FileTree) (p : Place) : Option Node :=
  if p.isEmpty then some .directory else t.nodes.get? p

def put (t : FileTree) (p : Place) (n : Node) : FileTree := { t with nodes := t.nodes.set p n }

def cwdPath (t : FileTree) : String := "/" ++ Text.join "/" t.cwd

/-- One step of a walk, from a place that has to be a directory. -/
def step (t : FileTree) (at_ : Place) (name : String) : Except FileErrorKind Place :=
  match t.node? at_ with
  | none => .error .notFound
  | some (.file _) => .error .notDirectory
  | some .directory =>
    if name = "" ∨ name = "." then .ok at_
    else if name = ".." then .ok at_.dropLast
    else .ok (at_ ++ [name])

/-- The place that a path leads to; there need not be anything at it. -/
def locate (t : FileTree) (path : String) : Except FileErrorKind Place :=
  if path = "" then .error .notFound
  else (Path.steps path).foldlM t.step (if Path.isAbsolute path then [] else t.cwd)

def stat (t : FileTree) (path : String) : Except FileErrorKind (Place × Node) := do
  let p ← t.locate path
  match t.node? p with
  | some n => return (p, n)
  | none => throw .notFound

def exists? (t : FileTree) (path : String) : Bool := (t.stat path).isOk

def isFile (t : FileTree) (path : String) : Bool :=
  match t.stat path with
  | .ok (_, .file _) => true
  | _ => false

def isDirectory (t : FileTree) (path : String) : Bool :=
  match t.stat path with
  | .ok (_, .directory) => true
  | _ => false

def childName? (parent child : Place) : Option String :=
  match child.getLast? with
  | some name => if child.dropLast = parent then some name else none
  | none => none

def sortNames (names : List String) : List String := names.mergeSort fun a b => !decide (b < a)

/-- The names in a directory in ascending order. -/
def list (t : FileTree) (p : Place) : List String :=
  sortNames (t.nodes.keys.filterMap (childName? p))

def content (t : FileTree) (path : String) : Except FileErrorKind Content := do
  match ← t.stat path with
  | (_, .file c) => return c
  | (_, .directory) => throw .isDirectory

/-- Replaces or creates a file in a directory that is there. -/
def write (t : FileTree) (path : String) (c : Content) : Except FileErrorKind FileTree := do
  let p ← t.locate path
  match t.node? p with
  | some .directory => throw .isDirectory
  | some (.file _) => return t.put p (.file c)
  | none =>
    if Path.endsInSlash path then throw .isDirectory
    match t.node? p.dropLast with
    | some .directory => return t.put p (.file c)
    | some (.file _) => throw .notDirectory
    | none => throw .notFound

def makeDirectory (t : FileTree) (path : String) : Except FileErrorKind FileTree := do
  let p ← t.locate (String.ofList (path.toList.reverse.dropWhile (· = '/')).reverse)
  match t.node? p, t.node? p.dropLast with
  | some _, _ => throw .exists
  | none, some .directory => return t.put p .directory
  | none, some (.file _) => throw .notDirectory
  | none, none => throw .notFound

def ensureDirectory (t : FileTree) (path : String) : Except FileErrorKind FileTree :=
  match t.makeDirectory path with
  | .ok t => .ok t
  | .error k => if t.isDirectory path then .ok t else .error k

/-- Makes a directory and those above it that are missing; `depth` bounds how many that can be. -/
def makeDirectoriesWithin : Nat → FileTree → String → Except FileErrorKind FileTree
  | 0, t, path => t.ensureDirectory path
  | depth + 1, t, path =>
    let head := Path.directory path
    if head = "" ∨ t.exists? head then t.ensureDirectory path
    else do (← makeDirectoriesWithin depth t head).ensureDirectory path

def makeDirectories (t : FileTree) (path : String) : Except FileErrorKind FileTree :=
  makeDirectoriesWithin path.length t path

def writeNested (t : FileTree) (path : String) (c : Content) : Except FileErrorKind FileTree := do
  let head := Path.directory path
  (← if head = "" then pure t else t.makeDirectories head).write path c

def copyFile (t : FileTree) (source target : String) : Except FileErrorKind FileTree := do
  match t.stat source, t.stat target with
  | .ok (p, _), .ok (q, _) => if p = q then throw .sameFile
  | _, _ => pure ()
  t.write target (← t.content source)

def removeAt (t : FileTree) (p : Place) : FileTree :=
  { t with nodes := ⟨t.nodes.entries.filter fun e => !p.isPrefixOf e.1⟩ }

def removeTree (t : FileTree) (path : String) : Except FileErrorKind FileTree := do
  match ← t.stat path with
  | (p, .directory) => return t.removeAt p
  | (_, .file _) => throw .notDirectory

/-- The files and empty directories below a place, relative to it; a directory has a slash after
its name. -/
def below (t : FileTree) (p : Place) : List (String × Option Content) :=
  t.nodes.entries.filterMap fun (q, n) =>
    if p.isPrefixOf q && p ≠ q then
      let name := Text.join "/" (q.drop p.length)
      match n with
      | .file c => some (name, some c)
      | .directory => if (t.list q).isEmpty then some (name ++ "/", none) else none
    else none

end FileTree

end TemplateHost
