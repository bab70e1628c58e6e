import TemplateHost.Failure

/-!
# Discovery of sources

All files with an extension in a directory and below it. Entries without a dot in their name may be
directories, which are searched too; the last of several comes first. The system may refuse to look
at a path or to list a directory. What it does not let one look at below the root is passed over;
every other refusal ends the search.
-/
namespace TemplateHost

/-- What the system refuses, and why: to look at what is at a path, and to list the directory
there. -/
structure Access where
  look : String → Option FileErrorKind
  list : String → Option FileErrorKind

namespace Access

def full : Access := ⟨fun _ => none, fun _ => none⟩

def stat (a : Access) (t : FileTree) (path : String) : Except FileErrorKind (Place × Node) :=
  match a.look path with
  | some kind => .error kind
  | none => t.stat path

end Access

namespace FileTree

def hasSuffix (suffix : List Char) (name : String) : Bool := suffix.isSuffixOf name.toList

/-- One directory's hits, and the entries below it to search, last one first. -/
def scan (t : FileTree) (suffix : List Char) (path : String) (p : Place) :
    List String × List String :=
  let names := t.list p
  let hits := names.filter (hasSuffix suffix)
  let deeper := names.filter fun n => !hasSuffix suffix n && !n.toList.contains '.'
  (hits.map (Path.under path), (deeper.map (Path.under path)).reverse)

/-- Searches the directories on a stack; `fuel` bounds how many. -/
def searchFrom (t : FileTree) (a : Access) (suffix : List Char) :
    Nat → List String → Except FileError (List String)
  | 0, _ => .ok []
  | _, [] => .ok []
  | fuel + 1, path :: stack =>
    match a.stat t path with
    | .ok (p, .directory) =>
      match a.list path with
      | some kind => .error ⟨kind, some path⟩
      | none =>
        let (hits, deeper) := t.scan suffix path p
        (searchFrom t a suffix fuel (deeper ++ stack)).map (hits ++ ·)
    | _ => searchFrom t a suffix fuel stack

/-- Why there is nothing to search at a path. -/
def unsearchable (path : String) (kind : FileErrorKind) : Problem :=
  if Path.hasNull path then .fault .nullInPath else .file ⟨kind, some path⟩

/-- The files below a directory whose name ends in a dot and the extension, relative to it, as far
as the system gives access to them. -/
def search (t : FileTree) (a : Access) (directory extension : String) :
    Except Problem (List String) :=
  match a.stat t directory with
  | .error kind => .error (unsearchable directory kind)
  | .ok _ =>
    let found := t.searchFrom a ('.' :: extension.toList) (t.nodes.entries.length + 1) [directory]
    (found.map fun paths => paths.map fun f => Path.relative t.cwdPath f directory).mapError .file

/-- A search in which nothing is refused. -/
def findFiles (t : FileTree) (directory extension : String) : Except Problem (List String) :=
  t.search .full directory extension

end FileTree

end TemplateHost
