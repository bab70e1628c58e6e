import TemplateHost.Host.Log
import TemplateHost.Options.Layout

/-!
# Reuse of earlier output

A source need not be compiled again if output of an earlier run is there for every locale. That
output is copied to where the run's own output would be.
-/
namespace TemplateHost.Reuse

/-- A file tree with the log of what was done to it. -/
structure Progress where
  tree : FileTree
  log : List LogEntry

def copyOver (t : FileTree) (source target : String) : Except FileErrorKind FileTree := do
  (← t.makeDirectories (Path.directory target)).copyFile source target

/-- The tree after a copy, which may have made directories before it failed. -/
def afterAttempt (t : FileTree) (target : String) : FileTree :=
  match t.makeDirectories (Path.directory target) with
  | .ok made => made
  | .error _ => t

/-- Makes an earlier file available at its target, and tells whether it is. -/
def prepareArtifact (earlier target : String) (p : Progress) : Bool × Progress :=
  if !p.tree.isFile earlier then (false, p)
  else if target = earlier then (true, p)
  else match copyOver p.tree earlier target with
    | .ok t => (true, { p with tree := t })
    | .error kind =>
      (false, ⟨afterAttempt p.tree target, p.log ++ [.copyFailed earlier kind]⟩)

/-- All artifacts of a source, one for each locale; every one is tried. -/
def prepareSource (o : Options) (root earlierRoot file : String) :
    List String → Progress → Bool × Progress
  | [], p => (true, p)
  | locale :: r, p =>
    let (ready, p) := prepareArtifact (Layout.outputFile o earlierRoot file (some locale))
      (Layout.outputFile o root file (some locale)) p
    let (others, p) := prepareSource o root earlierRoot file r p
    (ready && others, p)

/-- For each source whether it can be reused. The sources in `refused` cannot even be looked up. -/
def prepareAll (o : Options) (root earlierRoot : String) (refused : String → Bool) :
    List String → Progress → List Bool × Progress
  | [], p => ([], p)
  | file :: r, p =>
    let (ready, p) :=
      if refused file then (false, p) else prepareSource o root earlierRoot file o.targets p
    let (others, p) := prepareAll o root earlierRoot refused r p
    (ready :: others, p)

/-- The sources that have to be compiled. If a look-up is refused, that is all of them. -/
def filterDirty (o : Options) (root : String) (files : List String) (earlier : Option String)
    (refused : String → Bool) (t : FileTree) : List String × Progress :=
  let chosen := match earlier with
    | some d => if d = "" then o.nonempty? .precompiledDir else some d
    | none => o.nonempty? .precompiledDir
  match chosen with
  | none => (files, ⟨t, []⟩)
  | some earlierRoot =>
    let (ready, p) := prepareAll o root earlierRoot refused files ⟨t, []⟩
    if files.any refused then (files, { p with log := p.log ++ [.lookupFailed .permission] })
    else
      let dirty := ((files.zip ready).filter fun e => !e.2).map (·.1)
      let count := files.length - dirty.length
      (dirty, if count = 0 then p else { p with log := p.log ++ [.reused count] })

end TemplateHost.Reuse
