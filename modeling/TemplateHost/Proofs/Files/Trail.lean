import TemplateHost.Proofs.Files.Tree

/-!
# What a path comes by

Whoever follows a path comes by some places before it leads somewhere. What is read there depends on
these places only, so that a file written off the trail changes nothing, whether the path could be
read or not.
-/
namespace TemplateHost

/-- The places by which a path leads to its own, which comes last. -/
def Path.trail (cwd : Place) (p : String) : List Place :=
  (steps p).scanl walk (if isAbsolute p then [] else cwd)

namespace FileTree
open TemplateHost.Path
variable {t t' : FileTree}

theorem step_congr {p : Place} (hp : t'.node? p = t.node? p) (s : String) :
    t'.step p s = t.step p s := by
  unfold FileTree.step
  rw [hp]

theorem foldlM_step_congr {ss : List String} {p : Place}
    (hp : ∀ q ∈ ss.scanl walk p, t'.node? q = t.node? q) :
    ss.foldlM t'.step p = ss.foldlM t.step p := by
  induction ss generalizing p with
  | nil => rfl
  | cons s r ih =>
    rw [List.scanl_cons] at hp
    obtain ⟨hfirst, hrest⟩ := List.forall_mem_cons.mp hp
    rw [List.foldlM_cons, List.foldlM_cons, step_congr hfirst]
    cases hs : t.step p s with
    | error e => rfl
    | ok q =>
      obtain rfl := step_ok hs
      exact ih hrest

theorem place_mem_trail (cwd : Place) (p : String) : place cwd p ∈ trail cwd p := by
  unfold place trail
  generalize (if isAbsolute p then [] else cwd) = q
  induction steps p generalizing q with
  | nil => exact List.mem_singleton_self _
  | cons s r ih =>
    rw [List.scanl_cons]
    exact List.mem_cons_of_mem _ (ih (walk q s))

theorem content_congr (hcwd : t'.cwd = t.cwd) {p : String}
    (hp : ∀ q ∈ trail t.cwd p, t'.node? q = t.node? q) : t'.content p = t.content p := by
  have hlocate : t'.locate p = t.locate p := by
    unfold FileTree.locate
    rw [hcwd, foldlM_step_congr hp]
  have hstat : t'.stat p = t.stat p := by
    unfold FileTree.stat
    rw [hlocate]
    cases hq : t.locate p with
    | error e => rfl
    | ok q =>
      obtain rfl := locate_ok hq
      have hnode := hp _ (place_mem_trail t.cwd p)
      simp only [bind, Except.bind, hnode]
  unfold FileTree.content
  rw [hstat]

theorem content_of_write_off {p path : String} {c : Content} (h : t.write p c = .ok t')
    (hoff : place t.cwd p ∉ trail t.cwd path) : t'.content path = t.content path := by
  obtain ⟨q, hq, rfl, -⟩ := write_ok h
  rw [← locate_ok hq] at hoff
  have hcwd : (t.put q (.file c)).cwd = t.cwd := rfl
  refine content_congr hcwd fun r hr => node?_put_ne ?_ _
  rintro rfl
  exact hoff hr

theorem directory_put {q : Place} (hq : t.node? q ≠ some .directory) (c : Content) (r : Place)
    (hr : t.node? r = some .directory) : (t.put q (.file c)).node? r = some .directory := by
  rw [node?_put_ne ?_, hr]
  rintro rfl
  exact hq hr

theorem content_of_write_ne {p path : String} {c d : Content} (h : t.write p c = .ok t')
    (hne : place t.cwd path ≠ place t.cwd p) (hd : t.content path = .ok d) :
    t'.content path = .ok d := by
  obtain ⟨q, hq, rfl, hdir, -⟩ := write_ok h
  rw [← locate_ok hq] at hne
  have hcwd : (t.put q (.file c)).cwd = t.cwd := rfl
  exact content_mono hcwd (directory_put hdir c) (fun hn => (node?_put_ne hne _).trans hn) hd

theorem content_of_write_self {p : String} {c : Content} (h : t.write p c = .ok t') :
    t'.content p = .ok c := by
  obtain ⟨q, hq, rfl, hdir, -⟩ := write_ok h
  have hcwd : (t.put q (.file c)).cwd = t.cwd := rfl
  have hnil : q ≠ [] := by
    rintro rfl
    exact hdir rfl
  exact content_ok_iff.mpr
    ⟨q, locate_mono hcwd (directory_put hdir c) hq, node?_put_self hnil _⟩

end FileTree

end TemplateHost
