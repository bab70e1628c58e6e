import TemplateHost.Proofs.Host.Reading
import TemplateHost.Proofs.Options.Spelling

/-!
# Reuse in place

A run that looks for earlier output where its own goes finds each artifact at its own place. It has
to copy nothing; still an artifact counts as reusable only if the two roots give it one path as a
text. So the sources that are compiled again are those whose artifacts have got two paths.
-/
namespace TemplateHost
open FileTree Layout TemplateHost.Path

namespace Reuse

/-- Whether some artifact of a source has got another path for the run than for the earlier one. -/
def renamed (o : Options) (root earlierRoot file : String) : Bool :=
  o.targets.any fun l =>
    outputFile o root file (some l) ≠ outputFile o earlierRoot file (some l)

section Still
open Work
variable {ws : List Transfer} {t₀ t : FileTree} {w : Transfer}

/-- Artifacts that are where they have to be. -/
structure Still (ws : List Transfer) (t : FileTree) : Prop where
  goal (w : Transfer) : w ∈ ws → ¬ w.Moves t.cwd
  file (w : Transfer) : w ∈ ws → t.isFile w.earlier = true

theorem Still.apart (h : Still ws t) : Apart t.cwd ws :=
  ⟨fun hv _ hmoves => absurd hmoves (h.goal _ hv), fun hv _ hmoves => absurd hmoves (h.goal _ hv)⟩

/-- While they are prepared nothing changes: even the directories above them are there. -/
theorem Still.same (h : Still ws t₀) (ht₀ : t₀.Proper) (ht : Transferred ws t₀ t) : t₀.Same t := by
  refine ⟨ht.cwd, fun p => ?_⟩
  rcases ht.cases p with heq | ⟨w, hw, hmoves, -⟩ | ⟨w, hw, hp, hnone, -⟩
  · exact heq
  · exact absurd hmoves (h.goal w hw)
  · obtain ⟨c, hc⟩ := isFile_iff.mp (h.file w hw)
    have hn := (w.content_earlier ht₀).mp hc
    have hgoal : w.goal t₀.cwd = w.origin t₀.cwd := not_not.mp (h.goal w hw)
    rw [← hgoal] at hn
    have hparent := ht₀.parent _ _ hn
    by_cases heq : p = (w.goal t₀.cwd).dropLast
    · rw [heq, hparent] at hnone
      cases hnone
    · rw [ht₀.above hp heq hparent] at hnone
      cases hnone

theorem keeps_carry_still (hs : Still ws t₀) (ht₀ : t₀.Proper) (ht : Transferred ws t₀ t)
    (hw : w ∈ ws) : Keeps ws t₀ (fun _ _ => False) t w.carry := by
  unfold Transfer.carry
  refine (keeps_makeDirectories ht hw _).bind fun _ u hu _ =>
    keeps_pause_bind hu fun v hv => (keeps_tree hv).bind fun t' v hv heq => ?_
  subst t'
  obtain ⟨c, hc⟩ := isFile_iff.mp (hs.file w hw)
  have hgoal : w.goal v.cwd = w.origin v.cwd := by
    rw [hv.cwd]
    exact not_not.mp (hs.goal w hw)
  rw [if_pos (w.sameFile hv.proper ((hv.content_earlier ht₀ hs.apart hw).mpr hc) hgoal)]
  exact keeps_throw hv .sameFile

/-- Such an artifact is ready if, and only if, source and target have one path. -/
theorem keeps_prepare_still (hs : Still ws t₀) (ht₀ : t₀.Proper) (ht : Transferred ws t₀ t)
    (hw : w ∈ ws) : (w.prepare t).Keeps (Transferred ws t₀) (Later ws t₀)
      (fun fate _ => fate.isReady = decide (w.target = w.earlier)) t := by
  rw [prepare_apply, ht.isFile_earlier ht₀ hs.apart hw, if_pos (hs.file w hw)]
  split_ifs with hsame
  · exact .done (.refl ht) (by simp [hsame, Fate.isReady])
  · refine .paused (.refl ht) fun u hu => ?_
    unfold Transfer.deliver
    refine keeps_flow (keeps_carry_still hs ht₀ hu hw).outcome fun r v hv hr => ?_
    cases r with
    | ok _ => exact (hr () rfl).elim
    | error kind => exact .done (.refl hv) (by simp [hsame, Fate.ofResult, Fate.isReady])

theorem still_of_turns {tasks : List (List Transfer)} (hs : Still ws t₀) (ht₀ : t₀.Proper)
    (hws : ∀ vs ∈ tasks, ∀ w ∈ vs, w ∈ ws) {c : Crew} (hturns : Turns (crew t₀ tasks) c) :
    t₀.Same c.1 ∧ List.Forall₂ (List.Forall₂ fun w m =>
      ∀ fate, m.result? = some fate → fate.isReady = decide (w.target = w.earlier)) tasks c.2 := by
  have hpreserves : Preserves (Transferred ws t₀) (Later ws t₀) Outcome.Turn
      fun (w : Transfer) t (m : Outcome FileTree Fate) => m.Fits (Transferred ws t₀) (Later ws t₀)
        (fun fate _ => fate.isReady = decide (w.target = w.earlier)) t :=
    .turn fun _ => id
  obtain ⟨htransferred, hall⟩ := preserves_crew hpreserves ht₀
    (fun vs hvs w hw _ hu => keeps_prepare_still hs ht₀ hu (hws vs hvs w hw)) hturns
  refine ⟨hs.same ht₀ htransferred, hall.imp fun _ _ hone => hone.imp fun w m hm => ?_⟩
  intro fate hfate
  cases m with
  | done a u =>
    obtain rfl : a = fate := Option.some.inj hfate
    exact hm
  | paused u rest => cases hfate

end Still

section Sources
variable {o : Options} {root earlierRoot : String} {files : List String} {t : FileTree}

theorem all_isReady {vs : List Transfer} {ms : List (Outcome FileTree Fate)}
    (hms : List.Forall₂ (fun w m => ∀ fate, m.result? = some fate →
      fate.isReady = decide (w.target = w.earlier)) vs ms)
    (hdone : ∀ m ∈ ms, m.result?.isSome = true) :
    ms.all isReady = vs.all fun w => decide (w.target = w.earlier) := by
  induction hms with
  | nil => rfl
  | @cons w m vs ms hm _ ih =>
    obtain ⟨hone, hrest⟩ := List.forall_mem_cons.mp hdone
    obtain ⟨fate, hfate⟩ := Option.isSome_iff_exists.mp hone
    have hready : isReady m = fate.isReady := by
      rw [isReady, hfate]
      rfl
    rw [List.all_cons, List.all_cons, ih hrest, hready, hm fate hfate]

theorem all_transfers (f : String) :
    (!(transfers o root earlierRoot f).all fun w => decide (w.target = w.earlier)) =
      renamed o root earlierRoot f := by
  rw [transfers, List.all_map, renamed, List.not_all_eq_any_not]
  refine congrArg _ (funext fun l => ?_)
  by_cases hsame : outputFile o root f (some l) = outputFile o earlierRoot f (some l)
  · simp [hsame]
  · simp [hsame]

/-- In whatever order the turns come, the tree stays, and what is left are the renamed sources. -/
theorem dirty_of_turns (hs : Still (files.flatMap (transfers o root earlierRoot)) t)
    (ht : t.Proper) {c : Crew}
    (hturns : Turns (crew t (files.map (tried o root earlierRoot fun _ => false))) c) :
    t.Same c.1 ∧ (Finished c →
      dirty files (fun _ => false) c = files.filter (renamed o root earlierRoot)) := by
  obtain ⟨hsame, hall⟩ := still_of_turns hs ht (fun _ hvs _ => mem_tasks hvs) hturns
  refine ⟨hsame, fun hdone => ?_⟩
  obtain ⟨hlen, hzip⟩ := List.forall₂_iff_zip.mp (List.forall₂_map_left_iff.mp hall)
  have hsource (e : String × List (Outcome FileTree Fate)) (he : e ∈ files.zip c.2) :
      (!e.2.all isReady) = renamed o root earlierRoot e.1 := by
    have hms := hzip he
    rw [tried, if_neg Bool.false_ne_true] at hms
    rw [all_isReady hms (hdone e.2 (List.of_mem_zip he).2), all_transfers]
  have hfirst : (files.zip c.2).map Prod.fst = files := List.map_fst_zip hlen.le
  rw [dirty, if_neg (by simp), List.filter_congr hsource]
  conv_rhs => rw [← hfirst, List.filter_map]
  rfl

theorem filterDirty_of_still (hs : Still (files.flatMap (transfers o root earlierRoot)) t)
    (ht : t.Proper) (hearlier : o.nonempty? .precompiledDir = some earlierRoot) :
    (filterDirty o root files none (fun _ => false) t).1 =
        files.filter (renamed o root earlierRoot) ∧
      t.Same (filterDirty o root files none (fun _ => false) t).2.tree := by
  obtain ⟨c, hturns, hdone, hdirty, htree⟩ : ∃ c,
      Turns (crew t (files.map (tried o root earlierRoot fun _ => false))) c ∧ Finished c ∧
        (filterDirty o root files none (fun _ => false) t).1 = dirty files (fun _ => false) c ∧
        (filterDirty o root files none (fun _ => false) t).2.tree = c.1 :=
    exists_turns_filterDirty ht hearlier
  obtain ⟨hsame, hfiles⟩ := dirty_of_turns hs ht hturns
  exact ⟨hdirty.trans (hfiles hdone), htree ▸ hsame⟩

end Sources

section Regular
variable {o : Options} {root earlierRoot : String} {p : Progress} {t : FileTree}

theorem regular_prepareSource (file : String) (ls : List String) (hp : p.tree.Regular) :
    (prepareSource o root earlierRoot file ls p).2.tree.Regular := by
  induction ls generalizing p with
  | nil => exact hp
  | cons l ls ih =>
    rw [prepareSource_cons]
    exact ih (hp.prepareArtifact _ _)

theorem regular_prepareAll (refused : String → Bool) (fs : List String) (hp : p.tree.Regular) :
    (prepareAll o root earlierRoot refused fs p).2.tree.Regular := by
  induction fs generalizing p with
  | nil => exact hp
  | cons f fs ih =>
    unfold prepareAll
    split_ifs
    · exact ih hp
    · exact ih (regular_prepareSource f o.targets hp)

theorem regular_filterDirty (o : Options) (root : String) (files : List String)
    (earlier : Option String) (refused : String → Bool) (ht : t.Regular) :
    (filterDirty o root files earlier refused t).2.tree.Regular := by
  cases hearlier : earlierRoot? o earlier with
  | none =>
    rw [filterDirty_of_none hearlier]
    exact ht
  | some earlierRoot =>
    rw [(filterDirty_of_some hearlier root files refused t).2]
    exact regular_prepareAll refused files (p := ⟨t, []⟩) ht

end Regular

theorem filter_renamed_of_absolute {o : Options} {d : String} {files : List String} (cwd : String)
    (habs : isAbsolute d = true) (hsome : place [] d ≠ [] ∨ normalize d = d) :
    files.filter (renamed o (absolute cwd d) d) = [] := by
  rw [List.filter_eq_nil_iff]
  intro f _
  rw [renamed, List.any_eq_true]
  rintro ⟨l, -, hl⟩
  exact of_decide_eq_true hl (outputFile_eq_of_absolute habs hsome o f (some l))

theorem filter_renamed_of_relative {o : Options} {cwd d : String} {files : List String}
    (hcwd : isAbsolute cwd = true) (hd : d ≠ "") (hrel : isAbsolute d = false)
    (hne : o.targets ≠ []) : files.filter (renamed o (absolute cwd d) d) = files := by
  rw [List.filter_eq_self]
  intro f _
  obtain ⟨l, hl⟩ := List.exists_mem_of_ne_nil _ hne
  rw [renamed, List.any_eq_true]
  exact ⟨l, hl, decide_eq_true (outputFile_ne_of_relative hcwd hd hrel o f (some l))⟩

/-- Below its own root, by whatever name, a run finds the artifacts where they have to be. -/
theorem still_of_delivered {o : Options} {cwd d : String} {files : List String} {t : FileTree}
    (ht : t.Proper) (hcwd : isAbsolute cwd = true) (hstay : t.cwd = place [] cwd) (hd : d ≠ "")
    (hsources : ∀ f ∈ files, ∃ ns a, Located f ns a)
    (hthere : ∀ f ∈ files, Delivered o (absolute cwd d) t f) :
    Still (files.flatMap (transfers o (absolute cwd d) d)) t := by
  have hgoal (w : Transfer) (hw : w ∈ files.flatMap (transfers o (absolute cwd d) d)) :
      w.goal t.cwd = w.origin t.cwd ∧ ∃ c, t.node? (w.goal t.cwd) = some (.file c) := by
    obtain ⟨f, hf, hw⟩ := List.mem_flatMap.mp hw
    obtain ⟨l, hl, rfl⟩ := List.mem_map.mp hw
    constructor
    · obtain ⟨ns, a, hsource⟩ := hsources f hf
      rw [Transfer.goal, Transfer.origin, transfer_target, transfer_earlier, hsource.eq, hstay]
      exact place_outputFile_absolute hcwd hd hsource.name o (some l)
    · rw [goal_transfer (isAbsolute_absolute hcwd d)]
      exact hthere f hf l hl
  refine ⟨fun w hw hmoves => hmoves (hgoal w hw).1, fun w hw => ?_⟩
  obtain ⟨hsame, c, hc⟩ := hgoal w hw
  rw [hsame] at hc
  exact isFile_iff.mpr ⟨c, (w.content_earlier ht).mpr hc⟩

end Reuse

end TemplateHost
