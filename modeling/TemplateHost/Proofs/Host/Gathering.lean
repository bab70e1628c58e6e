import TemplateHost.Proofs.Host.Copying
import TemplateHost.Proofs.Host.Reuse

/-!
# Reuse by many at once

The artifacts of all sources are prepared at the same time. In whatever order their turns come, a
source has to be compiled if and only if an artifact of it was missing or could not be copied, and
all artifacts of the others have arrived. Reuse in one go is one such order.
-/
namespace TemplateHost.Reuse
open Layout TemplateHost.Path FileTree

def transfer (o : Options) (root earlierRoot file locale : String) : Transfer where
  earlier := outputFile o earlierRoot file (some locale)
  target := outputFile o root file (some locale)
  direct := outputFile_direct o earlierRoot file (some locale)
  below := outputFile_below o root file (some locale)

@[simp] theorem transfer_earlier (o : Options) (root earlierRoot file locale : String) :
    (transfer o root earlierRoot file locale).earlier =
      outputFile o earlierRoot file (some locale) := rfl

@[simp] theorem transfer_target (o : Options) (root earlierRoot file locale : String) :
    (transfer o root earlierRoot file locale).target = outputFile o root file (some locale) := rfl

def transfers (o : Options) (root earlierRoot file : String) : List Transfer :=
  o.targets.map (transfer o root earlierRoot file)

/-- What is tried for a source: nothing if it cannot even be looked up. -/
def tried (o : Options) (root earlierRoot : String) (refused : String → Bool) (file : String) :
    List Transfer :=
  if refused file then [] else transfers o root earlierRoot file

/-- A tree, and for each source the computations that prepare its artifacts. -/
abbrev Crew := FileTree × List (List (Outcome FileTree Fate))

def waiting (t : FileTree) (w : Transfer) : Outcome FileTree Fate := .paused t fun u => w.prepare u

def crew (t : FileTree) (tasks : List (List Transfer)) : Crew :=
  (t, tasks.map fun ws => ws.map (waiting t))

abbrev Turns : Crew → Crew → Prop := Relation.ReflTransGen (OneTurn (OneTurn Outcome.Turn))

/-- All that was to be prepared has its fate. -/
def Finished (c : Crew) : Prop := ∀ ms ∈ c.2, ∀ m ∈ ms, m.result?.isSome = true

def isReady (m : Outcome FileTree Fate) : Bool := m.result?.any Fate.isReady

def isFailed (m : Outcome FileTree Fate) : Bool := m.result?.any Fate.isFailed

/-- The sources of which not all artifacts are ready; all sources if a look-up is refused. -/
def dirty (files : List String) (refused : String → Bool) (c : Crew) : List String :=
  if files.any refused then files
  else ((files.zip c.2).filter fun e => !e.2.all isReady).map (·.1)

theorem exists_finished (c : Crew) : ∃ c', Turns c c' ∧ Finished c' := by
  obtain ⟨t, l, hturns, hl⟩ := OneTurn.exists_turns (fun (s : FileTree) ms =>
    OneTurn.exists_turns (p := fun m : Outcome FileTree Fate => m.result?.isSome = true)
      Outcome.exists_turns s ms) c.1 c.2
  exact ⟨(t, l), hturns, hl⟩

variable {ws : List Transfer} {t₀ t : FileTree}

section AnyOrder

/-- Where the preparation of one artifact stands amid the others. -/
def Stands (ws : List Transfer) (t₀ : FileTree) (w : Transfer) (t : FileTree)
    (m : Outcome FileTree Fate) : Prop :=
  m.Fits (Transferred ws t₀) (Later ws t₀) (fun fate u => w ∈ ws ∧ fate.Told w t₀ u) t

theorem stands_waiting (ht₀ : t₀.Proper) (ha : Apart t₀.cwd ws) {w : Transfer} (hw : w ∈ ws) :
    Stands ws t₀ w t (waiting t₀ w) := fun _ hu =>
  (keeps_prepare hu ht₀ ha hw).imp fun _ _ htold => ⟨hw, htold⟩

theorem preserves_stands (ws : List Transfer) (t₀ : FileTree) :
    Preserves (Transferred ws t₀) (Later ws t₀) Outcome.Turn (Stands ws t₀) :=
  .turn fun hlater ⟨hw, htold⟩ => ⟨hw, told_later hw hlater htold⟩

theorem preserves_crew {P : Transfer → FileTree → Outcome FileTree Fate → Prop}
    (hP : Preserves (Transferred ws t₀) (Later ws t₀) Outcome.Turn P) (ht₀ : t₀.Proper)
    {tasks : List (List Transfer)} (hstart : ∀ vs ∈ tasks, ∀ w ∈ vs, P w t₀ (waiting t₀ w))
    {c : Crew} (hturns : Turns (crew t₀ tasks) c) :
    Transferred ws t₀ c.1 ∧ List.Forall₂ (List.Forall₂ fun w m => P w c.1 m) tasks c.2 := by
  have hcrew : List.Forall₂ (List.Forall₂ fun w m => P w t₀ m) tasks (crew t₀ tasks).2 := by
    refine List.forall₂_map_right_iff.mpr (List.forall₂_same.mpr fun vs hvs => ?_)
    exact List.forall₂_map_right_iff.mpr (List.forall₂_same.mpr fun w hw => hstart vs hvs w hw)
  obtain ⟨hlater, hall⟩ := hP.all.all.turns (fun _ => Later.refl) (fun _ _ _ => Later.trans)
    (fun _ _ => Later.transferred) (transferred_refl ws ht₀) hcrew hturns
  exact ⟨hlater.transferred, hall⟩

/-- Whatever turns were taken, only what may change has changed, and all stand as they have to. -/
theorem stands_of_turns {tasks : List (List Transfer)} (ht₀ : t₀.Proper) (ha : Apart t₀.cwd ws)
    (hws : ∀ vs ∈ tasks, ∀ w ∈ vs, w ∈ ws) {c : Crew} (hturns : Turns (crew t₀ tasks) c) :
    Transferred ws t₀ c.1 ∧
      List.Forall₂ (List.Forall₂ fun w m => Stands ws t₀ w c.1 m) tasks c.2 :=
  preserves_crew (preserves_stands ws t₀) ht₀
    (fun vs hvs w hw => stands_waiting ht₀ ha (hws vs hvs w hw)) hturns

theorem isFile_of_arrived {w : Transfer} (ha : w.Arrived t₀ t) : t₀.isFile w.earlier = true := by
  obtain ⟨c, hc, -⟩ := ha
  exact isFile_iff.mpr ⟨c, hc⟩

/-- Where all artifacts of a source have their fates, not all are ready if and only if one was
missing or has failed; and if all are ready, all have arrived. -/
theorem fates_of_source {vs : List Transfer} {ms : List (Outcome FileTree Fate)}
    (hms : List.Forall₂ (fun w m => Stands ws t₀ w t m) vs ms)
    (hdone : ∀ m ∈ ms, m.result?.isSome = true) :
    (!ms.all isReady) = (vs.any (fun w => !t₀.isFile w.earlier) || ms.any isFailed) ∧
      (ms.all isReady = true → ∀ w ∈ vs, w.Arrived t₀ t) := by
  induction hms with
  | nil => exact ⟨rfl, nofun⟩
  | @cons w m vs ms hm _ ih =>
    obtain ⟨hone, hrest⟩ := List.forall_mem_cons.mp hdone
    obtain ⟨hiff, harrived⟩ := ih hrest
    cases m with
    | paused u rest => cases hone
    | done fate u =>
      obtain ⟨-, htold⟩ := hm
      cases fate with
      | missing =>
        have hfile : t₀.isFile w.earlier = false := htold
        simp [isReady, Outcome.result?, Fate.isReady, hfile]
      | failed kind => simp [isReady, isFailed, Outcome.result?, Fate.isReady, Fate.isFailed]
      | ready =>
        have hfile := isFile_of_arrived (t := t) htold
        have hready : isReady (.done .ready u) = true := rfl
        have hfailed : isFailed (.done .ready u) = false := rfl
        rw [List.all_cons, List.any_cons, List.any_cons, hready, hfailed, hfile]
        refine ⟨hiff, fun hall => List.forall_mem_cons.mpr ⟨htold, harrived hall⟩⟩

end AnyOrder

section OneByOne
variable {o : Options} {root earlierRoot : String} {refused : String → Bool}

theorem apart_singleton (cwd : Place) (w : Transfer) : Apart cwd [w] := by
  constructor
  · intro v u hv hu hmoves
    rw [List.mem_singleton.mp hv] at hmoves ⊢
    rwa [List.mem_singleton.mp hu]
  · intro v u hv hu _ _
    rw [List.mem_singleton.mp hv, List.mem_singleton.mp hu]

theorem proper_prepare (w : Transfer) (ht : t.Proper) : (Flow.run w.prepare t).2.Proper :=
  (later_prepare (transferred_refl [w] ht) ht (apart_singleton t.cwd w)
    (List.mem_singleton_self w)).transferred.proper

theorem turns_prepareArtifact (t₀ : FileTree) (w : Transfer) {p : Progress}
    (hp : p.tree.Proper) :
    ∃ m, Relation.ReflTransGen Outcome.Turn (p.tree, waiting t₀ w)
        ((prepareArtifact w.earlier w.target p).2.tree, m) ∧
      m.result?.isSome = true ∧ isReady m = (prepareArtifact w.earlier w.target p).1 ∧
      (prepareArtifact w.earlier w.target p).2.tree.Proper := by
  have hturns := Outcome.turns_waiting w.prepare p.tree t₀
  have hproper := proper_prepare w hp
  rw [run_prepare w hp]
  generalize Flow.run w.prepare p.tree = r at hturns hproper ⊢
  exact ⟨.done r.1 r.2, hturns, rfl, rfl, hproper⟩

theorem turns_prepareSource (t₀ : FileTree) (file : String) (ls : List String) {p : Progress}
    (hp : p.tree.Proper) :
    ∃ ms, Relation.ReflTransGen (OneTurn Outcome.Turn)
        (p.tree, (ls.map (transfer o root earlierRoot file)).map (waiting t₀))
        ((prepareSource o root earlierRoot file ls p).2.tree, ms) ∧
      (∀ m ∈ ms, m.result?.isSome = true) ∧
      ms.all isReady = (prepareSource o root earlierRoot file ls p).1 ∧
      (prepareSource o root earlierRoot file ls p).2.tree.Proper := by
  induction ls generalizing p with
  | nil => exact ⟨[], .refl, nofun, rfl, hp⟩
  | cons l ls ih =>
    have hone := turns_prepareArtifact t₀ (transfer o root earlierRoot file l) hp
    rw [transfer_earlier, transfer_target] at hone
    obtain ⟨m, hturns, hdone, hready, hafter⟩ := hone
    obtain ⟨ms, hturns', hdone', hready', hafter'⟩ := ih hafter
    rw [prepareSource_cons]
    refine ⟨m :: ms, (OneTurn.turns_head hturns _).trans (OneTurn.turns_tail m hturns'),
      List.forall_mem_cons.mpr ⟨hdone, hdone'⟩, ?_, hafter'⟩
    rw [List.all_cons, hready, hready']

theorem turns_prepareAll (o : Options) (root earlierRoot : String) (refused : String → Bool)
    (t₀ : FileTree) (fs : List String) {p : Progress} (hp : p.tree.Proper) :
    ∃ ll, Turns (p.tree, (fs.map (tried o root earlierRoot refused)).map fun vs =>
          vs.map (waiting t₀))
        ((prepareAll o root earlierRoot refused fs p).2.tree, ll) ∧
      (∀ ms ∈ ll, ∀ m ∈ ms, m.result?.isSome = true) ∧
      (fs.any refused = false →
        ll.map (·.all isReady) = (prepareAll o root earlierRoot refused fs p).1) := by
  induction fs generalizing p with
  | nil => exact ⟨[], .refl, List.forall_mem_nil _, fun _ => rfl⟩
  | cons f fs ih =>
    unfold prepareAll
    cases hrefused : refused f with
    | true =>
      obtain ⟨ll, hturns, hdone, -⟩ := ih hp
      refine ⟨[] :: ll, ?_, List.forall_mem_cons.mpr ⟨List.forall_mem_nil _, hdone⟩, ?_⟩
      · rw [List.map_cons, List.map_cons, tried, if_pos hrefused]
        exact OneTurn.turns_tail [] hturns
      · simp [hrefused]
    | false =>
      have htried : tried o root earlierRoot refused f = transfers o root earlierRoot f := by
        rw [tried, hrefused]
        rfl
      obtain ⟨ms, hturns, hdone, hready, hafter⟩ := turns_prepareSource t₀ f o.targets hp
      obtain ⟨ll, hturns', hdone', hready'⟩ := ih hafter
      refine ⟨ms :: ll, ?_, List.forall_mem_cons.mpr ⟨hdone, hdone'⟩, fun hnone => ?_⟩
      · rw [List.map_cons, List.map_cons, htried]
        exact (OneTurn.turns_head hturns _).trans (OneTurn.turns_tail ms hturns')
      · rw [List.any_cons, Bool.or_eq_false_iff] at hnone
        rw [List.map_cons, hready, hready' hnone.2]
        rfl

end OneByOne

theorem exists_mem_zip {α β : Type} {a : α} {as : List α} {bs : List β}
    (hlen : as.length = bs.length) (ha : a ∈ as) : ∃ b, (a, b) ∈ as.zip bs := by
  have hfirst : (as.zip bs).map Prod.fst = as := List.map_fst_zip hlen.le
  rw [← hfirst] at ha
  obtain ⟨⟨a, b⟩, hab, rfl⟩ := List.mem_map.mp ha
  exact ⟨b, hab⟩

def earlierRoot? (o : Options) (earlier : Option String) : Option String :=
  match earlier with
  | some d => if d = "" then o.nonempty? .precompiledDir else some d
  | none => o.nonempty? .precompiledDir

theorem filterDirty_of_none {o : Options} {earlier : Option String}
    (hnone : earlierRoot? o earlier = none) (root : String) (files : List String)
    (refused : String → Bool) (t : FileTree) :
    filterDirty o root files earlier refused t = (files, ⟨t, []⟩) := by
  unfold earlierRoot? at hnone
  unfold filterDirty
  cases earlier <;>
  · dsimp only at hnone ⊢
    rw [hnone]

/-- What reuse leaves, from what it finds out about each source. -/
theorem filterDirty_of_some {o : Options} {earlier : Option String} {earlierRoot : String}
    (hsome : earlierRoot? o earlier = some earlierRoot) (root : String) (files : List String)
    (refused : String → Bool) (t : FileTree) :
    (filterDirty o root files earlier refused t).1 = (if files.any refused then files
      else ((files.zip (prepareAll o root earlierRoot refused files ⟨t, []⟩).1).filter
        fun e => !e.2).map (·.1)) ∧
    (filterDirty o root files earlier refused t).2.tree =
      (prepareAll o root earlierRoot refused files ⟨t, []⟩).2.tree := by
  unfold earlierRoot? at hsome
  unfold filterDirty
  cases earlier <;>
  · dsimp only at hsome ⊢
    rw [hsome]
    dsimp only
    split_ifs <;> exact ⟨rfl, rfl⟩

/-- Reuse in one go is one order in which the artifacts can be prepared. -/
theorem exists_turns_filterDirty {o : Options} {root earlierRoot : String} {files : List String}
    {earlier : Option String} {refused : String → Bool} (ht₀ : t₀.Proper)
    (hearlier : earlierRoot? o earlier = some earlierRoot) :
    ∃ c, Turns (crew t₀ (files.map (tried o root earlierRoot refused))) c ∧ Finished c ∧
      (filterDirty o root files earlier refused t₀).1 = dirty files refused c ∧
      (filterDirty o root files earlier refused t₀).2.tree = c.1 := by
  obtain ⟨ll, hturns, hdone, hready⟩ := turns_prepareAll o root earlierRoot refused t₀
    files (p := ⟨t₀, []⟩) ht₀
  obtain ⟨hdirty, htree⟩ := filterDirty_of_some hearlier root files refused t₀
  refine ⟨_, hturns, hdone, ?_, htree⟩
  rw [hdirty]
  unfold dirty
  split_ifs with hrefused
  · rfl
  · rw [← hready (eq_false_of_ne_true hrefused), List.zip_map_right, List.filter_map,
      List.map_map]
    rfl

section Exact
variable {o : Options} {root earlierRoot : String} {files : List String} {earlier : Option String}
  {refused : String → Bool}

theorem mem_tried {f : String} (hf : f ∈ files) {w : Transfer}
    (hw : w ∈ tried o root earlierRoot refused f) :
    w ∈ files.flatMap (transfers o root earlierRoot) := by
  unfold tried at hw
  split_ifs at hw
  · cases hw
  · exact List.mem_flatMap.mpr ⟨f, hf, hw⟩

theorem mem_tasks {vs : List Transfer} (hvs : vs ∈ files.map (tried o root earlierRoot refused))
    {w : Transfer} (hw : w ∈ vs) : w ∈ files.flatMap (transfers o root earlierRoot) := by
  obtain ⟨f, hf, rfl⟩ := List.mem_map.mp hvs
  exact mem_tried hf hw

theorem any_transfers (f : String) :
    (transfers o root earlierRoot f).any (fun w => !t.isFile w.earlier) =
      stale o earlierRoot t f := by
  rw [transfers, List.any_map]
  rfl

theorem source_of_finished (ht : t.Proper)
    (ha : Apart t.cwd (files.flatMap (transfers o root earlierRoot))) {c : Crew}
    (hturns : Turns (crew t (files.map (tried o root earlierRoot refused))) c)
    (hdone : Finished c) (hnone : files.any refused = false) {e : String × _}
    (he : e ∈ files.zip c.2) :
    (!e.2.all isReady) = (stale o earlierRoot t e.1 || e.2.any isFailed) ∧
      (e.2.all isReady = true → ∀ l ∈ o.targets, ∃ d,
        t.content (outputFile o earlierRoot e.1 (some l)) = .ok d ∧
        c.1.content (outputFile o root e.1 (some l)) = .ok d) := by
  obtain ⟨-, hstands⟩ := stands_of_turns ht ha (fun _ hvs _ => mem_tasks hvs) hturns
  obtain ⟨f, ms⟩ := e
  obtain ⟨hf, hms⟩ := List.of_mem_zip he
  have hsource := (List.forall₂_iff_zip.mp (List.forall₂_map_left_iff.mp hstands)).2 he
  have htried : tried o root earlierRoot refused f = transfers o root earlierRoot f := by
    rw [tried, if_neg (List.any_eq_false.mp hnone f hf)]
  rw [htried] at hsource
  obtain ⟨hiff, harrived⟩ := fates_of_source hsource (hdone ms hms)
  rw [any_transfers] at hiff
  exact ⟨hiff, fun hall l hl => harrived hall _ (List.mem_map_of_mem hl)⟩

/-- Two locales, of which one lacks an artifact of a source, while another source is given twice. -/
def sampleOptions (locales : List String) : Options :=
  (Options.initial ⟨"/w", "/tmp", "/run", none⟩).set .locales (.tuple (locales.map .text))

def bytesAt (t : FileTree) (p : String) : Option (List UInt8) :=
  (t.content p).toOption.map Content.bytes

def partlyTranslated : FileTree where
  nodes := ⟨[(["p"], .directory), (["p", "en"], .directory), (["p", "de"], .directory),
    (["p", "en", "a.soy.py"], .file (.ofText "1")), (["p", "de", "a.soy.py"], .file (.ofText "2")),
    (["p", "en", "b.soy.py"], .file (.ofText "3"))]⟩
  cwd := []

/-- As texts, no target is the path of an earlier artifact, and different sources have different
targets. -/
def ApartAsTexts (o : Options) (root earlierRoot : String) (files : List String) : Prop :=
  ∀ f ∈ files, ∀ g ∈ files, ∀ l ∈ o.targets, ∀ m ∈ o.targets,
    outputFile o root f (some l) ≠ outputFile o earlierRoot g (some m) ∧
      (f ≠ g → outputFile o root f (some l) ≠ outputFile o root g (some m))

instance (o : Options) (root earlierRoot : String) (files : List String) :
    Decidable (ApartAsTexts o root earlierRoot files) :=
  inferInstanceAs (Decidable (∀ f ∈ files, ∀ g ∈ files, ∀ l ∈ o.targets, ∀ m ∈ o.targets, _))

/-- Earlier output lies within the output that is made now. -/
def nested : FileTree where
  nodes := ⟨[(["w"], .directory), (["w", "out"], .directory), (["w", "out", "x"], .directory),
    (["w", "out", "x", "x"], .directory),
    (["w", "out", "x", "b.soy.py"], .file (.ofText "1")),
    (["w", "out", "x", "x", "b.soy.py"], .file (.ofText "2"))]⟩
  cwd := ["w"]

/-- A locale that climbs out of the directory of earlier output, and back into that of another. -/
def climbing : FileTree where
  nodes := ⟨[(["w"], .directory), (["w", "z"], .directory), (["w", "z", "p"], .directory),
    (["w", "z", "p", "en"], .directory), (["w", "z", "o"], .directory),
    (["w", "z", "o", "en"], .directory),
    (["w", "z", "p", "en", "a.soy.py"], .file (.ofText "1")),
    (["w", "z", "o", "en", "a.soy.py"], .file (.ofText "2"))]⟩
  cwd := ["w"]

end Exact

end TemplateHost.Reuse
