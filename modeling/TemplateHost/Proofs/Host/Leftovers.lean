import TemplateHost.Proofs.Flow.Footprint
import TemplateHost.Proofs.Host.Gathering

/-!
# Leftovers of reuse

Every artifact that is there is copied, also for a source that has to be compiled because another of
its artifacts is missing. In whatever order the copies are made, no file is changed but at the
targets of artifacts that have been copied. So the output for a source that has to be compiled stays
as it was if, and only if, each of its artifacts that were copied was there already.
-/
namespace TemplateHost.Reuse
open TemplateHost.Flow Layout TemplateHost.Path FileTree

/-- The paths above a path, as they are found by taking directories. -/
inductive Above (target : String) : String → Prop where
  | directory : Above target (directory target)
  | up {p : String} (hp : Above target p) : Above target (Path.directory p)

/-- Directories are made on the way to a target. -/
inductive Paves (target : String) : FileTree → FileTree → Prop where
  | refl (t : FileTree) : Paves target t t
  | trans {t t' t'' : FileTree} (h : Paves target t t') (h' : Paves target t' t'') :
    Paves target t t''
  | make {t t' : FileTree} {p : String} (hp : Above target p)
    (hmake : t.makeDirectory p = .ok t') : Paves target t t'

instance (target : String) : IsPreorder FileTree (Paves target) where
  refl := .refl
  trans _ _ _ := .trans

/-- A last stride writes the target if, and only if, the artifact is ready. -/
def Stroke (target : String) (ready : Bool) (s t : FileTree) : Prop :=
  Paves target s t ∨ ready = true ∧ ∃ u c, Paves target s u ∧ u.write target c = .ok t

theorem Stroke.of_earlier {target : String} {ready : Bool} {s t u : FileTree}
    (hst : Paves target s t) (htu : Stroke target ready t u) : Stroke target ready s u :=
  htu.imp hst.trans fun ⟨hready, v, c, hpaves, hwrite⟩ =>
    ⟨hready, v, c, hst.trans hpaves, hwrite⟩

namespace Work
variable {target p : String}

theorem paves_ensureDirectory (hp : Above target p) :
    Within (Paves target) (ensureDirectory p) := by
  unfold ensureDirectory
  refine Within.catch (within_attempt fun t => ?_) fun kind => ?_
  · dsimp only
    cases hmake : t.makeDirectory p with
    | ok t' => exact .make hp hmake
    | error kind => exact .refl t
  · refine within_pause.bind fun _ => within_read.bind fun t => ?_
    split
    · exact within_pure ()
    · exact within_throw kind

theorem paves_makeDirectoriesWithin (depth : Nat) (hp : Above target p) :
    Within (Paves target) (makeDirectoriesWithin depth p) := by
  induction depth generalizing p with
  | zero => exact paves_ensureDirectory hp
  | succ depth ih =>
    unfold makeDirectoriesWithin
    refine within_read.bind fun t => ?_
    split
    · exact within_pause.bind fun _ => paves_ensureDirectory hp
    · exact within_pause.bind fun _ => (ih hp.up).bind fun _ =>
        within_pause.bind fun _ => paves_ensureDirectory hp

end Work

section Strides
variable {target : String}

/-- The last stride of work by how it ends. -/
def Copied (target : String) (r : Except FileErrorKind Unit) : FileTree → FileTree → Prop :=
  Stroke target (Fate.ofResult r).isReady

theorem ends_bind {α : Type} {m : Work α} {f : α → Work Unit} (hm : Within (Paves target) m)
    (hf : ∀ a, Flow.Ends (Paves target) (Copied target) (f a)) :
    Flow.Ends (Paves target) (Copied target) (m >>= f) :=
  Within.ends_bind (R := Paves target) (E := Copied target)
    (fun _ _ _ _ => Stroke.of_earlier) (fun _ _ _ => Or.inl) hm hf

theorem ends_throw (kind : FileErrorKind) :
    Flow.Ends (Paves target) (Copied target) (throw kind : Work Unit) :=
  ⟨fun t => .done (Or.inl (.refl t))⟩

theorem ends_copy (w : Transfer) : Flow.Ends (Paves w.target) (Copied w.target) w.copy := by
  unfold Transfer.copy
  refine ends_bind within_read fun t => ?_
  split_ifs
  · exact ends_throw .sameFile
  refine ends_bind within_pause fun _ => ends_bind within_read fun t => ?_
  cases t.content w.earlier with
  | error kind => exact ends_throw kind
  | ok c =>
    refine ends_bind within_pause fun _ => ⟨fun t => .done ?_⟩
    change Copied w.target (Work.settle t (t.write w.target c)).1 t
      (Work.settle t (t.write w.target c)).2
    cases hwrite : t.write w.target c with
    | ok t' => exact Or.inr ⟨rfl, t, c, .refl t, hwrite⟩
    | error kind => exact Or.inl (.refl t)

theorem ends_carry (w : Transfer) : Flow.Ends (Paves w.target) (Copied w.target) w.carry := by
  unfold Transfer.carry
  exact ends_bind (Work.paves_makeDirectoriesWithin _ .directory) fun _ =>
    ends_bind within_pause fun _ => ends_copy w

theorem ends_deliver (w : Transfer) (t : FileTree) :
    (w.deliver t).Ends (Paves w.target) (fun fate => Stroke w.target fate.isReady) t := by
  unfold Transfer.deliver
  exact (ends_carry w).result Fate.ofResult (fun _ _ _ => id) t

theorem ends_prepare (w : Transfer) (t : FileTree) :
    (w.prepare t).Ends (Paves w.target) (fun fate => Stroke w.target fate.isReady) t := by
  rw [prepare_apply]
  split_ifs
  · exact .done (Or.inl (.refl t))
  · exact .paused (.refl t) (ends_deliver w)
  · exact .done (Or.inl (.refl t))

end Strides

section Marks
variable {ws : List Transfer} {cwd : Place} {s t u : FileTree} {w : Transfer} {p : Place}

/-- A place is as it was, or a directory has been made there that is above a goal. -/
def Unmarked (ws : List Transfer) (cwd : Place) (s t : FileTree) (p : Place) : Prop :=
  t.node? p = s.node? p ∨
  ∃ w ∈ ws, p <+: (w.goal cwd).dropLast ∧ s.node? p = none ∧ t.node? p = some .directory

theorem unmarked_refl (ws : List Transfer) (cwd : Place) (t : FileTree) (p : Place) :
    Unmarked ws cwd t t p := Or.inl rfl

theorem Unmarked.trans (hst : Unmarked ws cwd s t p) (htu : Unmarked ws cwd t u p) :
    Unmarked ws cwd s u p := by
  rcases hst with hst | ⟨w, hw, hp, hnone, hdir⟩
  · unfold Unmarked at htu
    rwa [hst] at htu
  · rcases htu with htu | ⟨v, -, -, hnone', -⟩
    · exact Or.inr ⟨w, hw, hp, hnone, htu.trans hdir⟩
    · rw [hdir] at hnone'
      cases hnone'

theorem Unmarked.file_iff (h : Unmarked ws cwd s t p) (c : Content) :
    t.node? p = some (.file c) ↔ s.node? p = some (.file c) := by
  rcases h with h | ⟨w, -, -, hnone, hdir⟩
  · rw [h]
  · simp [hnone, hdir]

theorem Transfer.above_cases (w : Transfer) {q : String} (hq : Above w.target q) :
    q = "" ∨ ∃ lead k ns, Direct q lead k ns ∧
      (ns = [] ∨ ∀ cwd, place cwd q <+: (w.goal cwd).dropLast) := by
  induction hq with
  | directory =>
    by_cases hne : directory w.target = ""
    · exact Or.inl hne
    · obtain ⟨lead, k, ns, a, hd⟩ := w.below
      have hhead := hd.directory hne
      refine Or.inr ⟨lead, k, ns, hhead, Or.inr fun cwd => ?_⟩
      have heq : place cwd (directory w.target) = (w.goal cwd).dropLast := by
        rw [goal, hd.place, hhead.place, ← List.append_assoc, List.dropLast_concat]
      exact heq ▸ List.prefix_rfl
  | @up q hq ih =>
    by_cases hne : directory q = ""
    · exact Or.inl hne
    rcases ih with rfl | ⟨lead, k, ns, hd, hplace⟩
    · exact Or.inl rfl
    · rcases List.eq_nil_or_concat ns with rfl | ⟨ms, a, rfl⟩
      · obtain ⟨j, hup⟩ := hd.directory_climb hne
        exact Or.inr ⟨lead, j, [], hup, Or.inl rfl⟩
      · rw [List.concat_eq_append] at hd hplace
        have hhead := hd.directory hne
        refine Or.inr ⟨lead, k, ms, hhead, Or.inr fun cwd => ?_⟩
        refine List.IsPrefix.trans ?_ ((hplace.resolve_left (by simp)) cwd)
        rw [hd.place, hhead.place, ← List.append_assoc]
        exact List.prefix_append _ _

theorem Paves.unmarked (hw : w ∈ ws) (hs : s.Proper ∧ s.cwd = cwd) (h : Paves w.target s t) :
    (t.Proper ∧ t.cwd = cwd) ∧ ∀ p, Unmarked ws cwd s t p := by
  induction h with
  | refl t => exact ⟨hs, unmarked_refl ws cwd t⟩
  | trans _ _ ih ih' =>
    obtain ⟨ht, hst⟩ := ih hs
    obtain ⟨hu, htu⟩ := ih' ht
    exact ⟨hu, fun p => (hst p).trans (htu p)⟩
  | @make s t q hq hmake =>
    obtain ⟨hproper, rfl⟩ := hs
    rcases w.above_cases hq with rfl | ⟨lead, k, ns, hd, habove⟩
    · rw [makeDirectory_empty] at hmake
      cases hmake
    · obtain ⟨hnone, hparent, rfl⟩ := (hproper.makeDirectory_ok_iff hd).mp hmake
      have hprefix : place s.cwd q <+: (w.goal s.cwd).dropLast := by
        rcases habove with rfl | habove
        · rw [hproper.directory_of_climb hd] at hnone
          cases hnone
        · exact habove s.cwd
      have hne : place s.cwd q ≠ [] := by
        intro hnil
        rw [hnil] at hnone
        cases hnone
      refine ⟨⟨hproper.put hne hparent (Or.inl rfl), rfl⟩, fun p => ?_⟩
      by_cases hp : p = place s.cwd q
      · subst p
        exact Or.inr ⟨w, hw, hprefix, hnone, node?_put_self hne _⟩
      · exact Or.inl (node?_put_ne hp _)

theorem Stroke.unmarked {ready : Bool} (hw : w ∈ ws) (hs : s.Proper ∧ s.cwd = cwd)
    (h : Stroke w.target ready s t) : (t.Proper ∧ t.cwd = cwd) ∧
      ∀ p, Unmarked ws cwd s t p ∨ ready = true ∧ p = w.goal cwd := by
  rcases h with hpaves | ⟨hready, u, c, hpaves, hwrite⟩
  · obtain ⟨ht, hmarks⟩ := hpaves.unmarked hw hs
    exact ⟨ht, fun p => Or.inl (hmarks p)⟩
  · obtain ⟨⟨hu, hcwd⟩, hmarks⟩ := hpaves.unmarked hw hs
    obtain ⟨hput, -, hproper⟩ := hu.of_write hwrite
    rw [hcwd] at hput
    refine ⟨⟨hproper, by rw [hput]; exact hcwd⟩, fun p => ?_⟩
    by_cases hp : p = w.goal cwd
    · exact Or.inr ⟨hready, hp⟩
    · refine Or.inl ((hmarks p).trans (Or.inl ?_))
      rw [hput]
      exact node?_put_ne hp _

/-- Whatever turns are taken, all that is marked are the goals of artifacts that are ready. -/
theorem marks_of_turns (ws : List Transfer) {tasks : List (List Transfer)} (ht : t.Proper)
    (hws : ∀ vs ∈ tasks, ∀ w ∈ vs, w ∈ ws) {c : Crew} (hturns : Turns (crew t tasks) c) :
    c.1.Proper ∧ c.1.cwd = t.cwd ∧
      ∀ p, Unmarked ws t.cwd t c.1 p ∨ ∃ e ∈ tasks.zip c.2, ∃ d ∈ e.1.zip e.2,
        isReady d.2 = true ∧ p = d.1.goal t.cwd := by
  have haccounts : Accounts (fun s : FileTree => s.Proper ∧ s.cwd = t.cwd)
      (Unmarked ws t.cwd) Outcome.Turn
      (fun w o => w ∈ ws ∧ Accounts.Open (Paves w.target)
        (fun fate : Fate => Stroke w.target fate.isReady) o)
      (fun w o p => ∃ fate, o.result? = some fate ∧ fate.isReady = true ∧ p = w.goal t.cwd) :=
    .outcome (fun hw hs hpaves => hpaves.unmarked hw hs)
      (fun hw hs hstroke => hstroke.unmarked hw hs)
  have hstart : List.Forall₂ (List.Forall₂ fun w o => w ∈ ws ∧ Accounts.Open (Paves w.target)
      (fun fate : Fate => Stroke w.target fate.isReady) o) tasks (crew t tasks).2 := by
    refine List.forall₂_map_right_iff.mpr (List.forall₂_same.mpr fun vs hvs => ?_)
    exact List.forall₂_map_right_iff.mpr (List.forall₂_same.mpr fun w hw =>
      ⟨hws vs hvs w hw, ends_prepare w⟩)
  obtain ⟨⟨hproper, hcwd⟩, -, hmarks⟩ := haccounts.all.all.turns
    (fun s p => unmarked_refl ws t.cwd s p) Unmarked.trans ⟨ht, rfl⟩ hstart hturns
  refine ⟨hproper, hcwd, fun p => (hmarks p).imp_right ?_⟩
  rintro ⟨e, he, d, hd, fate, hresult, hready, hp⟩
  refine ⟨e, he, d, hd, ?_, hp⟩
  rw [isReady, hresult]
  exact hready

end Marks

section Sources
variable {o : Options} {root earlierRoot : String} {files : List String} {earlier : Option String}
  {refused : String → Bool} {t : FileTree} {c : Crew} {f l : String}

/-- A source's artifact for a locale is ready, or has failed, wherever the source is listed. -/
def Stood (status : Outcome FileTree Fate → Bool) (o : Options) (files : List String) (c : Crew)
    (f l : String) : Prop :=
  ∃ ms, (f, ms) ∈ files.zip c.2 ∧ ∃ m, (l, m) ∈ o.targets.zip ms ∧ status m = true

/-- Different artifacts have different places to go to. -/
def Distinct (cwd : Place) (o : Options) (root : String) (files : List String) : Prop :=
  ∀ f ∈ files, ∀ g ∈ files, ∀ l ∈ o.targets, ∀ m ∈ o.targets,
    place cwd (outputFile o root f (some l)) = place cwd (outputFile o root g (some m)) →
      f = g ∧ l = m

instance (cwd : Place) (o : Options) (root : String) (files : List String) :
    Decidable (Distinct cwd o root files) :=
  inferInstanceAs (Decidable (∀ f ∈ files, ∀ g ∈ files, ∀ l ∈ o.targets, ∀ m ∈ o.targets, _))

theorem stood_of_zip {e : List Transfer × List (Outcome FileTree Fate)}
    {d : Transfer × Outcome FileTree Fate}
    (he : e ∈ (files.map (tried o root earlierRoot refused)).zip c.2) (hd : d ∈ e.1.zip e.2)
    (hready : isReady d.2 = true) :
    ∃ f ∈ files, ∃ l ∈ o.targets, Stood isReady o files c f l ∧
      d.1 = transfer o root earlierRoot f l := by
  rw [List.zip_map_left] at he
  obtain ⟨⟨f, ms⟩, hms, rfl⟩ := List.mem_map.mp he
  simp only [Prod.map_fst, Prod.map_snd, id_eq, tried] at hd
  split_ifs at hd
  · cases hd
  · rw [transfers, List.zip_map_left] at hd
    obtain ⟨⟨l, m⟩, hm, rfl⟩ := List.mem_map.mp hd
    exact ⟨f, (List.of_mem_zip hms).1, l, (List.of_mem_zip hm).1, ⟨ms, hms, m, hm, hready⟩, rfl⟩

/-- No file comes or goes but where a ready artifact has to be. -/
theorem file_iff_of_turns (ht : t.Proper)
    (hturns : Turns (crew t (files.map (tried o root earlierRoot refused))) c) {p : Place}
    (hp : ∀ f ∈ files, ∀ l ∈ o.targets, Stood isReady o files c f l →
      p ≠ place t.cwd (outputFile o root f (some l))) (d : Content) :
    c.1.node? p = some (.file d) ↔ t.node? p = some (.file d) := by
  obtain ⟨-, -, hmarks⟩ := marks_of_turns (files.flatMap (transfers o root earlierRoot)) ht
    (fun _ hvs _ => mem_tasks hvs) hturns
  rcases hmarks p with hunmarked | ⟨e, he, x, hx, hready, rfl⟩
  · exact hunmarked.file_iff d
  · obtain ⟨f, hf, l, hl, hreadied, hw⟩ := stood_of_zip he hx hready
    rw [hw] at hp
    exact absurd rfl (hp f hf l hl hreadied)

theorem content_of_not_readied (ht : t.Proper)
    (hturns : Turns (crew t (files.map (tried o root earlierRoot refused))) c)
    (hdistinct : Distinct t.cwd o root files) (hf : f ∈ files) (hl : l ∈ o.targets)
    (hnot : ¬ Stood isReady o files c f l) (d : Content) :
    c.1.content (outputFile o root f (some l)) = .ok d ↔
      t.content (outputFile o root f (some l)) = .ok d := by
  obtain ⟨hproper, hcwd, -⟩ := marks_of_turns (files.flatMap (transfers o root earlierRoot)) ht
    (fun _ hvs _ => mem_tasks hvs) hturns
  have hafter := (transfer o root earlierRoot f l).content_target (c := d) hproper
  have hbefore := (transfer o root earlierRoot f l).content_target (c := d) ht
  rw [transfer_target, hcwd] at hafter
  rw [transfer_target] at hbefore
  rw [hafter, hbefore]
  apply file_iff_of_turns ht hturns
  intro g hg m hm hreadied hplace
  obtain ⟨rfl, rfl⟩ := hdistinct f hf g hg l hl m hm hplace
  exact hnot hreadied

/-- What is ready has arrived, if no goal is where something comes from. -/
theorem content_of_readied (ht : t.Proper)
    (ha : Apart t.cwd (files.flatMap (transfers o root earlierRoot)))
    (hturns : Turns (crew t (files.map (tried o root earlierRoot refused))) c)
    (hreadied : Stood isReady o files c f l) :
    ∃ d, t.content (outputFile o earlierRoot f (some l)) = .ok d ∧
      c.1.content (outputFile o root f (some l)) = .ok d := by
  obtain ⟨-, hstands⟩ := stands_of_turns ht ha (fun _ hvs _ => mem_tasks hvs) hturns
  obtain ⟨ms, hms, m, hm, hready⟩ := hreadied
  have hsource := (List.forall₂_iff_zip.mp (List.forall₂_map_left_iff.mp hstands)).2 hms
  unfold tried at hsource
  split_ifs at hsource
  · cases hsource
    cases (List.of_mem_zip hm).2
  · have hone := (List.forall₂_iff_zip.mp (List.forall₂_map_left_iff.mp hsource)).2 hm
    cases m with
    | paused u rest => cases hready
    | done fate u =>
      cases fate with
      | missing => cases hready
      | failed kind => cases hready
      | ready => exact hone.2

/-- In the end an artifact that is there is ready unless its copy has failed. -/
theorem stood_of_isFile (ht : t.Proper)
    (ha : Apart t.cwd (files.flatMap (transfers o root earlierRoot)))
    (hturns : Turns (crew t (files.map (tried o root earlierRoot refused))) c)
    (hdone : Finished c) (hf : f ∈ files) (hrefused : refused f = false) (hl : l ∈ o.targets)
    (hfile : t.isFile (outputFile o earlierRoot f (some l)) = true) :
    Stood isReady o files c f l ∨ Stood isFailed o files c f l := by
  obtain ⟨-, hstands⟩ := stands_of_turns ht ha (fun _ hvs _ => mem_tasks hvs) hturns
  have hsources := List.forall₂_map_left_iff.mp hstands
  obtain ⟨ms, hms⟩ := exists_mem_zip hsources.length_eq hf
  have hsource := (List.forall₂_iff_zip.mp hsources).2 hms
  rw [tried, hrefused] at hsource
  have hlocales := List.forall₂_map_left_iff.mp hsource
  obtain ⟨m, hm⟩ := exists_mem_zip hlocales.length_eq hl
  have hone := (List.forall₂_iff_zip.mp hlocales).2 hm
  have hended := hdone ms (List.of_mem_zip hms).2 m (List.of_mem_zip hm).2
  cases m with
  | paused u rest => cases hended
  | done fate u =>
    cases fate with
    | missing =>
      have hmissing : t.isFile (outputFile o earlierRoot f (some l)) = false := hone.2
      rw [hfile] at hmissing
      cases hmissing
    | ready => exact Or.inl ⟨ms, hms, _, hm, rfl⟩
    | failed kind => exact Or.inr ⟨ms, hms, _, hm, rfl⟩

/-- **What reuse leaves of sources that have to be compiled.** No file comes or goes but where an
artifact that is ready has to be. The output for a source that has to be compiled stays as it was if
and only if its artifacts that are ready were there already. -/
theorem leftovers_exact (ht : t.Proper) :
    (earlierRoot? o earlier = none →
      filterDirty o root files earlier refused t = (files, ⟨t, []⟩)) ∧
    ∀ earlierRoot, earlierRoot? o earlier = some earlierRoot →
      (∃ c, Turns (crew t (files.map (tried o root earlierRoot refused))) c ∧ Finished c ∧
        (filterDirty o root files earlier refused t).1 = dirty files refused c ∧
        (filterDirty o root files earlier refused t).2.tree = c.1) ∧
      ∀ c, Turns (crew t (files.map (tried o root earlierRoot refused))) c →
        (∀ p d, (∀ f ∈ files, ∀ l ∈ o.targets, Stood isReady o files c f l →
            p ≠ place t.cwd (outputFile o root f (some l))) →
          (c.1.node? p = some (.file d) ↔ t.node? p = some (.file d))) ∧
        (Distinct t.cwd o root files → ∀ f ∈ files, ∀ l ∈ o.targets, ¬ Stood isReady o files c f l →
          ∀ d, c.1.content (outputFile o root f (some l)) = .ok d ↔
            t.content (outputFile o root f (some l)) = .ok d) ∧
        (Apart t.cwd (files.flatMap (transfers o root earlierRoot)) →
          (∀ f l, Stood isReady o files c f l →
            ∃ d, t.content (outputFile o earlierRoot f (some l)) = .ok d ∧
              c.1.content (outputFile o root f (some l)) = .ok d) ∧
          (Finished c → ∀ f ∈ files, refused f = false → ∀ l ∈ o.targets,
            t.isFile (outputFile o earlierRoot f (some l)) = true →
              Stood isReady o files c f l ∨ Stood isFailed o files c f l) ∧
          (Distinct t.cwd o root files → ∀ f ∈ dirty files refused c,
            ((∀ l ∈ o.targets, ∀ d, c.1.content (outputFile o root f (some l)) = .ok d ↔
                t.content (outputFile o root f (some l)) = .ok d) ↔
              ∀ l ∈ o.targets, Stood isReady o files c f l →
                t.content (outputFile o root f (some l)) =
                  t.content (outputFile o earlierRoot f (some l))))) := by
  refine ⟨fun hnone => filterDirty_of_none hnone root files refused t, ?_⟩
  intro earlierRoot hearlier
  refine ⟨exists_turns_filterDirty ht hearlier, fun c hturns => ?_⟩
  refine ⟨fun p d hp => file_iff_of_turns ht hturns hp d,
    fun hdistinct f hf l hl hnot => content_of_not_readied ht hturns hdistinct hf hl hnot,
    fun ha => ⟨fun f l => content_of_readied ht ha hturns,
      fun hdone f hf hrefused l hl => stood_of_isFile ht ha hturns hdone hf hrefused hl,
      fun hdistinct f hf => ?_⟩⟩
  have hmem : f ∈ files := by
    unfold dirty at hf
    split_ifs at hf
    · exact hf
    · obtain ⟨e, he, rfl⟩ := List.mem_map.mp hf
      exact (List.of_mem_zip (List.mem_of_mem_filter he)).1
  constructor
  · intro hsame l hl hreadied
    obtain ⟨d, hd, harrived⟩ := content_of_readied ht ha hturns hreadied
    rw [hd]
    exact (hsame l hl d).mp harrived
  · intro hthere l hl d
    by_cases hreadied : Stood isReady o files c f l
    · obtain ⟨d', hd', harrived⟩ := content_of_readied ht ha hturns hreadied
      rw [hthere l hl hreadied, hd', harrived]
    · exact content_of_not_readied ht hturns hdistinct hmem hl hreadied d

/-- A source is not translated into German, and its English output is there all the same. -/
theorem leftovers_exact_partlyTranslated :
    partlyTranslated.Proper ∧
    Apart partlyTranslated.cwd (["a.soy", "b.soy"].flatMap
      (transfers (sampleOptions ["en", "de"]) "/o" "/p")) ∧
    Distinct partlyTranslated.cwd (sampleOptions ["en", "de"]) "/o" ["a.soy", "b.soy"] ∧
    ∃ c, Turns (crew partlyTranslated (["a.soy", "b.soy"].map
        (tried (sampleOptions ["en", "de"]) "/o" "/p" fun _ => false))) c ∧
      Finished c ∧ dirty ["a.soy", "b.soy"] (fun _ => false) c = ["b.soy"] ∧
      bytesAt partlyTranslated "/o/en/b.soy.py" = none ∧
      bytesAt c.1 "/o/en/b.soy.py" = some [51] ∧
      ∃ l, Stood isReady (sampleOptions ["en", "de"]) ["a.soy", "b.soy"] c "b.soy" l := by
  have hproper : partlyTranslated.Proper := proper_of_wellPlaced (by decide)
  have hapart : Apart partlyTranslated.cwd (["a.soy", "b.soy"].flatMap
      (transfers (sampleOptions ["en", "de"]) "/o" "/p")) := by decide +kernel
  have hdistinct : Distinct partlyTranslated.cwd (sampleOptions ["en", "de"]) "/o"
      ["a.soy", "b.soy"] := by decide +kernel
  obtain ⟨⟨c, hturns, hdone, hdirty, htree⟩, hall⟩ := (@leftovers_exact (sampleOptions ["en", "de"])
    "/o" ["a.soy", "b.soy"] (some "/p") (fun _ => false) partlyTranslated hproper).2 "/p" rfl
  have hbefore : bytesAt partlyTranslated "/o/en/b.soy.py" = none := by decide +kernel
  have hafter : bytesAt c.1 "/o/en/b.soy.py" = some [51] := by
    rw [← htree]
    decide +kernel
  have hcopied : Stood isReady (sampleOptions ["en", "de"]) ["a.soy", "b.soy"] c "b.soy" "en" := by
    have htarget : outputFile (sampleOptions ["en", "de"]) "/o" "b.soy" (some "en") =
        "/o/en/b.soy.py" := by decide +kernel
    by_contra hnot
    have hsame := (hall c hturns).2.1 hdistinct "b.soy" (by decide) "en" (by decide) hnot
    rw [htarget] at hsame
    unfold bytesAt at hbefore hafter
    cases hcontent : c.1.content "/o/en/b.soy.py" with
    | error e =>
      rw [hcontent] at hafter
      cases hafter
    | ok d =>
      rw [(hsame d).mp hcontent] at hbefore
      cases hbefore
  refine ⟨hproper, hapart, hdistinct, c, hturns, hdone, ?_, hbefore, hafter, "en", hcopied⟩
  rw [← hdirty]
  decide +kernel

end Sources

end TemplateHost.Reuse
