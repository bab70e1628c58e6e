import TemplateHost.Proofs.Files.Discovery

/-!
# Growing trees

Files come to goals, and directories to the places above them. A tree that had nothing below a place
has there, once it has grown, the goals and what lies above them, and nothing else.
-/
namespace TemplateHost

namespace Path
variable {p : Place}

theorem isName_walk (hp : ∀ a ∈ p, IsName a) {s : String} (hs : '/' ∉ s.toList) :
    ∀ a ∈ walk p s, IsName a := by
  unfold walk
  split_ifs with hstay hup
  · exact hp
  · exact fun a ha => hp a ((List.dropLast_prefix p).subset ha)
  · rw [not_or] at hstay
    exact List.forall_mem_append.mpr
      ⟨hp, List.forall_mem_singleton.mpr ⟨hstay.1, hstay.2, hup, hs⟩⟩

theorem isName_place {cwd : Place} (hcwd : ∀ a ∈ cwd, IsName a) (p : String) :
    ∀ a ∈ place cwd p, IsName a := by
  have hfold (ss : List String) (hss : ∀ s ∈ ss, '/' ∉ s.toList) (q : Place)
      (hq : ∀ a ∈ q, IsName a) : ∀ a ∈ ss.foldl walk q, IsName a := by
    induction ss generalizing q with
    | nil => exact hq
    | cons s r ih =>
      obtain ⟨hs, hr⟩ := List.forall_mem_cons.mp hss
      exact ih hr _ (isName_walk hq hs)
  refine hfold _ (fun s hs => no_slash_of_mem_steps hs) _ ?_
  split_ifs
  · exact List.forall_mem_nil _
  · exact hcwd

theorem foldl_walk_filter (q : Place) (ss : List String) :
    (ss.filter fun s => s ≠ "" ∧ s ≠ ".").foldl walk q = ss.foldl walk q := by
  induction ss generalizing q with
  | nil => rfl
  | cons s r ih =>
    by_cases hs : s ≠ "" ∧ s ≠ "."
    · rw [List.filter_cons_of_pos (by simpa using hs), List.foldl_cons, List.foldl_cons, ih]
    · have hstay : walk q s = q := by
        rw [not_and_or, not_not, not_not] at hs
        exact if_pos hs
      rw [List.filter_cons_of_neg (by simpa using hs), List.foldl_cons, hstay, ih]

theorem place_lead (cwd : Place) {lead : String} (hl : lead = "/" ∨ lead = "//") (a : String) :
    place cwd (lead ++ a) = (steps a).foldl walk [] := by
  obtain ⟨es, hes, hempty⟩ := exists_steps_lead hl a
  rw [place, isAbsolute_lead hl, if_pos rfl, hes, List.foldl_append, foldl_walk_empty _ hempty]

theorem place_tidy (cwd : Place) (p : String) : place cwd (tidy p) = place cwd p := by
  have hstep : ∀ s ∈ (steps p).filter fun s => s ≠ "" ∧ s ≠ ".", s ≠ "" ∧ '/' ∉ s.toList := by
    intro s hs
    obtain ⟨hmem, hne⟩ := List.mem_filter.mp hs
    exact ⟨(of_decide_eq_true hne).1, no_slash_of_mem_steps hmem⟩
  rw [place.eq_def cwd p, ← foldl_walk_filter]
  unfold tidy
  generalize (steps p).filter (fun s => s ≠ "" ∧ s ≠ ".") = fs at hstep ⊢
  have hjoin (hne : fs ≠ []) : steps (Text.join "/" fs) = fs :=
    steps_join hne fun s hs => (hstep s hs).2
  rcases root_cases p with ⟨habs, hroot⟩ | ⟨habs, hroot⟩
  · rw [hroot, habs, String.empty_append]
    by_cases hnil : fs = []
    · subst fs
      rfl
    · have hempty : "" ∉ steps (Text.join "/" fs) := by
        rw [hjoin hnil]
        exact fun hmem => (hstep "" hmem).1 rfl
      obtain ⟨hne, hrelative⟩ := relative_of_steps hempty
      rw [orDot, if_neg hne, place, hrelative, hjoin hnil]
  · generalize root p = lead at hroot ⊢
    have hne := ne_empty_of_isAbsolute (isAbsolute_lead hroot (Text.join "/" fs))
    rw [orDot, if_neg hne, place_lead cwd hroot, habs, if_pos rfl]
    by_cases hnil : fs = []
    · subst fs
      rfl
    · rw [hjoin hnil]

theorem exists_place_concat {p a : String} {ss : List String} (hsteps : steps p = ss ++ [a])
    (ha : IsName a) (cwd : Place) : ∃ ns, place cwd p = ns ++ [a] := by
  unfold place
  rw [hsteps, List.foldl_append]
  exact ⟨_, ha.walk _⟩

end Path

namespace FileTree
open TemplateHost.Path
variable {t t' t'' : FileTree} {region p q : Place} {goals goals' : List Place} {n : Node}

theorem Regular.put (ht : t.Regular) (hq : ∀ a ∈ q, IsName a) (hproper : (t.put q n).Proper) :
    (t.put q n).Regular := by
  refine ⟨hproper, ?_, fun p m hm => ?_⟩
  · by_cases hmem : q ∈ t.nodes.keys
    · exact (Table.keys_set_of_mem t.nodes n hmem).symm ▸ ht.nodup
    · have hkeys : (t.put q n).nodes.keys = t.nodes.keys ++ [q] :=
        Table.keys_set_of_not_mem t.nodes n hmem
      rw [hkeys]
      exact List.nodup_append'.mpr ⟨ht.nodup, List.nodup_singleton q, by simpa using hmem⟩
  · by_cases hpq : p = q
    · exact hpq ▸ hq
    · rw [node?_put_ne hpq] at hm
      exact ht.named p m hm

theorem Regular.isName_place (ht : t.Regular) (path : String) :
    ∀ a ∈ place t.cwd path, IsName a :=
  Path.isName_place (ht.named _ _ ht.proper.cwd) path

theorem Regular.write (ht : t.Regular) {path : String} {c : Content}
    (h : t.write path c = .ok t') : t'.Regular := by
  obtain ⟨rfl, -, hproper⟩ := ht.proper.of_write h
  exact ht.put (ht.isName_place path) hproper

section Regular

theorem makeDirectory_ok {path : String} (h : t.makeDirectory path = .ok t') :
    ∃ p q, t.locate p = .ok q ∧ t.node? q = none ∧ t.node? q.dropLast = some .directory ∧
      t' = t.put q .directory := by
  unfold FileTree.makeDirectory at h
  generalize String.ofList (path.toList.reverse.dropWhile (· = '/')).reverse = p at h
  cases hl : t.locate p with
  | error e =>
    rw [hl] at h
    cases h
  | ok q =>
    rw [hl] at h
    simp only [bind, Except.bind] at h
    split at h
    · cases h
    · rename_i hnone hparent
      exact ⟨p, q, hl, hnone, hparent, (Except.ok.inj h).symm⟩
    · cases h
    · cases h

theorem Regular.makeDirectory (ht : t.Regular) {path : String}
    (h : t.makeDirectory path = .ok t') : t'.Regular := by
  obtain ⟨p, q, hloc, hnone, hparent, rfl⟩ := makeDirectory_ok h
  have hne : q ≠ [] := by
    rintro rfl
    cases hnone
  refine ht.put ?_ (ht.proper.put hne hparent (Or.inl rfl))
  rw [locate_ok hloc]
  exact ht.isName_place p

theorem Regular.ensureDirectory (ht : t.Regular) {path : String}
    (h : t.ensureDirectory path = .ok t') : t'.Regular := by
  unfold FileTree.ensureDirectory at h
  cases hmake : t.makeDirectory path with
  | ok u =>
    rw [hmake] at h
    exact Except.ok.inj h ▸ ht.makeDirectory hmake
  | error kind =>
    rw [hmake] at h
    dsimp only at h
    split_ifs at h
    exact Except.ok.inj h ▸ ht

theorem Regular.makeDirectoriesWithin (ht : t.Regular) {depth : Nat} {path : String}
    (h : t.makeDirectoriesWithin depth path = .ok t') : t'.Regular := by
  induction depth generalizing path t' with
  | zero => exact ht.ensureDirectory h
  | succ depth ih =>
    unfold FileTree.makeDirectoriesWithin at h
    dsimp only at h
    split_ifs at h
    · exact ht.ensureDirectory h
    · cases hup : t.makeDirectoriesWithin depth (directory path) with
      | error kind =>
        rw [hup] at h
        cases h
      | ok u =>
        rw [hup] at h
        exact (ih hup).ensureDirectory h

theorem Regular.writeNested (ht : t.Regular) {path : String} {c : Content}
    (h : t.writeNested path c = .ok t') : t'.Regular := by
  unfold FileTree.writeNested at h
  dsimp only at h
  split_ifs at h
  · exact ht.write h
  · cases hmake : t.makeDirectories (directory path) with
    | error kind =>
      rw [hmake] at h
      cases h
    | ok u =>
      rw [hmake] at h
      exact (ht.makeDirectoriesWithin hmake).write h

theorem copyFile_ok {source target : String} (h : t.copyFile source target = .ok t') :
    ∃ c, t.content source = .ok c ∧ t.write target c = .ok t' := by
  have hcopy : (t.content source >>= t.write target) = .ok t' := by
    unfold FileTree.copyFile at h
    split at h
    · split_ifs at h
      · cases h
      · exact h
    · exact h
  cases hc : t.content source with
  | error kind =>
    rw [hc] at hcopy
    cases hcopy
  | ok c =>
    rw [hc] at hcopy
    exact ⟨c, rfl, hcopy⟩

theorem Regular.copyOver (ht : t.Regular) {source target : String}
    (h : Reuse.copyOver t source target = .ok t') : t'.Regular := by
  unfold Reuse.copyOver at h
  cases hmake : t.makeDirectories (directory target) with
  | error kind =>
    rw [hmake] at h
    cases h
  | ok u =>
    rw [hmake] at h
    obtain ⟨c, -, hwrite⟩ := copyFile_ok h
    exact (ht.makeDirectoriesWithin hmake).write hwrite

theorem Regular.prepareArtifact {p : Reuse.Progress} (hp : p.tree.Regular)
    (earlier target : String) : (Reuse.prepareArtifact earlier target p).2.tree.Regular := by
  unfold Reuse.prepareArtifact
  split_ifs
  · exact hp
  · exact hp
  · cases hcopy : Reuse.copyOver p.tree earlier target with
    | ok t => exact hp.copyOver hcopy
    | error kind =>
      dsimp only
      unfold Reuse.afterAttempt
      cases hmake : p.tree.makeDirectories (directory target) with
      | ok u => exact hp.makeDirectoriesWithin hmake
      | error kind => exact hp

end Regular

/-- In a region, a tree has changed only at goals, which have become files, and above them, where
there are directories now. -/
structure Grown (region : Place) (goals : List Place) (t t' : FileTree) : Prop where
  regular : t'.Regular
  cwd : t'.cwd = t.cwd
  cases (p : Place) : region <+: p → t'.node? p = t.node? p ∨
    (∃ g ∈ goals, p <+: g.dropLast ∧ t'.node? p = some .directory) ∨
    p ∈ goals ∧ ∃ c, t'.node? p = some (.file c)

theorem grown_refl (region : Place) (goals : List Place) (ht : t.Regular) :
    Grown region goals t t := ⟨ht, rfl, fun _ _ => Or.inl rfl⟩

theorem Grown.mono (h : Grown region goals t t') (hgoals : goals ⊆ goals') :
    Grown region goals' t t' := by
  refine ⟨h.regular, h.cwd, fun p hp => ?_⟩
  rcases h.cases p hp with hsame | ⟨g, hg, habove⟩ | ⟨hg, hfile⟩
  · exact Or.inl hsame
  · exact Or.inr (Or.inl ⟨g, hgoals hg, habove⟩)
  · exact Or.inr (Or.inr ⟨hgoals hg, hfile⟩)

theorem Grown.trans (h : Grown region goals t t') (h' : Grown region goals t' t'') :
    Grown region goals t t'' := by
  refine ⟨h'.regular, h'.cwd.trans h.cwd, fun p hp => ?_⟩
  rcases h'.cases p hp with hsame | hchanged
  · rw [hsame]
    exact h.cases p hp
  · exact Or.inr hchanged

theorem Placed.grown {ws : List (Place × Content)} (h : t.Placed ws t') (ht : t'.Regular)
    (region : Place) : Grown region (ws.map Prod.fst) t t' := by
  refine ⟨ht, h.cwd, fun p _ => ?_⟩
  rcases h.cases p with ⟨w, hw, rfl, hn⟩ | ⟨w, hw, hpre, hne, hn⟩ | ⟨-, hsame⟩
  · exact Or.inr (Or.inr ⟨List.mem_map_of_mem hw, w.2, hn⟩)
  · exact Or.inr (Or.inl ⟨w.1, List.mem_map_of_mem hw, prefix_dropLast hpre hne, hn⟩)
  · exact Or.inl hsame

/-- Goals lie in a region, and none of them above another. -/
structure Level (region : Place) (goals : List Place) : Prop where
  inside (g : Place) : g ∈ goals → region <+: g
  flat (g g' : Place) : g ∈ goals → g' ∈ goals → ¬ g <+: g'.dropLast

theorem Grown.file (h : Grown region goals t t') (hlevel : Level region goals) (hp : p ∈ goals)
    {c : Content} (hc : t.node? p = some (.file c)) : ∃ d, t'.node? p = some (.file d) := by
  rcases h.cases p (hlevel.inside p hp) with hsame | ⟨g, hg, hpre, -⟩ | ⟨-, hfile⟩
  · exact ⟨c, hsame.trans hc⟩
  · exact absurd hpre (hlevel.flat p g hp hg)
  · exact hfile

end FileTree

end TemplateHost
