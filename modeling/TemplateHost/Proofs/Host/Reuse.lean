import TemplateHost.Host.Reuse
import TemplateHost.Proofs.Options.Artifact

/-!
# What reuse does

Each artifact of an earlier run that is there is copied to where the run's own output goes, and
nothing else happens. A source is left out of the compilation if all its artifacts are there.
-/
namespace TemplateHost.Reuse
open Layout TemplateHost.Path

def present (o : Options) (earlierRoot : String) (t : FileTree) (file locale : String) : Bool :=
  t.isFile (outputFile o earlierRoot file (some locale))

/-- Whether a source has to be compiled: some artifact of it is missing. -/
def stale (o : Options) (earlierRoot : String) (t : FileTree) (file : String) : Bool :=
  o.targets.any fun l => !present o earlierRoot t file l

/-- The artifacts of a source for some locales that are there, where its own output goes. -/
def copies (o : Options) (root earlierRoot : String) (yield : String → String → Option Content)
    (t : FileTree) (file : String) (locales : List String) : List (Place × Content) :=
  (locales.filter (present o earlierRoot t file)).filterMap (artifact o root yield file)

/-- An earlier run left artifacts for some sources, apart from where output goes now, and for those
which it left it made what would be made now. -/
structure Earlier (o : Options) (root earlierRoot : String) (files : List String)
    (yield : String → String → Option Content) (t : FileTree) : Prop where
  apart (f g l m : String) : f ∈ files → g ∈ files → l ∈ o.targets → m ∈ o.targets →
    place t.cwd (outputFile o earlierRoot f (some l)) ≠ artifactPlace o root g m
  exact (f l : String) (c : Content) : f ∈ files → l ∈ o.targets →
    t.content (outputFile o earlierRoot f (some l)) = .ok c → yield f l = some c

variable {o : Options} {root earlierRoot : String} {files : List String}
  {yield : String → String → Option Content} {t₀ t₁ : FileTree} {ws : List (Place × Content)}
  {p : Progress}

theorem present_eq (hc : Filling o root yield files t₀ ws p.tree) (ht : t₀.Proper)
    (he : Earlier o root earlierRoot files yield t₀) {f l : String} (hf : f ∈ files)
    (hl : l ∈ o.targets) : present o earlierRoot p.tree f l = present o earlierRoot t₀ f l := by
  have hapart (w : Place × Content) (hw : w ∈ ws) :
      place t₀.cwd (outputFile o earlierRoot f (some l)) ≠ w.1 := by
    obtain ⟨g, hg, m, hm, d, -, rfl⟩ := mem_artifacts.mp (hc.subset hw)
    exact he.apart f g l m hf hg hl hm
  obtain ⟨lead, k, ns, hd⟩ := outputFile_direct o earlierRoot f (some l)
  unfold present
  rw [Bool.eq_iff_iff, FileTree.isFile_iff, FileTree.isFile_iff]
  constructor
  · rintro ⟨c, hcont⟩
    rw [(hc.placed.proper ht).content_iff hd, hc.placed.cwd] at hcont
    refine ⟨c, (ht.content_iff hd).mpr ?_⟩
    rcases hc.placed.cases (place t₀.cwd (outputFile o earlierRoot f (some l))) with
      ⟨w, hw, heq, -⟩ | ⟨w, -, -, -, hn⟩ | ⟨-, hn⟩
    · exact absurd heq (hapart w hw)
    · rw [hn] at hcont
      cases hcont
    · rwa [← hn]
  · rintro ⟨c, hcont⟩
    exact ⟨c, hc.placed.content hcont hapart⟩

theorem copies_nil (o : Options) (root earlierRoot : String)
    (yield : String → String → Option Content) (t : FileTree) (f : String) :
    copies o root earlierRoot yield t f [] = [] := rfl

theorem copies_cons (o : Options) (root earlierRoot : String)
    (yield : String → String → Option Content) (t : FileTree) (f l : String) (r : List String) :
    copies o root earlierRoot yield t f (l :: r) =
      (if present o earlierRoot t f l then (artifact o root yield f l).toList else []) ++
        copies o root earlierRoot yield t f r := by
  unfold copies
  by_cases hp : present o earlierRoot t f l = true
  · rw [List.filter_cons_of_pos hp, if_pos hp, List.filterMap_cons]
    cases artifact o root yield f l <;> rfl
  · rw [List.filter_cons_of_neg hp, if_neg hp, List.nil_append]

theorem prepareArtifact_spec (hroot : isAbsolute root = true)
    (hc : Filling o root yield files t₀ ws p.tree) (ht : t₀.Proper)
    (he : Earlier o root earlierRoot files yield t₀)
    (hfull : t₀.Placed (artifacts o root yield files) t₁) {f l : String} (hf : f ∈ files)
    (hl : l ∈ o.targets) :
    ∃ t', Reuse.prepareArtifact (outputFile o earlierRoot f (some l))
        (outputFile o root f (some l)) p = (present o earlierRoot t₀ f l, ⟨t', p.log⟩) ∧
      Filling o root yield files t₀ (ws ++
        if present o earlierRoot t₀ f l then (artifact o root yield f l).toList else []) t' := by
  have hpresent := present_eq hc ht he hf hl
  unfold present at hpresent
  unfold Reuse.prepareArtifact
  rw [hpresent]
  by_cases hp : t₀.isFile (outputFile o earlierRoot f (some l)) = true
  · obtain ⟨c, hcont⟩ := FileTree.isFile_iff.mp hp
    have hyield := he.exact f l c hf hl hcont
    have hmem := mem_artifacts_of root hf hl hyield
    obtain ⟨hs, ns, a, hplace⟩ := straight_artifactPlace hroot o f l
    have hapart := he.apart f f l l hf hf hl hl
    have hne : outputFile o root f (some l) ≠ outputFile o earlierRoot f (some l) := fun h =>
      hapart (by rw [← h, hs.place])
    have hcont' := hc.content hcont fun g hg m hm => he.apart f g l m hf hg hl hm
    have hfree := hc.free hfull hmem
    rw [hplace] at hs hapart hfree hmem
    obtain ⟨t', hcopy, hnew⟩ := (hc.placed.proper ht).copyOver hs hfree hcont'
      (by rwa [hc.placed.cwd])
    refine ⟨t', by simp [hp, hne, hcopy, present], ?_⟩
    rw [present, if_pos hp, artifact, hyield, hplace]
    exact hc.add hfull hnew (List.cons_subset.mpr ⟨hmem, List.nil_subset _⟩)
  · refine ⟨p.tree, by simp [hp, present], ?_⟩
    rw [present, if_neg hp, List.append_nil]
    exact hc

theorem prepareSource_cons (o : Options) (root earlierRoot file l : String) (r : List String)
    (p : Progress) :
    Reuse.prepareSource o root earlierRoot file (l :: r) p =
      ((Reuse.prepareArtifact (outputFile o earlierRoot file (some l))
          (outputFile o root file (some l)) p).1 &&
        (Reuse.prepareSource o root earlierRoot file r
          (Reuse.prepareArtifact (outputFile o earlierRoot file (some l))
            (outputFile o root file (some l)) p).2).1,
      (Reuse.prepareSource o root earlierRoot file r
        (Reuse.prepareArtifact (outputFile o earlierRoot file (some l))
          (outputFile o root file (some l)) p).2).2) := by
  rw [Reuse.prepareSource]

theorem prepareSource_spec (hroot : isAbsolute root = true)
    (hc : Filling o root yield files t₀ ws p.tree) (ht : t₀.Proper)
    (he : Earlier o root earlierRoot files yield t₀)
    (hfull : t₀.Placed (artifacts o root yield files) t₁) {f : String} (hf : f ∈ files)
    (ls : List String) (hls : ∀ l ∈ ls, l ∈ o.targets) :
    ∃ t', Reuse.prepareSource o root earlierRoot f ls p =
        (ls.all (present o earlierRoot t₀ f), ⟨t', p.log⟩) ∧
      Filling o root yield files t₀ (ws ++ copies o root earlierRoot yield t₀ f ls) t' := by
  induction ls generalizing p ws with
  | nil => exact ⟨p.tree, rfl, by rwa [copies_nil, List.append_nil]⟩
  | cons l r ih =>
    obtain ⟨t₂, hone, hc₂⟩ :=
      prepareArtifact_spec hroot hc ht he hfull hf (hls l List.mem_cons_self)
    obtain ⟨t₃, hrest, hc₃⟩ := ih (p := ⟨t₂, p.log⟩) hc₂ fun m hm =>
      hls m (List.mem_cons_of_mem _ hm)
    refine ⟨t₃, ?_, ?_⟩
    · rw [prepareSource_cons, hone]
      dsimp only
      rw [hrest]
      rfl
    · rw [copies_cons, ← List.append_assoc]
      exact hc₃

theorem prepareAll_spec (hroot : isAbsolute root = true)
    (hc : Filling o root yield files t₀ ws p.tree) (ht : t₀.Proper)
    (he : Earlier o root earlierRoot files yield t₀)
    (hfull : t₀.Placed (artifacts o root yield files) t₁) (fs : List String)
    (hfs : ∀ f ∈ fs, f ∈ files) :
    ∃ t', Reuse.prepareAll o root earlierRoot (fun _ => false) fs p =
        (fs.map fun f => !stale o earlierRoot t₀ f, ⟨t', p.log⟩) ∧
      Filling o root yield files t₀
        (ws ++ fs.flatMap fun f => copies o root earlierRoot yield t₀ f o.targets) t' := by
  induction fs generalizing p ws with
  | nil => exact ⟨p.tree, rfl, by rwa [List.flatMap_nil, List.append_nil]⟩
  | cons f r ih =>
    obtain ⟨t₂, hone, hc₂⟩ := prepareSource_spec hroot hc ht he hfull (hfs f List.mem_cons_self)
      o.targets fun _ hl => hl
    obtain ⟨t₃, hrest, hc₃⟩ := ih (p := ⟨t₂, p.log⟩) hc₂ fun g hg =>
      hfs g (List.mem_cons_of_mem _ hg)
    refine ⟨t₃, ?_, ?_⟩
    · unfold Reuse.prepareAll
      dsimp only
      rw [if_neg (by simp), hone]
      dsimp only
      rw [hrest]
      simp [stale, List.not_any_eq_all_not]
    · rw [List.flatMap_cons, ← List.append_assoc]
      exact hc₃

theorem filter_zip_map (fs : List String) (g : String → Bool) :
    ((fs.zip (fs.map g)).filter fun e => !e.2).map (·.1) = fs.filter fun f => !g f := by
  induction fs with
  | nil => rfl
  | cons f r ih =>
    cases hg : g f <;> simp [hg] <;> simpa using ih

theorem filterDirty_none (root : String) (files : List String) (t : FileTree)
    (hnone : o.nonempty? .precompiledDir = none) :
    filterDirty o root files none (fun _ => false) t = (files, ⟨t, []⟩) := by
  unfold filterDirty
  dsimp only
  rw [hnone]

/-- Reuse leaves the stale sources, in order, and puts in place every artifact that is there. -/
theorem filterDirty_spec (hroot : isAbsolute root = true) (ht : t₀.Proper)
    (he : Earlier o root earlierRoot files yield t₀)
    (hfull : t₀.Placed (artifacts o root yield files) t₁)
    (hearlier : o.nonempty? .precompiledDir = some earlierRoot) :
    ∃ t' log, filterDirty o root files none (fun _ => false) t₀ =
        (files.filter (stale o earlierRoot t₀), ⟨t', log⟩) ∧
      t₀.Placed (files.flatMap fun f => copies o root earlierRoot yield t₀ f o.targets) t' := by
  have hstart := filling_nil o root yield files t₀
  obtain ⟨t', hall, hc⟩ := prepareAll_spec (p := ⟨t₀, []⟩) hroot hstart ht he hfull files
    fun _ hf => hf
  unfold filterDirty
  dsimp only
  rw [hearlier]
  dsimp only
  rw [hall, if_neg (by simp)]
  dsimp only
  rw [filter_zip_map]
  simp only [Bool.not_not]
  by_cases hnone : files.length - (files.filter (stale o earlierRoot t₀)).length = 0
  · exact ⟨t', [], by rw [if_pos hnone], hc.placed⟩
  · exact ⟨t', _, by rw [if_neg hnone], hc.placed⟩

end TemplateHost.Reuse
