import TemplateHost.Options.Layout
import TemplateHost.Proofs.Files.Tree

/-!
# Places of generated files

The output root is an absolute path whatever options were set. Below it, a generated file has a
place of its own whatever the working directory is, and its path leads straight down to it.
-/
namespace TemplateHost

theorem Path.isAbsolute_under {base : String} (hb : isAbsolute base = true) (p : String) :
    isAbsolute (under base p) = true := by
  unfold under
  obtain ⟨r, rfl⟩ := (isAbsolute_iff base).mp hb
  split_ifs with hp hslash
  · exact hp
  · exact (isAbsolute_iff _).mpr ⟨r ++ p, by rw [String.append_assoc]⟩
  · exact (isAbsolute_iff _).mpr ⟨r ++ ("/" ++ p), by simp only [String.append_assoc]⟩

theorem Path.isAbsolute_absolute {cwd : String} (hcwd : isAbsolute cwd = true) (p : String) :
    isAbsolute (absolute cwd p) = true :=
  (straight_normalize (isAbsolute_under hcwd p)).isAbsolute

theorem Path.absolute_absolute {cwd : String} (hcwd : isAbsolute cwd = true) (p : String) :
    absolute cwd (absolute cwd p) = absolute cwd p := by
  rw [absolute.eq_def cwd (absolute cwd p), under, if_pos (isAbsolute_absolute hcwd p)]
  exact normalize_normalize (isAbsolute_under hcwd p)

namespace Options

/-- Options that come from the initial ones by merging. -/
inductive Reached (s : Surroundings) : Options → Prop where
  | initial : Reached s (.initial s)
  | merge {o : Options} (overrides : Table String Setting) (ho : Reached s o) :
      Reached s (o.merge s.cwd overrides).2

/-- The output roots are paths of some kind, and there is at least a temporary one. -/
structure Rooted (Q : String → Prop) (o : Options) : Prop where
  temporary : o .tmpDir ≠ .null
  path (n : OptionName) : n.isResolved = true → o n = .null ∨ ∃ p, o n = .text p ∧ Q p

variable {Q : String → Prop} {s : Surroundings} {o : Options} {cwd : String}

theorem rooted_initial (hs : Q (Path.under s.temporaryDir "soypy")) : Rooted Q (.initial s) := by
  refine ⟨nofun, fun n hn => ?_⟩
  cases n with
  | tmpDir => exact Or.inr ⟨_, rfl, hs⟩
  | outputDir => exact Or.inl rfl
  | _ => cases hn

theorem Rooted.assign (ho : o.Rooted Q) (hcwd : ∀ p, Q (Path.absolute cwd p)) (n : OptionName)
    (s : Setting) : (o.assign cwd n s).Rooted Q := by
  have hstored (hn : n.isResolved = true) : stored cwd (o n) n s = o n ∨
      ∃ p, stored cwd (o n) n s = .text p ∧ Q p := by
    unfold stored
    rw [if_pos hn]
    split
    · exact Or.inr ⟨_, rfl, hcwd _⟩
    · exact Or.inl rfl
  unfold Options.assign
  constructor
  · by_cases hn : n = .tmpDir
    · subst n
      rw [set_self]
      rcases hstored rfl with hold | ⟨p, hp, -⟩
      · rw [hold]
        exact ho.temporary
      · rw [hp]
        exact nofun
    · rw [set_ne o (Ne.symm hn)]
      exact ho.temporary
  · intro m hm
    by_cases hn : m = n
    · subst m
      rw [set_self]
      rcases hstored hm with hold | hnew
      · rw [hold]
        exact ho.path n hm
      · exact Or.inr hnew
    · rw [set_ne o hn]
      exact ho.path m hm

theorem Rooted.assignAll (ho : o.Rooted Q) (hcwd : ∀ p, Q (Path.absolute cwd p))
    (es : List (String × Setting)) : (o.assignAll cwd es).Rooted Q := by
  induction es generalizing o with
  | nil => exact ho
  | cons e r ih =>
    refine ih (o := o.assignNamed cwd e.1 e.2) ?_
    unfold assignNamed
    split
    · exact ho.assign hcwd _ _
    · exact ho

theorem Rooted.merge (ho : o.Rooted Q) (hcwd : ∀ p, Q (Path.absolute cwd p))
    (overrides : Table String Setting) : (o.merge cwd overrides).2.Rooted Q := by
  unfold Options.merge
  split
  · exact ho
  · exact ho.assignAll hcwd _

theorem Reached.rooted_of (ho : Reached s o) (hcwd : ∀ p, Q (Path.absolute s.cwd p))
    (htmp : Q (Path.under s.temporaryDir "soypy")) : o.Rooted Q := by
  induction ho with
  | initial => exact rooted_initial htmp
  | merge overrides _ ih => exact ih.merge hcwd overrides

theorem Reached.rooted (ho : Reached s o) (hcwd : Path.isAbsolute s.cwd = true)
    (htmp : Path.isAbsolute s.temporaryDir = true) : o.Rooted (Path.isAbsolute · = true) :=
  ho.rooted_of (Path.isAbsolute_absolute hcwd) (Path.isAbsolute_under htmp _)

end Options

namespace Layout
open TemplateHost.Path

theorem runDirectory_rooted {Q : String → Prop} {o : Options} (ho : o.Rooted Q) (hempty : ¬ Q "") :
    Q ((o.nonempty? .outputDir).getD (o.text .tmpDir)) := by
  unfold Options.nonempty? Options.flag Options.text Options.text?
  rcases ho.path .outputDir rfl with hnull | ⟨p, hp, hQ⟩
  · rcases ho.path .tmpDir rfl with hn | ⟨q, hq, hQ⟩
    · exact absurd hn ho.temporary
    · simpa [hnull, hq, Setting.isTrue, Setting.text?] using hQ
  · have hne : p ≠ "" := by
      rintro rfl
      exact hempty hQ
    simpa [hp, hne, Setting.isTrue, Setting.text?] using hQ

theorem isAbsolute_runDirectory {o : Options} (ho : o.Rooted (isAbsolute · = true))
    (now : Instant) : isAbsolute (runDirectory o now) = true := by
  have hroot := runDirectory_rooted ho (by decide)
  unfold runDirectory
  dsimp only
  split_ifs
  · exact isAbsolute_under hroot _
  · exact hroot

theorem exists_join_append {root : String} (hne : root ≠ "") (r : List String) :
    ∃ x, Text.join "/" ((root :: r).filter (· ≠ "")) = root ++ x := by
  rw [List.filter_cons_of_pos (by simpa using hne), Text.join]
  by_cases hr : r.filter (· ≠ "") = []
  · exact ⟨"", by rw [hr, String.intercalate_singleton, String.append_empty]⟩
  · exact ⟨_, by rw [String.intercalate_cons_of_ne_nil hr, String.append_assoc]⟩

theorem isAbsolute_join {root : String} (hne : root ≠ "") (r : List String) :
    isAbsolute (Text.join "/" ((root :: r).filter (· ≠ ""))) = isAbsolute root := by
  obtain ⟨y, hy⟩ := exists_join_append hne r
  rw [hy, isAbsolute_append hne]

theorem outputFile_eq (o : Options) (root file : String) (locale : Option String) :
    outputFile o root file locale = nest (root ::
      if o.multipleLocales then [localeOrDefault locale, file] else [file]) ++ generatedSuffix := by
  unfold outputFile
  split <;> rfl

theorem outputFile_below (o : Options) (root file : String) (locale : Option String) :
    ∃ lead k ns a, Direct (outputFile o root file locale) lead k (ns ++ [a]) := by
  rw [outputFile_eq, nest]
  obtain ⟨k, ns, hd, hne⟩ := exists_direct_suffix (Text.join "/" _) generatedSuffix (by decide)
    (by decide)
  rw [← List.dropLast_concat_getLast hne] at hd
  exact ⟨_, k, _, _, hd⟩

theorem outputFile_direct (o : Options) (root file : String) (locale : Option String) :
    ∃ lead k ns, Direct (outputFile o root file locale) lead k ns := by
  obtain ⟨lead, k, ns, a, hd⟩ := outputFile_below o root file locale
  exact ⟨lead, k, ns ++ [a], hd⟩

theorem outputFile_straight {root : String} (hroot : isAbsolute root = true) (o : Options)
    (file : String) (locale : Option String) :
    ∃ ns a, Straight (outputFile o root file locale) (ns ++ [a]) := by
  rw [outputFile_eq]
  refine exists_straight_suffix ?_ generatedSuffix (by decide) (by decide)
  rw [isAbsolute_join (ne_empty_of_isAbsolute hroot), hroot]

def artifactPlace (o : Options) (root file locale : String) : Place :=
  place [] (outputFile o root file (some locale))

theorem straight_artifactPlace {root : String} (hroot : isAbsolute root = true) (o : Options)
    (file locale : String) :
    Straight (outputFile o root file (some locale)) (artifactPlace o root file locale) ∧
      ∃ ns a, artifactPlace o root file locale = ns ++ [a] := by
  obtain ⟨ns, a, hs⟩ := outputFile_straight hroot o file (some locale)
  have hplace : artifactPlace o root file locale = ns ++ [a] := hs.place []
  exact ⟨hplace ▸ hs, ns, a, hplace⟩

/-- The file that a source becomes for a locale, if any. -/
def artifact (o : Options) (root : String) (yield : String → String → Option Content)
    (file locale : String) : Option (Place × Content) :=
  (yield file locale).map fun c => (artifactPlace o root file locale, c)

def artifacts (o : Options) (root : String) (yield : String → String → Option Content)
    (files : List String) : List (Place × Content) :=
  files.flatMap fun f => o.targets.filterMap (artifact o root yield f)

theorem mem_artifacts {o : Options} {root : String} {yield : String → String → Option Content}
    {files : List String} {w : Place × Content} :
    w ∈ artifacts o root yield files ↔
      ∃ f ∈ files, ∃ l ∈ o.targets, ∃ c,
        yield f l = some c ∧ w = (artifactPlace o root f l, c) := by
  simp only [artifacts, artifact, List.mem_flatMap, List.mem_filterMap, Option.map_eq_some_iff,
    eq_comm (b := w)]

theorem mem_artifacts_of {o : Options} (root : String) {yield : String → String → Option Content}
    {files : List String} {f l : String} {c : Content} (hf : f ∈ files) (hl : l ∈ o.targets)
    (hc : yield f l = some c) : (artifactPlace o root f l, c) ∈ artifacts o root yield files :=
  mem_artifacts.mpr ⟨f, hf, l, hl, c, hc, rfl⟩

section Filling
variable {o : Options} {root : String} {yield : String → String → Option Content}
  {files : List String} {t₀ t₁ t : FileTree} {ws : List (Place × Content)}

theorem eq_of_place_eq (hfull : t₀.Placed (artifacts o root yield files) t₁)
    {w w' : Place × Content} (hw : w ∈ artifacts o root yield files)
    (hw' : w' ∈ artifacts o root yield files) (heq : w.1 = w'.1) : w = w' := by
  have hfile := hfull.file w hw
  rw [heq, hfull.file w' hw'] at hfile
  exact Prod.ext heq (Node.file.inj (Option.some.inj hfile)).symm

/-- Some of the generated files are in place. -/
structure Filling (o : Options) (root : String) (yield : String → String → Option Content)
    (files : List String) (t₀ : FileTree) (ws : List (Place × Content)) (t : FileTree) :
    Prop where
  placed : t₀.Placed ws t
  subset : ws ⊆ artifacts o root yield files

theorem filling_nil (o : Options) (root : String) (yield : String → String → Option Content)
    (files : List String) (t : FileTree) : Filling o root yield files t [] t :=
  ⟨FileTree.placed_nil t, List.nil_subset _⟩

theorem Filling.add (hc : Filling o root yield files t₀ ws t)
    (hfull : t₀.Placed (artifacts o root yield files) t₁) {ws' : List (Place × Content)}
    {t' : FileTree} (hp : t.Placed ws' t') (hws : ws' ⊆ artifacts o root yield files) :
    Filling o root yield files t₀ (ws ++ ws') t' :=
  ⟨hc.placed.trans hp fun _ hw _ hw' => eq_of_place_eq hfull (hc.subset hw) (hws hw'),
    List.append_subset.mpr ⟨hc.subset, hws⟩⟩

theorem Filling.free (hc : Filling o root yield files t₀ ws t)
    (hfull : t₀.Placed (artifacts o root yield files) t₁) {w : Place × Content}
    (hw : w ∈ artifacts o root yield files) : t.Free w.1 :=
  hfull.free_of_subset hc.placed (fun _ hmem => hc.subset hmem) hw

theorem Filling.content (hc : Filling o root yield files t₀ ws t) {path : String} {c : Content}
    (hcont : t₀.content path = .ok c) (hapart : ∀ f ∈ files, ∀ l ∈ o.targets,
      place t₀.cwd path ≠ artifactPlace o root f l) : t.content path = .ok c := by
  refine hc.placed.content hcont fun w hw => ?_
  obtain ⟨f, hf, l, hl, d, -, rfl⟩ := mem_artifacts.mp (hc.subset hw)
  exact hapart f hf l hl

end Filling

end Layout

end TemplateHost
