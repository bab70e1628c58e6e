import TemplateHost.Proofs.Files.Discovery
import TemplateHost.Proofs.Options.Expansion

/-!
# Spellings of an output root

A directory can be named by an absolute path or by one that is relative to the working directory,
and the generated file of a source is at the same place either way. As a text its path is the same
if an absolute path names the directory, and another one if a relative path does.
-/
namespace TemplateHost
open TemplateHost.Path Text

namespace Path
variable {c d : String}

theorem straight_absolute (hc : isAbsolute c = true) (d : String) :
    Straight (absolute c d) (place [] (absolute c d)) := by
  rw [absolute, place_normalize]
  exact straight_normalize (isAbsolute_under hc d)

theorem place_absolute (hc : isAbsolute c = true) (d : String) :
    place (place [] c) (absolute c d) = place (place [] c) d := by
  have hstart : place (place [] c) c = place [] c := by
    unfold place
    rw [if_pos hc, if_pos hc]
  rw [absolute, place_normalize, place_under, hstart]

theorem absolute_of_isAbsolute (c : String) (hd : isAbsolute d = true) :
    absolute c d = normalize d := by
  rw [absolute, under, if_pos hd]

theorem place_slashes (n : Nat) : place [] (String.ofList (List.replicate n '/')) = [] := by
  induction n with
  | zero => rfl
  | succ n ih =>
    have hcons : String.ofList (List.replicate (n + 1) '/') =
        "/" ++ String.ofList (List.replicate n '/') := by
      rw [← String.toList_inj]
      simp [List.replicate_succ]
    rw [Layout.place_nil] at ih ⊢
    rw [hcons, steps_slash_append, List.foldl_cons]
    exact ih

theorem exists_ne_slash (hd : place [] d ≠ []) : ∃ x ∈ d.toList, x ≠ '/' := by
  by_contra hall
  refine hd ?_
  have hslashes : d = String.ofList (List.replicate d.toList.length '/') := by
    rw [← String.toList_inj, String.toList_ofList]
    exact List.eq_replicate_of_mem fun x hx => by_contra fun hne => hall ⟨x, hx, hne⟩
  rw [hslashes]
  exact place_slashes _

/-- From a path that leads somewhere and from its normal form, the same steps lead to the same. -/
theorem normalize_append_congr {x y : String} (hd : isAbsolute d = true) (hsome : place [] d ≠ [])
    (hplace : place [] (d ++ x) = place [] (normalize d ++ y)) :
    normalize (d ++ x) = normalize (normalize d ++ y) := by
  have hstraight := straight_normalize hd
  have hroot : root (normalize d) = root d := by
    obtain ⟨k, ns, hdirect⟩ := direct_normalize hd
    exact hdirect.root
  have hsome' : place [] (normalize d) ≠ [] := by
    rw [place_normalize]
    exact hsome
  have hout := root_append_of_exists (exists_ne_slash hsome) x
  have hin := root_append_of_exists (exists_ne_slash hsome') y
  have habs : isAbsolute (d ++ x) = true := by
    rw [isAbsolute_append (ne_empty_of_isAbsolute hd), hd]
  have habs' : isAbsolute (normalize d ++ y) = true := by
    rw [isAbsolute_append (ne_empty_of_isAbsolute hstraight.isAbsolute), hstraight.isAbsolute]
  obtain ⟨k, ns, hdirect⟩ := direct_normalize habs
  obtain ⟨m, ms, hdirect'⟩ := direct_normalize habs'
  rw [hout] at hdirect
  rw [hin, hroot] at hdirect'
  refine hdirect.eq_of_place hdirect' ((isAbsolute_iff_root d).mp hd) ?_
  rw [place_normalize, place_normalize, hplace]

end Path

namespace Layout
variable {root d cwd : String} {ns : List String} {a : String}

def segments (o : Options) (file : String) (locale : Option String) : List String :=
  if o.multipleLocales then [localeOrDefault locale, file] else [file]

theorem place_nest (hroot : root ≠ "") (r : List String) (p : Place) :
    place p (join "/" ((root :: r).filter (· ≠ ""))) =
      (r.flatMap steps).foldl walk (place p root) := by
  unfold place
  rw [foldl_walk_nest, isAbsolute_join hroot, List.flatMap_cons, List.foldl_append]

theorem place_outputFile (hroot : root ≠ "") (hns : ∀ n ∈ ns ++ [a], IsName n) (o : Options)
    (locale : Option String) (p : Place) :
    place p (outputFile o root (join "/" (ns ++ [a])) locale) =
      (if o.multipleLocales then steps (localeOrDefault locale) else []).foldl walk
        (place p root) ++ ns ++ [a ++ generatedSuffix] := by
  have htail (q : Place) :
      place q (join "/" ((root :: segments o (join "/" (ns ++ [a])) locale).filter (· ≠ ""))) =
        ((if o.multipleLocales then steps (localeOrDefault locale) else []).foldl walk
          (place q root) ++ ns) ++ [a] := by
    have hfile : steps (join "/" (ns ++ [a])) = ns ++ [a] :=
      steps_join (by simp) fun n hn => (hns n hn).no_slash
    rw [place_nest hroot]
    unfold segments
    split
    · simp [hfile, List.foldl_append, foldl_walk_names _ hns]
    · simp [hfile, foldl_walk_names _ hns]
  have hlong : 2 < generatedSuffix.length := by decide
  obtain ⟨q, hq, hsuffix⟩ := place_normalize_suffix (htail []) hlong (by decide) p
  rw [outputFile_eq, nest]
  refine hsuffix.trans ?_
  rw [(List.append_inj' (hq.symm.trans (htail p)) rfl).1]

/-- However the root is named, a generated file is at the same place. -/
theorem place_outputFile_absolute (hcwd : isAbsolute cwd = true) (hd : d ≠ "")
    (hns : ∀ n ∈ ns ++ [a], IsName n) (o : Options) (locale : Option String) :
    place (place [] cwd) (outputFile o (absolute cwd d) (join "/" (ns ++ [a])) locale) =
      place (place [] cwd) (outputFile o d (join "/" (ns ++ [a])) locale) := by
  rw [place_outputFile (ne_empty_of_isAbsolute (isAbsolute_absolute hcwd d)) hns,
    place_outputFile hd hns, place_absolute hcwd]

theorem isAbsolute_outputFile (hroot : root ≠ "") (o : Options) (file : String)
    (locale : Option String) : isAbsolute (outputFile o root file locale) = isAbsolute root := by
  obtain ⟨k, ns, hd, -⟩ := exists_direct_suffix
    (join "/" ((root :: segments o file locale).filter (· ≠ ""))) generatedSuffix (by decide)
    (by decide)
  rw [outputFile_eq, nest, ← isAbsolute_join hroot (segments o file locale), Bool.eq_iff_iff]
  exact hd.isAbsolute_iff.trans (isAbsolute_iff_root _).symm

/-- A relative root never gives the path that its absolute form gives. -/
theorem outputFile_ne_of_relative (hcwd : isAbsolute cwd = true) (hd : d ≠ "")
    (hrel : isAbsolute d = false) (o : Options) (file : String) (locale : Option String) :
    outputFile o (absolute cwd d) file locale ≠ outputFile o d file locale := by
  have hroot := isAbsolute_absolute hcwd d
  intro heq
  have habs := isAbsolute_outputFile (ne_empty_of_isAbsolute hroot) o file locale
  rw [heq, isAbsolute_outputFile hd, hrel, hroot] at habs
  cases habs

/-- An absolute root does, unless it is the topmost directory by another name. -/
theorem outputFile_eq_of_absolute (habs : isAbsolute d = true)
    (hsome : place [] d ≠ [] ∨ normalize d = d) (o : Options) (file : String)
    (locale : Option String) :
    outputFile o (absolute cwd d) file locale = outputFile o d file locale := by
  rw [absolute_of_isAbsolute cwd habs]
  rcases hsome with hsome | hnormal
  · have hne := ne_empty_of_isAbsolute habs
    have hne' := ne_empty_of_isAbsolute (straight_normalize habs).isAbsolute
    have hplace : place [] (join "/" ((d :: segments o file locale).filter (· ≠ ""))) =
        place [] (join "/" ((normalize d :: segments o file locale).filter (· ≠ ""))) := by
      rw [place_nest hne, place_nest hne', place_normalize]
    obtain ⟨x, hx⟩ := exists_join_append hne (segments o file locale)
    obtain ⟨y, hy⟩ := exists_join_append hne' (segments o file locale)
    rw [hx, hy] at hplace
    have hnormalize := normalize_append_congr habs hsome hplace
    rw [← hx, ← hy] at hnormalize
    rw [outputFile_eq, outputFile_eq]
    exact congrArg (· ++ generatedSuffix) hnormalize.symm
  · rw [hnormal]

end Layout

end TemplateHost
