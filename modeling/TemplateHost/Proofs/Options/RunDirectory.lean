import Mathlib.Data.String.Basic
import TemplateHost.Proofs.Files.Discovery
import TemplateHost.Proofs.Options.Calendar
import TemplateHost.Proofs.Options.Containment

/-!
# Directories of runs

The name of a run's directory writes the fields of an instant with fixed numbers of digits and a
sign behind each. So names are ordered like instants, and two of them agree only within one
millisecond. No name has a colon or a slash, and each leads one step down from the output root.
-/
namespace TemplateHost

section Digits
variable {w m n : Nat}

/-- The last decimal digits of a number, as many as asked for. -/
def digits : Nat → Nat → List Char
  | 0, _ => []
  | w + 1, n => digits w (n / 10) ++ [(n % 10).digitChar]

theorem length_digits (w n : Nat) : (digits w n).length = w := by
  induction w generalizing n with
  | zero => rfl
  | succ w ih => simp [digits, ih]

theorem digits_zero (w : Nat) : digits w 0 = List.replicate w '0' := by
  induction w with
  | zero => rfl
  | succ w ih =>
    rw [digits, Nat.zero_div, ih, List.replicate_succ']
    rfl

theorem digits_of_lt_ten (w : Nat) (hn : n < 10) :
    digits (w + 1) n = List.replicate w '0' ++ Nat.toDigits 10 n := by
  rw [digits, Nat.div_eq_of_lt hn, Nat.mod_eq_of_lt hn, digits_zero, Nat.toDigits_of_lt_base hn]

theorem replicate_append_toDigits (hn : n < 10 ^ (w + 1)) :
    List.replicate (w + 1 - (Nat.toDigits 10 n).length) '0' ++ Nat.toDigits 10 n =
      digits (w + 1) n := by
  induction w generalizing n with
  | zero =>
    have hsmall : n < 10 := hn
    rw [digits_of_lt_ten 0 hsmall, Nat.toDigits_of_lt_base hsmall]
    rfl
  | succ w ih =>
    by_cases hsmall : n < 10
    · rw [digits_of_lt_ten (w + 1) hsmall, Nat.toDigits_of_lt_base hsmall]
      rfl
    · have hdiv : n / 10 < 10 ^ (w + 1) := by
        rw [Nat.pow_succ] at hn
        omega
      rw [digits, Nat.toDigits_of_base_le (by decide) (Nat.le_of_not_lt hsmall), ← ih hdiv,
        List.length_append, List.length_singleton, Nat.add_sub_add_right, List.append_assoc]

theorem toList_padded (hn : n < 10 ^ (w + 1)) :
    (Layout.padded (w + 1) n).toList = digits (w + 1) n := by
  rw [← replicate_append_toDigits hn]
  simp [Layout.padded, Nat.toString_eq_repr, Nat.toList_repr, ← String.length_toList]

theorem digitChar_lt (hmn : m < n) (hn : n < 10) : m.digitChar < n.digitChar := by
  have hall : ∀ n < 10, ∀ m < n, Nat.digitChar m < Nat.digitChar n := by decide
  exact hall n hn m hmn

/-- Of texts that start with texts of one length, a smaller start makes the text smaller. -/
theorem append_lt_append_of_lt {s t : List Char} (h : s < t) (hlength : s.length = t.length)
    (x y : List Char) : s ++ x < t ++ y := by
  induction s generalizing t with
  | nil =>
    obtain rfl := List.eq_nil_of_length_eq_zero hlength.symm
    exact absurd h (List.lt_irrefl [])
  | cons c s ih =>
    cases t with
    | nil => cases hlength
    | cons d t =>
      rw [List.cons_append, List.cons_append, List.cons_lt_cons_iff]
      rcases List.cons_lt_cons_iff.mp h with hcd | ⟨hcd, hst⟩
      · exact Or.inl hcd
      · exact Or.inr ⟨hcd, ih hst (Nat.succ.inj hlength)⟩

theorem digits_lt (hmn : m < n) (hn : n < 10 ^ w) : digits w m < digits w n := by
  induction w generalizing m n with
  | zero =>
    rw [Nat.pow_zero] at hn
    omega
  | succ w ih =>
    rw [digits, digits]
    by_cases hdiv : m / 10 = n / 10
    · rw [hdiv]
      apply List.append_left_lt
      exact List.cons_lt_cons_iff.mpr (Or.inl (digitChar_lt (by omega) (by omega)))
    · rw [Nat.pow_succ] at hn
      refine append_lt_append_of_lt (ih (by omega) (by omega)) ?_ _ _
      rw [length_digits, length_digits]

theorem exists_digitChar_of_mem {c : Char} (hc : c ∈ digits w n) : ∃ k < 10, c = k.digitChar := by
  induction w generalizing n with
  | zero => cases hc
  | succ w ih =>
    rcases List.mem_append.mp hc with hc | hc
    · exact ih hc
    · exact ⟨n % 10, Nat.mod_lt n (by decide), List.mem_singleton.mp hc⟩

end Digits

section Write
variable {form : List (Nat × Char)} {ns ms : List Nat}

/-- Numbers written with fixed numbers of digits and a sign behind each. -/
def write : List (Nat × Char) → List Nat → List Char
  | (w, sign) :: form, n :: ns => digits w n ++ sign :: write form ns
  | _, _ => []

/-- Each number has no more digits than there is room for. -/
def Fits (form : List (Nat × Char)) (ns : List Nat) : Prop :=
  List.Forall₂ (fun f n => n < 10 ^ f.1) form ns

/-- Numbers are ordered, by the first one that differs, as what is written for them. -/
theorem write_lt (hns : Fits form ns) (hms : Fits form ms) (h : ns < ms) :
    write form ns < write form ms := by
  induction hns generalizing ms with
  | nil =>
    cases hms
    exact absurd h (List.lt_irrefl [])
  | @cons f n form ns hn _ ih =>
    cases hms with
    | cons hm hms =>
      rw [write, write]
      rcases List.cons_lt_cons_iff.mp h with hlt | ⟨rfl, hlt⟩
      · refine append_lt_append_of_lt (digits_lt hlt hm) ?_ _ _
        rw [length_digits, length_digits]
      · apply List.append_left_lt
        exact List.cons_lt_cons_iff.mpr (Or.inr ⟨rfl, ih hms hlt⟩)

theorem length_write (hns : Fits form ns) :
    (write form ns).length = (form.map fun f => f.1 + 1).sum := by
  induction hns with
  | nil => rfl
  | cons _ _ ih => simp [write, length_digits, ih, Nat.add_assoc, Nat.add_comm 1]

theorem mem_write {c : Char} (hc : c ∈ write form ns) :
    (∃ k < 10, c = k.digitChar) ∨ c ∈ form.map (·.2) := by
  induction form generalizing ns with
  | nil => cases ns <;> cases hc
  | cons f form ih =>
    cases ns with
    | nil => cases hc
    | cons n ns =>
      rw [write, List.mem_append, List.mem_cons] at hc
      rcases hc with hc | rfl | hc
      · exact Or.inl (exists_digitChar_of_mem hc)
      · exact Or.inr List.mem_cons_self
      · exact (ih hc).imp_right (List.mem_cons_of_mem _)

end Write

namespace Layout
open TemplateHost.Path
variable {o : Options} {t u : Instant}

/-- How many digits each field has, and the sign behind it. -/
def stampForm : List (Nat × Char) :=
  [(4, '-'), (2, '-'), (2, 'T'), (2, '_'), (2, '_'), (2, '.'), (3, '+')]

theorem fits_fields (ht : t.IsValid) : Fits stampForm t.fields := by
  have hyear := ht.year.2
  have hmonth := ht.month.2
  have hday := ht.day.2.trans (Instant.monthLength_le t.year t.month)
  have hhour := ht.hour
  have hminute := ht.minute
  have hsecond := ht.second
  have hmicrosecond := ht.microsecond
  simp only [Fits, stampForm, Instant.fields, List.forall₂_cons, List.Forall₂.nil, and_true]
  omega

theorem toList_stamp (ht : t.IsValid) :
    (stamp t).toList = write stampForm t.fields ++ "00_00".toList := by
  have hfits := fits_fields ht
  simp only [Fits, stampForm, Instant.fields, List.forall₂_cons] at hfits
  obtain ⟨hyear, hmonth, hday, hhour, hminute, hsecond, hmillisecond, -⟩ := hfits
  simp only [stamp, String.toList_append, toList_padded hyear, toList_padded hmonth,
    toList_padded hday, toList_padded hhour, toList_padded hminute, toList_padded hsecond,
    toList_padded hmillisecond, write, stampForm, Instant.fields]
  simp

theorem stamp_congr (ht : t.IsValid) (hu : u.IsValid) (h : t.fields = u.fields) :
    stamp t = stamp u := by
  rw [← String.toList_inj, toList_stamp ht, toList_stamp hu, h]

theorem stamp_lt (ht : t.IsValid) (hu : u.IsValid) (h : t.fields < u.fields) :
    stamp t < stamp u := by
  rw [String.lt_iff_toList_lt, toList_stamp ht, toList_stamp hu]
  refine append_lt_append_of_lt (write_lt (fits_fields ht) (fits_fields hu) h) ?_ _ _
  rw [length_write (fits_fields ht), length_write (fits_fields hu)]

theorem ne_colon_ne_slash_of_mem_stamp (ht : t.IsValid) {c : Char} (hc : c ∈ (stamp t).toList) :
    c ≠ ':' ∧ c ≠ '/' := by
  have hdigits : ∀ k < 10, Nat.digitChar k ≠ ':' ∧ Nat.digitChar k ≠ '/' := by decide
  have hsigns : ∀ c ∈ stampForm.map (·.2), c ≠ ':' ∧ c ≠ '/' := by simp [stampForm]
  have hzone : ∀ c ∈ "00_00".toList, c ≠ ':' ∧ c ≠ '/' := by simp
  rw [toList_stamp ht, List.mem_append] at hc
  rcases hc with hc | hc
  · rcases mem_write hc with ⟨k, hk, rfl⟩ | hsign
    · exact hdigits k hk
    · exact hsigns c hsign
  · exact hzone c hc

theorem isName_stamp (ht : t.IsValid) : IsName (stamp t) := by
  have hmem : '_' ∈ (stamp t).toList := by
    rw [toList_stamp ht]
    exact List.mem_append_right _ (by decide)
  refine ⟨?_, ?_, ?_, fun hslash => (ne_colon_ne_slash_of_mem_stamp ht hslash).2 rfl⟩ <;>
    · intro heq
      rw [heq] at hmem
      revert hmem
      decide

/-- The output root that runs with directories of their own share. -/
def runRoot (o : Options) : String := (o.nonempty? .outputDir).getD (o.text .tmpDir)

theorem runDirectory_of_unique (hunique : o.flag .uniqueDir = true) (t : Instant) :
    runDirectory o t = under (runRoot o) (stamp t) := if_pos hunique

theorem exists_under_eq (b : String) :
    ∃ lead, base lead = "" ∧ ∀ n, IsName n → under b n = lead ++ n := by
  have hslash (x : String) : base (x ++ "/") = "" := by
    simp [base, baseChars]
  by_cases h : b = "" ∨ endsInSlash b = true
  · refine ⟨b, ?_, fun n hn => ?_⟩
    · rcases h with rfl | h
      · rfl
      · obtain ⟨r, hr⟩ := List.getLast?_eq_some_iff.mp (of_decide_eq_true h)
        have heq : b = String.ofList r ++ "/" := by
          rw [← String.toList_inj, hr]
          simp
        rw [heq, hslash]
    · rw [under, if_neg (by simp [hn.isAbsolute]), if_pos h]
  · refine ⟨b ++ "/", hslash b, fun n hn => ?_⟩
    rw [under, if_neg (by simp [hn.isAbsolute]), if_neg h]

/-- **Directories of runs** below one output root. Two runs have the same directory exactly if they
start within one millisecond, and of two directories that of the earlier run comes first in the
order of texts. The last step of its path has no colon and no slash, and leads one step down from
the root. -/
theorem runDirectory_ordered (hunique : o.flag .uniqueDir = true) (ht : t.IsValid)
    (hu : u.IsValid) :
    (runDirectory o t = runDirectory o u ↔ t.millisecond = u.millisecond) ∧
    (runDirectory o t < runDirectory o u ↔ t.millisecond < u.millisecond) ∧
    (∀ c ∈ (base (runDirectory o t)).toList, c ≠ ':' ∧ c ≠ '/') ∧
    ∀ cwd, place cwd (runDirectory o t) = place cwd (runRoot o) ++ [base (runDirectory o t)] := by
  obtain ⟨lead, hlead, hunder⟩ := exists_under_eq (runRoot o)
  have hname := isName_stamp ht
  have heq (v : Instant) (hv : v.IsValid) : runDirectory o v = lead ++ stamp v := by
    rw [runDirectory_of_unique hunique, hunder _ (isName_stamp hv)]
  have hbase : base (runDirectory o t) = stamp t := by
    rw [heq t ht, base_append hname.no_slash, hlead, String.empty_append]
  have hlt {v w : Instant} (hv : v.IsValid) (hw : w.IsValid) (h : v.fields < w.fields) :
      runDirectory o v < runDirectory o w := by
    rw [heq v hv, heq w hw, String.lt_iff, String.toList_append, String.toList_append]
    exact List.append_left_lt (String.lt_iff.mp (stamp_lt hv hw h))
  obtain ⟨heqIff, hltIff⟩ := Instant.eq_iff_and_lt_iff (a := t.fields) (b := u.fields)
    (fun h => by rw [heq t ht, heq u hu, stamp_congr ht hu h]) (hlt ht hu) (hlt hu ht)
  obtain ⟨htimeEq, htimeLt⟩ := Instant.millisecond_iff_fields ht hu
  refine ⟨heqIff.trans htimeEq.symm, hltIff.trans htimeLt.symm, ?_, fun cwd => ?_⟩
  · rw [hbase]
    exact fun c => ne_colon_ne_slash_of_mem_stamp ht
  · rw [hbase, runDirectory_of_unique hunique, place_under, hname.place]

def yearEnd (microsecond : Nat) : Instant := ⟨2023, 12, 31, 23, 59, 59, microsecond⟩

def newYear : Instant := ⟨2024, 1, 1, 0, 0, 0, 0⟩

def plainSurroundings : Surroundings := ⟨"/srv", "/tmp", "/lib", none⟩

/-- Two runs within the last millisecond of a year share a directory, and the directory of a run in
the new year comes after it. -/
theorem runDirectory_ordered_yearEnd :
    let o := Options.initial plainSurroundings
    runDirectory o (yearEnd 999000) = runDirectory o (yearEnd 999999) ∧
      runDirectory o (yearEnd 999999) < runDirectory o newYear := by
  have hfirst : (yearEnd 999000).IsValid := by constructor <;> decide
  have hlast : (yearEnd 999999).IsValid := by constructor <;> decide
  have hnew : newYear.IsValid := by constructor <;> decide
  have hunique : (Options.initial plainSurroundings).flag .uniqueDir = true := rfl
  constructor
  · refine (runDirectory_ordered hunique hfirst hlast).1.mpr ?_
    exact Instant.millisecond_congr (by decide)
  · refine (runDirectory_ordered hunique hlast hnew).2.1.mpr ?_
    exact Instant.millisecond_lt_of_fields_lt hlast hnew (by decide)

end Layout

end TemplateHost
