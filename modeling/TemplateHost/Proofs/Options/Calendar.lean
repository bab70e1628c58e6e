import Mathlib.Algebra.Order.BigOperators.Group.Finset
import Mathlib.Data.List.Lex
import TemplateHost.Options.Layout

/-!
# Calendar and time

An instant is told by the fields of a calendar. How much time has passed up to it is counted by the
lengths of the years, months and smaller units before it. Of two instants the earlier one is that
with the smaller first field that differs.
-/
namespace TemplateHost.Instant
open Finset

def isLeap (year : Nat) : Bool :=
  year % 4 = 0 && (year % 100 ≠ 0 || year % 400 = 0)

def yearLength (year : Nat) : Nat := if isLeap year then 366 else 365

/-- The days of a month, which are none if there is no such month. -/
def monthLength (year : Nat) : Nat → Nat
  | 1 | 3 | 5 | 7 | 8 | 10 | 12 => 31
  | 4 | 6 | 9 | 11 => 30
  | 2 => if isLeap year then 29 else 28
  | _ => 0

theorem monthLength_le (year month : Nat) : monthLength year month ≤ 31 := by
  unfold monthLength
  cases isLeap year <;> split <;> decide

/-- A date and time of day that exist, in a year with four digits. -/
structure IsValid (t : Instant) : Prop where
  year : 1 ≤ t.year ∧ t.year ≤ 9999
  month : 1 ≤ t.month ∧ t.month ≤ 12
  day : 1 ≤ t.day ∧ t.day ≤ monthLength t.year t.month
  hour : t.hour < 24
  minute : t.minute < 60
  second : t.second < 60
  microsecond : t.microsecond < 1000000

def dayOfYear (t : Instant) : Nat := ∑ m ∈ range t.month, monthLength t.year m + t.day

def days (t : Instant) : Nat := ∑ y ∈ range t.year, yearLength y + t.dayOfYear

/-- The time that has passed in microseconds. -/
def elapsed (t : Instant) : Nat :=
  (((t.days * 24 + t.hour) * 60 + t.minute) * 60 + t.second) * 1000000 + t.microsecond

def millisecond (t : Instant) : Nat := t.elapsed / 1000

def fields (t : Instant) : List Nat :=
  [t.year, t.month, t.day, t.hour, t.minute, t.second, t.microsecond / 1000]

theorem sum_add_le_of_lt {length : Nat → Nat} {a b r : Nat} (hab : a < b) (hr : r ≤ length a) :
    ∑ i ∈ range a, length i + r ≤ ∑ i ∈ range b, length i := by
  calc ∑ i ∈ range a, length i + r ≤ ∑ i ∈ range (a + 1), length i := by
        rw [sum_range_succ]
        omega
    _ ≤ ∑ i ∈ range b, length i := sum_le_sum_of_subset (range_mono hab)

theorem sum_monthLength (year : Nat) : ∑ m ∈ range 13, monthLength year m = yearLength year := by
  unfold yearLength
  cases h : isLeap year <;> simp [sum_range_succ, monthLength, h]

variable {t u : Instant}

theorem IsValid.dayOfYear_le (ht : t.IsValid) : t.dayOfYear ≤ yearLength t.year := by
  rw [← sum_monthLength]
  exact sum_add_le_of_lt (Nat.lt_succ_of_le ht.month.2) ht.day.2

theorem IsValid.dayOfYear_pos (ht : t.IsValid) : 0 < t.dayOfYear := by
  have hday := ht.day.1
  unfold dayOfYear
  omega

theorem dayOfYear_lt (ht : t.IsValid) (hu : u.IsValid) (hyear : t.year = u.year)
    (h : t.month < u.month ∨ t.month = u.month ∧ t.day < u.day) : t.dayOfYear < u.dayOfYear := by
  unfold dayOfYear
  rw [hyear]
  rcases h with hmonth | ⟨hmonth, hday⟩
  · have hle := sum_add_le_of_lt hmonth (hyear ▸ ht.day.2)
    have hday := hu.day.1
    omega
  · rw [hmonth]
    omega

theorem days_lt (ht : t.IsValid) (hu : u.IsValid)
    (h : t.year < u.year ∨ t.year = u.year ∧
      (t.month < u.month ∨ t.month = u.month ∧ t.day < u.day)) : t.days < u.days := by
  unfold days
  rcases h with hyear | ⟨hyear, h⟩
  · have hle := sum_add_le_of_lt hyear ht.dayOfYear_le
    have hpos := hu.dayOfYear_pos
    omega
  · have hlt := dayOfYear_lt ht hu hyear h
    rw [hyear]
    omega

theorem days_congr (hyear : t.year = u.year) (hmonth : t.month = u.month) (hday : t.day = u.day) :
    t.days = u.days := by
  unfold days dayOfYear
  rw [hyear, hmonth, hday]

theorem millisecond_eq (t : Instant) : t.millisecond =
    (((t.days * 24 + t.hour) * 60 + t.minute) * 60 + t.second) * 1000 + t.microsecond / 1000 := by
  unfold millisecond elapsed
  omega

theorem IsValid.millisecond_lt (ht : t.IsValid) (h : t.days < u.days ∨ t.days = u.days ∧
    [t.hour, t.minute, t.second, t.microsecond / 1000] <
      [u.hour, u.minute, u.second, u.microsecond / 1000]) : t.millisecond < u.millisecond := by
  have hhour := ht.hour
  have hminute := ht.minute
  have hsecond := ht.second
  have hmicrosecond := ht.microsecond
  simp only [List.cons_lt_cons_iff, List.not_lt_nil, and_false, or_false] at h
  rw [millisecond_eq, millisecond_eq]
  omega

theorem millisecond_lt_of_fields_lt (ht : t.IsValid) (hu : u.IsValid) (h : t.fields < u.fields) :
    t.millisecond < u.millisecond := by
  apply ht.millisecond_lt
  unfold fields at h
  rw [List.cons_lt_cons_iff, List.cons_lt_cons_iff, List.cons_lt_cons_iff] at h
  rcases h with hyear | ⟨hyear, hmonth | ⟨hmonth, hday | ⟨hday, htime⟩⟩⟩
  · exact Or.inl (days_lt ht hu (Or.inl hyear))
  · exact Or.inl (days_lt ht hu (Or.inr ⟨hyear, Or.inl hmonth⟩))
  · exact Or.inl (days_lt ht hu (Or.inr ⟨hyear, Or.inr ⟨hmonth, hday⟩⟩))
  · exact Or.inr ⟨days_congr hyear hmonth hday, htime⟩

theorem millisecond_congr (h : t.fields = u.fields) : t.millisecond = u.millisecond := by
  simp only [fields, List.cons.injEq, and_true] at h
  obtain ⟨hyear, hmonth, hday, hhour, hminute, hsecond, hmillisecond⟩ := h
  rw [millisecond_eq, millisecond_eq, days_congr hyear hmonth hday, hhour, hminute, hsecond,
    hmillisecond]

/-- What respects a linear order in each case reflects it. -/
theorem eq_iff_and_lt_iff {α β : Type} [LinearOrder α] [Preorder β] {a b : α} {x y : β}
    (heq : a = b → x = y) (hlt : a < b → x < y) (hgt : b < a → y < x) :
    (x = y ↔ a = b) ∧ (x < y ↔ a < b) := by
  rcases lt_trichotomy a b with h | h | h
  · exact ⟨iff_of_false (hlt h).ne h.ne, iff_of_true (hlt h) h⟩
  · exact ⟨iff_of_true (heq h) h, iff_of_false (heq h).not_lt h.not_lt⟩
  · exact ⟨iff_of_false (hgt h).ne' h.ne', iff_of_false (hgt h).asymm h.asymm⟩

/-- Of two instants the earlier one has the smaller fields. -/
theorem millisecond_iff_fields (ht : t.IsValid) (hu : u.IsValid) :
    (t.millisecond = u.millisecond ↔ t.fields = u.fields) ∧
      (t.millisecond < u.millisecond ↔ t.fields < u.fields) :=
  eq_iff_and_lt_iff millisecond_congr (millisecond_lt_of_fields_lt ht hu)
    (millisecond_lt_of_fields_lt hu ht)

end TemplateHost.Instant
