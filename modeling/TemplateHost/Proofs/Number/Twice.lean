import Mathlib.Algebra.Ring.Int.Parity
import TemplateHost.Proofs.Number.Nearest

/-!
# Rounding twice

A number is rounded to 53 bits, and the result to an integer. The integer is the one nearest to the
number itself unless that is too long for 53 bits, or the first rounding has moved the number onto
the middle between two integers, where the second one takes the even of them.
-/
namespace TemplateHost.Number

/-- An integer of no more than 53 bits, followed by zeros. -/
def IsShort (m : ℤ) : Prop := ∃ (c : ℤ) (f : ℕ), m = c * 2 ^ f ∧ |c| < 2 ^ 53 ∧ f ≤ 971

variable {x v : ℚ} {m r : ℤ}

theorem isShort_of_lt (h : |m| < 2 ^ 53) : IsShort m := ⟨m, 0, by simp, h, by decide⟩

theorem lt_overflow_of_isShort (hm : IsNearest x m) (h : IsShort m) :
    |x| < Binary64.overflow := by
  obtain ⟨c, f, rfl, hc, hf⟩ := h
  have hc' : |(c : ℚ)| ≤ 2 ^ 53 - 1 := by exact_mod_cast Int.le_sub_one_of_lt hc
  have hf' : (2 : ℚ) ^ f ≤ 2 ^ (971 : ℤ) := pow_le_pow_right₀ one_le_two hf
  have hm' : |((c * 2 ^ f : ℤ) : ℚ)| ≤ (2 ^ 53 - 1) * 2 ^ (971 : ℤ) := by
    rw [Int.cast_mul, abs_mul, Int.cast_pow, abs_pow, Int.cast_ofNat, abs_two]
    exact mul_le_mul hc' hf' (pow_pos two_pos f).le (by norm_num)
  have hx : |x| ≤ |((c * 2 ^ f : ℤ) : ℚ)| + 1 / 2 := by
    have := abs_sub_abs_le_abs_sub x (c * 2 ^ f : ℤ)
    linarith [hm.near]
  have hone : (1 : ℚ) < 2 ^ (971 : ℤ) := one_lt_zpow₀ one_lt_two (by decide)
  rw [Binary64.overflow_eq]
  generalize (2 : ℚ) ^ (971 : ℤ) = unit at hm' hone ⊢
  linarith

theorem eq_iff_of_near (hr : IsNearest v r) (hnear : |v - m| ≤ 1 / 2) :
    r = m ↔ (Odd m → v ≠ m + 1 / 2 ∧ v ≠ m - 1 / 2) := by
  have hmiddle : |v - m| = 1 / 2 ↔ v = m + 1 / 2 ∨ v = m - 1 / 2 := by
    rw [abs_eq (by norm_num), sub_eq_iff_eq_add', sub_eq_iff_eq_add', sub_eq_add_neg]
  have hnearest : r = m ↔ (|v - m| = 1 / 2 → Even m) := by
    constructor
    · rintro rfl
      exact hr.even_of_tie
    · exact fun heven => hr.unique ⟨hnear, heven⟩
  rw [hnearest, hmiddle, ← not_or, ← Int.not_even_iff_odd]
  exact ⟨fun h hodd htie => hodd (h htie), fun h htie => by_contra fun hodd => h hodd htie⟩

/-- If the unit is below one, the middles between integers are multiples of it. -/
theorem near_of_unit_lt_one (hm : IsNearest x m) (hv : RoundsTo x v) (he : unitExponent x < 0) :
    |v - m| ≤ 1 / 2 := by
  obtain ⟨p, hp⟩ : ∃ p : ℕ, unitExponent x = -(p + 1) := ⟨(-unitExponent x - 1).toNat, by omega⟩
  have hmiddle (t : ℤ) : ((t * 2 ^ p : ℤ) : ℚ) * 2 ^ unitExponent x = t / 2 := by
    rw [hp, neg_add, zpow_add₀ two_ne_zero, zpow_neg, zpow_natCast, zpow_neg_one, div_eq_mul_inv]
    push_cast
    rw [mul_assoc, mul_inv_cancel_left₀ (by positivity)]
  obtain ⟨hlow, hhigh⟩ := abs_le.mp hm.near
  have hupper := hv.le_of_le (t := (2 * m + 1) * 2 ^ p)
  have hlower := hv.le_of_ge (t := (2 * m - 1) * 2 ^ p)
  rw [hmiddle] at hupper hlower
  push_cast at hupper hlower
  rw [abs_le]
  constructor
  · linarith [hlower (by linarith)]
  · linarith [hupper (by linarith)]

theorem isShort_of_unit_lt_one (hm : IsNearest x m) (he : unitExponent x < 0) : IsShort m := by
  have hx : |x| ≤ (2 ^ 52 : ℤ) := by
    calc |x| ≤ 2 ^ 53 * 2 ^ unitExponent x := (abs_lt_unit x).le
      _ ≤ 2 ^ 53 * 2 ^ (-1 : ℤ) := by
        gcongr
        · norm_num
        · omega
      _ = (2 ^ 52 : ℤ) := by norm_num
  exact isShort_of_lt ((hm.abs.le_of_le hx).trans_lt (by decide))

section Integral
variable {e : ℕ} {a : ℤ}

theorem isShort_of_nearest (he : unitExponent x = e) (hx : |x| < Binary64.overflow)
    (ha : IsNearest (x / 2 ^ unitExponent x) a) : IsShort (a * 2 ^ e) := by
  have habs : IsNearest (|x| / 2 ^ unitExponent x) |a| := by
    have := ha.abs
    rwa [abs_div, abs_of_pos (two_zpow_pos _)] at this
  have hlimit := (Binary64.lt_overflow_iff habs).mp hx
  have hle : |a| ≤ 2 ^ 53 := by
    refine habs.le_of_le ((div_le_iff₀ (two_zpow_pos _)).mpr ?_)
    exact_mod_cast (abs_lt_unit x).le
  split at hlimit
  case isTrue hfull =>
    rcases abs_eq (by norm_num) |>.mp hfull with rfl | rfl
    · exact ⟨2 ^ 52, e + 1, by ring, by decide, by omega⟩
    · exact ⟨-2 ^ 52, e + 1, by ring, by decide, by omega⟩
  case isFalse hfull => exact ⟨a, e, rfl, by omega, by omega⟩

theorem isNearest_div_two_pow (hm : IsNearest x (a * 2 ^ e)) : IsNearest (x / 2 ^ e) a := by
  have hpos : (0 : ℚ) < 2 ^ e := by positivity
  have hdist : |x / 2 ^ e - a| * 2 ^ e = |x - (a * 2 ^ e : ℤ)| := by
    rw [abs_div_sub_mul hpos]
    push_cast
    rfl
  have hnear : |x / 2 ^ e - a| * 2 ^ e ≤ 1 / 2 := hdist ▸ hm.near
  have hone : (1 : ℚ) ≤ 2 ^ e := one_le_pow₀ one_le_two
  constructor
  · exact (le_mul_of_one_le_right (abs_nonneg _) hone).trans hnear
  · intro htie
    have hpow : (2 : ℚ) ^ e = 1 := by
      rw [htie] at hnear
      linarith
    have he : e = 0 := by
      by_contra hne
      exact (one_lt_pow₀ one_lt_two hne).ne' hpow
    subst he
    simpa using hm.even_of_tie (by rw [← hdist, htie, hpow, mul_one])

theorem eq_of_isShort (he : unitExponent x = e) (hm : IsNearest x m)
    (ha : IsNearest (x / 2 ^ unitExponent x) a) (hshort : IsShort m) : a * 2 ^ e = m := by
  obtain ⟨c, f, rfl, hc, -⟩ := hshort
  have hef : e ≤ f := by
    have hlarge : (2 : ℤ) ^ (52 + e) ≤ |c * 2 ^ f| := by
      refine hm.abs.le_of_ge ?_
      have := unit_le_abs (ne_zero_of_unit_nonneg (x := x) (by omega)) (by omega)
      rw [he, zpow_natCast, ← pow_add] at this
      exact_mod_cast this
    have hlt : (2 : ℤ) ^ (52 + e) < 2 ^ (53 + f) := by
      rw [abs_mul, abs_of_pos (by positivity : (0 : ℤ) < 2 ^ f)] at hlarge
      rw [pow_add 2 53 f]
      exact hlarge.trans_lt (mul_lt_mul_of_pos_right hc (by positivity))
    have := (pow_lt_pow_iff_right₀ one_lt_two).mp hlt
    omega
  obtain ⟨p, rfl⟩ := exists_add_of_le hef
  rw [he, zpow_natCast] at ha
  rw [ha.unique (isNearest_div_two_pow (by rwa [mul_assoc, ← pow_add, add_comm])), mul_assoc,
    ← pow_add, add_comm]

end Integral

/-- **Rounding twice** gives the nearest integer exactly if that is short and, where it is odd, the
first rounding does not end on a middle beside it. -/
theorem eq_iff_exact (hx : |x| < Binary64.overflow) (hv : RoundsTo x v) (hr : IsNearest v r)
    (hm : IsNearest x m) :
    r = m ↔ IsShort m ∧ (Odd m → ¬RoundsTo x (m + 1 / 2) ∧ ¬RoundsTo x (m - 1 / 2)) := by
  have hto (y : ℚ) : RoundsTo x y ↔ v = y := ⟨hv.unique, fun h => h ▸ hv⟩
  rw [hto, hto]
  -- With a unit of at least one the first rounding has an integer as its result already.
  rcases lt_or_ge (unitExponent x) 0 with he | he
  · rw [eq_iff_of_near hr (near_of_unit_lt_one hm hv he)]
    exact (and_iff_right (isShort_of_unit_lt_one hm he)).symm
  · obtain ⟨e, he⟩ := Int.eq_ofNat_of_zero_le he
    obtain ⟨a, ha, rfl⟩ := hv
    have hvalue : (a * 2 ^ unitExponent x : ℚ) = (a * 2 ^ e : ℤ) := by
      rw [he]
      push_cast
      rfl
    rw [hvalue] at hr ⊢
    rw [hr.unique (.intCast _)]
    constructor
    · rintro rfl
      refine ⟨isShort_of_nearest he hx ha, fun _ => ⟨?_, ?_⟩⟩
      · exact (lt_add_of_pos_right _ one_half_pos).ne
      · exact (sub_lt_self _ one_half_pos).ne'
    · exact fun h => eq_of_isShort he hm ha h.1

theorem exists_eq_of_roundsTo_int {n : ℤ} {y : ℚ} (h : RoundsTo n y) : ∃ j : ℤ, y = j := by
  obtain ⟨a, ha, rfl⟩ := h
  obtain ⟨p, hp | hp⟩ := (unitExponent n).eq_nat_or_neg
  · exact ⟨a * 2 ^ p, by rw [hp]; push_cast; rfl⟩
  · have hscaled : (n : ℚ) / 2 ^ unitExponent n = (n * 2 ^ p : ℤ) := by
      rw [hp, zpow_neg, div_inv_eq_mul]
      push_cast
      rfl
    rw [hscaled] at ha
    refine ⟨n, ?_⟩
    rw [ha.unique (.intCast _), ← hscaled, div_mul_cancel₀ _ (two_zpow_pos _).ne']

theorem add_half_ne (s j : ℤ) : (s : ℚ) + 1 / 2 ≠ j := by
  intro h
  have : ((2 * s + 1 : ℤ) : ℚ) = (2 * j : ℤ) := by
    push_cast
    linarith
  have := Int.cast_inj.mp this
  omega

theorem sub_half_eq (s : ℤ) : (s : ℚ) - 1 / 2 = (s - 1 : ℤ) + 1 / 2 := by
  push_cast
  ring

theorem not_roundsTo_middle (n s : ℤ) : ¬RoundsTo n (s + 1 / 2) := by
  intro h
  obtain ⟨j, hj⟩ := exists_eq_of_roundsTo_int h
  exact add_half_ne s j hj

theorem ne_middle (hm : IsNearest x m) (hodd : Odd m) (s : ℤ) : x ≠ s + 1 / 2 := by
  rintro rfl
  have hlow : s ≤ m := hm.le_of_ge (by linarith)
  have hhigh : m ≤ s + 1 := hm.le_of_le (by push_cast; linarith)
  refine Int.not_even_iff_odd.mpr hodd (hm.even_of_tie ?_)
  obtain rfl | rfl : m = s ∨ m = s + 1 := by omega
  · norm_num
  · push_cast
    norm_num

theorem unit_le_abs_of_odd (hm : IsNearest x m) (hodd : Odd m) :
    2 ^ 52 * 2 ^ unitExponent x ≤ |x| := by
  have hone : (1 : ℚ) ≤ |(m : ℚ)| := by
    exact_mod_cast Int.one_le_abs (fun h => by simp [h] at hodd)
  have hhalf : 1 / 2 ≤ |x| := by
    have := abs_sub_abs_le_abs_sub (m : ℚ) x
    rw [abs_sub_comm] at this
    linarith [hm.near]
  refine unit_le_abs (abs_pos.mp (one_half_pos.trans_le hhalf)) (by_contra fun hunit => ?_)
  have hsmall : |x| < 1 / 2 := by
    calc |x| < 2 ^ 53 * 2 ^ unitExponent x := abs_lt_unit x
      _ ≤ 2 ^ 53 * 2 ^ (-54 : ℤ) := by
        gcongr
        · norm_num
        · omega
      _ = 1 / 2 := by norm_num
  exact hsmall.not_ge hhalf

/-- A quotient by an even number is apart from the middles between integers by its reciprocal, which
is too far for a short numerator. -/
theorem not_roundsTo_middle_of_lt {n h : ℤ} (hpos : 0 < h) (hx : x * (2 * h : ℤ) = n)
    (hn : |n| < 2 ^ 53) (hm : IsNearest x m) (hodd : Odd m) (s : ℤ) : ¬RoundsTo x (s + 1 / 2) := by
  intro hround
  have hdivisor : (0 : ℚ) < (2 * h : ℤ) := by exact_mod_cast Int.mul_pos two_pos hpos
  have hapart : 1 ≤ |x - (s + 1 / 2)| * (2 * h : ℤ) := by
    have hint : (x - (s + 1 / 2)) * (2 * h : ℤ) = (n - s * (2 * h) - h : ℤ) := by
      rw [sub_mul, hx]
      push_cast
      ring
    have hne : (x - (s + 1 / 2)) * (2 * h : ℤ) ≠ 0 :=
      mul_ne_zero (sub_ne_zero.mpr (ne_middle hm hodd s)) hdivisor.ne'
    rw [abs_mul_of_pos hdivisor]
    rw [hint] at hne ⊢
    exact_mod_cast Int.one_le_abs (by exact_mod_cast hne)
  have hunit : 2 ≤ 2 ^ unitExponent x * ((2 * h : ℤ) : ℚ) := by
    have := mul_le_mul_of_nonneg_right hround.near hdivisor.le
    linarith
  have hlarge : (2 : ℚ) ^ 53 ≤ |(n : ℚ)| := by
    calc (2 : ℚ) ^ 53 ≤ 2 ^ 52 * (2 ^ unitExponent x * ((2 * h : ℤ) : ℚ)) := by linarith
      _ = 2 ^ 52 * 2 ^ unitExponent x * ((2 * h : ℤ) : ℚ) := (mul_assoc ..).symm
      _ ≤ |x| * ((2 * h : ℤ) : ℚ) :=
        mul_le_mul_of_nonneg_right (unit_le_abs_of_odd hm hodd) hdivisor.le
      _ = |(n : ℚ)| := by rw [abs_mul_of_pos hdivisor, hx]
  exact hn.not_ge (by exact_mod_cast hlarge)

end TemplateHost.Number
