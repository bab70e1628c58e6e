import Mathlib.Algebra.Order.Field.Power
import Mathlib.Algebra.Order.Floor.Semifield
import Mathlib.Data.Int.Log
import Mathlib.Data.Rat.Floor
import Mathlib.Tactic.Linarith
import Mathlib.Tactic.Ring
import TemplateHost.Number.Binary64

/-!
# The nearest number

A rational number is rounded to the nearest whole number, and to the nearest number with 53
significant bits. The second rounding is the first at the unit of the last bit, which the size of
the number determines.
-/
namespace TemplateHost.Number

theorem abs_mul_of_pos {d : ℚ} (hd : 0 < d) (x : ℚ) : |x| * d = |x * d| := by
  rw [abs_mul, abs_of_pos hd]

theorem abs_div_sub_mul {d : ℚ} (hd : 0 < d) (x y : ℚ) : |x / d - y| * d = |x - y * d| := by
  rw [abs_mul_of_pos hd, sub_mul, div_mul_cancel₀ _ hd.ne']

theorem two_zpow_pos (e : ℤ) : (0 : ℚ) < 2 ^ e := zpow_pos two_pos e

/-- The whole number nearest to `x`, the even one of two that are equally near. -/
structure IsNearest (x : ℚ) (r : ℤ) : Prop where
  near : |x - r| ≤ 1 / 2
  even_of_tie : |x - r| = 1 / 2 → Even r

namespace IsNearest
variable {x : ℚ} {r : ℤ}

theorem neg (h : IsNearest x r) : IsNearest (-x) (-r) := by
  have hdist : |-x - ((-r : ℤ) : ℚ)| = |x - r| := by
    rw [Int.cast_neg, ← neg_sub', abs_neg]
  exact ⟨hdist ▸ h.near, fun htie => (h.even_of_tie (hdist ▸ htie)).neg⟩

theorem le_of_le (h : IsNearest x r) {b : ℤ} (hb : x ≤ b) : r ≤ b := by
  have hnear := (abs_le.mp h.near).1
  have : (r : ℚ) < b + 1 := by linarith
  exact Int.lt_add_one_iff.mp (by exact_mod_cast this)

theorem le_of_ge (h : IsNearest x r) {b : ℤ} (hb : (b : ℚ) ≤ x) : b ≤ r :=
  neg_le_neg_iff.mp (h.neg.le_of_le (by push_cast; exact neg_le_neg hb))

theorem lt_iff_of_even (h : IsNearest x r) {b : ℤ} (hb : Even b) :
    r < b ↔ x < b - 1 / 2 := by
  obtain ⟨hlow, hhigh⟩ := abs_le.mp h.near
  constructor
  · intro hlt
    have hr : (r : ℚ) ≤ b - 1 := by exact_mod_cast Int.le_sub_one_of_lt hlt
    refine lt_of_le_of_ne (by linarith) fun hx => ?_
    have hrb : (r : ℚ) = ((b - 1 : ℤ) : ℚ) := by push_cast; linarith
    have heven := h.even_of_tie (by rw [show x - r = 1 / 2 by linarith]; norm_num)
    rw [Int.cast_inj.mp hrb, Int.even_sub_one] at heven
    exact heven hb
  · intro hx
    have hrb : (r : ℚ) < b := by linarith
    exact_mod_cast hrb

theorem unique (h : IsNearest x r) {s : ℤ} (hs : IsNearest x s) : r = s := by
  wlog hlt : r < s generalizing r s
  · rcases lt_trichotomy r s with h' | h' | h'
    · exact absurd h' hlt
    · exact h'
    · exact (this hs h h').symm
  have hr := (abs_le.mp h.near).2
  have hs' := (abs_le.mp hs.near).1
  have hstep : ((r + 1 : ℤ) : ℚ) ≤ s := by exact_mod_cast hlt
  push_cast at hstep
  have hx : x - r = 1 / 2 := by linarith
  have hsr : (s : ℚ) = ((r + 1 : ℤ) : ℚ) := by push_cast; linarith
  have hre : Even r := h.even_of_tie (by rw [hx]; norm_num)
  have hse : Even s := hs.even_of_tie (by
    rw [show x - s = -(1 / 2) by linarith, abs_neg]; norm_num)
  rw [Int.cast_inj.mp hsr] at hse
  exact absurd hse (by simpa [Int.even_add_one] using hre)

theorem of_lt (h : |x - r| < 1 / 2) : IsNearest x r :=
  ⟨h.le, fun htie => absurd htie h.ne⟩

theorem abs (h : IsNearest x r) : IsNearest |x| |r| := by
  rcases le_total 0 x with hx | hx
  · rwa [abs_of_nonneg hx, abs_of_nonneg (h.le_of_ge (by exact_mod_cast hx))]
  · rw [abs_of_nonpos hx, abs_of_nonpos (h.le_of_le (by exact_mod_cast hx))]
    exact h.neg

theorem intCast (n : ℤ) : IsNearest n n := of_lt (by simp)

end IsNearest

/-- Being nearest is having no whole number nearer, and being even if another is as near. -/
theorem isNearest_iff {x : ℚ} {r : ℤ} :
    IsNearest x r ↔ (∀ j : ℤ, |x - r| ≤ |x - j|) ∧
      ∀ j : ℤ, j ≠ r → |x - r| = |x - j| → Even r := by
  constructor
  · intro h
    have hapart {j : ℤ} (hj : j ≠ r) : 1 ≤ |x - r| + |x - j| := by
      have hstep : (1 : ℚ) ≤ |(j - r : ℤ)| := by
        exact_mod_cast Int.one_le_abs (sub_ne_zero.mpr hj)
      calc (1 : ℚ) ≤ |(x - r) - (x - j)| := by
            rwa [sub_sub_sub_cancel_left, ← Int.cast_sub, ← Int.cast_abs]
        _ ≤ |x - r| + |x - j| := abs_sub _ _
    constructor
    · intro j
      rcases eq_or_ne j r with rfl | hj
      · exact le_rfl
      · linarith [h.near, hapart hj]
    · intro j hj htie
      exact h.even_of_tie (le_antisymm h.near (by linarith [hapart hj]))
  · rintro ⟨hnear, heven⟩
    have habove : |x - r| ≤ |x - r - 1| := by
      simpa [sub_sub] using hnear (r + 1)
    have hbelow : |x - r| ≤ |x - r + 1| := by
      simpa [sub_add] using hnear (r - 1)
    constructor
    · rcases le_total 0 (x - r) with h | h
      · rw [abs_of_nonneg h] at habove ⊢
        rcases abs_cases (x - r - 1) with ⟨h', -⟩ | ⟨h', -⟩ <;> linarith
      · rw [abs_of_nonpos h] at hbelow ⊢
        rcases abs_cases (x - r + 1) with ⟨h', -⟩ | ⟨h', -⟩ <;> linarith
    · intro htie
      rcases abs_eq (by norm_num) |>.mp htie with h | h
      · refine heven (r + 1) (by omega) ?_
        push_cast
        rw [← sub_sub, h]
        norm_num
      · refine heven (r - 1) (by omega) ?_
        push_cast
        rw [← sub_add, h]
        norm_num

theorem isNearest_of_fraction {x f : ℚ} {q : ℤ} (hx : x = q + f) (hpos : 0 ≤ f) (hlt : f < 1) :
    (f < 1 / 2 → IsNearest x q) ∧ (1 / 2 < f → IsNearest x (q + 1)) ∧
      (f = 1 / 2 → ∀ r, (r = q ∨ r = q + 1) → Even r → IsNearest x r) := by
  subst hx
  refine ⟨fun h => .of_lt ?_, fun h => .of_lt ?_, fun h r hr heven => ⟨?_, fun _ => heven⟩⟩
  · rw [add_sub_cancel_left, abs_of_nonneg hpos]
    exact h
  · rw [abs_lt]
    push_cast
    constructor <;> linarith
  · rw [abs_le]
    rcases hr with rfl | rfl <;> push_cast <;> constructor <;> linarith

theorem exists_isNearest (x : ℚ) : ∃ r, IsNearest x r := by
  obtain ⟨hbelow, habove, htie⟩ :=
    isNearest_of_fraction (Int.floor_add_fract x).symm (Int.fract_nonneg x) (Int.fract_lt_one x)
  rcases lt_trichotomy (Int.fract x) (1 / 2) with h | h | h
  · exact ⟨_, hbelow h⟩
  · rcases Int.even_or_odd ⌊x⌋ with heven | hodd
    · exact ⟨_, htie h _ (.inl rfl) heven⟩
    · exact ⟨_, htie h _ (.inr rfl) hodd.add_one⟩
  · exact ⟨_, habove h⟩

theorem isNearest_roundDiv (num : ℕ) {den : ℕ} (hden : 0 < den) :
    IsNearest (num / den) (roundDiv num den) := by
  have hd : (0 : ℚ) < den := by exact_mod_cast hden
  have hx : (num : ℚ) / den = ((num / den : ℕ) : ℤ) + (num % den : ℕ) / den := by
    have hdivision : ((den * (num / den) + num % den : ℕ) : ℚ) = num := by rw [Nat.div_add_mod]
    rw [← hdivision, Nat.cast_add, Nat.cast_mul, add_div, mul_div_cancel_left₀ _ hd.ne']
    rfl
  have hlt : ((num % den : ℕ) : ℚ) / den < 1 :=
    (div_lt_one hd).mpr (by exact_mod_cast Nat.mod_lt num hden)
  obtain ⟨hbelow, habove, htie⟩ := isNearest_of_fraction hx (by positivity) hlt
  simp only [roundDiv]
  split
  case isTrue h =>
    refine hbelow ((div_lt_div_iff₀ hd two_pos).mpr ?_)
    rw [mul_comm, one_mul]
    exact_mod_cast h
  split
  case isTrue h =>
    refine habove ((div_lt_div_iff₀ two_pos hd).mpr ?_)
    rw [mul_comm _ (2 : ℚ), one_mul]
    exact_mod_cast h
  case isFalse hge hle =>
    have hhalf : ((num % den : ℕ) : ℚ) / den = 1 / 2 := by
      have : 2 * (num % den) = den := by omega
      rw [div_eq_div_iff hd.ne' two_ne_zero, mul_comm, one_mul]
      exact_mod_cast this
    apply htie hhalf
    · split <;> simp
    · split
      · exact_mod_cast Nat.even_iff.mpr ‹_›
      · exact_mod_cast Nat.even_add_one.mpr (by rwa [Nat.even_iff])

/-- The exponent of the last of 53 bits of `x`, which is no less than the least one allowed. -/
def unitExponent (x : ℚ) : ℤ := max (Int.log 2 |x| - 52) (-1074)

/-- `y` is the number nearest to `x` of those with 53 bits, however large. -/
def RoundsTo (x y : ℚ) : Prop :=
  ∃ m : ℤ, IsNearest (x / 2 ^ unitExponent x) m ∧ y = m * 2 ^ unitExponent x

theorem unitExponent_neg (x : ℚ) : unitExponent (-x) = unitExponent x := by
  rw [unitExponent, unitExponent, abs_neg]

namespace RoundsTo
variable {x y : ℚ}

theorem unique (h : RoundsTo x y) {z : ℚ} (hz : RoundsTo x z) : y = z := by
  obtain ⟨a, ha, rfl⟩ := h
  obtain ⟨b, hb, rfl⟩ := hz
  rw [ha.unique hb]

theorem neg (h : RoundsTo x y) : RoundsTo (-x) (-y) := by
  obtain ⟨m, hm, rfl⟩ := h
  refine ⟨-m, ?_, ?_⟩
  · rw [unitExponent_neg, neg_div]
    exact hm.neg
  · rw [unitExponent_neg, Int.cast_neg, neg_mul]

theorem near (h : RoundsTo x y) : |x - y| ≤ 2 ^ unitExponent x / 2 := by
  obtain ⟨m, hm, rfl⟩ := h
  calc |x - m * 2 ^ unitExponent x| = |x / 2 ^ unitExponent x - m| * 2 ^ unitExponent x :=
        (abs_div_sub_mul (two_zpow_pos _) x m).symm
    _ ≤ 1 / 2 * 2 ^ unitExponent x := mul_le_mul_of_nonneg_right hm.near (two_zpow_pos _).le
    _ = 2 ^ unitExponent x / 2 := one_div_mul_eq_div _ _

theorem le_of_le (h : RoundsTo x y) {t : ℤ} (ht : x ≤ t * 2 ^ unitExponent x) :
    y ≤ t * 2 ^ unitExponent x := by
  obtain ⟨m, hm, rfl⟩ := h
  refine mul_le_mul_of_nonneg_right ?_ (two_zpow_pos _).le
  exact_mod_cast hm.le_of_le ((div_le_iff₀ (two_zpow_pos _)).mpr ht)

theorem le_of_ge (h : RoundsTo x y) {t : ℤ} (ht : t * 2 ^ unitExponent x ≤ x) :
    t * 2 ^ unitExponent x ≤ y := by
  have hneg := h.neg.le_of_le (t := -t)
  rw [unitExponent_neg, Int.cast_neg, neg_mul, neg_le_neg_iff, neg_le_neg_iff] at hneg
  exact hneg ht

end RoundsTo

theorem abs_lt_unit (x : ℚ) : |x| < 2 ^ 53 * 2 ^ unitExponent x := by
  calc |x| < 2 ^ (Int.log 2 |x| + 1) := Int.lt_zpow_succ_log_self one_lt_two |x|
    _ ≤ 2 ^ (53 + unitExponent x) := by
      refine zpow_le_zpow_right₀ one_le_two ?_
      rw [unitExponent]
      omega
    _ = 2 ^ 53 * 2 ^ unitExponent x := zpow_add₀ two_ne_zero 53 _

theorem ne_zero_of_unit_nonneg {x : ℚ} (h : 0 ≤ unitExponent x) : x ≠ 0 := by
  rintro rfl
  simp [unitExponent] at h

/-- The first of the 53 bits is not zero unless the unit is the least one. -/
theorem unit_le_abs {x : ℚ} (hx : x ≠ 0) (h : -1074 < unitExponent x) :
    2 ^ 52 * 2 ^ unitExponent x ≤ |x| := by
  calc (2 : ℚ) ^ 52 * 2 ^ unitExponent x = 2 ^ (52 + unitExponent x) :=
        (zpow_add₀ two_ne_zero 52 _).symm
    _ ≤ 2 ^ Int.log 2 |x| := by
      refine zpow_le_zpow_right₀ one_le_two ?_
      rw [unitExponent] at h ⊢
      omega
    _ ≤ |x| := Int.zpow_log_le_self one_lt_two (abs_pos.mpr hx)

theorem cast_shift_div (num den : ℕ) (e : ℤ) :
    ((num * Nat.pow 2 (-e).toNat : ℕ) : ℚ) / (den * Nat.pow 2 e.toNat : ℕ) =
      (num / den : ℚ) / 2 ^ e := by
  obtain ⟨n, rfl | rfl⟩ := e.eq_nat_or_neg
  · simp [div_div]
  · simp [mul_div_right_comm]

theorem two_zpow_log2_le {n : ℕ} (hn : 0 < n) : (2 : ℚ) ^ (n.log2 : ℤ) ≤ n := by
  rw [zpow_natCast]
  exact_mod_cast Nat.log2_self_le hn.ne'

theorem lt_two_zpow_log2 (n : ℕ) : (n : ℚ) < 2 ^ (n.log2 + 1 : ℤ) := by
  exact_mod_cast Nat.lt_log2_self (n := n)

theorem log_div_bounds {num den : ℕ} (hnum : 0 < num) (hden : 0 < den) :
    (num.log2 - den.log2 - 1 : ℤ) ≤ Int.log 2 (num / den : ℚ) ∧
      Int.log 2 (num / den : ℚ) ≤ num.log2 - den.log2 := by
  have hd : (0 : ℚ) < den := by exact_mod_cast hden
  have hx : (0 : ℚ) < num / den := div_pos (by exact_mod_cast hnum) hd
  constructor
  · refine (Int.zpow_le_iff_le_log one_lt_two hx).mp ((le_div_iff₀ hd).mpr ?_)
    calc (2 : ℚ) ^ (num.log2 - den.log2 - 1 : ℤ) * den
        ≤ 2 ^ (num.log2 - den.log2 - 1 : ℤ) * 2 ^ (den.log2 + 1 : ℤ) :=
          mul_le_mul_of_nonneg_left (lt_two_zpow_log2 den).le (two_zpow_pos _).le
      _ = 2 ^ (num.log2 : ℤ) := by rw [← zpow_add₀ two_ne_zero, sub_sub, sub_add_cancel]
      _ ≤ num := two_zpow_log2_le hnum
  · refine Int.lt_add_one_iff.mp ((Int.lt_zpow_iff_log_lt one_lt_two hx).mp ?_)
    refine (div_lt_iff₀ hd).mpr ?_
    calc (num : ℚ) < 2 ^ (num.log2 + 1 : ℤ) := lt_two_zpow_log2 num
      _ = 2 ^ (num.log2 - den.log2 + 1 : ℤ) * 2 ^ (den.log2 : ℤ) := by
        rw [← zpow_add₀ two_ne_zero, add_right_comm, sub_add_cancel]
      _ ≤ 2 ^ (num.log2 - den.log2 + 1 : ℤ) * den :=
        mul_le_mul_of_nonneg_left (two_zpow_log2_le hden) (two_zpow_pos _).le

theorem two_pow_le_shift_div_iff {num den : ℕ} (hnum : 0 < num) (hden : 0 < den) (e : ℤ) :
    Nat.pow 2 53 ≤ num * Nat.pow 2 (-e).toNat / (den * Nat.pow 2 e.toNat) ↔
      53 + e ≤ Int.log 2 (num / den : ℚ) := by
  have hx : (0 : ℚ) < num / den := div_pos (by exact_mod_cast hnum) (by exact_mod_cast hden)
  have hdivisor : 0 < den * Nat.pow 2 e.toNat := Nat.mul_pos hden (Nat.two_pow_pos _)
  have hdivisor' : (0 : ℚ) < (den * Nat.pow 2 e.toNat : ℕ) := by exact_mod_cast hdivisor
  rw [Nat.le_div_iff_mul_le hdivisor, ← Nat.cast_le (α := ℚ), Nat.cast_mul,
    ← le_div_iff₀ hdivisor', cast_shift_div, le_div_iff₀ (two_zpow_pos e),
    ← Int.zpow_le_iff_le_log one_lt_two hx, Nat.cast_ofNat, zpow_add₀ two_ne_zero]
  norm_num

namespace Binary64

/-- The logarithms of the two numbers leave two exponents, and the division decides. -/
theorem exponentFor_eq {num den : ℕ} (hnum : 0 < num) (hden : 0 < den) :
    exponentFor num den = unitExponent (num / den) := by
  have hx : (0 : ℚ) < num / den := div_pos (by exact_mod_cast hnum) (by exact_mod_cast hden)
  obtain ⟨hlow, hhigh⟩ := log_div_bounds hnum hden
  have hwide := two_pow_le_shift_div_iff hnum hden (num.log2 - den.log2 - 53)
  simp only [exponentFor, unitExponent, abs_of_pos hx]
  by_cases h : 53 + (num.log2 - den.log2 - 53 : ℤ) ≤ Int.log 2 (num / den : ℚ)
  · rw [if_pos (hwide.mpr h)]
    omega
  · rw [if_neg (mt hwide.mp h)]
    omega

/-- From here on numbers are rounded to an infinite one. -/
def overflow : ℚ := 2 ^ 1024 - 2 ^ 970

theorem overflow_eq : overflow = (2 ^ 53 - 1 / 2) * 2 ^ (971 : ℤ) := by
  have hhalf : (2 : ℚ) ^ 970 = 1 / 2 * 2 ^ 971 := by
    rw [pow_succ' 2 970, one_div, inv_mul_cancel_left₀ two_ne_zero]
  rw [overflow, hhalf, pow_add 2 53 971, ← sub_mul]
  rfl

theorem overflow_pos : 0 < overflow := by
  rw [overflow_eq]
  exact mul_pos (by norm_num) (two_zpow_pos _)

/-- The rounded number is out of range if its unit is, also when rounding up has raised it. -/
theorem lt_overflow_iff {x : ℚ} {m : ℤ} (hm : IsNearest (|x| / 2 ^ unitExponent x) m) :
    |x| < overflow ↔ unitExponent x + (if m = 2 ^ 53 then 1 else 0) ≤ 971 := by
  have hlt := abs_lt_unit x
  have hle : m ≤ 2 ^ 53 :=
    hm.le_of_le ((div_le_iff₀ (two_zpow_pos _)).mpr (by exact_mod_cast hlt.le))
  -- Only at the greatest unit does it matter to what the number is rounded.
  rcases lt_trichotomy (unitExponent x) 971 with h | h | h
  · refine iff_of_true ?_ (by split <;> omega)
    calc |x| < 2 ^ 53 * 2 ^ unitExponent x := hlt
      _ ≤ 2 ^ 53 * 2 ^ (970 : ℤ) := by
        gcongr
        · norm_num
        · omega
      _ < overflow := by
        rw [overflow_eq, show (971 : ℤ) = 1 + 970 by norm_num, zpow_add₀ two_ne_zero, ← mul_assoc]
        exact mul_lt_mul_of_pos_right (by norm_num) (two_zpow_pos _)
  · rw [h] at hm ⊢
    have hbelow := hm.lt_iff_of_even (b := 2 ^ 53) (by decide)
    rw [show ((2 ^ 53 : ℤ) : ℚ) = 2 ^ 53 by norm_cast, div_lt_iff₀ (two_zpow_pos 971),
      ← overflow_eq] at hbelow
    rw [← hbelow]
    split <;> omega
  · refine iff_of_false (not_lt.mpr ?_) (by split <;> omega)
    calc overflow ≤ 2 ^ 52 * 2 ^ (972 : ℤ) := by
          rw [overflow_eq, show (972 : ℤ) = 1 + 971 by norm_num, zpow_add₀ two_ne_zero, ← mul_assoc]
          exact mul_le_mul_of_nonneg_right (by norm_num) (two_zpow_pos _).le
      _ ≤ 2 ^ 52 * 2 ^ unitExponent x := by
        gcongr
        · norm_num
        · omega
      _ ≤ |x| := unit_le_abs (ne_zero_of_unit_nonneg (by omega)) (by omega)

def toRat : Binary64 → ℚ
  | .finite negative significand exponent =>
    (if negative then -1 else 1) * significand * 2 ^ exponent
  | _ => 0

theorem nearest_of_pos (negative : Bool) {num den m : ℕ} {e : ℤ} (hnum : 0 < num)
    (he : exponentFor num den = e)
    (hm : roundDiv (num * Nat.pow 2 (-e).toNat) (den * Nat.pow 2 e.toNat) = m) :
    nearest negative num den =
      if 971 < e + (if m = Nat.pow 2 53 then 1 else 0) then .infinite negative
      else if m = Nat.pow 2 53 then .finite negative (Nat.pow 2 52) (e + 1)
      else .finite negative m e := by
  simp only [nearest, if_neg hnum.ne', he, hm]
  by_cases hfull : m = Nat.pow 2 53
  · simp only [if_pos hfull]
  · simp only [if_neg hfull, add_zero]

/-- A positive quotient is rounded at its unit. A significand that has got a further bit is written
with the next exponent. -/
theorem nearest_spec (negative : Bool) {num den : ℕ} (hnum : 0 < num) (hden : 0 < den) :
    ((num / den : ℚ) < overflow → ∃ m e, nearest negative num den = .finite negative m e ∧
      RoundsTo (num / den) (m * 2 ^ e)) ∧
    (overflow ≤ (num / den : ℚ) → nearest negative num den = .infinite negative) := by
  have hx : (0 : ℚ) < num / den := div_pos (by exact_mod_cast hnum) (by exact_mod_cast hden)
  generalize he : exponentFor num den = e
  generalize hm : roundDiv (num * Nat.pow 2 (-e).toNat) (den * Nat.pow 2 e.toNat) = m
  have hunit : unitExponent (num / den : ℚ) = e := by rw [← exponentFor_eq hnum hden, he]
  have hdivisor : 0 < den * Nat.pow 2 e.toNat := Nat.mul_pos hden (Nat.two_pow_pos _)
  have hscaled := isNearest_roundDiv (num * Nat.pow 2 (-e).toNat) hdivisor
  rw [cast_shift_div, hm, ← hunit] at hscaled
  have hlimit := lt_overflow_iff (by rwa [abs_of_pos hx])
  have hfull : (m : ℤ) = 2 ^ 53 ↔ m = Nat.pow 2 53 := by rw [Nat.pow_eq]; norm_cast
  simp only [abs_of_pos hx, hunit, hfull] at hlimit
  rw [nearest_of_pos negative hnum he hm]
  constructor
  · intro hlt
    rw [if_neg (not_lt.mpr (hlimit.mp hlt))]
    split
    case isTrue hcarry =>
      refine ⟨_, _, rfl, m, hscaled, ?_⟩
      rw [hunit, hcarry, zpow_add_one₀ two_ne_zero, mul_comm ((2 : ℚ) ^ e), ← mul_assoc]
      congr 1
      norm_num
    case isFalse => exact ⟨_, _, rfl, m, hscaled, by rw [hunit]; rfl⟩
  · intro hge
    exact if_pos (not_le.mp (mt hlimit.mpr (not_lt.mpr hge)))

/-- **Quotients of integers** are rounded to the nearest number, unless they are out of range. -/
theorem ofQuotient_spec (num : ℤ) {den : ℕ} (hden : 0 < den) :
    (|(num / den : ℚ)| < overflow → ∃ s m e, ofQuotient num den = .finite s m e ∧
      RoundsTo (num / den) (toRat (.finite s m e))) ∧
    (overflow ≤ |(num / den : ℚ)| → ∃ s, ofQuotient num den = .infinite s) := by
  have habs : |(num / den : ℚ)| = num.natAbs / den := by
    rw [abs_div, Nat.abs_cast, Nat.cast_natAbs, Int.cast_abs]
  rcases eq_or_ne num 0 with rfl | hne
  · rw [Int.cast_zero, zero_div, abs_zero]
    refine ⟨fun _ => ⟨false, 0, -1074, rfl, 0, ?_, ?_⟩, fun hle => absurd overflow_pos hle.not_gt⟩
    · simpa using IsNearest.intCast 0
    · simp [toRat]
  obtain ⟨hfinite, hinfinite⟩ := nearest_spec (decide (num < 0)) (Int.natAbs_pos.mpr hne) hden
  rw [habs]
  refine ⟨fun hlt => ?_, fun hge => ⟨_, hinfinite hge⟩⟩
  obtain ⟨m, e, heq, hround⟩ := hfinite hlt
  refine ⟨_, m, e, heq, ?_⟩
  rcases lt_or_gt_of_ne hne with hneg | hpos
  · have hx : (num / den : ℚ) = -(num.natAbs / den) := by
      rw [Nat.cast_natAbs, abs_of_neg hneg, Int.cast_neg, neg_div, neg_neg]
    rw [hx]
    simpa [toRat, hneg] using hround.neg
  · have hx : (num / den : ℚ) = num.natAbs / den := by
      rw [Nat.cast_natAbs, abs_of_pos hpos]
    rw [hx]
    simpa [toRat, hpos.not_gt] using hround

theorem round?_finite (s : Bool) (m : ℕ) (e : ℤ) :
    ∃ r, (finite s m e).round? = some r ∧ IsNearest (toRat (.finite s m e)) r := by
  have hdivisor : 0 < Nat.pow 2 (-e).toNat := Nat.two_pow_pos _
  have hnearest := isNearest_roundDiv (m * Nat.pow 2 e.toNat) hdivisor
  have hvalue : ((m * Nat.pow 2 e.toNat : ℕ) : ℚ) / (Nat.pow 2 (-e).toNat : ℕ) = m * 2 ^ e := by
    have := cast_shift_div m 1 (-e)
    simpa using this
  rw [hvalue] at hnearest
  refine ⟨_, rfl, ?_⟩
  cases s
  · simpa [Quotient.signed, toRat] using hnearest
  · simpa [Quotient.signed, toRat] using hnearest.neg

end Binary64

end TemplateHost.Number
