import TemplateHost.Library.Function
import TemplateHost.Proofs.Number.Twice

/-!
# Rounding integers through floating point numbers

An integer that is rounded to a multiple of a power of ten is divided by it, the quotient rounded to
53 bits and then to an integer, which is multiplied again. So what holds of rounding twice decides
whether the result is the nearest multiple. It always is for integers below 2^53.
-/
namespace TemplateHost.Library
open Number

/-- The multiple of `step` nearest to `n`, the even one of two that are equally near. -/
structure IsNearestMultiple (n : ℤ) (step : ℕ) (r : ℤ) : Prop where
  dvd : (step : ℤ) ∣ r
  near : ∀ j : ℤ, |n - r| ≤ |n - j * step|
  even_of_tie : ∀ j : ℤ, j * step ≠ r → |n - r| = |n - j * step| → Even (r / step)

theorem isNearestMultiple_mul {n m : ℤ} {step : ℕ} (hstep : 0 < step) :
    IsNearestMultiple n step (m * step) ↔ IsNearest (n / step) m := by
  have hs : (0 : ℚ) < step := by exact_mod_cast hstep
  have hs' : (step : ℤ) ≠ 0 := by exact_mod_cast hstep.ne'
  have hdist (j : ℤ) : ((|n - j * step| : ℤ) : ℚ) = |(n / step : ℚ) - j| * step := by
    rw [abs_div_sub_mul hs]
    push_cast
    rfl
  have hle (j : ℤ) : |n - m * step| ≤ |n - j * step| ↔
      |(n / step : ℚ) - m| ≤ |(n / step : ℚ) - j| := by
    rw [← Int.cast_le (R := ℚ), hdist, hdist, mul_le_mul_iff_left₀ hs]
  have heq (j : ℤ) : |n - m * step| = |n - j * step| ↔
      |(n / step : ℚ) - m| = |(n / step : ℚ) - j| := by
    rw [← Int.cast_inj (α := ℚ), hdist, hdist, mul_left_inj' hs.ne']
  have hne (j : ℤ) : j * step ≠ m * step ↔ j ≠ m := not_congr (mul_left_inj' hs')
  rw [isNearest_iff]
  constructor
  · intro h
    refine ⟨fun j => (hle j).mp (h.near j), fun j hj htie => ?_⟩
    have := h.even_of_tie j ((hne j).mpr hj) ((heq j).mpr htie)
    rwa [Int.mul_ediv_cancel _ hs'] at this
  · rintro ⟨hnear, htie⟩
    refine ⟨dvd_mul_left _ _, fun j => (hle j).mpr (hnear j), fun j hj h => ?_⟩
    rw [Int.mul_ediv_cancel _ hs']
    exact htie j ((hne j).mp hj) ((heq j).mp h)

theorem le_int_iff (m n : ℤ) : (Numeric.int m).le (.int n) = true ↔ m ≤ n := by
  simp [Numeric.le, Numeric.compare?, compare_lt_iff_lt, le_iff_lt_or_eq]

theorem quotient_int (n : ℤ) (den : ℕ) :
    quotient (.int n) (.int den) =
      if (Binary64.ofQuotient n den).isFinite then .ok (Binary64.ofQuotient n den)
      else .error (.tooLarge "integer division result too large for a float") := by
  simp [quotient, (Int.natCast_nonneg den).not_gt]

theorem roundNumber_int (d : Describer) (n : ℤ) (k : ℕ) :
    roundNumber d (.int n) (.int (-k)) =
      (do return .int (← roundToScale (.int n) (.int (10 ^ k : ℕ)))) := by
  have hle : (Numeric.int (-k)).le (.int 0) = true := (le_int_iff _ _).mpr (by omega)
  have hscale : scale (.int (-k)) = .ok (.int (10 ^ k : ℕ)) := by simp [scale]
  simp only [roundNumber, numberOf, Value.number?, bind, Except.bind, if_pos hle, hscale]

theorem roundNumber_of_finite (d : Describer) {n r : ℤ} {k : ℕ} {s : Bool} {m : ℕ} {e : ℤ}
    (hquotient : Binary64.ofQuotient n (10 ^ k) = .finite s m e)
    (hr : (Binary64.finite s m e).round? = some r) :
    roundNumber d (.int n) (.int (-k)) = .ok (.int (r * (10 ^ k : ℕ))) := by
  rw [roundNumber_int, roundToScale, quotient_int, hquotient]
  simp [Binary64.isFinite, wholePart, hr, bind, Except.bind, pure, Except.pure]

theorem roundNumber_of_infinite (d : Describer) {n : ℤ} {k : ℕ} {s : Bool}
    (hquotient : Binary64.ofQuotient n (10 ^ k) = .infinite s) :
    roundNumber d (.int n) (.int (-k)) =
      .error (.tooLarge "integer division result too large for a float") := by
  rw [roundNumber_int, roundToScale, quotient_int, hquotient]
  rfl

theorem roundNumber_spec (d : Describer) (n : ℤ) (k : ℕ) :
    let x : ℚ := n / (10 ^ k : ℕ)
    (|x| < Binary64.overflow → ∃ v r, RoundsTo x v ∧ IsNearest v r ∧
      roundNumber d (.int n) (.int (-k)) = .ok (.int (r * (10 ^ k : ℕ)))) ∧
    (Binary64.overflow ≤ |x| → roundNumber d (.int n) (.int (-k)) =
      .error (.tooLarge "integer division result too large for a float")) := by
  have hpos : 0 < 10 ^ k := Nat.pow_pos (by decide)
  obtain ⟨hfinite, hinfinite⟩ := Binary64.ofQuotient_spec n hpos
  constructor
  · intro hlt
    obtain ⟨s, m, e, hquotient, hround⟩ := hfinite hlt
    obtain ⟨r, hr, hnear⟩ := Binary64.round?_finite s m e
    exact ⟨_, r, hround, hnear, roundNumber_of_finite d hquotient hr⟩
  · intro hge
    obtain ⟨s, hquotient⟩ := hinfinite hge
    exact roundNumber_of_infinite d hquotient

theorem roundNumber_eq_iff (d : Describer) {n m : ℤ} {k : ℕ}
    (hm : IsNearest (n / (10 ^ k : ℕ)) m) :
    roundNumber d (.int n) (.int (-k)) = .ok (.int (m * (10 ^ k : ℕ))) ↔
      IsShort m ∧ (Odd m → ¬RoundsTo (n / (10 ^ k : ℕ)) (m + 1 / 2) ∧
        ¬RoundsTo (n / (10 ^ k : ℕ)) (m - 1 / 2)) := by
  obtain ⟨hfinite, hinfinite⟩ := roundNumber_spec d n k
  rcases lt_or_ge |(n / (10 ^ k : ℕ) : ℚ)| Binary64.overflow with hlt | hge
  · obtain ⟨v, r, hround, hr, heq⟩ := hfinite hlt
    rw [← eq_iff_exact hlt hround hr hm, heq]
    simp
  · rw [hinfinite hge]
    refine iff_of_false nofun fun h => ?_
    exact (lt_overflow_of_isShort hm h.1).not_ge hge

/-- Integers that are short enough are rounded to the nearest multiple of every power of ten. -/
theorem roundNumber_exact_of_lt (d : Describer) {n : ℤ} (hn : |n| < 2 ^ 53) (k : ℕ) :
    ∃ r, roundNumber d (.int n) (.int (-k)) = .ok (.int r) ∧ IsNearestMultiple n (10 ^ k) r := by
  obtain ⟨m, hm⟩ := exists_isNearest (n / (10 ^ k : ℕ))
  have hshort : IsShort m := by
    refine isShort_of_lt ((hm.abs.le_of_le ?_).trans_lt hn)
    rw [abs_div, Nat.abs_cast, Int.cast_abs]
    exact div_le_self (abs_nonneg _) (by exact_mod_cast Nat.one_le_pow k 10 (by decide))
  have hmiddle (hodd : Odd m) (s : ℤ) : ¬RoundsTo (n / (10 ^ k : ℕ)) (s + 1 / 2) := by
    cases k with
    | zero => simpa using not_roundsTo_middle n s
    | succ k =>
      refine not_roundsTo_middle_of_lt (h := 5 * 10 ^ k) (by positivity) ?_ hn hm hodd s
      rw [show (2 * (5 * 10 ^ k) : ℤ) = (10 ^ (k + 1) : ℕ) by push_cast; ring, Int.cast_natCast]
      exact div_mul_cancel₀ _ (by positivity)
  refine ⟨_, (roundNumber_eq_iff d hm).mpr ⟨hshort, fun hodd => ⟨hmiddle hodd m, ?_⟩⟩,
    (isNearestMultiple_mul (Nat.pow_pos (by decide))).mpr hm⟩
  rw [sub_half_eq]
  exact hmiddle hodd (m - 1)

theorem roundNumber_self_iff (d : Describer) (n : ℤ) :
    Function.roundNumber.apply d [.int n] = .ok (.int n) ↔ IsShort n := by
  have hn : IsNearest (n / (10 ^ 0 : ℕ)) n := by simpa using IsNearest.intCast n
  have hmiddle (s : ℤ) : ¬RoundsTo (n / (10 ^ 0 : ℕ)) (s + 1 / 2) := by
    simpa using not_roundsTo_middle n s
  have hiff := roundNumber_eq_iff d hn
  rw [sub_half_eq, and_iff_left fun _ => ⟨hmiddle n, hmiddle (n - 1)⟩, pow_zero, Nat.cast_one,
    mul_one] at hiff
  exact hiff

/-- **Integers rounded to a power of ten.** The result is the nearest multiple, the even one of two
that are equally near, exactly if the number of that multiple is short and, where it is odd, the
quotient is not moved onto a middle beside it. To the power of zero exactly the short integers are
kept. Every result is a multiple, and it is missing if the quotient is out of range. -/
theorem roundNumber_exact_iff (d : Describer) (n : ℤ) (k : ℕ) :
    let x : ℚ := n / (10 ^ k : ℕ)
    ((∃ r, roundNumber d (.int n) (.int (-k)) = .ok (.int r) ∧ IsNearestMultiple n (10 ^ k) r) ↔
      ∃ m, IsNearest x m ∧ IsShort m ∧
        (Odd m → ¬RoundsTo x (m + 1 / 2) ∧ ¬RoundsTo x (m - 1 / 2))) ∧
    (Function.roundNumber.apply d [.int n] = .ok (.int n) ↔ IsShort n) ∧
    (if |x| < Binary64.overflow
      then ∃ m : ℤ, roundNumber d (.int n) (.int (-k)) = .ok (.int (m * (10 ^ k : ℕ)))
      else roundNumber d (.int n) (.int (-k)) =
        .error (.tooLarge "integer division result too large for a float")) := by
  intro x
  have hpos : 0 < 10 ^ k := Nat.pow_pos (by decide)
  refine ⟨⟨?_, ?_⟩, ?_, ?_⟩
  · rintro ⟨r, heq, hr⟩
    obtain ⟨m, rfl⟩ := hr.dvd
    rw [mul_comm] at heq hr
    have hm := (isNearestMultiple_mul hpos).mp hr
    exact ⟨m, hm, (roundNumber_eq_iff d hm).mp heq⟩
  · rintro ⟨m, hm, hexact⟩
    exact ⟨_, (roundNumber_eq_iff d hm).mpr hexact, (isNearestMultiple_mul hpos).mpr hm⟩
  · exact roundNumber_self_iff d n
  · obtain ⟨hfinite, hinfinite⟩ := roundNumber_spec d n k
    split
    case isTrue hlt =>
      obtain ⟨v, r, -, -, heq⟩ := hfinite hlt
      exact ⟨r, heq⟩
    case isFalse hge => exact hinfinite (not_lt.mp hge)

end TemplateHost.Library
