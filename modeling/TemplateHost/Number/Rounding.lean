/-!
# Rounding quotients

Quotients of natural numbers rounded to the nearest integer, ties going to the even one.
-/
namespace TemplateHost.Number

def roundDiv (num den : Nat) : Nat :=
  let q := num / den
  let r := num % den
  if 2 * r < den then q
  else if den < 2 * r then q + 1
  else if q % 2 = 0 then q else q + 1

theorem roundDiv_near (num den : Nat) (h : 0 < den) :
    2 * (roundDiv num den * den) ≤ 2 * num + den ∧
      2 * num ≤ 2 * (roundDiv num den * den) + den := by
  have e : den * (num / den) + num % den = num := Nat.div_add_mod num den
  have l : num % den < den := Nat.mod_lt _ h
  have hq : (num / den + 1) * den = den * (num / den) + den := by
    rw [Nat.add_mul, Nat.mul_comm, Nat.one_mul]
  have hq0 : num / den * den = den * (num / den) := Nat.mul_comm ..
  simp only [roundDiv]
  split
  · omega
  · split
    · omega
    · split <;> omega

theorem roundDiv_even_of_tie (num den : Nat) (h : 2 * (num % den) = den) :
    roundDiv num den % 2 = 0 := by
  simp only [roundDiv]
  split
  · omega
  · split
    · omega
    · split <;> omega

theorem roundDiv_mul (n den : Nat) (h : 0 < den) : roundDiv (n * den) den = n := by
  simp [roundDiv, Nat.mul_div_cancel n h, h]

end TemplateHost.Number
