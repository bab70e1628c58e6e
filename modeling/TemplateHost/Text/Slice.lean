/-!
# Slices

A slice is given by two positions that may be missing, count from the end when negative, and are
moved into the text when they lie outside.
-/
namespace TemplateHost.Text

def clampPosition (length : Nat) (i : Int) : Nat :=
  if i < 0 then (i + length).toNat else min i.toNat length

def slice {α : Type} (start stop : Option Int) (s : List α) : List α :=
  let lo := (start.map (clampPosition s.length)).getD 0
  let hi := (stop.map (clampPosition s.length)).getD s.length
  (s.take hi).drop lo

theorem clampPosition_le (length : Nat) (i : Int) : clampPosition length i ≤ length := by
  unfold clampPosition
  split <;> omega

theorem slice_none {α : Type} (s : List α) : slice none none s = s := by simp [slice]

theorem length_slice_le {α : Type} (start stop : Option Int) (s : List α) :
    (slice start stop s).length ≤ s.length := by
  simp only [slice, List.length_drop, List.length_take]
  omega

end TemplateHost.Text
