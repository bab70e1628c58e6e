import TemplateHost.Text.Ranges

/-!
# Blank characters

The white space of Unicode together with the four information separators U+001C to U+001F.
-/
namespace TemplateHost.Text

def blankRanges : List (Nat × Nat) :=
  [(0x09, 0x0D), (0x1C, 0x20), (0x85, 0x85), (0xA0, 0xA0), (0x1680, 0x1680), (0x2000, 0x200A),
   (0x2028, 0x2029), (0x202F, 0x202F), (0x205F, 0x205F), (0x3000, 0x3000)]

def isBlank (c : Char) : Bool := inRanges blankRanges c.toNat

def trimLeft (s : List Char) : List Char := s.dropWhile isBlank

def trimRight (s : List Char) : List Char := (s.reverse.dropWhile isBlank).reverse

def trim (s : List Char) : List Char := trimRight (trimLeft s)

/-- Every run of blank characters becomes one space. -/
def squeeze : List Char → List Char
  | [] => []
  | [c] => if isBlank c then [' '] else [c]
  | c :: d :: r =>
    if isBlank c then
      if isBlank d then squeeze (d :: r) else ' ' :: squeeze (d :: r)
    else c :: squeeze (d :: r)

theorem isBlank_space : isBlank ' ' = true := by decide

theorem isBlank_of_isWhitespace (c : Char) (h : c.isWhitespace = true) : isBlank c = true := by
  simp only [Char.isWhitespace, Bool.or_eq_true, decide_eq_true_eq] at h
  rcases h with ((h | h) | h) | h <;> subst h <;> decide

theorem length_squeeze_le (s : List Char) : (squeeze s).length ≤ s.length := by
  fun_induction squeeze s
  all_goals simp_all
  all_goals omega

end TemplateHost.Text
