import TemplateHost.Text.Slice

/-!
# Truncation

A text longer than its limit is cut. Three dots mark the cut where they are wanted and the limit
leaves room for more than the dots.
-/
namespace TemplateHost.Text

def truncate (limit : Int) (ellipsis : Bool) (s : List Char) : List Char :=
  if (s.length : Int) ≤ limit then s
  else if ellipsis && 3 < limit then slice none (some (limit - 3)) s ++ ['.', '.', '.']
  else slice none (some limit) s

theorem truncate_of_le {limit : Int} {ellipsis : Bool} {s : List Char}
    (h : (s.length : Int) ≤ limit) : truncate limit ellipsis s = s := if_pos h

end TemplateHost.Text
