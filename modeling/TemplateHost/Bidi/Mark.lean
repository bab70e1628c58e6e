import TemplateHost.Bidi.Strength

/-!
# Direction of texts

The direction of a text is that of its first strong character. A text that runs against its
surroundings needs a direction attribute, and a mark after it that restores the direction.
-/
namespace TemplateHost.Bidi

def direction? (s : List Char) : Option Direction := s.findSome? strength?

/-- Directions as numbers: 1 for left to right, -1 for right to left. -/
def Direction.sign : Direction → Int
  | .ltr => 1
  | .rtl => -1

def Direction.mark : Direction → Char
  | .ltr => '\u200E'
  | .rtl => '\u200F'

def Direction.attribute : Direction → String
  | .ltr => "dir=\"ltr\""
  | .rtl => "dir=\"rtl\""

def Direction.startEdge : Direction → String
  | .ltr => "left"
  | .rtl => "right"

def Direction.endEdge : Direction → String
  | .ltr => "right"
  | .rtl => "left"

theorem strength?_mark (d : Direction) : strength? d.mark = some d := by
  cases d <;> decide +kernel

end TemplateHost.Bidi
