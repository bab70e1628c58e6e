import TemplateHost.Text.Blank

/-!
# Word breaks

Long words get break opportunities. A word is a run of characters that are neither blank nor part
of a tag; a tag reaches from a left angle bracket to the next right one.
-/
namespace TemplateHost.Text

def wordBreak : List Char := ['<', 'w', 'b', 'r', '>']

/-- Whether a tag is open after `c`. -/
def tagOpen (inTag : Bool) (c : Char) : Bool :=
  if c = '<' then true else if c = '>' then false else inTag

/-- `run` characters of the current word stand since its start or its last break; `tooLong` tells
which run lengths call for a break. -/
def breakWordsFrom (tooLong : Nat → Bool) (run : Nat) (inTag : Bool) : List Char → List Char
  | [] => []
  | c :: r =>
    let inTag := tagOpen inTag c
    if inTag || isBlank c then c :: breakWordsFrom tooLong 0 inTag r
    else if tooLong (run + 1) then wordBreak ++ c :: breakWordsFrom tooLong 1 inTag r
    else c :: breakWordsFrom tooLong (run + 1) inTag r

def breakWords (tooLong : Nat → Bool) (s : List Char) : List Char :=
  breakWordsFrom tooLong 0 false s

/-- Whether a character of the text belongs to a word. -/
def hasWordFrom (inTag : Bool) : List Char → Bool
  | [] => false
  | c :: r => !(tagOpen inTag c || isBlank c) || hasWordFrom (tagOpen inTag c) r

def hasWord (s : List Char) : Bool := hasWordFrom false s

end TemplateHost.Text
