/-!
# Resemblance of names

How much of two texts can be matched by taking the longest common block, then the longest common
blocks to its left and to its right, and so on. Of equally long blocks the earliest in the first
text wins, then the earliest in the second. In a second text of 200 characters or more, characters
that make up over one percent of it start no block; they only extend one.
-/
namespace TemplateHost.Text.Resemblance

structure Block where
  left : Nat
  right : Nat
  size : Nat
deriving DecidableEq

/-- Whether a character of the second text may be part of a block's core. -/
def isTelling (text : List Char) (c : Char) : Bool :=
  text.length < 200 || text.count c ≤ text.length / 100 + 1

/-- The length of the common run at the head of two texts, through characters that count. -/
def headRun (counts : Char → Bool) : List Char → List Char → Nat
  | a :: as, b :: bs => if a = b ∧ counts b then headRun counts as bs + 1 else 0
  | _, _ => 0

/-- The better of `best` and the blocks that begin at position `i` of the first text, `a` being
what follows there; `j` counts up through the second text. -/
def bestFrom (counts : Char → Bool) (a : List Char) (i : Nat) : Nat → List Char → Block → Block
  | _, [], best => best
  | j, b :: bs, best =>
    let size := headRun counts a (b :: bs)
    bestFrom counts a i (j + 1) bs (if best.size < size then ⟨i, j, size⟩ else best)

def bestCore (counts : Char → Bool) (b : List Char) : Nat → List Char → Block → Block
  | _, [], best => best
  | i, a :: as, best =>
    bestCore counts b (i + 1) as (bestFrom counts (a :: as) i 0 b best)

/-- A block grown in both directions while the texts agree. -/
def Block.grow (a b : List Char) (k : Block) : Block :=
  let before := headRun (fun _ => true) (a.take k.left).reverse (b.take k.right).reverse
  let after := headRun (fun _ => true) (a.drop (k.left + k.size)) (b.drop (k.right + k.size))
  ⟨k.left - before, k.right - before, before + k.size + after⟩

def longestBlock (counts : Char → Bool) (a b : List Char) : Block :=
  (bestCore counts b 0 a ⟨0, 0, 0⟩).grow a b

/-- The number of matched characters; `depth` bounds the number of nested splits. -/
def matchedWithin (counts : Char → Bool) : Nat → List Char → List Char → Nat
  | 0, _, _ => 0
  | depth + 1, a, b =>
    let k := longestBlock counts a b
    if k.size = 0 then 0
    else
      k.size + matchedWithin counts depth (a.take k.left) (b.take k.right)
        + matchedWithin counts depth (a.drop (k.left + k.size)) (b.drop (k.right + k.size))

def matched (a b : List Char) : Nat := matchedWithin (isTelling b) (a.length + 1) a b

/-- A candidate with its score: matched characters out of the total length of both texts. -/
structure Scored where
  name : String
  matched : Nat
  total : Nat

def score (word candidate : String) : Scored :=
  ⟨candidate, matched candidate.toList word.toList, candidate.length + word.length⟩

/-- Twice the matches make up at least three fifths of the total; two empty texts match. -/
def Scored.isClose (s : Scored) : Bool := s.total = 0 || 3 * s.total ≤ 10 * s.matched

/-- Higher scores first, and of equal scores the greater name. -/
def Scored.beats (s t : Scored) : Bool :=
  let x := s.matched * t.total
  let y := t.matched * s.total
  y < x || (x = y && t.name < s.name)

def best : List Scored → Option Scored
  | [] => none
  | s :: r => match best r with
    | none => some s
    | some t => if t.beats s then some t else some s

/-- The close candidate that resembles `word` most. -/
def closest? (word : String) (candidates : List String) : Option String :=
  (best ((candidates.map (score word)).filter Scored.isClose)).map (·.name)

end TemplateHost.Text.Resemblance
