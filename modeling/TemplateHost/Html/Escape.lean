import TemplateHost.Html.Named

/-!
# Escaping for HTML and back

Five characters are written as references. Reading replaces numeric and named references in one
pass from left to right; a named reference may lack its semicolon, and then the longest name that
the table knows is taken.
-/
namespace TemplateHost.Html

def escapeChar (c : Char) : List Char :=
  if c = '&' then ['&', 'a', 'm', 'p', ';']
  else if c = '<' then ['&', 'l', 't', ';']
  else if c = '>' then ['&', 'g', 't', ';']
  else if c = '\x22' then ['&', 'q', 'u', 'o', 't', ';']
  else if c = '\x27' then ['&', '#', '3', '9', ';']
  else [c]

def escape (s : List Char) : List Char := s.flatMap escapeChar

/-- What a reference stands for, and how many characters it takes after its ampersand. -/
structure Reference where
  text : List Char
  width : Nat

/-- Code points that stand for other characters: those of an old eight-bit set, and zero. -/
def replacedCodes : List (Nat × Nat) :=
  [(0x00, 0xFFFD), (0x0D, 0x0D), (0x80, 0x20AC), (0x81, 0x81), (0x82, 0x201A), (0x83, 0x192),
   (0x84, 0x201E), (0x85, 0x2026), (0x86, 0x2020), (0x87, 0x2021), (0x88, 0x2C6), (0x89, 0x2030),
   (0x8A, 0x160), (0x8B, 0x2039), (0x8C, 0x152), (0x8D, 0x8D), (0x8E, 0x17D), (0x8F, 0x8F),
   (0x90, 0x90), (0x91, 0x2018), (0x92, 0x2019), (0x93, 0x201C), (0x94, 0x201D), (0x95, 0x2022),
   (0x96, 0x2013), (0x97, 0x2014), (0x98, 0x2DC), (0x99, 0x2122), (0x9A, 0x161), (0x9B, 0x203A),
   (0x9C, 0x153), (0x9D, 0x9D), (0x9E, 0x17E), (0x9F, 0x178)]

/-- Control characters and noncharacters, whose references stand for nothing. -/
def isForbiddenCode (n : Nat) : Bool :=
  (1 ≤ n && n ≤ 8) || n = 0xB || (0xE ≤ n && n ≤ 0x1F) || (0x7F ≤ n && n ≤ 0x9F)
    || (0xFDD0 ≤ n && n ≤ 0xFDEF) || 0xFFFE ≤ n % 0x10000

def codeText (n : Nat) : List Char :=
  match replacedCodes.lookup n with
  | some m => [Char.ofNat m]
  | none =>
    if (0xD800 ≤ n && n ≤ 0xDFFF) || 0x10FFFF < n then ['\uFFFD']
    else if isForbiddenCode n then []
    else [Char.ofNat n]

def isHexDigit (c : Char) : Bool :=
  c.isDigit || ('a' ≤ c && c ≤ 'f') || ('A' ≤ c && c ≤ 'F')

def digitValue (c : Char) : Nat :=
  if c.isDigit then c.toNat - 48 else if 'a' ≤ c then c.toNat - 87 else c.toNat - 55

def numeral (base : Nat) (digits : List Char) : Nat :=
  digits.foldl (fun n c => n * base + digitValue c) 0

/-- One more if the text goes on with a semicolon. -/
def withSemicolon (width : Nat) (rest : List Char) : Nat :=
  if rest.head? = some ';' then width + 1 else width

def decimalReference? (s : List Char) : Option Reference :=
  let digits := s.takeWhile Char.isDigit
  if digits.isEmpty then none
  else some ⟨codeText (numeral 10 digits),
    withSemicolon (digits.length + 1) (s.drop digits.length)⟩

def hexReference? (s : List Char) : Option Reference :=
  let digits := s.takeWhile isHexDigit
  if digits.isEmpty then none
  else some ⟨codeText (numeral 16 digits),
    withSemicolon (digits.length + 2) (s.drop digits.length)⟩

def isNameChar (c : Char) : Bool :=
  !(['\t', '\n', '\x0c', ' ', '<', '&', '#', ';'].contains c)

/-- The longest known start of `name` with between two and `n` characters, followed by the rest of
the name. -/
def longestNamed? (name : List Char) : Nat → Option (List Char)
  | 0 | 1 => none
  | n + 2 =>
    match Named.lookup? (name.take (n + 2)) with
    | some text => some (text ++ name.drop (n + 2))
    | none => longestNamed? name (n + 1)

def namedText (name : List Char) : List Char :=
  match Named.lookup? name with
  | some text => text
  | none => (longestNamed? name (name.length - 1)).getD ('&' :: name)

def namedReference? (s : List Char) : Option Reference :=
  let letters := (s.take 32).takeWhile isNameChar
  if letters.isEmpty then none
  else
    let width := withSemicolon letters.length (s.drop letters.length)
    some ⟨namedText (s.take width), width⟩

/-- The reference that follows an ampersand. -/
def reference? : List Char → Option Reference
  | '#' :: 'x' :: r | '#' :: 'X' :: r => hexReference? r
  | '#' :: r => decimalReference? r
  | s => namedReference? s

/-- Reading goes on after `skip` characters that a reference has taken. -/
def unescapeFrom : Nat → List Char → List Char
  | _, [] => []
  | skip + 1, _ :: r => unescapeFrom skip r
  | 0, c :: r =>
    if c = '&' then
      match reference? r with
      | some x => x.text ++ unescapeFrom x.width r
      | none => c :: unescapeFrom 0 r
    else c :: unescapeFrom 0 r

def unescape (s : List Char) : List Char := unescapeFrom 0 s

theorem escape_append (s t : List Char) : escape (s ++ t) = escape s ++ escape t :=
  List.flatMap_append

end TemplateHost.Html
