/-!
# Percent encoding and safe addresses

A character outside the kept set is written as the percent-encoded bytes of its UTF-8 form.
Letters, digits and four marks are always kept. An address with a scheme is only let through when
the scheme is one of four.
-/
namespace TemplateHost.Uri

def hexDigit (n : Nat) : Char := if n < 10 then Char.ofNat (48 + n) else Char.ofNat (55 + n)

def percentByte (b : UInt8) : List Char :=
  ['%', hexDigit (b.toNat / 16), hexDigit (b.toNat % 16)]

def isUnreserved (c : Char) : Bool := c.isAlphanum || ['_', '.', '-', '~'].contains c

def encodeChar (kept : Char → Bool) (c : Char) : List Char :=
  if isUnreserved c || kept c then [c] else (String.utf8EncodeChar c).flatMap percentByte

def encode (kept : Char → Bool) (s : List Char) : List Char := s.flatMap (encodeChar kept)

def escape (s : List Char) : List Char := encode (fun _ => false) s

/-- The punctuation of an address, the percent sign of encoded bytes included. -/
def punctuation : List Char :=
  ['/', ':', '?', '#', '[', ']', '@', '!', '$', '&', '\x27', '(', ')', '*', '+', ',', ';', '=',
   '%', '-', '.', '_', '~']

/-- A whole address with everything encoded that may not stand in one. -/
def normalize (s : List Char) : List Char := encode punctuation.contains s

def safeSchemes : List (List Char) :=
  [['h', 't', 't', 'p', ':'], ['h', 't', 't', 'p', 's', ':'],
   ['m', 'a', 'i', 'l', 't', 'o', ':'], ['f', 't', 'p', ':']]

/-- Whether the text starts with one of the schemes, be it in capitals. To lower the letters of
ASCII is enough: of the other characters only the Kelvin sign and the dotted capital I have letters
of ASCII in their lower case. That of the one is a `k`, which no scheme has; that of the other is an
`i` and a combining dot, which follows no letter in a scheme. -/
def hasSafeScheme (s : List Char) : Bool :=
  safeSchemes.any fun scheme => scheme.isPrefixOf (s.map Char.toLower)

/-- Whether a colon stands before every slash. -/
def hasScheme (s : List Char) : Bool :=
  s.contains ':' && !(s.takeWhile (· ≠ ':')).contains '/'

/-- What replaces an address that is not let through. -/
def invalidAddress : List Char := "about:invalid#zSoyz".toList

def filter (s : List Char) : List Char :=
  if hasScheme s && !hasSafeScheme s then invalidAddress else normalize s

theorem encode_append (kept : Char → Bool) (s t : List Char) :
    encode kept (s ++ t) = encode kept s ++ encode kept t := List.flatMap_append

end TemplateHost.Uri
