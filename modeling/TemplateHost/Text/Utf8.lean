import TemplateHost.Text.Quoted

/-!
# UTF-8

Decoding reports the first defect with its position, or replaces every defect by U+FFFD. A defect
covers the longest start of a well-formed sequence, and one byte if there is none.
-/
namespace TemplateHost.Text.Utf8

inductive Defect where
  | startByte
  | continuation
  | truncated
deriving DecidableEq

/-- What stands at the head of a byte sequence, and how many bytes it takes. -/
inductive Item where
  | char (c : Char) (width : Nat)
  | defect (d : Defect) (width : Nat)

def Item.width : Item → Nat
  | .char _ w | .defect _ w => w

def isContinuation (b : UInt8) : Bool := 0x80 ≤ b && b < 0xC0

/-- The admissible values of the byte after the lead byte. -/
def secondRange (lead : UInt8) : UInt8 × UInt8 :=
  if lead = 0xE0 then (0xA0, 0xBF)
  else if lead = 0xED then (0x80, 0x9F)
  else if lead = 0xF0 then (0x90, 0xBF)
  else if lead = 0xF4 then (0x80, 0x8F)
  else (0x80, 0xBF)

def secondFits (lead b : UInt8) : Bool := (secondRange lead).1 ≤ b && b ≤ (secondRange lead).2

/-- The number of bytes that a lead byte announces. -/
def announced (lead : UInt8) : Nat :=
  if lead < 0x80 then 1
  else if lead < 0xC2 then 0
  else if lead < 0xE0 then 2
  else if lead < 0xF0 then 3
  else if lead < 0xF5 then 4
  else 0

def sixBits (b : UInt8) : Nat := b.toNat % 0x40

def item (lead : UInt8) (rest : List UInt8) : Item :=
  match announced lead, rest with
  | 1, _ => .char (Char.ofNat lead.toNat) 1
  | 0, _ => .defect .startByte 1
  | _, [] => .defect .truncated 1
  | 2, b :: _ =>
    if secondFits lead b then .char (Char.ofNat (lead.toNat % 0x20 * 0x40 + sixBits b)) 2
    else .defect .continuation 1
  | 3, b :: r =>
    if !secondFits lead b then .defect .continuation 1
    else match r with
      | [] => .defect .truncated 2
      | c :: _ =>
        if isContinuation c then
          .char (Char.ofNat (lead.toNat % 0x10 * 0x1000 + sixBits b * 0x40 + sixBits c)) 3
        else .defect .continuation 2
  | _, b :: r =>
    if !secondFits lead b then .defect .continuation 1
    else match r with
      | [] => .defect .truncated 2
      | c :: r =>
        if !isContinuation c then .defect .continuation 2
        else match r with
          | [] => .defect .truncated 3
          | d :: _ =>
            if isContinuation d then
              .char (Char.ofNat (lead.toNat % 8 * 0x40000 + sixBits b * 0x1000 + sixBits c * 0x40
                + sixBits d)) 4
            else .defect .continuation 3

/-- The sequence of characters and defects; each takes at least one byte. -/
def items : List UInt8 → List Item
  | [] => []
  | lead :: rest =>
    let it := item lead rest
    it :: items (rest.drop (it.width - 1))
termination_by bytes => bytes.length
decreasing_by
  simp only [List.length_drop, List.length_cons]
  omega

/-- Why a byte sequence is no text: the defect, where it begins, and the bytes it covers. -/
structure Failure where
  defect : Defect
  start : Nat
  bytes : List UInt8
deriving DecidableEq

def Defect.reason : Defect → String
  | .startByte => "invalid start byte"
  | .continuation => "invalid continuation byte"
  | .truncated => "unexpected end of data"

def Failure.message (f : Failure) : String :=
  let place := match f.bytes with
    | [b] => "byte 0x" ++ String.ofList (hexDigits 2 b.toNat) ++ " in position " ++ toString f.start
    | bs => "bytes in position " ++ toString f.start ++ "-" ++ toString (f.start + bs.length - 1)
  "'utf-8' codec can't decode " ++ place ++ ": " ++ f.defect.reason

/-- Characters up to the first defect, whose position is counted from `start`. -/
def collect (start : Nat) (bytes : List UInt8) : List Item → Except Failure (List Char)
  | [] => .ok []
  | .char c w :: r => (collect (start + w) (bytes.drop w) r).map (c :: ·)
  | .defect d w :: _ => .error ⟨d, start, bytes.take w⟩

def decode (bytes : List UInt8) : Except Failure String :=
  (collect 0 bytes (items bytes)).map String.ofList

/-- Decoding that never fails: each defect becomes U+FFFD. -/
def decodeLossy (bytes : List UInt8) : String :=
  String.ofList ((items bytes).map fun
    | .char c _ => c
    | .defect _ _ => '\uFFFD')

def encode (s : String) : List UInt8 := s.toList.flatMap String.utf8EncodeChar

end TemplateHost.Text.Utf8
