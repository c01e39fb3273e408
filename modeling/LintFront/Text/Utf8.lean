import LintFront.Text.Quoted
/-!
# Decoding UTF-8

Files are bytes; settings files have to be text. A sequence of bytes decodes exactly when it is
well formed in the sense of the Unicode standard (no overlong forms, no surrogates, nothing above
U+10FFFF). The first ill-formed place is reported with its extent: one byte when the byte cannot
start a character, else the longest start of a character that stands there.
-/

namespace LintFront.Text.Utf8

/-- Why bytes do not decode. -/
inductive Reason where
  /-- The byte starts no character. -/
  | startByte
  /-- The character breaks off because another byte follows than it needs. -/
  | continuation
  /-- The character breaks off because the bytes end. -/
  | truncated
  deriving DecidableEq, Repr

/-- The wording of a reason. -/
def Reason.text : Reason → String
  | startByte => "invalid start byte"
  | continuation => "invalid continuation byte"
  | truncated => "unexpected end of data"

/-- The first ill-formed place of a sequence of bytes. -/
structure Defect where
  /-- How many bytes stand before it. -/
  position : Nat
  /-- How many bytes it takes up. -/
  extent : Nat
  /-- Its first byte. -/
  byte : UInt8
  reason : Reason
  deriving DecidableEq, Repr

/-- The wording of a defect. One bad byte is named, several are given by their positions. -/
def Defect.message (d : Defect) : String :=
  if d.extent = 1 then
    "'utf-8' codec can't decode byte 0x" ++ String.ofList (hexDigits 2 d.byte.toNat) ++
      " in position " ++ toString d.position ++ ": " ++ d.reason.text
  else
    "'utf-8' codec can't decode bytes in position " ++ toString d.position ++ "-" ++
      toString (d.position + d.extent - 1) ++ ": " ++ d.reason.text

/-- What follows the first byte of a character: how many further bytes, and the least and the
greatest value of the next one. The bounds keep out overlong forms, surrogates and code points that
do not exist. -/
structure Lead where
  /-- The bits of the code point that the first byte carries. -/
  bits : Nat
  more : Nat
  least : Nat
  greatest : Nat

/-- The lead that a byte of `n` stands for, or none when it starts no character. -/
def lead? (n : Nat) : Option Lead :=
  if n < 0x80 then some ⟨n, 0, 0x80, 0xBF⟩
  else if n < 0xC2 then none
  else if n < 0xE0 then some ⟨n - 0xC0, 1, 0x80, 0xBF⟩
  else if n = 0xE0 then some ⟨0, 2, 0xA0, 0xBF⟩
  else if n = 0xED then some ⟨13, 2, 0x80, 0x9F⟩
  else if n < 0xF0 then some ⟨n - 0xE0, 2, 0x80, 0xBF⟩
  else if n = 0xF0 then some ⟨0, 3, 0x90, 0xBF⟩
  else if n < 0xF4 then some ⟨n - 0xF0, 3, 0x80, 0xBF⟩
  else if n = 0xF4 then some ⟨4, 3, 0x80, 0x8F⟩
  else none

/-- Reads `more` further bytes of a character whose bits so far are `bits`; the next byte lies
between `least` and `greatest`, later ones between 0x80 and 0xBF. A failure tells how many bytes
were good. -/
def continued : (more bits least greatest : Nat) → List UInt8 → Except (Nat × Reason) Nat
  | 0, bits, _, _, _ => .ok bits
  | _ + 1, _, _, _, [] => .error (0, .truncated)
  | more + 1, bits, least, greatest, b :: rest =>
    if least ≤ b.toNat ∧ b.toNat ≤ greatest then
      match continued more (bits * 64 + (b.toNat - 0x80)) 0x80 0xBF rest with
      | .ok code => .ok code
      | .error (good, reason) => .error (good + 1, reason)
    else .error (0, .continuation)

/-- The characters of `bytes`, which stand after `position` other bytes. -/
def decodeFrom (position : Nat) (bytes : List UInt8) : Except Defect (List Char) :=
  match bytes with
  | [] => .ok []
  | b :: rest =>
    match lead? b.toNat with
    | none => .error ⟨position, 1, b, .startByte⟩
    | some lead =>
      match continued lead.more lead.bits lead.least lead.greatest rest with
      | .error (good, reason) => .error ⟨position, good + 1, b, reason⟩
      | .ok code =>
        match decodeFrom (position + 1 + lead.more) (rest.drop lead.more) with
        | .ok chars => .ok (Char.ofNat code :: chars)
        | .error defect => .error defect
termination_by bytes.length
decreasing_by simp only [List.length_drop, List.length_cons]; omega

/-- The text that a sequence of bytes stands for. -/
def decode (bytes : List UInt8) : Except Defect String :=
  (decodeFrom 0 bytes).map String.ofList

end LintFront.Text.Utf8
