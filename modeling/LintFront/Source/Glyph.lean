import LintFront.Text.Utf8
/-!
# The text of a source file

A source file is bytes. Its encoding is UTF-8 unless one of its first two lines is a comment that
names another one. A byte that stands for nothing in the encoding does not make the whole file
unreadable: it becomes a stray glyph, and is reported only where it stands in a name or in a text.

## Main statements

`bytes_char`: a character is as many bytes as its encoding.
-/

namespace LintFront.Source

/-- A place in the text of a file. -/
inductive Glyph where
  | char (c : Char)
  /-- A byte that stands for no character. -/
  | stray (byte : UInt8)
  deriving DecidableEq, Repr

namespace Glyph

/-- The bytes of a glyph. -/
def bytes : Glyph → List UInt8
  | char c => String.utf8EncodeChar c
  | stray byte => [byte]

@[simp] theorem bytes_char (c : Char) : (char c).bytes = String.utf8EncodeChar c := rfl

/-- Is the glyph a character with the property? -/
def any (p : Char → Bool) : Glyph → Bool
  | char c => p c
  | stray _ => false

/-- The first defect of glyphs, its position counted in bytes. -/
def defect? (glyphs : List Glyph) : Option Text.Utf8.Defect :=
  match Text.Utf8.decode (glyphs.flatMap bytes) with
  | .ok _ => none
  | .error defect => some defect

end Glyph

/-! ## 1. Encodings -/

/-- An encoding of source files. -/
inductive Encoding where
  | utf8
  | latin1
  | unknown (name : String)
  deriving DecidableEq, Repr

/-- The encoding that goes by a name. Case, hyphens and underscores do not count. -/
def Encoding.ofName (name : String) : Encoding :=
  let plain := (name.toList.filter fun c => c ≠ '-' && c ≠ '_').map Char.toLower
  match String.ofList plain with
  | "utf8" | "ascii" | "usascii" => .utf8
  | "latin1" | "iso88591" | "isolatin1" => .latin1
  | _ => .unknown name

/-- Is a byte the ASCII character `c`? -/
def isAscii (c : Char) (byte : UInt8) : Bool := byte.toNat = c.toNat

/-- Is a byte a blank inside a line? -/
def isGap (byte : UInt8) : Bool := byte = 0x20 || byte = 0x09

/-- May a byte stand in the name of an encoding? -/
def isNameByte (byte : UInt8) : Bool :=
  let c := Char.ofNat byte.toNat
  c.isAlphanum || c = '-' || c = '_' || c = '.'

/-- The name of an encoding at the start of what follows the word that announces it: a colon or
equals sign, blanks, and the name. -/
def announced? : List UInt8 → Option String
  | byte :: rest =>
    if isAscii ':' byte || isAscii '=' byte then
      let name := (rest.dropWhile isGap).takeWhile isNameByte
      if name.isEmpty then none else some (String.ofList (name.map fun b => Char.ofNat b.toNat))
    else none
  | [] => none

/-- The word that announces an encoding. -/
def announcement : List UInt8 := "coding".toList.map fun c => c.toNat.toUInt8

/-- The first encoding that is announced in a comment. -/
def announcedIn? : List UInt8 → Option String
  | [] => none
  | byte :: rest =>
    let here := if announcement.isPrefixOf (byte :: rest) then
      announced? ((byte :: rest).drop announcement.length) else none
    match here with
    | some name => some name
    | none => announcedIn? rest

/-- Does a line hold nothing but blanks and perhaps a comment? -/
def isIdle (line : List UInt8) : Bool :=
  match line.dropWhile fun b => isGap b || b = 0x0C with
  | [] => true
  | byte :: _ => isAscii '#' byte || byte = 0x0D

/-- The encoding that a line announces. -/
def declared? (line : List UInt8) : Option String :=
  if isIdle line then announcedIn? line else none

/-- The encoding of a file. The second line counts only when the first one is idle. -/
def encodingOf (bytes : List UInt8) : Encoding :=
  let isEnd := fun b : UInt8 => b ≠ 0x0A
  let first := bytes.takeWhile isEnd
  let second := ((bytes.dropWhile isEnd).drop 1).takeWhile isEnd
  match declared? first with
  | some name => .ofName name
  | none =>
    match if isIdle first then declared? second else none with
    | some name => .ofName name
    | none => .utf8

/-! ## 2. Glyphs -/

/-- The glyphs of bytes in UTF-8. -/
def glyphsOfUtf8 (bytes : List UInt8) : List Glyph :=
  match bytes with
  | [] => []
  | byte :: rest =>
    match Text.Utf8.lead? byte.toNat with
    | none => .stray byte :: glyphsOfUtf8 rest
    | some lead =>
      match Text.Utf8.continued lead.more lead.bits lead.least lead.greatest rest with
      | .error _ => .stray byte :: glyphsOfUtf8 rest
      | .ok code => .char (Char.ofNat code) :: glyphsOfUtf8 (rest.drop lead.more)
termination_by bytes.length
decreasing_by
  all_goals simp only [List.length_drop, List.length_cons]; omega

/-- The glyphs with every end of a line spelled in one way. -/
def unifyEnds : List Glyph → List Glyph
  | .char '\r' :: .char '\n' :: rest => .char '\n' :: unifyEnds rest
  | .char '\r' :: rest => .char '\n' :: unifyEnds rest
  | glyph :: rest => glyph :: unifyEnds rest
  | [] => []

/-- The mark that a file in UTF-8 may start with, which is not part of the text. -/
def byteOrderMark : List UInt8 := [0xEF, 0xBB, 0xBF]

/-- The text of a file, or the name of its encoding if that is unknown. -/
def glyphsOf (bytes : List UInt8) : Except String (List Glyph) :=
  let bytes := if byteOrderMark.isPrefixOf bytes then bytes.drop byteOrderMark.length else bytes
  match encodingOf bytes with
  | .utf8 => .ok (unifyEnds (glyphsOfUtf8 bytes))
  | .latin1 => .ok (unifyEnds (bytes.map fun byte => .char (Char.ofNat byte.toNat)))
  | .unknown name => .error name

end LintFront.Source
