import LintFront.Source.Token
import LintFront.Text.Character
/-!
# Scanning source text

The text is cut into tokens from left to right, each as long as possible. Inside brackets the ends
of lines and the indentation mean nothing; outside, the indentation of each line that holds a token
is compared with those that are open.

Scanning ends at the first flaw: a text that is not closed, a bracket without partner, a character
that belongs to no token, or a line whose indentation is none of the open ones.

## Main statements

`scan` is total: each step but the measuring of an indentation uses up a glyph.
-/

namespace LintFront.Source

/-! ## 1. The length of a token -/

/-- How many glyphs at the start are characters with a property. -/
def runLength (p : Char → Bool) (glyphs : List Glyph) : Nat :=
  (glyphs.takeWhile (Glyph.any p)).length

/-- May a glyph be part of a name? Whatever is not ASCII may, until the name is looked at as a
whole. -/
def isNamePart : Glyph → Bool
  | .char c => c.isAlphanum || c = '_' || 0x80 ≤ c.toNat
  | .stray _ => true

/-- May a glyph start a name? -/
def isNameStart (glyph : Glyph) : Bool := isNamePart glyph && !glyph.any Char.isDigit

/-- Is a character a digit or an underscore between digits? -/
def isDigitLike (c : Char) : Bool := c.isDigit || c = '_'

/-- The length of an exponent, none if there is no exponent. -/
def exponentLength : List Glyph → Nat
  | .char e :: rest =>
    if e = 'e' || e = 'E' then
      match rest with
      | .char sign :: digits =>
        let run := runLength isDigitLike digits
        if sign.isDigit then 2 + run
        else if (sign = '+' || sign = '-') && run ≠ 0 then 2 + run
        else 0
      | _ => 0
    else 0
  | _ => 0

/-- The length of a numeral in decimal digits. -/
def decimalLength (glyphs : List Glyph) : Nat :=
  let whole := runLength isDigitLike glyphs
  let fraction := match glyphs.drop whole with
    | .char '.' :: rest => 1 + runLength isDigitLike rest
    | _ => 0
  let exponent := exponentLength (glyphs.drop (whole + fraction))
  let imaginary := match glyphs.drop (whole + fraction + exponent) with
    | .char c :: _ => if c = 'j' || c = 'J' then 1 else 0
    | _ => 0
  whole + fraction + exponent + imaginary

/-- The length of a numeral. -/
def numeralLength : List Glyph → Nat
  | .char '0' :: .char base :: rest =>
    if "xXoObB".toList.contains base then
      2 + runLength (fun c => c.isAlphanum || c = '_') rest
    else decimalLength (.char '0' :: .char base :: rest)
  | glyphs => decimalLength glyphs

/-- Does a numeral start here? -/
def startsNumeral : List Glyph → Bool
  | .char '.' :: next :: _ => next.any Char.isDigit
  | glyph :: _ => glyph.any Char.isDigit
  | [] => false

/-- The operators and delimiters, longer ones before their own beginnings. -/
def signs : List String :=
  ["**=", "//=", ">>=", "<<=", "...", "**", "//", ">>", "<<", "<=", ">=", "==", "!=", "->", "+=",
    "-=", "*=", "/=", "%=", "&=", "|=", "^=", "@=", ":=", "+", "-", "*", "/", "%", "@", "&", "|",
    "^", "~", "<", ">", "=", ",", ":", ";", "."]

/-- The operator or delimiter at the start of a text. -/
def sign? (glyphs : List Glyph) : Option String :=
  signs.find? fun s => (s.toList.map Glyph.char).isPrefixOf glyphs

/-! ## 2. Quoted texts -/

/-- Letters that may stand before a quote. -/
def quotePrefixes : List String := ["r", "u", "b", "f", "br", "rb", "fr", "rf"]

/-- Is a glyph a quote? -/
def isQuote (glyph : Glyph) : Bool := glyph.any fun c => c = '\'' || c = '"'

/-- The length of a text up to its closing quotes, which are the glyphs `close`; `oneLine` tells
whether a line's end breaks it off. If it is not closed, the number of line ends passed. -/
def bodyLength (close : List Glyph) (oneLine : Bool) : List Glyph → Except Nat Nat
  | [] => .error 0
  | .char '\\' :: escaped :: rest =>
    match bodyLength close oneLine rest with
    | .ok n => .ok (n + 2)
    | .error n => .error (if escaped = .char '\n' then n + 1 else n)
  | glyph :: rest =>
    if close.isPrefixOf (glyph :: rest) then .ok 0
    else if glyph = .char '\n' then
      if oneLine then .error 0
      else
        match bodyLength close oneLine rest with
        | .ok n => .ok (n + 1)
        | .error n => .error (if rest.isEmpty then n else n + 1)
    else (bodyLength close oneLine rest).map (· + 1)

/-- What a piece of text is, and how many glyphs it takes. -/
inductive Piece where
  | token (lexeme : Lexeme) (length : Nat)
  | opening (bracket : Char)
  | closing (bracket : Char)
  | flawed (flaw : Flaw)

/-- The quoted text at a place, its letters `lead` included. The `quote` follows them, and then
`rest`. -/
def quotedPiece (place : Place) (lead : List Char) (quote : Glyph) (rest : List Glyph) : Piece :=
  let tripled := [quote, quote].isPrefixOf rest
  let close := if tripled then [quote, quote, quote] else [quote]
  let body := if tripled then rest.drop 2 else rest
  match bodyLength close (!tripled) body with
  | .ok n =>
    .token (.quoted (lead.contains 'b') (body.take n)) (lead.length + n + 2 * close.length)
  | .error lines =>
    .flawed (.at_ place ("unterminated " ++ (if tripled then "triple-quoted " else "") ++
      "string literal (detected at line " ++ toString (place.line + lines) ++ ")"))

/-! ## 3. Names -/

/-- The code point of a character as it is written in messages. -/
def codeText (c : Char) : String :=
  "U+" ++ String.ofList ((Text.hexDigits (if c.toNat < 0x10000 then 4 else 8) c.toNat).map
    Char.toUpper)

/-- The flaw of a character that belongs to no token. -/
def badCharacter (place : Place) (c : Char) : Flaw :=
  if Text.isPrintable c then
    .at_ place ("invalid character '" ++ c.toString ++ "' (" ++ codeText c ++ ")")
  else .at_ place ("invalid non-printable character " ++ codeText c)

/-- The first character that no name may have where it stands; `first` tells whether the name
starts. -/
def nameFlaw? (place : Place) (first : Bool) : List Char → Option Flaw
  | [] => none
  | c :: rest =>
    if if first then Text.startsIdentifier c else Text.continuesIdentifier c then
      nameFlaw? (place.along 1) false rest
    else some (badCharacter place c)

/-- The characters among glyphs. -/
def charsOf (glyphs : List Glyph) : List Char :=
  glyphs.filterMap fun g => match g with
    | .char c => some c
    | .stray _ => none

/-- The flaw of glyphs that stand for no text. -/
def undecodable (place : Place) (defect : Text.Utf8.Defect) : Flaw :=
  .at_ place ("(unicode error) " ++ defect.message)

/-- The name at a place. -/
def namePiece (place : Place) (glyphs : List Glyph) : Piece :=
  match Glyph.defect? glyphs with
  | some defect => .flawed (undecodable place defect)
  | none =>
    match nameFlaw? place true (charsOf glyphs) with
    | some flaw => .flawed flaw
    | none => .token (.name (String.ofList (charsOf glyphs))) glyphs.length

/-! ## 4. Pieces -/

/-- The piece that starts with a glyph that is neither blank nor a line's end. -/
def piece (place : Place) (glyph : Glyph) (rest : List Glyph) : Piece :=
  if isNameStart glyph then
    let name := glyph :: rest.takeWhile isNamePart
    let lead := (charsOf name).map Char.toLower
    match rest.dropWhile isNamePart with
    | quote :: more =>
      if isQuote quote && quotePrefixes.contains (String.ofList lead) then
        quotedPiece place lead quote more
      else namePiece place name
    | [] => namePiece place name
  else if startsNumeral (glyph :: rest) then .token .number (numeralLength (glyph :: rest))
  else if isQuote glyph then quotedPiece place [] glyph rest
  else
    match glyph with
    | .stray _ => .flawed (.generic place)
    | .char c =>
      if "([\x7b".toList.contains c then .opening c
      else if ")]\x7d".toList.contains c then .closing c
      else
        match sign? (glyph :: rest) with
        | some s => .token (.sign s) s.length
        | none =>
          .flawed (if "$?!".toList.contains c || c.toNat = 0x60 then .generic place
            else badCharacter place c)

/-! ## 5. Scanning -/

/-- The tokens of a text up to its first flaw, and the brackets that are open at its end, innermost
first. -/
structure Scan where
  tokens : List Token := []
  flaw : Option Flaw := none
  unclosed : List Bracket := []

/-- Puts a token in front. -/
def Scan.push (lexeme : Lexeme) (place : Place) (scan : Scan) : Scan :=
  { scan with tokens := ⟨lexeme, place⟩ :: scan.tokens }

/-- What has been seen of the current line. -/
inductive LineState where
  /-- Nothing, not even its indentation. -/
  | fresh
  /-- Its indentation; no token follows. -/
  | idle
  /-- Its indentation, and tokens follow. -/
  | busy
  deriving DecidableEq, Repr

/-- What scanning knows at a place. -/
structure Cursor where
  place : Place := .start
  state : LineState := .fresh
  /-- The widths of the open indentations, innermost first. -/
  indents : List Nat := []
  brackets : List Bracket := []

/-- How many glyphs the indentation of a line takes. -/
def indentLength (glyphs : List Glyph) : Nat :=
  runLength (fun c => c = ' ' || c = '\t' || c = '\x0c') glyphs

/-- The width of an indentation. A tabulator fills up to the next multiple of eight. -/
def indentWidth (glyphs : List Glyph) : Nat :=
  glyphs.foldl (fun width g =>
    if g = .char '\t' then (width / 8 + 1) * 8
    else if g = .char '\x0c' then 0
    else width + 1) 0

/-- Does a line hold nothing but perhaps a comment? -/
def startsIdle : List Glyph → Bool
  | [] => true
  | glyph :: _ => glyph = .char '\n' || glyph = .char '#'

/-- The length of the current line with its end. -/
def lineLength (glyphs : List Glyph) : Nat :=
  (glyphs.takeWhile fun g => g ≠ .char '\n').length + 1

/-- Scans the text that follows a cursor. -/
def scan (cursor : Cursor) (glyphs : List Glyph) : Scan :=
  if cursor.state = .fresh then
    let n := indentLength glyphs
    let width := indentWidth (glyphs.take n)
    let place := cursor.place.along n
    if startsIdle (glyphs.drop n) then
      scan { cursor with place, state := .idle } (glyphs.drop n)
    else
      let top := cursor.indents.headD 0
      let outer := cursor.indents.dropWhile fun w => width < w
      if top < width then
        (scan { cursor with place, state := .busy, indents := width :: cursor.indents }
          (glyphs.drop n)).push .indent place
      else if outer.headD 0 = width then
        let shut := List.replicate (cursor.indents.length - outer.length) (Token.mk .dedent place)
        let later := scan { cursor with place, state := .busy, indents := outer } (glyphs.drop n)
        { later with tokens := shut ++ later.tokens }
      else
        { flaw := some ⟨place.line, lineLength glyphs,
            "unindent does not match any outer indentation level"⟩ }
  else
    match glyphs with
    | [] =>
      if cursor.brackets.isEmpty then
        let ends := if cursor.state = .busy then [Token.mk .lineEnd cursor.place] else []
        { tokens := ends ++ cursor.indents.map fun _ => Token.mk .dedent cursor.place }
      else { unclosed := cursor.brackets }
    | glyph :: rest =>
      let place := cursor.place
      if glyph = .char '\n' then
        if !cursor.brackets.isEmpty then scan { cursor with place := place.nextLine } rest
        else
          let later := scan { cursor with place := place.nextLine, state := .fresh } rest
          if cursor.state = .idle then later else later.push .lineEnd place
      else if glyph.any fun c => c = ' ' || c = '\t' || c = '\x0c' then
        scan { cursor with place := place.along 1 } rest
      else if glyph = .char '#' then
        let n := (rest.takeWhile fun g => g ≠ .char '\n').length
        scan { cursor with place := place.along (n + 1) } (rest.drop n)
      else if glyph = .char '\\' then
        match rest with
        | [] => { flaw := some (.at_ place "unexpected EOF while parsing") }
        | next :: rest =>
          if next = .char '\n' then scan { cursor with place := place.nextLine } rest
          else
            { flaw := some (.at_ (place.along 1)
                "unexpected character after line continuation character") }
      else
        match piece place glyph rest with
        | .flawed flaw => { flaw := some flaw }
        | .token lexeme n =>
          let place' := place.after ((glyph :: rest).take n)
          (scan { cursor with place := place' } (rest.drop (n - 1))).push lexeme place
        | .opening c =>
          (scan { cursor with place := place.along 1, brackets := ⟨c, place⟩ :: cursor.brackets }
            rest).push (.sign c.toString) place
        | .closing c =>
          match cursor.brackets with
          | [] => { flaw := some (.at_ place ("unmatched '" ++ c.toString ++ "'")) }
          | bracket :: brackets =>
            if Bracket.closing bracket.opening = c then
              (scan { cursor with place := place.along 1, brackets } rest).push
                (.sign c.toString) place
            else { flaw := some (bracket.mismatched c place) }
termination_by (glyphs.length, if cursor.state = .fresh then 1 else 0)
decreasing_by
  all_goals simp_wf
  all_goals simp_all [Prod.lex_def]
  all_goals omega

end LintFront.Source
