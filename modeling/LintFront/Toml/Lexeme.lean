import LintFront.Toml.Defect
import LintFront.Number.Reading
import LintFront.Value
/-!
# Lexemes of a document

Blanks, comments, keys, strings, numbers, dates and times: everything in a document that is not
built from other values. Each is read from the front of a text, and what is left of the text is
handed on.

Numbers, dates and times take the longest start of the text that has their form; what follows them
is not looked at, so a number may end where a reader would not expect it to, and the fault shows
afterwards.
-/

namespace LintFront.Toml

/-! ## 1. Blanks and comments -/

def isSpace (c : Char) : Bool := c = ' ' || c = '\t'

def isSpaceOrNewline (c : Char) : Bool := isSpace c || c = '\n'

/-- Is `c` a control character? -/
def isControl (c : Char) : Bool := c.toNat < 32 || c.toNat = 127

/-- May `c` not stand in a string or comment of one line? -/
def isBarred (c : Char) : Bool := isControl c && c ≠ '\t'

/-- May `c` not stand in a string of several lines? -/
def isBarredAcrossLines (c : Char) : Bool := isBarred c && c ≠ '\n'

def skipSpaces (s : List Char) : List Char := s.dropWhile isSpace

/-- Does the text start with `start`? -/
def startsWith (start : String) (s : List Char) : Bool := start.toList.isPrefixOf s

/-- The part of the text before the first `delimiter` and the part that starts with it. -/
def splitBefore (delimiter : List Char) : List Char → Option (List Char × List Char)
  | [] => none
  | c :: rest =>
    if delimiter.isPrefixOf (c :: rest) then some ([], c :: rest)
    else (splitBefore delimiter rest).map fun p => (c :: p.1, p.2)

/-- The first character of `within` that is barred is a defect; `rest` is the whole text from the
start of `within` on. -/
def refuseBarred (barred : Char → Bool) : (within rest : List Char) → Except Defect Unit
  | [], _ => .ok ()
  | c :: within, rest =>
    if barred c then .error ⟨.invalid c, rest⟩ else refuseBarred barred within (rest.drop 1)

/-- Skips a comment, if there is one, up to the end of its line. -/
def skipComment (s : List Char) : Except Defect (List Char) :=
  match s with
  | '#' :: rest =>
    let comment := rest.takeWhile (· ≠ '\n')
    match refuseBarred isBarred comment rest with
    | .ok () => .ok (rest.dropWhile (· ≠ '\n'))
    | .error e => .error e
  | s => .ok s

/-- Skips blanks, newlines and comments; at most `fuel` comments. -/
def skipBlanks : (fuel : Nat) → List Char → Except Defect (List Char)
  | 0, s => .ok s
  | fuel + 1, s =>
    match s.dropWhile isSpaceOrNewline with
    | '#' :: rest =>
      match skipComment ('#' :: rest) with
      | .ok after => skipBlanks fuel after
      | .error e => .error e
    | s => .ok s

/-! ## 2. Strings -/

def isHexDigit (c : Char) : Bool :=
  Reading.isDigit c || ('a' ≤ c && c ≤ 'f') || ('A' ≤ c && c ≤ 'F')

def hexValue (c : Char) : Nat :=
  if Reading.isDigit c then c.toNat - 48
  else if 'a' ≤ c then c.toNat - 87
  else c.toNat - 55

/-- The character written by `width` hexadecimal digits. -/
def hexChar (width : Nat) (s : List Char) : Step (List Char) :=
  let digits := s.take width
  if digits.length ≠ width || !digits.all isHexDigit then .error ⟨.hexadecimal, s⟩
  else
    let code := digits.foldl (fun n c => 16 * n + hexValue c) 0
    if h : code.isValidChar then .ok ([Char.ofNatAux code h], s.drop width)
    else .error ⟨.notScalar, s.drop width⟩

/-- What a character after a backslash stands for. -/
def simpleEscape? : Char → Option Char
  | 'b' => some '\x08'
  | 't' => some '\t'
  | 'n' => some '\n'
  | 'f' => some '\x0c'
  | 'r' => some '\r'
  | '"' => some '"'
  | '\\' => some '\\'
  | _ => none

/-- What an escape stands for; the text starts after the backslash. In a string of several lines a
backslash at the end of a line stands for nothing, and takes the blanks and newlines after it
along. -/
def escape (acrossLines : Bool) (s : List Char) : Step (List Char) :=
  match s with
  | [] => .error ⟨.backslash, []⟩
  | c :: rest =>
    if acrossLines && c = '\n' then .ok ([], rest.dropWhile isSpaceOrNewline)
    else if acrossLines && isSpace c then
      match skipSpaces rest with
      | [] => .ok ([], [])
      | '\n' :: after => .ok ([], after.dropWhile isSpaceOrNewline)
      | after => .error ⟨.backslash, after⟩
    else if c = 'u' then hexChar 4 rest
    else if c = 'U' then hexChar 8 rest
    else
      match simpleEscape? c with
      | some e => .ok ([e], rest)
      | none => .error ⟨.backslash, rest⟩

/-- The rest of a string with escapes, after its opening delimiter; `done` is what was read of it,
last first. -/
def basicString (acrossLines : Bool) : (fuel : Nat) → (done s : List Char) → Step (List Char)
  | 0, _, s => .error ⟨.unterminated, s⟩
  | fuel + 1, done, s =>
    match s with
    | [] => .error ⟨.unterminated, []⟩
    | c :: rest =>
      if c = '"' then
        if !acrossLines then .ok (done.reverse, rest)
        else if startsWith "\"\"" rest then .ok (done.reverse, rest.drop 2)
        else basicString acrossLines fuel (c :: done) rest
      else if c = '\\' then
        match escape acrossLines rest with
        | .ok (chars, after) => basicString acrossLines fuel (chars.reverse ++ done) after
        | .error e => .error e
      else if (if acrossLines then isBarredAcrossLines c else isBarred c) then
        .error ⟨.illegal c, s⟩
      else basicString acrossLines fuel (c :: done) rest

/-- The rest of a string without escapes, after its opening delimiter. -/
def literalString (barred : Char → Bool) (delimiter : String) (s : List Char) : Step (List Char) :=
  match splitBefore delimiter.toList s with
  | none => .error ⟨.expected delimiter, []⟩
  | some (content, after) =>
    match refuseBarred barred content s with
    | .ok () => .ok (content, after.drop delimiter.toList.length)
    | .error e => .error e

/-- Up to two delimiters more at the end of a string of several lines belong to the string. -/
def extraDelimiters (delimiter : Char) (content : List Char) (s : List Char) :
    List Char × List Char :=
  match s with
  | a :: b :: rest =>
    if a = delimiter then
      if b = delimiter then (content ++ [delimiter, delimiter], rest)
      else (content ++ [delimiter], b :: rest)
    else (content, s)
  | [a] => if a = delimiter then (content ++ [delimiter], []) else (content, s)
  | [] => (content, [])

/-- A string of several lines, after its opening delimiter; a newline right after that does not
count. -/
def longString (literal : Bool) (s : List Char) : Step (List Char) :=
  let s := if startsWith "\n" s then s.drop 1 else s
  if literal then
    match literalString isBarredAcrossLines "'''" s with
    | .ok (content, after) => .ok (extraDelimiters '\'' content after)
    | .error e => .error e
  else
    match basicString true (s.length + 1) [] s with
    | .ok (content, after) => .ok (extraDelimiters '"' content after)
    | .error e => .error e

/-- A string of one line with escapes, after its opening quote. -/
def shortString (s : List Char) : Step (List Char) := basicString false (s.length + 1) [] s

/-! ## 3. Keys -/

/-- May `c` stand in a key without quotes? -/
def isBareKeyChar (c : Char) : Bool :=
  Reading.isDigit c || ('a' ≤ c && c ≤ 'z') || ('A' ≤ c && c ≤ 'Z') || c = '-' || c = '_'

/-- May `c` be the first character of a key? -/
def startsKey (c : Char) : Bool := isBareKeyChar c || c = '"' || c = '\''

/-- One part of a key. -/
def keyPart (s : List Char) : Step String :=
  match s with
  | '\'' :: rest => (literalString isBarred "'" rest).map fun p => (String.ofList p.1, p.2)
  | '"' :: rest => (shortString rest).map fun p => (String.ofList p.1, p.2)
  | s =>
    let bare := s.takeWhile isBareKeyChar
    if bare.isEmpty then .error ⟨.keyStart, s⟩
    else .ok (String.ofList bare, s.dropWhile isBareKeyChar)

/-- A key: parts with dots between them, and blanks around the dots. Blanks after the key are
skipped. -/
def key : (fuel : Nat) → List Char → Step (List String)
  | 0, s => .error ⟨.keyStart, s⟩
  | fuel + 1, s =>
    match keyPart s with
    | .error e => .error e
    | .ok (part, after) =>
      match skipSpaces after with
      | '.' :: rest => (key fuel (skipSpaces rest)).map fun p => (part :: p.1, p.2)
      | after => .ok ([part], after)

/-! ## 4. Numbers -/

/-- The longest run of digits at the start of a text, an underscore allowed between two of them:
the run as it is spelled and the text after it. -/
def digitRun (isDigit : Char → Bool) : List Char → List Char × List Char
  | c :: '_' :: d :: rest =>
    if isDigit c then
      if isDigit d then
        let (run, after) := digitRun isDigit (d :: rest)
        (c :: '_' :: run, after)
      else ([c], '_' :: d :: rest)
    else ([], c :: '_' :: d :: rest)
  | c :: rest =>
    if isDigit c then
      let (run, after) := digitRun isDigit rest
      (c :: run, after)
    else ([], c :: rest)
  | [] => ([], [])

/-- The number spelled by digits of a base, underscores aside. -/
def numberInBase (base : Nat) (digits : List Char) : Nat :=
  (digits.filter (· ≠ '_')).foldl (fun n c => base * n + hexValue c) 0

/-- A whole number in base sixteen, two or eight. -/
def basedNumber? (s : List Char) : Option (Value × List Char) :=
  match s with
  | '0' :: mark :: rest =>
    let read (base : Nat) (isDigit : Char → Bool) : Option (Value × List Char) :=
      let (run, after) := digitRun isDigit rest
      if run.isEmpty then none else some (.integer (numberInBase base run), after)
    match mark with
    | 'x' => read 16 isHexDigit
    | 'b' => read 2 fun c => c = '0' || c = '1'
    | 'o' => read 8 fun c => '0' ≤ c && c ≤ '7'
    | _ => none
  | _ => none

/-- A part of a number that starts with a mark and goes on with digits: its spelling, empty when
there is no such part, and the text after it. -/
def markedDigits (isMark : Char → Bool) (signed : Bool) (s : List Char) : List Char × List Char :=
  match s with
  | mark :: rest =>
    if isMark mark then
      let sign := if signed then rest.takeWhile (fun c => c = '+' || c = '-') |>.take 1 else []
      let (run, after) := digitRun Reading.isDigit (rest.drop sign.length)
      if run.isEmpty then ([], s) else (mark :: sign ++ run, after)
    else ([], s)
  | [] => ([], [])

/-- The greatest number of digits of a whole number. -/
def maxDigits : Nat := 4300

/-- A number in base ten. Digits after a leading zero do not belong to it. -/
def decimalNumber? (s : List Char) : Option (Step Value) :=
  let sign := (s.takeWhile fun c => c = '+' || c = '-').take 1
  let unsigned := s.drop sign.length
  let (whole, afterWhole) := match unsigned with
    | '0' :: rest => (['0'], rest)
    | other => digitRun Reading.isDigit other
  if whole.isEmpty then none
  else
    let (fraction, afterFraction) := markedDigits (· = '.') false afterWhole
    let (exponent, after) := markedDigits (fun c => c = 'e' || c = 'E') true afterFraction
    if fraction.isEmpty && exponent.isEmpty then
      let digits := whole.filter (· ≠ '_')
      if maxDigits < digits.length then some (.error ⟨.tooManyDigits digits.length, s⟩)
      else
        let n : Int := Reading.natOfDigits digits
        some (.ok (.integer (if sign = ['-'] then -n else n), after))
    else
      let value := (Reading.real? (sign ++ whole ++ fraction ++ exponent)).getD .nan
      some (.ok (.real value, after))

/-- One of the special numbers. -/
def specialNumber? (s : List Char) : Option (Value × List Char) :=
  let (negative, rest) := Reading.splitSign s
  if startsWith "inf" rest then some (.real (.infinity negative), rest.drop 3)
  else if startsWith "nan" rest then some (.real .nan, rest.drop 3)
  else none

/-! ## 5. Dates and times -/

/-- The number spelled by two digits at the start of a text, if it is at least `least` and at most
`greatest`. -/
def twoDigits? (least greatest : Nat) (s : List Char) : Option (Nat × List Char) :=
  match s with
  | a :: b :: rest =>
    if Reading.isDigit a && Reading.isDigit b then
      let n := Reading.natOfDigits [a, b]
      if least ≤ n ∧ n ≤ greatest then some (n, rest) else none
    else none
  | _ => none

/-- The text after a character that has to be there. -/
def after? (c : Char) : List Char → Option (List Char)
  | d :: rest => if d = c then some rest else none
  | [] => none

/-- The text after a time of day. -/
def afterTime? (s : List Char) : Option (List Char) := do
  let (_, s) ← twoDigits? 0 23 s
  let s ← after? ':' s
  let (_, s) ← twoDigits? 0 59 s
  let s ← after? ':' s
  let (_, s) ← twoDigits? 0 59 s
  match s with
  | '.' :: rest =>
    if (rest.takeWhile Reading.isDigit).isEmpty then some s
    else some (rest.dropWhile Reading.isDigit)
  | s => some s

/-- The text after the offset of a time, if there is one. -/
def afterOffset (s : List Char) : List Char :=
  match s with
  | 'Z' :: rest => rest
  | 'z' :: rest => rest
  | sign :: rest =>
    if sign = '+' || sign = '-' then
      let hoursAndMinutes : Option (List Char) := do
        let (_, rest) ← twoDigits? 0 23 rest
        let rest ← after? ':' rest
        let (_, rest) ← twoDigits? 0 59 rest
        return rest
      hoursAndMinutes.getD s
    else s
  | [] => []

/-- How many days a month has. -/
def daysIn (year month : Nat) : Nat :=
  if month = 2 then
    if year % 4 = 0 ∧ (year % 100 ≠ 0 ∨ year % 400 = 0) then 29 else 28
  else if month = 4 ∨ month = 6 ∨ month = 9 ∨ month = 11 then 30
  else 31

/-- A date in its written form: year, month and day, and the text after it. -/
def dateForm? (s : List Char) : Option ((Nat × Nat × Nat) × List Char) := do
  let year := s.take 4
  guard (year.length = 4 && year.all Reading.isDigit)
  let s ← after? '-' (s.drop 4)
  let (month, s) ← twoDigits? 1 12 s
  let s ← after? '-' s
  let (day, s) ← twoDigits? 1 31 s
  return ((Reading.natOfDigits year, month, day), s)

/-- The text between `s` and what is left of it. -/
def spelledBetween (s after : List Char) : String :=
  String.ofList (s.take (s.length - after.length))

/-- A date with or without a time, or a time alone. The form decides what is read; a date of the
right form that no calendar has is a defect. -/
def moment? (s : List Char) : Option (Step Value) :=
  match dateForm? s with
  | some ((year, month, day), afterDate) =>
    let after := match afterDate with
      | mark :: rest =>
        if mark = 'T' || mark = 't' || mark = ' ' then
          match afterTime? rest with
          | some afterTime => afterOffset afterTime
          | none => afterDate
        else afterDate
      | [] => []
    if year = 0 || daysIn year month < day then some (.error ⟨.date, s⟩)
    else some (.ok (.moment (spelledBetween s after), after))
  | none =>
    match afterTime? s with
    | some after => some (.ok (.moment (spelledBetween s after), after))
    | none => none

end LintFront.Toml
