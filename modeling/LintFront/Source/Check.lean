import LintFront.Engine.SyntaxEngine
import LintFront.Source.Scan
/-!
# Checking source text

The check does not build a tree. It looks at what can be told from neighbouring tokens and
neighbouring lines: an operand after an operand, an operator without its right-hand side, a header
without its colon or its block, an indentation that no header asks for. The rules are such that
source text that follows the grammar shows no flaw, but flaws that only the whole grammar shows are
overlooked.

Of several flaws in one file one is reported. A flaw of the scanner comes first. Next comes the
first flaw of the check, unless a bracket from an earlier line is still open, which is then the
likelier cause.

## Main statements

`parser_eq_unusable_iff`: a file with a proper name is no source text exactly when it holds a null
byte.
-/

namespace LintFront.Source

/-! ## 1. Words and signs -/

/-- The words that are no identifiers. -/
def keywords : List String :=
  ["False", "None", "True", "and", "as", "assert", "async", "await", "break", "class", "continue",
    "def", "del", "elif", "else", "except", "finally", "for", "from", "global", "if", "import",
    "in", "is", "lambda", "nonlocal", "not", "or", "pass", "raise", "return", "try", "while",
    "with", "yield"]

/-- The keywords that stand for values. -/
def constants : List String := ["False", "None", "True"]

/-- The words that once began statements of their own and are functions now. -/
def formerStatements : List String := ["print", "exec"]

/-- What a statement with a block is called, by its first word. -/
def headers : List (String × String) :=
  [("if", "'if' statement"), ("elif", "'elif' statement"), ("else", "'else' statement"),
    ("for", "'for' statement"), ("while", "'while' statement"), ("with", "'with' statement"),
    ("try", "'try' statement"), ("except", "'except' statement"),
    ("finally", "'finally' statement"), ("def", "function definition"),
    ("class", "class definition")]

/-- The words that begin a statement with a block in some places and are identifiers elsewhere. -/
def softHeaders : List (String × String) :=
  [("match", "'match' statement"), ("case", "'case' statement")]

/-- Operators that need something on their right. -/
def openSigns : List String :=
  ["+", "-", "~", "%", "@", "//", "<<", ">>", "&", "|", "^", "==", "!=", "<", ">", "<=", ">=", "=",
    "+=", "-=", "*=", "/=", "//=", "%=", "@=", "&=", "|=", "^=", ">>=", "<<=", "**=", "->", ":="]

/-- Signs that cannot begin an operand. -/
def lateSigns : List String :=
  [")", "]", "\x7d", "=", ":", ",", ";", ".", "/", "%", "@", "//", "<<", ">>", "&", "|", "^", "==",
    "!=", "<", ">", "<=", ">=", "+=", "-=", "*=", "/=", "//=", "%=", "@=", "&=", "|=", "^=", ">>=",
    "<<=", "**=", "->", ":="]

/-- Words that cannot begin an operand. -/
def lateWords : List String := ["and", "or", "in", "is", "if", "else", "for"]

/-- The sign that a token is. -/
def Token.sign? (t : Token) : Option String :=
  match t.lexeme with
  | .sign s => some s
  | _ => none

/-- The word that a token is. -/
def Token.word? (t : Token) : Option String :=
  match t.lexeme with
  | .name s => some s
  | _ => none

/-- Is the token one of some signs? -/
def Token.isSign (t : Token) (signs : List String) : Bool := t.sign?.any signs.contains

/-- Is the token one of some words? -/
def Token.isWord (t : Token) (words : List String) : Bool := t.word?.any words.contains

/-- Is the token an identifier or a constant? -/
def Token.isName (t : Token) : Bool :=
  t.word?.any fun s => !keywords.contains s || constants.contains s

def Token.isQuoted (t : Token) : Bool :=
  match t.lexeme with
  | .quoted _ _ => true
  | _ => false

/-- Is the token a numeral or a quoted text? -/
def Token.isLiteral (t : Token) : Bool :=
  match t.lexeme with
  | .quoted _ _ | .number => true
  | _ => false

/-- May an operand end with the token? -/
def Token.endsOperand (t : Token) : Bool :=
  t.isName || t.isLiteral || t.isSign [")", "]", "\x7d"]

/-- Does the token begin an operand that cannot go on one before it? -/
def Token.startsOperand (t : Token) : Bool :=
  t.isName || t.isLiteral || t.isSign ["\x7b", "..."]

def Token.isLineEnd (t : Token) : Bool := t.lexeme = .lineEnd

/-! ## 2. Neighbouring tokens -/

/-- Does the token before leave an operand open that the token after does not begin? -/
def lacksOperand (a b : Token) : Bool :=
  if a.isSign openSigns then b.isSign lateSigns || b.isWord lateWords || b.isLineEnd
  else if a.isWord ["and", "or", "in", "is", "not"] then b.isSign lateSigns || b.isLineEnd
  else if a.isSign ["("] then b.isSign (lateSigns.erase ")")
  else if a.isSign ["["] then b.isSign ((lateSigns.erase "]").erase ":")
  else if a.isSign ["\x7b"] then b.isSign (lateSigns.erase "\x7d")
  else if a.isSign [","] then b.isSign [","]
  else if a.isSign ["/", "**", "."] then b.isLineEnd
  else false

/-- The flaw of a quoted text that stands for no characters, reported where the token after it
is. -/
def quotedFlaw? (a b : Token) : Option Flaw :=
  match a.lexeme with
  | .quoted false body => (Glyph.defect? body).map (undecodable b.place)
  | .quoted true body =>
    if body.all fun g => g.any fun c => c.toNat < 0x80 then none
    else some (.at_ a.place "bytes can only contain ASCII literal characters")
  | _ => none

/-- The flaw that two neighbouring tokens show. -/
def pairFlaw? (a b : Token) : Option Flaw :=
  if a.endsOperand && b.startsOperand && !(a.isQuoted && b.isQuoted) then
    match a.word? with
    | some word =>
      if formerStatements.contains word then
        some (.at_ a.place ("Missing parentheses in call to '" ++ word ++ "'. Did you mean " ++
          word ++ "(...)?"))
      else some (.generic b.place)
    | none => some (.generic b.place)
  else if lacksOperand a b then some (.generic b.place)
  else quotedFlaw? a b

/-- The first flaw that neighbouring tokens of a line show. -/
def pairsFlaw? : List Token → Option Flaw
  | a :: b :: rest => (pairFlaw? a b).or (pairsFlaw? (b :: rest))
  | _ => none

/-! ## 3. Lines -/

/-- The tokens of each logical line, the one for its end included; what follows the last end forms a
line too. -/
def logicalLines : List Token → List (List Token)
  | [] => []
  | t :: rest =>
    if t.isLineEnd then [t] :: logicalLines rest
    else
      match logicalLines rest with
      | [] => [[t]]
      | line :: lines => (t :: line) :: lines

/-- The tokens of a line without those for its indentation. -/
def content (line : List Token) : List Token :=
  line.dropWhile fun t => t.lexeme = .indent || t.lexeme = .dedent

/-- What the statement with a block is called that a line begins. -/
def header? (line : List Token) : Option String :=
  let line := if line.head?.any fun t => t.isWord ["async"] then line.drop 1 else line
  match line.head?.bind Token.word? with
  | none => none
  | some word =>
    match headers.lookup word with
    | some name => some name
    | none => if line.any fun t => t.isSign [":"] then softHeaders.lookup word else none

/-- Is the first token of a line a word that is only here a keyword? -/
def isSoft (line : List Token) : Bool :=
  (header? line).isSome && line.head?.any Token.isName

/-- Is there a colon outside brackets? `depth` brackets are open. -/
def hasColon (depth : Nat) : List Token → Bool
  | [] => false
  | t :: rest =>
    if t.isSign ["(", "[", "\x7b"] then hasColon (depth + 1) rest
    else if t.isSign [")", "]", "\x7d"] then hasColon (depth - 1) rest
    else (t.isSign [":"] && depth = 0) || hasColon depth rest

/-- Does a line end with a colon? The token for its end is not counted. -/
def endsWithColon (line : List Token) : Bool :=
  (line.filter fun t => !t.isLineEnd).getLast?.any fun t => t.isSign [":"]

/-- The flaw of a line that begins with something that can begin nothing, or assigns to
something that is no place. -/
def firstFlaw? : List Token → Option Flaw
  | a :: b :: _ =>
    if a.isSign (lateSigns.erase "@") then some (.generic a.place)
    else if b.isSign ["="] then
      if a.isLiteral then
        some (.at_ a.place
          "cannot assign to literal here. Maybe you meant '==' instead of '='?")
      else if a.isWord constants then
        some (.at_ a.place ("cannot assign to " ++ a.word?.getD ""))
      else none
    else none
  | _ => none

/-- The flaw of a header without a colon, or of a colon without a header. -/
def colonFlaw? (line : List Token) : Option Flaw :=
  match line.find? Token.isLineEnd with
  | none => none
  | some last =>
    if (header? line).isSome then
      if hasColon 0 line then none else some (.at_ last.place "expected ':'")
    else if endsWithColon line then some (.generic last.place)
    else none

/-- The first flaw inside a line. -/
def lineFlaw? (line : List Token) : Option Flaw :=
  (firstFlaw? line).or ((pairsFlaw? (if isSoft line then line.drop 1 else line)).or
    (colonFlaw? line))

/-! ## 4. Blocks -/

/-- A header that waits for its block: what its statement is called, its line, and the end of that
line. -/
structure Waiting where
  statement : String
  line : Nat
  last : Place

/-- The header that a line leaves waiting. -/
def waiting? (line : List Token) : Option Waiting := do
  guard (endsWithColon line)
  let statement ← header? line
  let first ← line.head?
  let last ← line.getLast?
  return ⟨statement, first.place.line, last.place⟩

/-- The flaw of a header whose block is missing before a line. After a step outwards of the
indentation the place reported is that of the step. -/
def Waiting.flaw (waiting : Waiting) (line : List Token) : Flaw :=
  let message := "expected an indented block after " ++ waiting.statement ++ " on line " ++
    toString waiting.line
  match content line, line with
  | [], _ => .at_ waiting.last message
  | first :: _, head :: _ =>
    if head.lexeme = .dedent then ⟨first.place.line, first.place.before, message⟩
    else .at_ first.place message
  | first :: _, [] => .at_ first.place message

/-- The first flaw of lines; a header before them may be waiting for its block. -/
def linesFlaw? (waiting : Option Waiting) : List (List Token) → Option Flaw
  | [] => waiting.map fun w => w.flaw []
  | line :: rest =>
    let opened := line.head?.any fun t => t.lexeme = .indent
    match waiting, opened with
    | some w, false => some (w.flaw line)
    | none, true =>
      line.head?.map fun t => ⟨t.place.line, t.place.before, "unexpected indent"⟩
    | _, _ => (lineFlaw? (content line)).or (linesFlaw? (waiting? (content line)) rest)

/-- The flaw of a scanned text, if one is found. -/
def flaw? (scan : Scan) : Option Flaw :=
  match scan.flaw with
  | some flaw => some flaw
  | none =>
    match scan.unclosed, linesFlaw? none (logicalLines scan.tokens) with
    | [], found => found
    | bracket :: _, some flaw =>
      if bracket.place.line < flaw.line then some bracket.unclosed else some flaw
    | bracket :: _, none => some bracket.unclosed

/-! ## 5. Files -/

/-- What is said of a file that holds a null byte. -/
def nullMessage : String := "source code string cannot contain null bytes"

/-- What is said of a file whose name holds a null character. -/
def nullNameMessage : String := "embedded null character"

/-- The parser of source files. -/
def parser : SourceParser := fun path content =>
  let bytes := content.toList
  if '\x00' ∈ path.toList then .unusable nullNameMessage
  else if bytes.contains 0 then .unusable nullMessage
  else
    match glyphsOf bytes with
    | .error name => .broken (some 0) (some (-1)) (some ("unknown encoding: " ++ name))
    | .ok glyphs =>
      match flaw? (scan {} glyphs) with
      | none => .parses
      | some flaw => .broken (some flaw.line) (some flaw.column) (some flaw.message)

/-- A file with a proper name is no source text exactly when it holds a null byte. -/
theorem parser_eq_unusable_iff {path : String} {content : ByteArray} :
    parser path content = .unusable nullMessage ↔ '\x00' ∉ path.toList ∧ 0 ∈ content.toList := by
  unfold parser
  simp only [List.contains_iff_mem]
  split
  · simp [*, nullMessage, nullNameMessage]
  · split
    · simp [*]
    · rename_i h
      simp only [h, and_false, iff_false]
      cases glyphsOf content.toList with
      | error name => simp
      | ok glyphs => cases h' : flaw? (scan {} glyphs) <;> simp [h']

end LintFront.Source
