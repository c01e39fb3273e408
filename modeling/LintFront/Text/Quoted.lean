import LintFront.Text.Character
/-!
# Quoted text

Names and characters that appear inside messages are quoted, so that a reader sees where they begin
and end and which characters they really hold. Apostrophes enclose the text; only a text that holds
an apostrophe and no double quote is enclosed by double quotes instead. The backslash and the
enclosing quote are escaped, and so is every character that is not printable.

Where no quotes enclose a text, only its control characters are escaped.
-/

namespace LintFront.Text

/-- The lower-case hexadecimal digit of a number below sixteen. -/
def hexDigit (n : Nat) : Char :=
  if n < 10 then Char.ofNat (48 + n) else Char.ofNat (87 + n)

/-- The last `width` hexadecimal digits of `n`. -/
def hexDigits : (width n : Nat) → List Char
  | 0, _ => []
  | width + 1, n => hexDigits width (n / 16) ++ [hexDigit (n % 16)]

/-- The escape of a character by its code point: two, four or eight digits, as few as hold it. -/
def escapeByCode (n : Nat) : List Char :=
  if n < 0x100 then '\\' :: 'x' :: hexDigits 2 n
  else if n < 0x10000 then '\\' :: 'u' :: hexDigits 4 n
  else '\\' :: 'U' :: hexDigits 8 n

/-- A character inside the quote `q`. -/
def quoteChar (q c : Char) : List Char :=
  if c = q ∨ c = '\\' then ['\\', c]
  else if c = '\t' then ['\\', 't']
  else if c = '\n' then ['\\', 'n']
  else if c = '\r' then ['\\', 'r']
  else if isPrintable c then [c]
  else escapeByCode c.toNat

/-- The quote that encloses a text. -/
def enclosing (s : List Char) : Char :=
  if '\'' ∈ s ∧ '"' ∉ s then '"' else '\''

/-- The quoted form of a text. -/
def quote (s : String) : String :=
  let q := enclosing s.toList
  String.ofList (q :: s.toList.flatMap (quoteChar q) ++ [q])

/-- The quoted form of a sequence of names: in parentheses, a comma after each but the last, and
after the last too when it is the only one. -/
def quoteAll : List String → String
  | [s] => "(" ++ quote s ++ ",)"
  | names => "(" ++ ", ".intercalate (names.map quote) ++ ")"

/-- A text with its control characters escaped, without quotes. -/
def visible (s : String) : String :=
  String.ofList (s.toList.flatMap fun c => if isControl c then escapeByCode c.toNat else [c])

/-- A text of printable characters other than quote and backslash stands for itself. -/
theorem flatMap_quoteChar_of_plain {q : Char} {s : List Char}
    (h : ∀ c ∈ s, c ≠ q ∧ c ≠ '\\' ∧ isPrintable c = true ∧ c ≠ '\t' ∧ c ≠ '\n' ∧ c ≠ '\r') :
    s.flatMap (quoteChar q) = s := by
  induction s with
  | nil => rfl
  | cons c rest ih =>
    have hc := h c (by simp)
    rw [List.flatMap_cons, ih fun d hd => h d (by simp [hd])]
    simp [quoteChar, hc]

end LintFront.Text
