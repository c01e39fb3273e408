import LintFront.Text.Character
/-!
# Highlighting debug messages

A debug message is prose with pairs `key=value` in it. For colouring it is cut into segments: keys,
equals signs, values and the prose between. A key is a run of word characters and hyphens. A value
is a quoted text on one line if one starts after the sign, and else a run of characters that are not
blank. Pairs are found from the left, and they do not overlap.

The cut is made in two passes. The first finds the places of the pairs; the second goes over them
with a cursor, and takes what lies between the cursor and the next pair for prose.
-/

namespace LintFront.Console

/-- What a segment of a debug message is. -/
inductive Part where
  | prose
  | key
  | equals
  | value
  deriving DecidableEq, Repr

/-- A segment of a message. -/
abbrev Segment := Part × List Char

/-! ## 1. Finding the pairs -/

/-- May `c` stand in a key? -/
def isKeyChar (c : Char) : Bool := Text.isWordChar c || c = '-'

/-- How many characters a quoted text takes after its opening quote, the closing one included; none
if it is not closed on the line. -/
def quotedLength? : List Char → Option Nat
  | [] => none
  | c :: rest =>
    if c = '"' then some 1
    else if c = '\n' then none
    else (quotedLength? rest).map (· + 1)

/-- How many characters at the start of a text are not blank. -/
def solidLength (s : List Char) : Nat := (s.takeWhile fun c => !Text.isBlank c).length

/-- How many characters a value takes. -/
def valueLength (s : List Char) : Nat :=
  match s with
  | '"' :: rest =>
    match quotedLength? rest with
    | some n => n + 1
    | none => solidLength s
  | s => solidLength s

/-- The lengths of a key and a value if a text starts with a pair (`_KEY_VALUE_RE`). -/
def pair? (s : List Char) : Option (Nat × Nat) :=
  let key := (s.takeWhile isKeyChar).length
  match s.drop key with
  | '=' :: rest =>
    if key = 0 || valueLength rest = 0 then none else some (key, valueLength rest)
  | _ => none

/-- The place of a pair in a message: where it starts, and how long its key and its value are. -/
structure Pair where
  start : Nat
  key : Nat
  value : Nat
  deriving DecidableEq, Repr

/-- Where the sign of a pair stands. -/
def Pair.sign (pair : Pair) : Nat := pair.start + pair.key

/-- Where the text behind a pair starts. -/
def Pair.finish (pair : Pair) : Nat := pair.sign + 1 + pair.value

/-- The pairs in the text that stands at a place of a message. -/
def pairsFrom (place : Nat) (s : List Char) : List Pair :=
  match s with
  | [] => []
  | c :: rest =>
    match pair? (c :: rest) with
    | none => pairsFrom (place + 1) rest
    | some (key, value) =>
      let pair : Pair := ⟨place, key, value⟩
      pair :: pairsFrom pair.finish ((c :: rest).drop (key + 1 + value))
termination_by s.length
decreasing_by
  · simp
  · simp only [List.length_drop, List.length_cons]; omega

/-! ## 2. Cutting the message -/

/-- The prose between two places of a message, none if there is nothing between them. -/
def proseBetween (message : List Char) (start finish : Nat) : List Segment :=
  if start < finish then [(.prose, message.extract start finish)] else []

/-- The segments of a message behind a cursor, given the pairs there. -/
def segmentsFrom (message : List Char) (cursor : Nat) : List Pair → List Segment
  | [] => proseBetween message cursor message.length
  | pair :: pairs =>
    proseBetween message cursor pair.start ++
      (.key, message.extract pair.start pair.sign) :: (.equals, ['=']) ::
      (.value, message.extract (pair.sign + 1) pair.finish) ::
      segmentsFrom message pair.finish pairs

/-- The segments of a message. -/
def highlight (message : List Char) : List Segment := segmentsFrom message 0 (pairsFrom 0 message)

end LintFront.Console
