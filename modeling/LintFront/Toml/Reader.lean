import LintFront.Toml.Lexeme
import LintFront.Toml.Document
/-!
# Reading a document

A document is a sequence of statements, one to a line: a header that declares a table or adds one to
an array, or a key and its value. Values may hold values, and two bounds govern how deep.

* The *fuel* bounds the number of steps. Every step takes at least one character, so the fuel that
  `read` gives, which comes from the length of the text, is never used up.
* The *room* bounds the nesting. A statement has the same room whatever its length; a list takes two
  parts of it and a table on one line three, and what is left is the room of the values inside. A
  value that finds too little room is a defect, before anything is known of what it holds.
-/

namespace LintFront.Toml

/-- The room for the value of a statement. It comes from a bound on the calls under way, so the
number is that of one place in the program, a run from the command line: further down there is less
room. -/
def maxRoom : Nat := 981

/-- The room that a value needs besides that of the values in it, told by its first character. It is
exact where lists alone or tables alone are nested and a number, a date or a text without escapes is
innermost. Any other value (a flag, a text with escapes, a table in a list) may need a little less
or more than its first character tells, which shows where the room is all but used up. -/
def roomFor : List Char → Nat
  | '[' :: _ => 3
  | '\x7b' :: _ => 6
  | _ => 2

mutual

/-- A value. -/
def value : (fuel room : Nat) → List Char → Step Value
  | 0, _, s => .error ⟨.value, s⟩
  | fuel + 1, room, s =>
    if room < roomFor s then .error ⟨.tooDeep, s⟩ else
    match s with
    | '"' :: rest =>
      let read := if startsWith "\"\"" rest then longString false (rest.drop 2)
        else shortString rest
      read.map fun p => (.text (String.ofList p.1), p.2)
    | '\'' :: rest =>
      let read := if startsWith "''" rest then longString true (rest.drop 2)
        else literalString isBarred "'" rest
      read.map fun p => (.text (String.ofList p.1), p.2)
    | '[' :: rest =>
      match skipBlanks (rest.length + 1) rest with
      | .error e => .error e
      | .ok (']' :: after) => .ok (.list [], after)
      | .ok s => (items fuel (room - 2) s).map fun p => (.list p.1, p.2)
    | '{' :: rest =>
      match skipSpaces rest with
      | '}' :: after => .ok (.table [], after)
      | s => (pairs fuel (room - 3) [] [] s).map fun p => (.table p.1, p.2)
    | s =>
      if startsWith "true" s then .ok (.bool true, s.drop 4)
      else if startsWith "false" s then .ok (.bool false, s.drop 5)
      else
        match moment? s with
        | some step => step
        | none =>
          match basedNumber? s with
          | some read => .ok read
          | none =>
            match decimalNumber? s with
            | some step => step
            | none =>
              match specialNumber? s with
              | some read => .ok read
              | none => .error ⟨.value, s⟩

/-- The items of an array from one of them on, with its end. -/
def items : (fuel room : Nat) → List Char → Step (List Value)
  | 0, _, s => .error ⟨.unclosedArray, s⟩
  | fuel + 1, room, s =>
    match value fuel room s with
    | .error e => .error e
    | .ok (v, after) =>
      match skipBlanks (after.length + 1) after with
      | .error e => .error e
      | .ok (']' :: after) => .ok ([v], after)
      | .ok (',' :: rest) =>
        match skipBlanks (rest.length + 1) rest with
        | .error e => .error e
        | .ok (']' :: after) => .ok ([v], after)
        | .ok s => (items fuel room s).map fun p => (v :: p.1, p.2)
      | .ok s => .error ⟨.unclosedArray, s⟩

/-- The pairs of a table on one line from one of them on, with its end, added to `table`. -/
def pairs : (fuel room : Nat) → (frozen : List Key) → Entries Value → List Char →
    Step (Entries Value)
  | 0, _, _, _, s => .error ⟨.unclosedInlineTable, s⟩
  | fuel + 1, room, frozen, table, s =>
    match pair fuel room s with
    | .error e => .error e
    | .ok ((key, v), after) =>
      match assignInline frozen table key v with
      | .error cause => .error ⟨cause, after⟩
      | .ok table =>
        match skipSpaces after with
        | '}' :: after => .ok (table, after)
        | ',' :: rest =>
          let frozen := match v with
            | .table _ | .list _ => key :: frozen
            | _ => frozen
          pairs fuel room frozen table (skipSpaces rest)
        | s => .error ⟨.unclosedInlineTable, s⟩

/-- A key and its value. -/
def pair : (fuel room : Nat) → List Char → Step (Key × Value)
  | 0, _, s => .error ⟨.keyStart, s⟩
  | fuel + 1, room, s =>
    match key (s.length + 1) s with
    | .error e => .error e
    | .ok (key, '=' :: rest) => (value fuel room (skipSpaces rest)).map fun p => ((key, p.1), p.2)
    | .ok (_, s) => .error ⟨.equals, s⟩

end

/-- A header, after its opening bracket: the document with the table declared, and the key of the
table. -/
def header (doc : Document) (s : List Char) : Step (Document × Key) :=
  match s with
  | '[' :: rest =>
    match key (rest.length + 1) (skipSpaces rest) with
    | .error e => .error e
    | .ok (k, after) =>
      match doc.declareArray k with
      | .error cause => .error ⟨cause, after⟩
      | .ok doc =>
        if startsWith "]]" after then .ok ((doc, k), after.drop 2)
        else .error ⟨.tableArrayEnd, after⟩
  | s =>
    match key (s.length + 1) (skipSpaces s) with
    | .error e => .error e
    | .ok (k, after) =>
      match doc.declare k with
      | .error cause => .error ⟨cause, after⟩
      | .ok doc =>
        if startsWith "]" after then .ok ((doc, k), after.drop 1)
        else .error ⟨.tableEnd, after⟩

/-- A statement, or nothing before a comment or the end of a line: the document after it and the key
of the table that the next pairs belong to. -/
def statement (doc : Document) (current : Key) (s : List Char) : Step (Document × Key) :=
  match s with
  | [] => .ok ((doc, current), [])
  | '#' :: rest => .ok ((doc, current), '#' :: rest)
  | '[' :: rest => header doc.endPart rest
  | c :: rest =>
    if startsKey c then
      match pair (3 * s.length + 3) maxRoom s with
      | .error e => .error e
      | .ok ((k, v), after) =>
        match doc.assign current k v with
        | .error cause => .error ⟨cause, after⟩
        | .ok doc => .ok ((doc, current), after)
    else .error ⟨.statement, c :: rest⟩

/-- The statements of a document, a line at a time. -/
def statements : (fuel : Nat) → Document → (current : Key) → List Char → Except Defect Document
  | 0, doc, _, _ => .ok doc
  | fuel + 1, doc, current, s =>
    match skipSpaces s with
    | [] => .ok doc
    | '\n' :: rest => statements fuel doc current rest
    | s =>
      match statement doc current s with
      | .error e => .error e
      | .ok ((doc, current), after) =>
        match skipComment (skipSpaces after) with
        | .error e => .error e
        | .ok [] => .ok doc
        | .ok ('\n' :: rest) => statements fuel doc current rest
        | .ok s => .error ⟨.afterStatement, s⟩

/-- The text with every carriage return before a newline taken out. -/
def unifyNewlines : List Char → List Char
  | '\r' :: '\n' :: rest => '\n' :: unifyNewlines rest
  | c :: rest => c :: unifyNewlines rest
  | [] => []

/-- The table that a document describes, or its first defect and the wording of it. -/
def read (document : String) : Except (Cause × String) (Entries Value) :=
  let s := unifyNewlines document.toList
  match statements (s.length + 1) {} [] s with
  | .ok doc => .ok doc.data
  | .error defect => .error (defect.cause, defect.message s)

end LintFront.Toml
