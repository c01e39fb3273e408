import LintFront.FileTree.Disk
import LintFront.Text.Utf8
/-!
# Archives

A file in the ZIP format holds other files, its *members*, and a path may lead into it: the path of
the archive, a slash, and the name of a member. The operating system knows nothing of this. A search
for packages does, so what it finds may lie where no file can be opened.

The members are listed at the end of the archive. Its *closing record* says where the list begins,
and each record of the list names one member. A member counts by its name here; what it holds, and
whether anything could be made of it, is not looked at. A file whose list is cut off or contradicts
itself is no archive.

## Main statements

`Archive.notMem_of_names?`: the names of members could stand in a path.
-/

namespace LintFront

/-- A place in an archive. -/
structure Archive where
  /-- The spelling of the place: the path of the archive, and the components after it. -/
  place : String
  /-- The spellings of all members of the archive, whether they lie in the place or not. -/
  members : List String
  deriving DecidableEq, Repr

namespace Archive

/-! ## 1. Records -/

/-- The number that bytes stand for, the least significant one first. -/
def littleEndian : List UInt8 → Nat
  | [] => 0
  | b :: rest => b.toNat + 256 * littleEndian rest

/-- The number in the `size` bytes of a record after `offset` others. -/
def field (record : List UInt8) (offset size : Nat) : Nat :=
  littleEndian ((record.drop offset).take size)

/-- The bytes with which the closing record begins. -/
def closingSignature : List UInt8 := [0x50, 0x4B, 0x05, 0x06]

/-- The length of the closing record, without the comment that may follow it. -/
def closingSize : Nat := 22

/-- The greatest length of a comment. -/
def maxCommentSize : Nat := 65535

/-- The bytes with which the record of a member begins. -/
def memberSignature : List UInt8 := [0x50, 0x4B, 0x01, 0x02]

/-- The length of the record of a member, without its name and what follows that. -/
def memberSize : Nat := 46

/-- How many bytes stand before the last occurrence of `signature`. -/
def lastIndex? (signature : List UInt8) : List UInt8 → Option Nat
  | [] => none
  | b :: rest =>
    match lastIndex? signature rest with
    | some i => some (i + 1)
    | none => if signature.isPrefixOf (b :: rest) then some 0 else none

/-- How many bytes stand before the closing record. Without a comment it is the end of the archive;
else it is looked for as far back as a comment can be long. -/
def closing? (bytes : List UInt8) : Option Nat :=
  let last := bytes.length - closingSize
  if bytes.length < closingSize then none
  else if closingSignature.isPrefixOf (bytes.drop last) then some last
  else
    let first := last - maxCommentSize
    (lastIndex? closingSignature (bytes.drop first)).bind fun i =>
      if first + i ≤ last then some (first + i) else none

/-! ## 2. Names -/

/-- The characters of the upper half of code page 437. -/
def upperHalf : String :=
  "ÇüéâäàåçêëèïîìÄÅÉæÆôöòûùÿÖÜ¢£¥₧ƒ" ++
  "áíóúñÑªº¿⌐¬½¼¡«»░▒▓│┤╡╢╖╕╣║╗╝╜╛┐" ++
  "└┴┬├─┼╞╟╚╔╩╦╠═╬╧╨╤╥╙╘╒╓╫╪┘┌█▄▌▐▀" ++
  "αßΓπΣσµτΦΘΩδ∞φε∩≡±≥≤⌠⌡÷≈°∙·√ⁿ²■\u00a0"

/-- The character of a byte in code page 437. -/
def character (b : UInt8) : Char :=
  if b.toNat < 128 then Char.ofNat b.toNat else upperHalf.toList.getD (b.toNat - 128) ' '

/-- The name that bytes spell. They are UTF-8 if the record of the member says so, and else in code
page 437. -/
def spelled? (isUtf8 : Bool) (bytes : List UInt8) : Option String :=
  if isUtf8 then (Text.Utf8.decode bytes).toOption
  else some (String.ofList (bytes.map character))

/-- The names of the members whose records begin with the bytes; the list of all of them is said to
stand after `offset` bytes. -/
def namesFrom? (offset : Nat) (bytes : List UInt8) : Option (List String) :=
  if !memberSignature.isPrefixOf bytes then if bytes.length < 4 then none else some []
  else
    let nameSize := field bytes 28 2
    let size := memberSize + nameSize + field bytes 30 2 + field bytes 32 2
    if bytes.length < size ∨ offset < field bytes 42 4 then none
    else do
      let name ← spelled? ((field bytes 8 2).testBit 11) ((bytes.drop memberSize).take nameSize)
      let others ← namesFrom? offset (bytes.drop size)
      return name :: others
termination_by bytes.length
decreasing_by
  have hsize : 46 ≤ size := by unfold size memberSize; omega
  rw [List.length_drop]
  omega

/-- The names of the members of an archive, or none if the bytes are no archive. A name with a null
character is no name that a path could hold, and is left out. -/
def names? (bytes : List UInt8) : Option (List String) := do
  let position ← closing? bytes
  let record := bytes.drop position
  let size := field record 12 4
  let offset := field record 16 4
  guard (size + offset ≤ position)
  let names ← namesFrom? offset (bytes.drop (position - size))
  return names.filter fun name => '\x00' ∉ name.toList

/-- No name of a member has a null character. -/
theorem notMem_of_names? {bytes : List UInt8} {names : List String}
    (h : names? bytes = some names) : ∀ name ∈ names, '\x00' ∉ name.toList := by
  obtain ⟨position, -, h⟩ := Option.bind_eq_some_iff.1 h
  obtain ⟨⟨⟩, -, h⟩ := Option.bind_eq_some_iff.1 h
  obtain ⟨found, -, h⟩ := Option.bind_eq_some_iff.1 h
  obtain rfl := Option.some.inj h
  intro name hname
  exact of_decide_eq_true (List.mem_filter.1 hname).2

/-- Does the archive hold a member of this spelling? -/
def holds (archive : Archive) (path : String) : Bool := archive.members.contains path

end Archive

/-! ## 3. Paths into archives -/

namespace Disk

/-- The archive to which the pieces of a path lead, the last ones first, and the place `inner` in
it. Pieces are taken off the end of the path until what is left leads to something. -/
def archiveAbove? (disk : Disk) : (pieces inner : List String) → Option Archive
  | [], _ => none
  | last :: above, inner =>
    let path := "/".intercalate (last :: above).reverse
    match disk.node path with
    | .error _ => archiveAbove? disk above (last :: inner)
    | .ok (.file content) => (Archive.names? content.data.toList).map fun names => {
        place := "/".intercalate (path :: inner.filter (· ≠ ""))
        members := names.map fun name => path ++ "/" ++ name }
    | .ok _ => none

/-- The archive into which a path leads, and the place in it. -/
def archive? (disk : Disk) (path : String) : Option Archive :=
  disk.archiveAbove? (Path.pieces path).reverse []

end Disk

end LintFront
