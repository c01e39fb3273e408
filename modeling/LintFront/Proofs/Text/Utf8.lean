import LintFront.Text.Utf8
/-!
# What decodes

Bytes decode exactly when they are the encoding of a text, and then to this text. The decoder goes
by the first byte of a character and by bounds for the next one; the encoder goes by the size of the
code point. That the two agree is seen character by character: the bounds are those between which
the encoder puts the second byte of a character with this first byte.

## Main statements

`Text.Utf8.decode_eq_ok_iff`, `Text.Utf8.decode_toList_eq_ok_iff`: which bytes decode, and to what.
-/

namespace LintFront.Text.Utf8

open String

/-! ## 1. One character -/

/-- What a byte stands for at the start of a character, by how many bytes follow it. -/
theorem lead?_eq_some_iff {n : Nat} {lead : Lead} :
    lead? n = some lead ↔
      n < 0x80 ∧ lead = ⟨n, 0, 0x80, 0xBF⟩ ∨
      (0xC2 ≤ n ∧ n < 0xE0) ∧ lead = ⟨n - 0xC0, 1, 0x80, 0xBF⟩ ∨
      (0xE0 ≤ n ∧ n < 0xF0) ∧ lead = ⟨n - 0xE0, 2, if n = 0xE0 then 0xA0 else 0x80,
        if n = 0xED then 0x9F else 0xBF⟩ ∨
      (0xF0 ≤ n ∧ n ≤ 0xF4) ∧ lead = ⟨n - 0xF0, 3, if n = 0xF0 then 0x90 else 0x80,
        if n = 0xF4 then 0x8F else 0xBF⟩ := by
  unfold lead?
  grind

/-- A further byte is read when it lies between the bounds. -/
theorem continued_succ_eq_ok_iff {more bits least greatest code : Nat} {bytes : List UInt8} :
    continued (more + 1) bits least greatest bytes = .ok code ↔
      ∃ b rest, bytes = b :: rest ∧ (least ≤ b.toNat ∧ b.toNat ≤ greatest) ∧
        continued more (bits * 64 + (b.toNat - 0x80)) 0x80 0xBF rest = .ok code := by
  cases bytes with
  | nil => simp [continued]
  | cons b rest =>
    rw [continued]
    constructor
    · intro h
      split at h
      · rename_i hbounds
        refine ⟨b, rest, rfl, hbounds, ?_⟩
        cases hrest : continued more (bits * 64 + (b.toNat - 0x80)) 0x80 0xBF rest with
        | ok value =>
          rw [hrest] at h
          exact h
        | error cause =>
          rw [hrest] at h
          cases h
      · cases h
    · rintro ⟨_, _, heq, hbounds, hrest⟩
      obtain ⟨rfl, rfl⟩ := List.cons.inj heq
      rw [if_pos hbounds, hrest]

theorem continued_zero_eq_ok_iff {bits least greatest : Nat} {bytes : List UInt8} {code : Nat} :
    continued 0 bits least greatest bytes = .ok code ↔ bits = code := by
  simp [continued]

theorem toNat_ofNat {n : Nat} (h : n < 256) : (UInt8.ofNat n).toNat = n := by
  rw [UInt8.toNat_ofNat', Nat.mod_eq_of_lt h]

/-- The bytes of a character are read as it. -/
theorem continued_encoded (c : Char) (tail : List UInt8) :
    ∃ b more lead, utf8EncodeChar c = b :: more ∧ lead? b.toNat = some lead ∧
      lead.more = more.length ∧
      continued lead.more lead.bits lead.least lead.greatest (more ++ tail) = .ok c.toNat := by
  have hvalid : c.toNat < 0xD800 ∨ 0xDFFF < c.toNat ∧ c.toNat < 0x110000 := c.valid
  unfold utf8EncodeChar
  rw [show c.val.toNat = c.toNat from rfl]
  generalize c.toNat = v at hvalid ⊢
  dsimp only
  -- The encoder has one case for each number of bytes, and so has the table of first bytes. In each
  -- case the first byte is in its row of the table, the others are between the bounds of the row,
  -- and together they have the bits of the code point.
  split
  · refine ⟨_, _, _, rfl, lead?_eq_some_iff.2 (.inl ⟨?_, rfl⟩), rfl, ?_⟩
    · rw [toNat_ofNat (by omega)]
      omega
    · rw [continued_zero_eq_ok_iff, toNat_ofNat (by omega)]
  split
  · refine ⟨_, _, _, rfl, lead?_eq_some_iff.2 (.inr (.inl ⟨?_, rfl⟩)), rfl, ?_⟩
    · rw [toNat_ofNat (by omega)]
      omega
    · simp only [continued_succ_eq_ok_iff, continued_zero_eq_ok_iff]
      refine ⟨_, _, rfl, ?_, ?_⟩
      · rw [toNat_ofNat (by omega)]
        omega
      · rw [toNat_ofNat (by omega), toNat_ofNat (by omega)]
        omega
  split
  · refine ⟨_, _, _, rfl, lead?_eq_some_iff.2 (.inr (.inr (.inl ⟨?_, rfl⟩))), rfl, ?_⟩
    · rw [toNat_ofNat (by omega)]
      omega
    · simp only [continued_succ_eq_ok_iff, continued_zero_eq_ok_iff]
      refine ⟨_, _, rfl, ?_, _, _, rfl, ?_, ?_⟩
      · rw [toNat_ofNat (by omega), toNat_ofNat (by omega)]
        constructor <;> split <;> omega
      · rw [toNat_ofNat (by omega)]
        omega
      · rw [toNat_ofNat (by omega), toNat_ofNat (by omega), toNat_ofNat (by omega)]
        omega
  · refine ⟨_, _, _, rfl, lead?_eq_some_iff.2 (.inr (.inr (.inr ⟨?_, rfl⟩))), rfl, ?_⟩
    · rw [toNat_ofNat (by omega)]
      omega
    · simp only [continued_succ_eq_ok_iff, continued_zero_eq_ok_iff]
      refine ⟨_, _, rfl, ?_, _, _, rfl, ?_, _, _, rfl, ?_, ?_⟩
      · rw [toNat_ofNat (by omega), toNat_ofNat (by omega)]
        constructor <;> split <;> omega
      · rw [toNat_ofNat (by omega)]
        omega
      · rw [toNat_ofNat (by omega)]
        omega
      · rw [toNat_ofNat (by omega), toNat_ofNat (by omega), toNat_ofNat (by omega),
          toNat_ofNat (by omega)]
        omega

theorem ofNat_eq_iff {n : Nat} {b : UInt8} (h : n < 256) : UInt8.ofNat n = b ↔ n = b.toNat := by
  rw [← UInt8.toNat_inj, toNat_ofNat h]

/-- What is read as a character is its bytes. -/
theorem encoded_of_continued {b : UInt8} {rest : List UInt8} {lead : Lead} {code : Nat}
    (hlead : lead? b.toNat = some lead)
    (h : continued lead.more lead.bits lead.least lead.greatest rest = .ok code) :
    b :: rest = utf8EncodeChar (Char.ofNat code) ++ rest.drop lead.more := by
  have hbyte := b.toNat_lt
  have hcode : ∀ n, n < 0xD800 ∨ 0xDFFF < n ∧ n < 0x110000 → (Char.ofNat n).val.toNat = n := by
    intro n hn
    rw [Char.ofNat, dif_pos hn]
    rfl
  -- The row of the first byte says how many bytes were read, and this is the case of the encoder
  -- that the code point falls into.
  rcases lead?_eq_some_iff.1 hlead with ⟨hn, rfl⟩ | ⟨hn, rfl⟩ | ⟨hn, rfl⟩ | ⟨hn, rfl⟩
  · rw [continued_zero_eq_ok_iff] at h
    dsimp only at h
    rw [utf8EncodeChar, hcode _ (by omega), if_pos (by omega), (ofNat_eq_iff (by omega)).2 h.symm]
    rfl
  · simp only [continued_succ_eq_ok_iff, continued_zero_eq_ok_iff] at h
    obtain ⟨b₁, tail, rfl, h₁, h⟩ := h
    rw [utf8EncodeChar, hcode _ (by omega), if_neg (by omega), if_pos (by omega),
      (ofNat_eq_iff (by omega)).2 (show _ = b.toNat by omega),
      (ofNat_eq_iff (by omega)).2 (show _ = b₁.toNat by omega)]
    rfl
  · simp only [continued_succ_eq_ok_iff, continued_zero_eq_ok_iff] at h
    obtain ⟨b₁, _, rfl, h₁, b₂, tail, rfl, h₂, h⟩ := h
    -- After two of the first bytes the bounds are narrower, and only so is the code point long
    -- enough and no surrogate.
    split at h₁ <;> split at h₁
    all_goals
      rw [utf8EncodeChar, hcode _ (by omega), if_neg (by omega), if_neg (by omega),
        if_pos (by omega), (ofNat_eq_iff (by omega)).2 (show _ = b.toNat by omega),
        (ofNat_eq_iff (by omega)).2 (show _ = b₁.toNat by omega),
        (ofNat_eq_iff (by omega)).2 (show _ = b₂.toNat by omega)]
      rfl
  · simp only [continued_succ_eq_ok_iff, continued_zero_eq_ok_iff] at h
    obtain ⟨b₁, _, rfl, h₁, b₂, _, rfl, h₂, b₃, tail, rfl, h₃, h⟩ := h
    split at h₁ <;> split at h₁
    all_goals
      rw [utf8EncodeChar, hcode _ (by omega), if_neg (by omega), if_neg (by omega),
        if_neg (by omega), (ofNat_eq_iff (by omega)).2 (show _ = b.toNat by omega),
        (ofNat_eq_iff (by omega)).2 (show _ = b₁.toNat by omega),
        (ofNat_eq_iff (by omega)).2 (show _ = b₂.toNat by omega),
        (ofNat_eq_iff (by omega)).2 (show _ = b₃.toNat by omega)]
      rfl

/-! ## 2. All characters -/

theorem decodeFrom_cons {position : Nat} {b : UInt8} {rest : List UInt8} {lead : Lead} {code : Nat}
    (hlead : lead? b.toNat = some lead)
    (h : continued lead.more lead.bits lead.least lead.greatest rest = .ok code) :
    decodeFrom position (b :: rest) =
      (decodeFrom (position + 1 + lead.more) (rest.drop lead.more)).map (Char.ofNat code :: ·) := by
  rw [decodeFrom, hlead]
  dsimp only
  rw [h]
  cases decodeFrom (position + 1 + lead.more) (rest.drop lead.more) <;> rfl

theorem decodeFrom_encoded (chars : List Char) (position : Nat) :
    decodeFrom position (chars.flatMap utf8EncodeChar) = .ok chars := by
  induction chars generalizing position with
  | nil => rw [List.flatMap_nil, decodeFrom]
  | cons c chars ih =>
    -- What follows the first character is whatever its bytes are followed by, so the induction is
    -- on the characters and the position is free.
    obtain ⟨b, more, lead, hbytes, hlead, hmore, hcode⟩ :=
      continued_encoded c (chars.flatMap utf8EncodeChar)
    rw [List.flatMap_cons, hbytes, List.cons_append, decodeFrom_cons hlead hcode, hmore,
      List.drop_left, ih, Char.ofNat_toNat]
    rfl

/-- What decodes is the encoding of what it decodes to. -/
theorem encoded_of_decodeFrom {position : Nat} {bytes : List UInt8} {chars : List Char}
    (h : decodeFrom position bytes = .ok chars) : bytes = chars.flatMap utf8EncodeChar := by
  -- Every character takes at least its first byte away.
  induction hsize : bytes.length using Nat.strongRecOn generalizing position bytes
    chars with
  | ind size ih =>
    cases bytes with
    | nil =>
      rw [decodeFrom] at h
      obtain rfl := Except.ok.inj h
      rfl
    | cons b rest =>
      rw [decodeFrom] at h
      split at h
      · cases h
      rename_i lead hlead
      split at h
      · cases h
      rename_i code hcode
      split at h
      · rename_i later hlater
        obtain rfl := Except.ok.inj h
        have hlt : (rest.drop lead.more).length < size := by
          rw [← hsize, List.length_drop, List.length_cons]
          omega
        rw [List.flatMap_cons, ← ih _ hlt hlater rfl]
        exact encoded_of_continued hlead hcode
      · cases h

/-- Bytes decode to a text exactly when they are its encoding. -/
theorem decode_eq_ok_iff {bytes : List UInt8} {text : String} :
    decode bytes = .ok text ↔ bytes = text.toList.flatMap utf8EncodeChar := by
  unfold decode
  constructor
  · intro h
    cases hchars : decodeFrom 0 bytes with
    | ok chars =>
      rw [hchars] at h
      obtain rfl : String.ofList chars = text := Except.ok.inj h
      rw [toList_ofList]
      exact encoded_of_decodeFrom hchars
    | error defect =>
      rw [hchars] at h
      cases h
  · rintro rfl
    rw [decodeFrom_encoded]
    exact congrArg Except.ok ofList_toList

/-! ## 3. Arrays of bytes -/

/-- The loop puts what is left of the array behind the list so far. -/
theorem toList_loop (bytes : ByteArray) (i : Nat) (soFar : List UInt8) :
    ByteArray.toList.loop bytes i soFar = soFar.reverse ++ bytes.data.toList.drop i := by
  fun_induction ByteArray.toList.loop bytes i soFar with
  | case1 i soFar h ih =>
    have hi : i < bytes.data.toList.length := h
    have hget : bytes.get! i = bytes.data.toList[i] := getElem!_pos bytes.data i hi
    rw [ih, List.drop_eq_getElem_cons hi, hget, List.reverse_cons, List.append_assoc]
    rfl
  | case2 i soFar h =>
    have hi : bytes.data.toList.length ≤ i := Nat.le_of_not_lt h
    rw [List.drop_eq_nil_of_le hi, List.append_nil]

theorem toList_eq_data (bytes : ByteArray) : bytes.toList = bytes.data.toList := by
  rw [ByteArray.toList, toList_loop]
  rfl

/-- An array of bytes decodes to a text exactly when it is the encoding of the text. -/
theorem decode_toList_eq_ok_iff {bytes : ByteArray} {text : String} :
    decode bytes.toList = .ok text ↔ bytes = text.toUTF8 := by
  have hutf8 : text.toUTF8.toList = text.toList.flatMap utf8EncodeChar := by
    rw [toList_eq_data, toUTF8_eq_toByteArray, ← utf8Encode_toList]
    exact List.toList_data_toByteArray
  rw [decode_eq_ok_iff, ← hutf8, toList_eq_data, toList_eq_data, Array.toList_inj]
  exact ⟨ByteArray.ext, congrArg ByteArray.data⟩

/-- An array of bytes does not decode exactly when it is the encoding of no text. -/
theorem exists_decode_eq_error_iff {bytes : ByteArray} :
    (∃ defect, decode bytes.toList = .error defect) ↔ ∀ text : String, bytes ≠ text.toUTF8 := by
  constructor
  · rintro ⟨defect, hdefect⟩ text heq
    rw [decode_toList_eq_ok_iff.2 heq] at hdefect
    cases hdefect
  · intro h
    cases hdecode : decode bytes.toList with
    | ok text => exact absurd (decode_toList_eq_ok_iff.1 hdecode) (h text)
    | error defect => exact ⟨defect, rfl⟩

end LintFront.Text.Utf8
