import LintFront.Console.Stream
import LintFront.Proofs.Path.Spelling
import Mathlib.Data.List.SplitBy
/-!
# Highlighting loses nothing

A debug message is cut into segments for its colours, the segments into lines, and the lines again
at their tabs. None of this is to be seen in the text: the pieces put together are the message, so
without colours the message is written as if it had never been cut, and with colours the styling
sequences are all that is added to that.

The cursor of the first cut and the text cut off so far stay in step: what the segments still to
come amount to is the message from the cursor on (`textOf_segmentsFrom`). For that the pairs need
not be where the search finds them. It is enough that they come in order and that each has its sign
behind its key.

How wide a text is decides about the blanks that a tab becomes. The statements hold for every
measure of width, since the columns are counted over the line, not over its pieces.

## Main statements

`debugging_faithful`: a debug message is written whole or not at all, and colours only add their
sequences.
-/

namespace LintFront.Console

/-- The text of some pieces, whatever they are labelled with. -/
def textOf {α : Type} (pieces : List (α × List Char)) : List Char := pieces.flatMap (·.2)

section Text

variable {α : Type}

@[simp] theorem textOf_nil : textOf ([] : List (α × List Char)) = [] := rfl

@[simp] theorem textOf_cons (piece : α × List Char) (pieces : List (α × List Char)) :
    textOf (piece :: pieces) = piece.2 ++ textOf pieces := rfl

@[simp] theorem textOf_append (a b : List (α × List Char)) :
    textOf (a ++ b) = textOf a ++ textOf b := List.flatMap_append

end Text

/-! ## 1. The cursor -/

/-- The pairs come in order in the message, none before the cursor, and each has its sign behind its
key. -/
inductive InStep (message : List Char) : Nat → List Pair → Prop
  | nil {cursor : Nat} : InStep message cursor []
  | cons {cursor : Nat} {pair : Pair} {pairs : List Pair} (ahead : cursor ≤ pair.start)
      (signed : message[pair.sign]? = some '=') (rest : InStep message pair.finish pairs) :
      InStep message cursor (pair :: pairs)

theorem InStep.mono {message : List Char} {cursor earlier : Nat} {pairs : List Pair}
    (h : InStep message cursor pairs) (hle : earlier ≤ cursor) :
    InStep message earlier pairs := by
  cases h with
  | nil => exact .nil
  | cons ahead signed rest => exact .cons (by omega) signed rest

/-- Behind the key of a pair stands its sign. -/
theorem getElem?_of_pair? {s : List Char} {key value : Nat} (h : pair? s = some (key, value)) :
    s[key]? = some '=' := by
  rw [pair?] at h
  split at h
  case h_2 => simp at h
  case h_1 rest hsign =>
    split at h
    · simp at h
    · have hkey : (s.takeWhile isKeyChar).length = key := by
        simp only [Option.some.injEq, Prod.mk.injEq] at h
        exact h.1
      rw [hkey] at hsign
      have hhead : (s.drop key).head? = some '=' := by rw [hsign]; rfl
      rwa [List.head?_drop] at hhead

/-- The pairs found at a place of a message are in step with a cursor there. -/
theorem inStep_pairsFrom (message : List Char) (place : Nat) :
    InStep message place (pairsFrom place (message.drop place)) := by
  -- The search hands on the rest of the text together with its place.
  generalize hs : message.drop place = s
  fun_induction pairsFrom place s with
  | case1 place => exact .nil
  | case2 place c rest hnone ih =>
    have hrest : message.drop (place + 1) = rest := by
      rw [← List.drop_drop, hs, List.drop_one, List.tail_cons]
    exact (ih hrest).mono (by omega)
  | case3 place c rest key value hpair pair ih =>
    have hrest : message.drop pair.finish = (c :: rest).drop (key + 1 + value) := by
      rw [← hs, List.drop_drop]
      congr 1
      simp only [Pair.finish, Pair.sign, pair]
      omega
    have hsign : message[pair.sign]? = some '=' := by
      rw [← getElem?_of_pair? hpair, ← hs, List.getElem?_drop]
      rfl
    exact .cons (Nat.le_refl place) hsign (ih hrest)

/-- The part up to a place, and the text from there on. -/
theorem extract_append_drop (message : List Char) {start finish : Nat} (h : start ≤ finish) :
    message.extract start finish ++ message.drop finish = message.drop start := by
  have hfinish : message.drop finish = (message.drop start).drop (finish - start) := by
    rw [List.drop_drop, Nat.add_sub_cancel' h]
  rw [hfinish, List.extract_eq_take_drop, List.take_append_drop]

theorem textOf_proseBetween (message : List Char) (start finish : Nat) :
    textOf (proseBetween message start finish) = message.extract start finish := by
  rw [proseBetween]
  split
  case isTrue h => simp
  case isFalse h =>
    have hempty : finish - start = 0 := by omega
    rw [List.extract_eq_take_drop, hempty, List.take_zero, textOf_nil]

/-- What the segments behind the cursor amount to is the message from the cursor on. -/
theorem textOf_segmentsFrom {message : List Char} {cursor : Nat} {pairs : List Pair}
    (h : InStep message cursor pairs) :
    textOf (segmentsFrom message cursor pairs) = message.drop cursor := by
  induction h with
  | @nil cursor =>
    rw [segmentsFrom, textOf_proseBetween, List.extract_eq_take_drop]
    exact List.take_of_length_le (by rw [List.length_drop])
  | @cons cursor pair pairs ahead signed rest ih =>
    -- From the sign on, the message is the literal sign and what stands behind it.
    have hsign : '=' :: message.drop (pair.sign + 1) = message.drop pair.sign := by
      obtain ⟨hlt, heq⟩ := List.getElem?_eq_some_iff.1 signed
      rw [← heq, List.getElem_cons_drop]
    calc textOf (segmentsFrom message cursor (pair :: pairs))
        = message.extract cursor pair.start ++ (message.extract pair.start pair.sign ++
            '=' :: (message.extract (pair.sign + 1) pair.finish ++
              message.drop pair.finish)) := by
          simp [segmentsFrom, textOf_proseBetween, ih]
      _ = message.extract cursor pair.start ++ (message.extract pair.start pair.sign ++
            message.drop pair.sign) := by
          rw [extract_append_drop message (by simp [Pair.finish]), hsign]
      _ = message.drop cursor := by
          rw [extract_append_drop message (by simp [Pair.sign]), extract_append_drop message ahead]

/-- The segments put together are the message. -/
theorem textOf_highlight (message : List Char) : textOf (highlight message) = message := by
  have h : InStep message 0 (pairsFrom 0 message) := inStep_pairsFrom message 0
  rw [highlight, textOf_segmentsFrom h, List.drop_zero]

example : (highlight "say=\"a b\" sum=x=y\nopen=\"z".toList).map (fun p => String.ofList p.2) =
    ["say", "=", "\"a b\"", " ", "sum", "=", "x=y", "\n", "open", "=", "\"z"] := by cbv

/-- The pieces of a debug message put together are its mark and the message. -/
theorem textOf_debugPieces (message : String) :
    textOf (debugPieces message) = ("[debug] " ++ message).toList := by
  have hstyles : ∀ segments : List Segment,
      textOf (segments.map fun p => (partStyle p.1, p.2)) = textOf segments := by
    intro segments
    simp [textOf, List.flatMap_map]
  rw [debugPieces, textOf_cons, hstyles, textOf_highlight, String.toList_append]

/-! ## 2. Lines -/

theorem textOf_putPiece (style : String) (s : List Char) (line : List Styled) :
    textOf (putPiece style s line) = s ++ textOf line := by
  rw [putPiece]
  split
  case isTrue h => rw [List.isEmpty_iff.1 h, List.nil_append]
  case isFalse h => rw [textOf_cons]

/-- A character in front of the first text comes in front of the first line. -/
theorem map_textOf_pour_modifyHead (style : String) (c : Char) {texts : List (List Char)}
    {lines : List (List Styled)} (htexts : texts ≠ []) (hlines : lines ≠ []) :
    (pour style (texts.modifyHead (List.cons c)) lines).map textOf =
      ((pour style texts lines).map textOf).modifyHead (List.cons c) := by
  obtain ⟨line, lines, rfl⟩ := List.exists_cons_of_ne_nil hlines
  match texts with
  | [] => exact absurd rfl htexts
  | [s] => simp [pour, textOf_putPiece]
  | s :: t :: texts => simp [pour, textOf_putPiece]

theorem pour_ne_nil (style : String) {texts : List (List Char)} {lines : List (List Styled)}
    (h : lines ≠ []) : pour style texts lines ≠ [] := by
  obtain ⟨line, lines, rfl⟩ := List.exists_cons_of_ne_nil h
  match texts with
  | [] => simp [pour]
  | [s] => simp [pour]
  | s :: t :: texts => simp [pour]

theorem linesOf_ne_nil (pieces : List Styled) : linesOf pieces ≠ [] := by
  induction pieces with
  | nil => simp [linesOf]
  | cons piece pieces ih => exact pour_ne_nil _ ih

/-- The lines of a text put in front of lines are those of both texts together. -/
theorem map_textOf_pour_splitOn (style : String) (s t : List Char) {lines : List (List Styled)}
    (hlines : lines ≠ []) (h : lines.map textOf = t.splitOn '\n') :
    (pour style (s.splitOn '\n') lines).map textOf = (s ++ t).splitOn '\n' := by
  induction s with
  | nil =>
    obtain ⟨line, lines, rfl⟩ := List.exists_cons_of_ne_nil hlines
    simpa [pour, textOf_putPiece] using h
  | cons c s ih =>
    rw [List.cons_append, List.splitOn_cons_eq_if_modifyHead, List.splitOn_cons_eq_if_modifyHead]
    have hsplit : s.splitOn '\n' ≠ [] := List.splitOn_ne_nil '\n' s
    -- A line end makes a line of its own; any other character goes to the first line.
    by_cases hc : (c == '\n') = true
    · rw [if_pos hc, if_pos hc, ← ih]
      obtain ⟨first, rest, hcons⟩ := List.exists_cons_of_ne_nil hsplit
      simp [hcons, pour, textOf_putPiece]
    · rw [if_neg hc, if_neg hc, map_textOf_pour_modifyHead style c hsplit hlines, ih]

/-- The lines of pieces are the lines of their text, as far as its characters are kept. -/
theorem map_textOf_linesOf (pieces : List Styled) :
    (linesOf pieces).map textOf =
      ((textOf pieces).filter fun c => !isDropped c).splitOn '\n' := by
  induction pieces with
  | nil => rfl
  | cons piece pieces ih =>
    rw [textOf_cons, List.filter_append]
    exact map_textOf_pour_splitOn piece.1 _ _ (linesOf_ne_nil pieces) ih

/-! ## 3. Tabs -/

section Width

variable (width : List Char → Nat)

theorem expandTabs_append (place : Place) (a b : List Char) :
    expandTabs width place (a ++ b) =
      expandTabs width place a ++ expandTabs width (a.foldl (Place.after width) place) b := by
  induction a generalizing place with
  | nil => rfl
  | cons c a ih => simp [expandTabs, ih]

theorem textOf_expandPieces (place : Place) (line : List Styled) :
    textOf (expandPieces width place line) = expandTabs width place (textOf line) := by
  induction line generalizing place with
  | nil => rfl
  | cons piece line ih => rw [expandPieces, textOf_cons, ih, textOf_cons, expandTabs_append]

theorem textOf_cutAtTabs (line : List Styled) : textOf (cutAtTabs line) = textOf line := by
  induction line with
  | nil => rfl
  | cons piece line ih =>
    have hcut : textOf ((piece.2.splitBy fun c _ => c != '\t').map (piece.1, ·)) = piece.2 := by
      rw [textOf, List.flatMap_map]
      exact List.flatMap_id'.trans (List.flatten_splitBy _ _)
    rw [cutAtTabs, List.flatMap_cons, textOf_append, hcut, textOf_cons]
    exact congrArg _ ih

/-- Without colours, of a line only its text is written. -/
theorem renderLine_false (line : List Styled) :
    renderLine width false line = expandTabs width {} (textOf line) ++ ['\n'] := by
  rw [renderLine, if_neg (by simp), ← textOf_cutAtTabs line, ← textOf_expandPieces]
  rfl

/-- Without colours, pieces of the same text are written alike. -/
theorem render_false_congr {a b : List Styled} (h : textOf a = textOf b) :
    render width false a = render width false b := by
  have hlines : ∀ pieces : List Styled, (linesOf pieces).flatMap (renderLine width false) =
      ((linesOf pieces).map textOf).flatMap fun s => expandTabs width {} s ++ ['\n'] := by
    intro pieces
    rw [List.flatMap_map]
    exact List.flatMap_congr fun line _ => renderLine_false width line
  rw [render, render, hlines, hlines, map_textOf_linesOf, map_textOf_linesOf, h]

end Width

/-! ## 4. Styling sequences -/

/-- Fuel for every character is enough. -/
theorem stripStyles_eq_stripped {fuel : Nat} {s : List Char} (h : s.length ≤ fuel) :
    stripStyles fuel s = stripped s := by
  suffices hany : ∀ (m n : Nat) (s : List Char), s.length ≤ m → s.length ≤ n →
      stripStyles m s = stripStyles n s from hany fuel s.length s h (Nat.le_refl _)
  intro m
  induction m with
  | zero =>
    intro n s hm hn
    rw [List.length_eq_zero_iff.1 (Nat.le_zero.1 hm)]
    cases n <;> rfl
  | succ m ih =>
    intro n s hm hn
    match n, s with
    | n, [] => cases n <;> rfl
    | n + 1, c :: rest =>
      simp only [List.length_cons, Nat.add_le_add_iff_right] at hm hn
      rw [stripStyles, stripStyles, ih n rest hm hn]
      -- What is left behind a sequence is shorter than the text behind its first character.
      have hshort : ((rest.drop 1).dropWhile isStyleParameter).length ≤ rest.length := by
        have hdrop := (List.dropWhile_sublist isStyleParameter (l := rest.drop 1)).length_le
        rw [List.length_drop] at hdrop
        omega
      revert hshort
      cases (rest.drop 1).dropWhile isStyleParameter with
      | nil => intro _; rfl
      | cons d after =>
        intro hshort
        rw [List.length_cons] at hshort
        dsimp only
        rw [ih n after (by omega) (by omega)]

/-- A character that starts no sequence stays. -/
theorem stripped_cons {c : Char} (h : c ≠ escapeChar) (s : List Char) :
    stripped (c :: s) = c :: stripped s := by
  rw [stripped, List.length_cons, stripStyles, if_neg (by simp [h])]
  rfl

/-- A text without escape characters stays. -/
theorem stripped_append {s : List Char} (h : escapeChar ∉ s) (t : List Char) :
    stripped (s ++ t) = s ++ stripped t := by
  induction s with
  | nil => rfl
  | cons c s ih =>
    simp only [List.mem_cons, not_or] at h
    rw [List.cons_append, stripped_cons (Ne.symm h.1), ih h.2, List.cons_append]

/-- A styling sequence goes. -/
theorem stripped_sequence {codes : List Char} (h : codes.all isStyleParameter = true)
    (s : List Char) : stripped (escapeChar :: '[' :: codes ++ 'm' :: s) = stripped s := by
  have hcodes : (codes ++ 'm' :: s).dropWhile isStyleParameter = 'm' :: s := by
    rw [List.dropWhile_append_of_pos (List.all_eq_true.1 h), List.dropWhile_cons_of_neg (by decide)]
  rw [stripped, List.cons_append, List.length_cons, stripStyles, if_pos (by simp),
    List.cons_append, List.drop_one, List.tail_cons, hcodes]
  dsimp only
  rw [if_pos (by decide)]
  exact stripStyles_eq_stripped (by simp; omega)

/-- A piece whose style is made of parameters and whose text has no escape character. -/
structure IsTame (piece : Styled) : Prop where
  codes : piece.1.toList.all isStyleParameter = true
  text : escapeChar ∉ piece.2

/-- A painted piece without its sequences is its text. -/
theorem IsTame.stripped_paint {piece : Styled} (h : IsTame piece) (s : List Char) :
    stripped (paint piece ++ s) = piece.2 ++ stripped s := by
  have hreset : stripped (escapeChar :: '[' :: ['0'] ++ 'm' :: s) = stripped s :=
    stripped_sequence rfl s
  calc stripped (paint piece ++ s)
      = stripped (escapeChar :: '[' :: piece.1.toList ++
          'm' :: (piece.2 ++ (escapeChar :: '[' :: ['0'] ++ 'm' :: s))) := by simp [paint]
    _ = stripped (piece.2 ++ (escapeChar :: '[' :: ['0'] ++ 'm' :: s)) :=
        stripped_sequence h.codes _
    _ = piece.2 ++ stripped s := by rw [stripped_append h.text, hreset]

theorem stripped_flatMap_paint {line : List Styled} (h : ∀ piece ∈ line, IsTame piece)
    (s : List Char) : stripped (line.flatMap paint ++ s) = textOf line ++ stripped s := by
  induction line with
  | nil => rfl
  | cons piece line ih =>
    rw [List.forall_mem_cons] at h
    rw [List.flatMap_cons, List.append_assoc, h.1.stripped_paint, ih h.2, textOf_cons,
      List.append_assoc]

/-! Cutting keeps pieces tame: neither lines nor tabs bring in a new style or a character other than
a blank. -/

theorem forall_mem_pour {P : Styled → Prop} {style : String} {texts : List (List Char)}
    {lines : List (List Styled)} (htexts : ∀ s ∈ texts, P (style, s))
    (hlines : ∀ line ∈ lines, ∀ piece ∈ line, P piece) :
    ∀ line ∈ pour style texts lines, ∀ piece ∈ line, P piece := by
  have hput : ∀ {s : List Char} {line : List Styled}, P (style, s) →
      (∀ piece ∈ line, P piece) → ∀ piece ∈ putPiece style s line, P piece := by
    intro s line hs hline
    rw [putPiece]
    split
    · exact hline
    · exact List.forall_mem_cons.2 ⟨hs, hline⟩
  fun_induction pour style texts lines with
  | case1 lines => exact hlines
  | case2 s line lines =>
    rw [List.forall_mem_cons] at hlines
    exact List.forall_mem_cons.2 ⟨hput (htexts s (by simp)) hlines.1, hlines.2⟩
  | case3 s => exact List.forall_mem_cons.2 ⟨hput (htexts s (by simp)) (by simp), by simp⟩
  | case4 lines s rest _ _ ih =>
    rw [List.forall_mem_cons] at htexts
    exact List.forall_mem_cons.2 ⟨hput htexts.1 (by simp), ih htexts.2 hlines⟩

theorem isTame_of_mem_linesOf {pieces : List Styled} (h : ∀ piece ∈ pieces, IsTame piece) :
    ∀ line ∈ linesOf pieces, ∀ piece ∈ line, IsTame piece := by
  induction pieces with
  | nil => simp [linesOf]
  | cons piece pieces ih =>
    rw [List.forall_mem_cons] at h
    refine forall_mem_pour (fun s hs => ⟨h.1.codes, fun hescape => h.1.text ?_⟩) (ih h.2)
    exact List.mem_of_mem_filter (Path.mem_of_mem_splitOn hs hescape).1

theorem isTame_of_mem_cutAtTabs {line : List Styled} (h : ∀ piece ∈ line, IsTame piece) :
    ∀ piece ∈ cutAtTabs line, IsTame piece := by
  intro cut hcut
  simp only [cutAtTabs, List.mem_flatMap, List.mem_map] at hcut
  obtain ⟨piece, hpiece, s, hs, rfl⟩ := hcut
  refine ⟨(h piece hpiece).codes, fun hescape => (h piece hpiece).text ?_⟩
  rw [← List.flatten_splitBy (fun c _ => c != '\t') piece.2]
  exact List.mem_flatten_of_mem hs hescape

theorem mem_expandTabs {width : List Char → Nat} {place : Place} {s : List Char} {c : Char}
    (h : c ∈ expandTabs width place s) : c = ' ' ∨ c ∈ s := by
  induction s generalizing place with
  | nil => exact absurd h List.not_mem_nil
  | cons d s ih =>
    obtain hshown | hrest := List.mem_append.1 h
    · rw [Place.shown] at hshown
      split at hshown
      · exact .inl (List.eq_of_mem_replicate hshown)
      · exact .inr (List.mem_cons.2 (.inl (List.mem_singleton.1 hshown)))
    · exact (ih hrest).imp_right (List.mem_cons_of_mem d)

theorem isTame_of_mem_expandPieces {width : List Char → Nat} {place : Place} {line : List Styled}
    (h : ∀ piece ∈ line, IsTame piece) :
    ∀ piece ∈ expandPieces width place line, IsTame piece := by
  induction line generalizing place with
  | nil => simp [expandPieces]
  | cons piece line ih =>
    rw [List.forall_mem_cons] at h
    refine List.forall_mem_cons.2 ⟨⟨h.1.codes, fun hescape => ?_⟩, ih h.2⟩
    exact (mem_expandTabs hescape).elim (by decide) h.1.text

/-- Lines with colours, without their sequences, are the lines without colours. -/
theorem stripped_renderLine {width : List Char → Nat} {line : List Styled}
    (h : ∀ piece ∈ line, IsTame piece) (s : List Char) :
    stripped (renderLine width true line ++ s) = renderLine width false line ++ stripped s := by
  have htame : ∀ piece ∈ expandPieces width {} (cutAtTabs line), IsTame piece :=
    isTame_of_mem_expandPieces (isTame_of_mem_cutAtTabs h)
  have hend : stripped ('\n' :: s) = '\n' :: stripped s := stripped_cons (by decide) s
  rw [renderLine, if_pos rfl, List.append_assoc, stripped_flatMap_paint htame,
    List.singleton_append, hend, textOf_expandPieces, textOf_cutAtTabs, renderLine_false,
    List.append_assoc, List.singleton_append]

/-- Tame pieces with colours, without the sequences, are written as without colours. -/
theorem withoutStyles_render {width : List Char → Nat} {pieces : List Styled}
    (h : ∀ piece ∈ pieces, IsTame piece) :
    withoutStyles (render width true pieces) = render width false pieces := by
  have hlines : ∀ lines : List (List Styled), (∀ line ∈ lines, ∀ piece ∈ line, IsTame piece) →
      stripped (lines.flatMap (renderLine width true)) =
        lines.flatMap (renderLine width false) := by
    intro lines
    induction lines with
    | nil => intro _; rfl
    | cons line lines ih =>
      intro htame
      rw [List.forall_mem_cons] at htame
      rw [List.flatMap_cons, stripped_renderLine htame.1, ih htame.2, List.flatMap_cons]
  rw [withoutStyles, render, String.toList_ofList, hlines _ (isTame_of_mem_linesOf h), render]

/-! ## 5. Debug messages -/

theorem isTame_of_mem_debugPieces {message : String} (h : escapeChar ∉ message.toList) :
    ∀ piece ∈ debugPieces message, IsTame piece := by
  have hstyle : ∀ part : Part, (partStyle part).toList.all isStyleParameter = true := by
    intro part
    cases part <;> rfl
  -- The text of a segment is part of the message.
  have htext : ∀ segment ∈ highlight message.toList, escapeChar ∉ segment.2 := by
    intro segment hsegment hescape
    apply h
    rw [← textOf_highlight message.toList]
    exact List.mem_flatMap.2 ⟨segment, hsegment, hescape⟩
  refine List.forall_mem_cons.2 ⟨⟨rfl, by decide⟩, List.forall_mem_map.2 ?_⟩
  exact fun segment hsegment => ⟨hstyle segment.1, htext segment hsegment⟩

/-- The pieces of a debug message are its mark and the message, every character once and in order.
Nothing is written if debug messages are not asked for. If they are, a message without colours is
written as one text without a style; and so is a message with colours, but for styling sequences, if
it holds no escape character of its own. -/
theorem debugging_faithful (width : List Char → Nat) (console : Console) (message : String) :
    textOf (debugPieces message) = ("[debug] " ++ message).toList ∧
    (console.debug = false → console.debuggingBy width message = "") ∧
    (console.debug = true →
      (console.coloursNotes = false →
        console.debuggingBy width message = unstyled width ("[debug] " ++ message)) ∧
      (console.coloursNotes = true → escapeChar ∉ message.toList →
        withoutStyles (console.debuggingBy width message) =
          unstyled width ("[debug] " ++ message))) := by
  have htext : textOf (debugPieces message) = ("[debug] " ++ message).toList :=
    textOf_debugPieces message
  have hplain : render width false (debugPieces message) =
      unstyled width ("[debug] " ++ message) := by
    refine render_false_congr width ?_
    rw [htext, textOf_cons, textOf_nil, List.append_nil]
  refine ⟨htext, fun hdebug => ?_, fun hdebug => ⟨fun hcolour => ?_, fun hcolour hescape => ?_⟩⟩
  · rw [debuggingBy, hdebug, if_neg (by simp)]
  · rw [debuggingBy, if_pos hdebug, hcolour, hplain]
  · rw [debuggingBy, if_pos hdebug, hcolour, ← hplain]
    exact withoutStyles_render (isTame_of_mem_debugPieces hescape)

/-- A message with a quoted value, a sign inside a value, a tab, a second line, and a quote that is
not closed. -/
def crookedNote : String := "say=\"a b\" sum=x=y\tand\nopen=\"z"

theorem faithful_crookedNote :
    (ofSwitches true true false true).coloursNotes = true ∧ escapeChar ∉ crookedNote.toList ∧
      withoutStyles ((ofSwitches true true false true).debugging crookedNote) =
        unstyled columns ("[debug] " ++ crookedNote) ∧
      (ofSwitches true true false false).debugging crookedNote =
        unstyled columns ("[debug] " ++ crookedNote) ∧
      (ofSwitches true false false true).debugging crookedNote = "" := by
  have hescape : escapeChar ∉ crookedNote.toList := by decide
  have hfaithful := fun console => debugging_faithful columns console crookedNote
  obtain ⟨-, -, hcoloured⟩ := hfaithful (ofSwitches true true false true)
  obtain ⟨-, -, hplain⟩ := hfaithful (ofSwitches true true false false)
  obtain ⟨-, hsilent, -⟩ := hfaithful (ofSwitches true false false true)
  exact ⟨rfl, hescape, (hcoloured rfl).2 rfl hescape, (hplain rfl).1 rfl, hsilent rfl⟩

end LintFront.Console
