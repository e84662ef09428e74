import MonkeySyntax.Proofs.Text.Line
import Mathlib.Data.Nat.PSub

namespace MonkeySyntax.Text

/-! The line that is found for an offset is the only one that holds it.  A walk over the lines of
the text finds the same one, and the offset lies before none of the lines that it comes to. -/

section Unique

variable {first offset : Nat} {text before before' after after' : List Char}
  {spot spot' : LineSpot}

/-- A line has no newline but the one at its end. -/
theorem not_mem_of_eq_append {line front back : List Char} (hline : line = front ++ back)
    (hinside : '\n' ∉ line.dropLast) (hback : back ≠ []) : '\n' ∉ front := by
  rw [hline, List.dropLast_append_of_ne_nil hback] at hinside
  exact fun hmem => hinside (List.mem_append_left _ hmem)

theorem LineSpot.Locates.offset_le (h : spot.Locates first text offset before after) :
    offset ≤ byteSize text := by
  have hplace := h.place
  have hwithin := h.within
  rw [h.split, byteSize_append, byteSize_append]
  omega

/-- The offset lies in the line, or is the end of the text. -/
theorem LineSpot.Locates.inside_or_end (h : spot.Locates first text offset before after) :
    offset ≠ byteSize text ∧ spot.column < byteSize spot.text.toList ∨
      offset = byteSize text ∧ after = [] := by
  have hplace := h.place
  have hsize := congrArg byteSize h.split
  rw [byteSize_append, byteSize_append] at hsize
  rcases h.within with hless | ⟨rfl, hend⟩
  · exact .inl ⟨by omega, hless⟩
  · rw [byteSize_nil] at hsize
    exact .inr ⟨by omega, rfl⟩

theorem LineSpot.Locates.ne_nil (h : spot.Locates first text offset before after)
    (htext : text ≠ []) : spot.text.toList ++ after ≠ [] := by
  intro hnil
  exact htext (h.empty (String.toList_eq_nil_iff.mp (List.append_eq_nil_iff.mp hnil).1))

/-- A line that holds the offset starts no later than another one that does. -/
theorem LineSpot.Locates.before_eq (h : spot.Locates first text offset before after)
    (h' : spot'.Locates first text offset before' after')
    (hsize : byteSize before ≤ byteSize before') : before' = before := by
  obtain ⟨between, rfl, hline⟩ :=
    exists_append_of_byteSize_le (h.split.symm.trans h'.split) hsize
  by_contra hne
  have hbetween : between ≠ [] := by rintro rfl; exact hne (List.append_nil before)
  have hnewline : '\n' ∈ between := by
    rcases h'.starts with hnil | hlast
    · exact absurd (List.append_eq_nil_iff.mp hnil).2 hbetween
    · rw [List.getLast?_append, List.getLast?_eq_some_getLast hbetween, Option.some_or,
        Option.some_inj] at hlast
      exact hlast ▸ List.getLast_mem hbetween
  have hrest : spot'.text.toList ++ after' ≠ [] := by
    apply h'.ne_nil
    rw [h'.split]
    simp [hbetween]
  -- The newline before the second line lies in the first one, which goes on behind it.
  suffices hlonger : ∃ back, spot.text.toList = between ++ back ∧ back ≠ [] by
    obtain ⟨back, hback, hne⟩ := hlonger
    exact not_mem_of_eq_append hback h.inside hne hnewline
  rcases h.within with hless | ⟨rfl, -⟩
  · have hplace := h.place
    have hplace' := h'.place
    rw [byteSize_append] at hplace'
    obtain ⟨back, hback, -⟩ := exists_append_of_byteSize_le hline.symm (by omega)
    refine ⟨back, hback, ?_⟩
    rintro rfl
    rw [hback, List.append_nil] at hless
    omega
  · rw [List.append_nil] at hline
    exact ⟨_, hline, hrest⟩

/-- Of two lines that start at the same place, neither is longer. -/
theorem LineSpot.Locates.text_eq (h : spot.Locates first text offset before after)
    (h' : spot'.Locates first text offset before after')
    (hsize : byteSize spot.text.toList ≤ byteSize spot'.text.toList) :
    spot'.text = spot.text := by
  have hline := List.append_cancel_left (h.split.symm.trans h'.split)
  obtain ⟨more, hmore, rfl⟩ := exists_append_of_byteSize_le hline hsize
  by_cases hnil : more = []
  · rw [hnil, List.append_nil] at hmore
    exact String.toList_injective hmore
  · have hlast := h.stops.resolve_left (by simp [hnil])
    exact absurd (List.mem_of_getLast? hlast) (not_mem_of_eq_append hmore h'.inside hnil)

theorem LineSpot.Locates.unique (h : spot.Locates first text offset before after)
    (h' : spot'.Locates first text offset before' after') : spot = spot' := by
  obtain rfl : before = before' := by
    rcases Nat.le_total (byteSize before) (byteSize before') with hle | hle
    · exact (h.before_eq h' hle).symm
    · exact h'.before_eq h hle
  have htext : spot.text = spot'.text := by
    rcases Nat.le_total (byteSize spot.text.toList) (byteSize spot'.text.toList) with hle | hle
    · exact (h.text_eq h' hle).symm
    · exact h'.text_eq h hle
  have hnumber := h.number.trans h'.number.symm
  have hplace := h.place.trans h'.place.symm
  have hcolumn : spot.column = spot'.column := by omega
  cases spot
  cases spot'
  cases hnumber
  cases htext
  cases hcolumn
  rfl

end Unique

/-- Where a walk over the lines of a text has come to: the offset of the next line, its number,
and the spot of the offset in the line before it. -/
structure LineWalk where
  start : Nat
  number : Nat
  last? : Option LineSpot
deriving DecidableEq, Repr

namespace LineWalk

def begin : LineWalk := ⟨0, 1, none⟩

/-- Ends at the next line if it holds the offset, or goes on behind it.  There is no spot in a
line that the offset lies before. -/
def step (offset : Nat) (walk : LineWalk) (line : List Char) : Option (LineSpot ⊕ LineWalk) := do
  let stop := walk.start + byteSize line
  let column ← offset.psub walk.start
  let spot : LineSpot := ⟨walk.number, .ofList line, column⟩
  if walk.start ≤ offset ∧ offset < stop then
    return .inl spot
  else
    return .inr ⟨stop, walk.number + 1, some spot⟩

/-- The end of the text belongs to the line that has been passed last. -/
def find (offset : Nat) : LineWalk → List (List Char) → Option LineSpot
  | walk, [] => some (walk.last?.getD ⟨1, "", 0⟩)
  | walk, line :: rest =>
    match walk.step offset line with
    | some (.inl spot) => some spot
    | some (.inr walk) => find offset walk rest
    | none => none

variable {offset : Nat} {walk : LineWalk}

theorem step_of_lt (h : walk.start ≤ offset) {line : List Char}
    (hless : offset < walk.start + byteSize line) :
    walk.step offset line = some (.inl ⟨walk.number, .ofList line, offset - walk.start⟩) := by
  have hinside : walk.start ≤ offset ∧ offset < walk.start + byteSize line := ⟨h, hless⟩
  simp only [step, Nat.psub_eq_sub h, Option.bind_eq_bind, Option.bind_some, if_pos hinside]
  rfl

theorem step_of_le {line : List Char} (h : walk.start + byteSize line ≤ offset) :
    walk.step offset line = some (.inr ⟨walk.start + byteSize line, walk.number + 1,
      some ⟨walk.number, .ofList line, offset - walk.start⟩⟩) := by
  have hstart := Nat.le_of_add_right_le h
  have hnot : ¬ (walk.start ≤ offset ∧ offset < walk.start + byteSize line) := by omega
  simp only [step, Nat.psub_eq_sub hstart, Option.bind_eq_bind, Option.bind_some, if_neg hnot]
  rfl

/-- The walk ends at the line that holds the offset, which lies behind all lines before it. -/
theorem find_eq_findLine (hstart : walk.start ≤ offset) {ls : List (List Char)} (hne : ls ≠ [])
    (hoffset : offset ≤ walk.start + byteSize ls.flatten) :
    walk.find offset ls = findLine walk.number (offset - walk.start) ls := by
  induction ls generalizing walk with
  | nil => exact absurd rfl hne
  | cons line rest ih =>
      rw [List.flatten_cons, byteSize_append] at hoffset
      rcases Nat.lt_or_ge offset (walk.start + byteSize line) with hless | hle
      · rw [find, step_of_lt hstart hless]
        cases rest with
        | nil => rw [findLine, if_pos (by omega)]
        | cons next rest => rw [findLine, if_pos (by omega)]
      · rw [find, step_of_le hle]
        cases rest with
        | nil =>
            rw [List.flatten_nil, byteSize_nil] at hoffset
            rw [findLine, if_pos (by omega)]
            rfl
        | cons next rest =>
            rw [findLine, if_neg (by omega), Nat.sub_sub]
            exact ih hle (List.cons_ne_nil next rest) (by dsimp only; omega)

theorem find_begin {ls : List (List Char)} (hoffset : offset ≤ byteSize ls.flatten) :
    begin.find offset ls = findLine 1 offset ls := by
  cases ls with
  | nil =>
      obtain rfl := Nat.le_zero.mp hoffset
      rfl
  | cons line rest =>
      exact @find_eq_findLine offset begin (Nat.zero_le offset) _ (List.cons_ne_nil line rest)
        (by rwa [begin, Nat.zero_add])

end LineWalk

/-- The line that a walk finds for the offset.  Nothing comes of a walk that tries to subtract more
than there is. -/
def walkTo? (text : String) (offset : Nat) : Option (Option LineSpot) :=
  if byteSize text.toList < offset then some none
  else (LineWalk.begin.find offset (lines text.toList)).map some

/-- The end of a text belongs to its last line. -/
theorem IsLines.findLine_byteSize {ls : List (List Char)} (h : IsLines ls) (number : Nat) :
    ∃ spot, findLine number (byteSize ls.flatten) ls = some spot ∧
      spot.text.toList = ls.getLastD [] := by
  induction h generalizing number with
  | nil => exact ⟨_, rfl, rfl⟩
  | @last line hne hline => exact ⟨_, if_pos (by simp), by simp⟩
  | @cons words rest hwords hrest ih =>
      cases rest with
      | nil => exact ⟨_, if_pos (by simp), by simp⟩
      | cons next rest =>
          obtain ⟨spot, hfind, htext⟩ := ih (number + 1)
          refine ⟨spot, ?_, by simpa using htext⟩
          rw [List.flatten_cons, byteSize_append, findLine, if_neg (by omega),
            Nat.add_sub_cancel_left, hfind]

theorem findLine_eq_none {number offset : Nat} {ls : List (List Char)}
    (h : byteSize ls.flatten < offset) : findLine number offset ls = none := by
  induction ls generalizing number offset with
  | nil => exact if_neg (Nat.ne_of_gt h)
  | cons line rest ih =>
      rw [List.flatten_cons, byteSize_append] at h
      cases rest with
      | nil => rw [findLine, if_neg (by omega)]
      | cons next rest => rw [findLine, if_neg (by omega), ih (by omega)]

section Found

variable {source : String} {offset : Nat}

theorem lineAt?_eq_none_iff : lineAt? source offset = none ↔ byteSize source.toList < offset := by
  constructor
  · intro hnone
    by_contra hle
    obtain ⟨spot, -, -, hsome, -⟩ := exists_lineAt? (Nat.le_of_not_lt hle)
    rw [hnone] at hsome
    cases hsome
  · intro hless
    rw [← flatten_lines source.toList] at hless
    exact findLine_eq_none hless

theorem lineAt?_eq_some_iff {spot : LineSpot} :
    lineAt? source offset = some spot ↔
      ∃ before after, spot.Locates 1 source.toList offset before after := by
  constructor
  · intro hsome
    have hle : offset ≤ byteSize source.toList := by
      by_contra hless
      rw [lineAt?_eq_none_iff.mpr (Nat.lt_of_not_le hless)] at hsome
      cases hsome
    obtain ⟨found, before, after, hfound, hlocates⟩ := exists_lineAt? hle
    obtain rfl := Option.some.inj (hfound.symm.trans hsome)
    exact ⟨before, after, hlocates⟩
  · rintro ⟨before, after, hlocates⟩
    obtain ⟨found, _, _, hfound, hlocates'⟩ := exists_lineAt? hlocates.offset_le
    rw [hfound, hlocates.unique hlocates']

theorem text_of_lineAt?_byteSize {spot : LineSpot}
    (h : lineAt? source (byteSize source.toList) = some spot) :
    spot.text.toList = (lines source.toList).getLastD [] := by
  obtain ⟨last, hlast, htext⟩ := (isLines_lines source.toList).findLine_byteSize 1
  rw [flatten_lines] at hlast
  obtain rfl := Option.some.inj (hlast.symm.trans h)
  exact htext

theorem walkTo?_eq (source : String) (offset : Nat) :
    walkTo? source offset = some (lineAt? source offset) := by
  rw [walkTo?]
  split
  case isTrue hless => rw [lineAt?_eq_none_iff.mpr hless]
  case isFalse hnot =>
      obtain ⟨spot, -, -, hspot, -⟩ := exists_lineAt? (Nat.le_of_not_lt hnot)
      rw [← flatten_lines source.toList] at hnot
      rw [LineWalk.find_begin (Nat.le_of_not_lt hnot), ← lineAt?, hspot, Option.map_some]

/-- There is a line for every offset up to the end of the text, and it is the only one that holds
the offset.  At the end of the text it is the last line. -/
theorem lineAt?_iff_locates (source : String) (offset : Nat) :
    (lineAt? source offset = none ↔ byteSize source.toList < offset) ∧
      (∀ spot, lineAt? source offset = some spot ↔
        ∃ before after, spot.Locates 1 source.toList offset before after ∧
          (offset ≠ byteSize source.toList ∧ spot.column < byteSize spot.text.toList ∨
            offset = byteSize source.toList ∧ after = [] ∧
              spot.text.toList = (lines source.toList).getLastD [])) ∧
      walkTo? source offset = some (lineAt? source offset) := by
  refine ⟨lineAt?_eq_none_iff, fun spot => ⟨fun hsome => ?_, ?_⟩, walkTo?_eq source offset⟩
  · obtain ⟨before, after, hlocates⟩ := lineAt?_eq_some_iff.mp hsome
    refine ⟨before, after, hlocates, hlocates.inside_or_end.imp_right ?_⟩
    rintro ⟨rfl, rfl⟩
    exact ⟨rfl, rfl, text_of_lineAt?_byteSize hsome⟩
  · rintro ⟨before, after, hlocates, -⟩
    exact lineAt?_eq_some_iff.mpr ⟨before, after, hlocates⟩

/-- A newline at the very end starts no further line. -/
example : lineAt? "a\n" 2 = some ⟨1, "a\n", 2⟩ := by decide +kernel

end Found

end MonkeySyntax.Text
