import MonkeySyntax.Text

namespace MonkeySyntax.Text

/-! The line that holds an offset: where it lies in the text, and where the offset lies in it. -/

/-- What a text falls into: every line ends with its only newline, except for a last line that
has none. -/
inductive IsLines : List (List Char) → Prop
  | nil : IsLines []
  | last {line : List Char} (hne : line ≠ []) (hline : '\n' ∉ line) : IsLines [line]
  | cons {words : List Char} {rest : List (List Char)} (hwords : '\n' ∉ words)
      (hrest : IsLines rest) : IsLines ((words ++ ['\n']) :: rest)

theorem IsLines.prependToLines {ls : List (List Char)} (h : IsLines ls) (c : Char) :
    IsLines (prependToLines c ls) := by
  unfold Text.prependToLines
  split
  case isTrue => exact .cons List.not_mem_nil h
  case isFalse hnewline =>
      have hcons {line : List Char} (hline : '\n' ∉ line) : '\n' ∉ c :: line :=
        List.not_mem_cons_of_ne_of_not_mem (Ne.symm hnewline) hline
      cases h with
      | nil => exact .last (List.cons_ne_nil c []) (hcons List.not_mem_nil)
      | last _ hline => exact .last (List.cons_ne_nil c _) (hcons hline)
      | cons hwords hrest => exact .cons (hcons hwords) hrest

theorem isLines_lines (text : List Char) : IsLines (lines text) := by
  induction text with
  | nil => exact .nil
  | cons c text ih => exact ih.prependToLines c

/-- The spot lies so many bytes behind the start of the text.  Its line stands between two parts
of the text, and lines are counted from the first number on. -/
structure LineSpot.Locates (first : Nat) (text : List Char) (offset : Nat) (spot : LineSpot)
    (before after : List Char) : Prop where
  split : text = before ++ (spot.text.toList ++ after)
  starts : before = [] ∨ before.getLast? = some '\n'
  inside : '\n' ∉ spot.text.toList.dropLast
  stops : after = [] ∨ spot.text.toList.getLast? = some '\n'
  number : spot.number = first + before.count '\n'
  place : byteSize before + spot.column = offset
  within : spot.column < byteSize spot.text.toList ∨
    after = [] ∧ spot.column = byteSize spot.text.toList
  empty : spot.text = "" → text = []

section Locates

variable {first offset : Nat} {text before after line words : List Char} {spot : LineSpot}
  {ls : List (List Char)}

/-- The offset lies in the first line, or at the end of the only one. -/
theorem LineSpot.Locates.here (hline : line ≠ []) (hinside : '\n' ∉ line.dropLast)
    (hstops : after = [] ∨ line.getLast? = some '\n')
    (hwithin : offset < byteSize line ∨ after = [] ∧ offset = byteSize line) :
    Locates first (line ++ after) offset ⟨first, .ofList line, offset⟩ [] after where
  split := by simp
  starts := .inl rfl
  inside := by simpa using hinside
  stops := by simpa using hstops
  number := rfl
  place := Nat.zero_add offset
  within := by simpa using hwithin
  empty hnil := absurd (String.ofList_eq_empty_iff.mp hnil) hline

theorem LineSpot.Locates.alone (hline : line ≠ []) (hinside : '\n' ∉ line.dropLast)
    (hoffset : offset ≤ byteSize line) :
    Locates first line offset ⟨first, .ofList line, offset⟩ [] [] := by
  have hwithin : offset < byteSize line ∨ ([] : List Char) = [] ∧ offset = byteSize line :=
    (Nat.lt_or_eq_of_le hoffset).imp_right (And.intro rfl)
  simpa only [List.append_nil] using @here first _ _ _ hline hinside (.inl rfl) hwithin

/-- The offset lies behind the first line. -/
theorem LineSpot.Locates.later (h : spot.Locates (first + 1) text offset before after)
    (hwords : '\n' ∉ words) (htext : text ≠ []) :
    spot.Locates first (words ++ ['\n'] ++ text) (byteSize (words ++ ['\n']) + offset)
      (words ++ ['\n'] ++ before) after where
  split := by rw [h.split, List.append_assoc (words ++ ['\n'])]
  starts := by
    rcases h.starts with rfl | hlast
    · exact .inr (by simp)
    · exact .inr (by rw [List.getLast?_append, hlast]; rfl)
  inside := h.inside
  stops := h.stops
  number := by
    rw [h.number, List.count_append, List.count_append, List.count_eq_zero_of_not_mem hwords,
      List.count_singleton_self, Nat.zero_add, Nat.add_assoc]
  place := by rw [byteSize_append, Nat.add_assoc, h.place]
  within := h.within
  empty hnil := absurd (h.empty hnil) htext

theorem locates_empty (first : Nat) : LineSpot.Locates first [] 0 ⟨first, "", 0⟩ [] [] where
  split := rfl
  starts := .inl rfl
  inside := List.not_mem_nil
  stops := .inl rfl
  number := rfl
  place := rfl
  within := .inr ⟨rfl, rfl⟩
  empty _ := rfl

theorem IsLines.ne_nil_of_mem (h : IsLines ls) (hmem : line ∈ ls) : line ≠ [] := by
  induction h with
  | nil => cases hmem
  | last hne => rwa [List.mem_singleton.mp hmem]
  | @cons words rest _ _ ih =>
      rcases List.mem_cons.mp hmem with rfl | hmem
      · exact List.append_ne_nil_of_right_ne_nil words (List.cons_ne_nil _ [])
      · exact ih hmem

/-- Every offset up to the end of a text lies in a line of it. -/
theorem IsLines.exists_locates (h : IsLines ls) (hoffset : offset ≤ byteSize ls.flatten) :
    ∃ spot before after, findLine first offset ls = some spot ∧
      spot.Locates first ls.flatten offset before after := by
  induction h generalizing first offset with
  | nil =>
      obtain rfl := Nat.le_zero.mp hoffset
      exact ⟨_, [], [], rfl, locates_empty first⟩
  | @last line hne hline =>
      rw [List.flatten_singleton] at hoffset ⊢
      have hinside : '\n' ∉ line.dropLast := fun hmem => hline (List.dropLast_subset line hmem)
      exact ⟨_, [], [], if_pos hoffset, .alone hne hinside hoffset⟩
  | @cons words rest hwords hrest ih =>
      have hne : words ++ ['\n'] ≠ [] :=
        List.append_ne_nil_of_right_ne_nil words (List.cons_ne_nil _ [])
      have hinside : '\n' ∉ (words ++ ['\n']).dropLast := by rwa [List.dropLast_concat]
      have hstops : (words ++ ['\n']).getLast? = some '\n' := List.getLast?_concat
      rw [List.flatten_cons] at hoffset ⊢
      cases rest with
      | nil =>
          rw [List.flatten_nil, List.append_nil] at hoffset ⊢
          exact ⟨_, [], [], if_pos hoffset, .alone hne hinside hoffset⟩
      | cons next rest =>
          rcases Nat.lt_or_ge offset (byteSize (words ++ ['\n'])) with hless | hle
          · exact ⟨_, [], _, if_pos hless, .here hne hinside (.inr hstops) (.inl hless)⟩
          · obtain ⟨more, rfl⟩ := Nat.exists_eq_add_of_le hle
            rw [byteSize_append (words ++ ['\n'])] at hoffset
            obtain ⟨spot, before, after, hfind, hlocates⟩ :=
              @ih (first + 1) more (Nat.le_of_add_le_add_left hoffset)
            have hnext := hrest.ne_nil_of_mem List.mem_cons_self
            refine ⟨spot, _, after, ?_, hlocates.later hwords (by simp [hnext])⟩
            rw [findLine, if_neg (Nat.not_lt.mpr hle), Nat.add_sub_cancel_left, hfind]

theorem exists_append_of_byteSize_le {front more back rest : List Char}
    (h : front ++ more = back ++ rest) (hsize : byteSize front ≤ byteSize back) :
    ∃ between, back = front ++ between ∧ more = between ++ rest := by
  rcases List.append_eq_append_iff.mp h with hback | ⟨between, rfl, rfl⟩
  · exact hback
  · rw [byteSize_append] at hsize
    obtain rfl : between = [] := byteSize_eq_zero_iff.mp (by omega)
    exact ⟨[], by simp, rfl⟩

/-- What has no newline and starts at the offset stands in its line as a whole. -/
theorem LineSpot.Locates.exists_append (h : spot.Locates first text offset before after)
    {front word rest : List Char} (htext : text = front ++ (word ++ rest))
    (hfront : byteSize front = offset) (hword : '\n' ∉ word) :
    ∃ left right, byteSize left = spot.column ∧ spot.text.toList = left ++ (word ++ right) ∧
      front = before ++ left ∧ rest = right ++ after := by
  have hsplit := h.split
  have hplace := h.place
  rw [htext] at hsplit
  obtain ⟨left, rfl, hline⟩ := exists_append_of_byteSize_le hsplit.symm (by omega)
  rw [byteSize_append] at hfront
  have hleft : byteSize left = spot.column := by omega
  rw [← List.append_assoc] at hline
  suffices hright : ∃ right, spot.text.toList = left ++ word ++ right ∧ rest = right ++ after by
    obtain ⟨right, hright, hrest⟩ := hright
    exact ⟨left, right, hleft, by rw [hright, List.append_assoc], rfl, hrest⟩
  rcases List.append_eq_append_iff.mp hline with ⟨beyond, hbeyond, rfl⟩ | hright
  case inr => exact hright
  -- Otherwise the word goes on over the end of the line.  That is the end of the text, or the
  -- newline there would be in the word.
  by_cases hnil : beyond ++ rest = []
  · obtain ⟨rfl, rfl⟩ := List.append_eq_nil_iff.mp hnil
    exact ⟨[], by rw [hbeyond, List.append_nil, List.append_nil], rfl⟩
  · obtain ⟨init, hinit⟩ := List.getLast?_eq_some_iff.mp (h.stops.resolve_left hnil)
    have hless := h.within.resolve_right fun hend => hnil hend.1
    have hnewline : byteSize ['\n'] = 1 := rfl
    rw [hinit, byteSize_append, hnewline] at hless
    rw [hinit, List.append_assoc] at hbeyond
    obtain ⟨between, -, rfl⟩ := exists_append_of_byteSize_le hbeyond (by omega)
    exact absurd (by simp) hword

end Locates

theorem exists_lineAt? {source : String} {offset : Nat}
    (hoffset : offset ≤ byteSize source.toList) :
    ∃ spot before after, lineAt? source offset = some spot ∧
      spot.Locates 1 source.toList offset before after := by
  have hlines := @IsLines.exists_locates 1 offset _ (isLines_lines source.toList)
  rw [flatten_lines] at hlines
  exact hlines hoffset

end MonkeySyntax.Text
