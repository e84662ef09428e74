import MonkeySyntax.Diagnostic
import MonkeySyntax.Proofs.Scanner.Lexeme
import MonkeySyntax.Proofs.Text.Line
import MonkeySyntax.Proofs.Text.Trim

namespace MonkeySyntax

/-! The two lines that a report ends in.  They can be told from the report, and where the caret
stands in the second is the same in bytes and in characters. -/

namespace Text

theorem isDigit_of_mem_toString {number : Nat} {c : Char} (hmem : c ∈ (toString number).toList) :
    c.isDigit = true := by
  rw [Nat.toString_eq_repr, Nat.toList_repr] at hmem
  exact Nat.isDigit_of_mem_toDigits (by decide) (by decide) hmem

theorem toList_toString_inj {number number' : Nat}
    (h : (toString number).toList = (toString number').toList) : number = number' := by
  simp only [Nat.toString_eq_repr, Nat.toList_repr] at h
  have hvalue := congrArg (Nat.ofDigitChars 10 · 0) h
  simpa only [Nat.ofDigitChars_toDigits (by decide : 1 < 10) (Nat.le_refl 10)] using hvalue

/-- A text falls into two parts at the last of its characters that is this one. -/
theorem eq_of_append_cons {c : Char} {front front' back back' : List Char}
    (h : front ++ c :: back = front' ++ c :: back') (hback : c ∉ back) (hback' : c ∉ back') :
    front = front' ∧ back = back' := by
  rcases List.append_eq_append_iff.mp h with ⟨between, hfront, hrest⟩ | ⟨between, hfront, hrest⟩
  all_goals
    cases between with
    | nil => simp_all
    | cons => simp_all

end Text

namespace Diagnostic

/-- The last two lines of a report: a numbered line as it is shown, and what stands before the
caret below it. -/
structure Picture where
  number : Nat
  shown : List Char
  under : List Char

namespace Picture

def label (picture : Picture) : List Char :=
  (toString picture.number).toList ++ [' ', '|', ' ']

def line (picture : Picture) : List Char :=
  picture.label ++ picture.shown

/-- What is shown of the characters that a line starts with. -/
def shownBefore (picture : Picture) (left : List Char) : List Char :=
  picture.label ++ left.drop (Text.indent left)

/-- The report ends in the two lines.  Neither of them goes on over a newline, and there is one
caret in the second. -/
structure Ends (report : String) (picture : Picture) : Prop where
  ends : ∃ above,
    report.toList = above ++ '\n' :: picture.line ++ '\n' :: picture.under ++ ['^', '\n']
  line : '\n' ∉ picture.line
  under : '\n' ∉ picture.under
  caret : '^' ∉ picture.under

/-- What is shown is a line of the text, without its indentation and the blanks at its end.  The
caret lies as far behind the start of it as the offset does. -/
structure Points (source : List Char) (offset : Nat) (picture : Picture)
    (before line after : List Char) (distance : Nat) : Prop where
  split : source = before ++ (line ++ after)
  starts : before = [] ∨ before.getLast? = some '\n'
  inside : '\n' ∉ line.dropLast
  stops : after = [] ∨ line.getLast? = some '\n'
  number : picture.number = 1 + before.count '\n'
  shown : picture.shown = Text.trimRight (line.drop (Text.indent line))
  under : Text.byteSize picture.under = Text.byteSize picture.label + distance
  offset : Text.byteSize before + Text.indent line + distance = offset

theorem takeWhile_line (picture : Picture) :
    picture.line.takeWhile Char.isDigit = (toString picture.number).toList := by
  rw [line, label, List.append_assoc,
    List.takeWhile_append_of_pos fun _ => Text.isDigit_of_mem_toString]
  exact List.append_nil _

/-- A report ends in one picture. -/
theorem Ends.unique {report : String} {picture picture' : Picture} (h : Ends report picture)
    (h' : Ends report picture') : picture = picture' := by
  obtain ⟨above, habove⟩ := h.ends
  obtain ⟨above', habove'⟩ := h'.ends
  -- Each of the two lines starts behind the last newline before its end.
  have hlines := List.append_cancel_right (habove.symm.trans habove')
  obtain ⟨habove, hunder⟩ := Text.eq_of_append_cons hlines h.under h'.under
  obtain ⟨-, hline⟩ := Text.eq_of_append_cons habove h.line h'.line
  have hnumber : picture.number = picture'.number := by
    have hdigits := congrArg (List.takeWhile Char.isDigit) hline
    rw [takeWhile_line, takeWhile_line] at hdigits
    exact Text.toList_toString_inj hdigits
  obtain ⟨number, shown, under⟩ := picture
  obtain ⟨number', shown', under'⟩ := picture'
  subst hnumber hunder
  rw [List.append_cancel_left (show _ ++ shown = _ ++ shown' from hline)]

/-! The picture of a place in a line. -/

def ofSpot (spot : Text.LineSpot) : Picture where
  number := spot.number
  shown := Text.trimRight (spot.text.toList.drop (Text.indent spot.text.toList))
  under := (margin (toString spot.number).length).toList ++
    ' ' :: List.replicate (spot.column - Text.indent spot.text.toList) '-'

theorem plain_of_mem_label {picture : Picture} {c : Char} (hmem : c ∈ picture.label) :
    c.utf8Size = 1 ∧ c ≠ '\n' := by
  rw [label, List.mem_append] at hmem
  rcases hmem with hmem | hmem
  · have hdigit := Text.isDigit_of_mem_toString hmem
    constructor
    · have hrange := Scanner.toNat_of_isDigit hdigit
      exact Char.utf8Size_eq_one_iff.mpr (UInt32.le_iff_toNat_le.mpr (hrange.2.trans (by decide)))
    · rintro rfl
      exact absurd hdigit (by decide)
  · simp only [List.mem_cons, List.not_mem_nil, or_false] at hmem
    rcases hmem with rfl | rfl | rfl <;> exact ⟨rfl, by decide⟩

section Spot

variable {spot : Text.LineSpot}

theorem ends_ofSpot (headline : String) (hline : '\n' ∉ spot.text.toList.dropLast) :
    Ends (headline ++ snippet spot) (ofSpot spot) where
  ends := by
    refine ⟨headline.toList ++ (margin (toString spot.number).length).toList, ?_⟩
    simp [snippet, ofSpot, line, label, Text.indent]
  line := by
    rw [← List.take_append_drop (Text.indent spot.text.toList) spot.text.toList] at hline
    rw [line, List.mem_append, not_or]
    exact ⟨fun hmem => (plain_of_mem_label hmem).2 rfl,
      Text.not_mem_trimRight Text.isBlank_newline hline⟩
  under := by simp [ofSpot, margin]
  caret := by simp [ofSpot, margin]

theorem byteSize_label (picture : Picture) :
    Text.byteSize picture.label = picture.label.length :=
  Text.byteSize_eq_length_iff.mpr fun _ hmem => (plain_of_mem_label hmem).1

theorem byteSize_under_ofSpot : Text.byteSize (ofSpot spot).under = (ofSpot spot).under.length := by
  refine Text.byteSize_eq_length_iff.mpr fun c hmem => ?_
  simp only [ofSpot, margin, String.toList_ofList, List.mem_append, List.mem_cons,
    List.mem_replicate, List.not_mem_nil, or_false] at hmem
  rcases hmem with (⟨-, rfl⟩ | rfl) | rfl | ⟨-, rfl⟩ <;> rfl

/-- The caret comes as far behind the label as its column lies behind the indentation. -/
theorem length_under_ofSpot : (ofSpot spot).under.length =
    (ofSpot spot).label.length + (spot.column - Text.indent spot.text.toList) := by
  simp only [ofSpot, label, margin, String.toList_ofList, List.length_append, List.length_cons,
    List.length_replicate, List.length_nil, String.length_toList]
  omega

variable {source before after : List Char} {offset : Nat}

theorem points_ofSpot (h : spot.Locates 1 source offset before after)
    (hindent : Text.indent spot.text.toList ≤ spot.column) :
    (ofSpot spot).Points source offset before spot.text.toList after
      (spot.column - Text.indent spot.text.toList) where
  split := h.split
  starts := h.starts
  inside := h.inside
  stops := h.stops
  number := h.number
  shown := rfl
  under := by rw [byteSize_under_ofSpot, byteSize_label, length_under_ofSpot]
  offset := by
    have hplace := h.place
    omega

end Spot

end Picture

end Diagnostic

end MonkeySyntax
