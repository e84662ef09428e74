import MonkeySyntax.Text
import Mathlib.Data.List.DropRight

namespace MonkeySyntax.Text

/-! Texts of single bytes, the indentation of lines, and the blanks at their end. -/

/-- How many spaces a line starts with. -/
def indent (line : List Char) : Nat :=
  (line.takeWhile (· == ' ')).length

theorem length_le_byteSize (text : List Char) : text.length ≤ byteSize text := by
  induction text with
  | nil => exact Nat.le_refl 0
  | cons c text ih =>
      have hpos := c.utf8Size_pos
      rw [List.length_cons, byteSize_cons]
      omega

theorem byteSize_eq_length_iff {text : List Char} :
    byteSize text = text.length ↔ ∀ c ∈ text, c.utf8Size = 1 := by
  induction text with
  | nil => simp
  | cons c text ih =>
      have hpos := c.utf8Size_pos
      have hle := length_le_byteSize text
      rw [List.forall_mem_cons, ← ih, List.length_cons, byteSize_cons]
      omega

theorem indent_le_length (line : List Char) : indent line ≤ line.length :=
  (List.takeWhile_sublist _).length_le

theorem take_indent (line : List Char) :
    line.take (indent line) = List.replicate (indent line) ' ' := by
  have htake := List.prefix_iff_eq_take.mp (List.takeWhile_prefix (· == ' ') (l := line))
  rw [indent, ← htake, List.eq_replicate_iff]
  refine ⟨rfl, fun c hmem => ?_⟩
  exact beq_iff_eq.mp (List.all_eq_true.mp List.all_takeWhile c hmem)

theorem byteSize_replicate_space (count : Nat) : byteSize (List.replicate count ' ') = count := by
  have hspaces : ∀ c ∈ List.replicate count ' ', c.utf8Size = 1 := by simp; intro; rfl
  rw [byteSize_eq_length_iff.mpr hspaces, List.length_replicate]

/-- The indentation is where a line starts with something else. -/
theorem indent_append {left right : List Char} (hright : ∀ c ∈ right.head?, c ≠ ' ') :
    indent (left ++ right) = indent left := by
  have hnone : right.takeWhile (· == ' ') = [] := by
    cases right with
    | nil => rfl
    | cons c right => simp [hright c rfl]
  rw [indent, List.takeWhile_append, hnone, List.append_nil]
  split
  case isTrue heq => rw [indent, heq]
  case isFalse => rfl

theorem trimRight_append {left : List Char} (hleft : ∀ c ∈ left.getLast?, isBlank c = false)
    (right : List Char) : trimRight (left ++ right) = left ++ trimRight right := by
  change (left ++ right).rdropWhile isBlank = left ++ right.rdropWhile isBlank
  induction right using List.reverseRecOn with
  | nil =>
      rw [List.append_nil, List.rdropWhile_nil, List.append_nil, List.rdropWhile_eq_self_iff]
      intro hne
      simp [hleft _ (List.getLast?_eq_getLast_of_ne_nil hne)]
  | append_singleton right c ih =>
      rw [← List.append_assoc, List.rdropWhile_concat, List.rdropWhile_concat]
      split
      case isTrue => exact ih
      case isFalse => exact List.append_assoc ..

/-- A blank that comes last at most is dropped. -/
theorem not_mem_trimRight {left right : List Char} {c : Char} (hblank : isBlank c = true)
    (hline : c ∉ (left ++ right).dropLast) : c ∉ trimRight right := by
  change c ∉ right.rdropWhile isBlank
  induction right using List.reverseRecOn with
  | nil => exact List.not_mem_nil
  | append_singleton init last _ =>
      rw [← List.append_assoc, List.dropLast_concat, List.mem_append, not_or] at hline
      rw [List.rdropWhile_concat]
      split
      case isTrue => exact fun hmem => hline.2 ((List.rdropWhile_prefix isBlank init).subset hmem)
      case isFalse hlast =>
          rw [List.mem_append, List.mem_singleton]
          rintro (hmem | rfl)
          · exact hline.2 hmem
          · exact hlast hblank

end MonkeySyntax.Text
