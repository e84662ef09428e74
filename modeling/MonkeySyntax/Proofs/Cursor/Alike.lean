import MonkeySyntax.Proofs.Cursor.Ahead

namespace MonkeySyntax.Cursor

/-! How far a cursor has moved, and how many of the tokens ahead of two cursors are the
same. -/

variable {σ : Type} [TokenSource σ]

/-- The second cursor has moved on from the first by so many tokens. -/
def After : Nat → Cursor σ → Cursor σ → Prop
  | 0, cursor, cursor' => cursor.window = cursor'.window
  | steps + 1, cursor, cursor' => After steps cursor.advance cursor'

/-- The first so many tokens are the same, from the current one on. -/
def Alike : Nat → Cursor σ → Cursor σ → Prop
  | 0, _, _ => True
  | count + 1, cursor, twin =>
    cursor.current = twin.current ∧ Alike count cursor.advance twin.advance

variable {cursor cursor' cursor'' twin twin' : Cursor σ} {steps more count : Nat}
  {tokens passed rest rest' : List Token} {finish finish' : Token}

namespace After

theorem refl (cursor : Cursor σ) : After 0 cursor cursor := rfl

theorem of_window (hwindow : cursor.window = cursor'.window) (h : After steps cursor' cursor'') :
    After steps cursor cursor'' := by
  induction steps generalizing cursor cursor' with
  | zero => exact hwindow.trans h
  | succ steps ih => exact ih (window_advance hwindow) h

theorem to_window (h : After steps cursor cursor') (hwindow : cursor'.window = cursor''.window) :
    After steps cursor cursor'' := by
  induction steps generalizing cursor with
  | zero => exact h.trans hwindow
  | succ steps ih => exact ih h

theorem trans (h : After steps cursor cursor') (h' : After more cursor' cursor'') :
    After (steps + more) cursor cursor'' := by
  induction steps generalizing cursor with
  | zero =>
      rw [Nat.zero_add]
      exact h'.of_window h
  | succ steps ih =>
      rw [Nat.succ_add]
      exact ih h

theorem advance (h : After steps cursor cursor') : After (steps + 1) cursor cursor'.advance :=
  h.trans (After.refl cursor'.advance)

theorem holds (h : After steps cursor cursor') (hholds : cursor.Holds tokens finish) :
    cursor'.Holds (tokens.drop steps) finish := by
  induction steps generalizing cursor tokens with
  | zero => exact (holds_congr h).mp hholds
  | succ steps ih =>
      cases tokens with
      | nil =>
          have hrest : cursor'.Holds (List.drop steps []) finish := ih h (Ended.advance hholds)
          rwa [List.drop_nil] at hrest
      | cons token rest => exact ih h hholds.advance

/-- Up to the end there is one step for each token. -/
theorem length_eq (h : After steps cursor cursor') (hholds : cursor.Holds (passed ++ rest) finish)
    (hrest : cursor'.Holds rest finish) (hne : rest ≠ []) : passed.length = steps := by
  obtain ⟨hdrop, -⟩ := hrest.unique (h.holds hholds)
  have hlength := congrArg List.length hdrop
  have hpos := List.length_pos_iff.mpr hne
  rw [List.length_drop, List.length_append] at hlength
  omega

end After

namespace Alike

theorem of_window (hwindow : cursor.window = cursor'.window) (h : Alike count cursor' twin) :
    Alike count cursor twin := by
  induction count generalizing cursor cursor' twin with
  | zero => trivial
  | succ count ih =>
      have hcurrent : cursor.current = cursor'.current :=
        congrArg (fun window => window.2.1) hwindow
      exact ⟨hcurrent.trans h.1, ih (window_advance hwindow) h.2⟩

theorem symm (h : Alike count cursor twin) : Alike count twin cursor := by
  induction count generalizing cursor twin with
  | zero => trivial
  | succ count ih => exact ⟨h.1.symm, ih h.2⟩

theorem mono {few many : Nat} (h : Alike many cursor twin) (hle : few ≤ many) :
    Alike few cursor twin := by
  induction few generalizing many cursor twin with
  | zero => trivial
  | succ few ih =>
      obtain ⟨many, rfl⟩ : ∃ count, many = count + 1 := ⟨many - 1, by omega⟩
      exact ⟨h.1, ih h.2 (Nat.le_of_succ_le_succ hle)⟩

theorem current (h : Alike count cursor twin) (hpos : 1 ≤ count) :
    cursor.current = twin.current :=
  (h.mono hpos).1

theorem peek (h : Alike count cursor twin) (hle : 2 ≤ count) : cursor.peek = twin.peek :=
  (h.mono hle).2.1

theorem after (h : Alike (steps + count) cursor twin) (hcursor : After steps cursor cursor')
    (htwin : After steps twin twin') : Alike count cursor' twin' := by
  induction steps generalizing cursor twin with
  | zero =>
      rw [Nat.zero_add] at h
      exact ((h.of_window hcursor.symm).symm.of_window htwin.symm).symm
  | succ steps ih =>
      rw [Nat.succ_add] at h
      exact ih h.2 hcursor htwin

theorem of_ended (h : cursor.Ended finish) (h' : twin.Ended finish) (count : Nat) :
    Alike count cursor twin := by
  induction count generalizing cursor twin with
  | zero => trivial
  | succ count ih => exact ⟨h.current.trans h'.current.symm, ih h.advance h'.advance⟩

/-- The tokens that two cursors hold are the same up to where they part, and beyond if they
end as well. -/
theorem of_holds (h : cursor.Holds (passed ++ rest) finish)
    (h' : twin.Holds (passed ++ rest') finish')
    (hcount : count ≤ passed.length ∨ rest = [] ∧ rest' = [] ∧ finish = finish') :
    Alike count cursor twin := by
  induction passed generalizing count cursor twin with
  | nil =>
      rcases hcount with hzero | ⟨rfl, rfl, rfl⟩
      · obtain rfl := Nat.eq_zero_of_le_zero hzero
        trivial
      · exact of_ended h h' count
  | cons token passed ih =>
      cases count with
      | zero => trivial
      | succ count =>
          refine ⟨h.current.trans h'.current.symm, ih h.advance h'.advance ?_⟩
          exact hcount.imp_left Nat.le_of_succ_le_succ

end Alike

/-- Alike cursors that have counted the same blocks. -/
structure Agrees (count : Nat) (cursor twin : Cursor σ) : Prop where
  alike : Alike count cursor twin
  depth : cursor.depth = twin.depth

theorem Agrees.mono {few many : Nat} (h : Agrees many cursor twin) (hle : few ≤ many) :
    Agrees few cursor twin :=
  ⟨h.alike.mono hle, h.depth⟩

theorem Agrees.record (h : Agrees count cursor twin) (diagnostic : Diagnostic) :
    Agrees count (cursor.record diagnostic) (twin.record diagnostic) :=
  ⟨((h.alike.of_window (window_record cursor diagnostic)).symm.of_window
    (window_record twin diagnostic)).symm, h.depth⟩

end MonkeySyntax.Cursor
