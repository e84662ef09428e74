import MonkeySyntax.Parser.Cursor

namespace MonkeySyntax.Reader

/-! How readers end: with a value and a cursor, or stopped at a cursor.  What a
reader made of steps does is worked out from the last step back to the first. -/

variable {σ α β : Type}

def Ends (reader : Reader σ α) (returns : α → Cursor σ → Prop)
    (stops : Stop → Cursor σ → Prop) (cursor : Cursor σ) : Prop :=
  match reader cursor with
  | .ok value cursor => returns value cursor
  | .error stop cursor => stops stop cursor

variable {reader : Reader σ α} {returns returns' : α → Cursor σ → Prop}
  {stops stops' : Stop → Cursor σ → Prop} {cursor cursor' : Cursor σ}

theorem Ends.mono (h : Ends reader returns stops cursor)
    (hreturns : ∀ value cursor, returns value cursor → returns' value cursor)
    (hstops : ∀ stop cursor, stops stop cursor → stops' stop cursor) :
    Ends reader returns' stops' cursor := by
  unfold Ends at h ⊢
  split at h
  · exact hreturns _ _ h
  · exact hstops _ _ h

theorem Ends.then (h : Ends reader returns stops cursor)
    (hreturns : ∀ value cursor, returns value cursor → returns' value cursor) :
    Ends reader returns' stops cursor :=
  h.mono hreturns fun _ _ hstop => hstop

theorem Ends.and (h : Ends reader returns stops cursor)
    (h' : Ends reader returns' stops' cursor) :
    Ends reader (fun value cursor => returns value cursor ∧ returns' value cursor)
      (fun stop cursor => stops stop cursor ∧ stops' stop cursor) cursor := by
  unfold Ends at h h' ⊢
  cases hread : reader cursor with
  | ok value cursor =>
      rw [hread] at h h'
      exact ⟨h, h'⟩
  | error stop cursor =>
      rw [hread] at h h'
      exact ⟨h, h'⟩

theorem Ends.of_ok {value : α} (h : Ends reader returns stops cursor)
    (hok : reader cursor = .ok value cursor') : returns value cursor' := by
  simpa only [Ends, hok] using h

theorem Ends.of_error {stop : Stop} (h : Ends reader returns stops cursor)
    (herror : reader cursor = .error stop cursor') : stops stop cursor' := by
  simpa only [Ends, herror] using h

theorem Ends.exists_ok (h : Ends reader returns (fun _ _ => False) cursor) :
    ∃ value cursor', reader cursor = .ok value cursor' ∧ returns value cursor' := by
  cases hread : reader cursor with
  | ok value cursor' => exact ⟨value, cursor', rfl, h.of_ok hread⟩
  | error stop cursor' => exact (h.of_error hread).elim

/-- What stops a reader is that the blocks are too many to be counted. -/
abbrev Overflows (stop : Stop) (_ : Cursor σ) : Prop :=
  stop = .overflow

theorem Ends.ne_error {stop : Stop} (h : Ends reader returns stops cursor)
    (hstops : ¬ stops stop cursor') : reader cursor ≠ .error stop cursor' :=
  fun herror => hstops (h.of_error herror)

theorem ends_congr {reader' : Reader σ α} (h : reader cursor = reader' cursor) :
    Ends reader returns stops cursor ↔ Ends reader' returns stops cursor := by
  rw [Ends, Ends, h]

@[simp] theorem ends_pure (value : α) :
    Ends (pure value) returns stops cursor ↔ returns value cursor := Iff.rfl

@[simp] theorem ends_bind (next : α → Reader σ β) {returns : β → Cursor σ → Prop} :
    Ends (reader >>= next) returns stops cursor ↔
      Ends reader (fun value cursor => Ends (next value) returns stops cursor) stops
        cursor := by
  simp only [Ends, bind_apply]
  cases reader cursor <;> rfl

@[simp] theorem ends_current {returns : Token → Cursor σ → Prop} :
    Ends current returns stops cursor ↔ returns cursor.current cursor := Iff.rfl

@[simp] theorem ends_peek {returns : Token → Cursor σ → Prop} :
    Ends peek returns stops cursor ↔ returns cursor.peek cursor := Iff.rfl

@[simp] theorem ends_fail (fault : Fault) (position : Position) :
    Ends (fail fault position : Reader σ α) returns stops cursor ↔
      stops (.fault ⟨fault, position⟩) cursor := Iff.rfl

@[simp] theorem ends_note (entry : Journal.Entry) {returns : Unit → Cursor σ → Prop} :
    Ends (note entry) returns stops cursor ↔ returns () (cursor.note entry) := Iff.rfl

@[simp] theorem ends_enterBlock {returns : Unit → Cursor σ → Prop} :
    Ends enterBlock returns stops cursor ↔
      (∀ depth, cursor.depth.enter? = some depth → returns () { cursor with depth }) ∧
        (cursor.depth.enter? = none → stops .overflow cursor) := by
  rw [Ends, enterBlock_apply]
  cases cursor.depth.enter? with
  | none => simp
  | some depth => simp

@[simp] theorem ends_leaveBlock {returns : Unit → Cursor σ → Prop} :
    Ends leaveBlock returns stops cursor ↔
      returns () { cursor with depth := cursor.depth.leave } := Iff.rfl

@[simp] theorem ends_ite {condition : Prop} [Decidable condition]
    {whenTrue whenFalse : Reader σ α} :
    Ends (if condition then whenTrue else whenFalse) returns stops cursor ↔
      (condition → Ends whenTrue returns stops cursor) ∧
        (¬ condition → Ends whenFalse returns stops cursor) := by
  split <;> simp_all

variable [TokenSource σ]

@[simp] theorem ends_skip {returns : Unit → Cursor σ → Prop} :
    Ends skip returns stops cursor ↔ returns () cursor.advance := Iff.rfl

@[simp] theorem ends_advance {returns : Token → Cursor σ → Prop} :
    Ends advance returns stops cursor ↔ returns cursor.current cursor.advance := Iff.rfl

@[simp] theorem ends_expect (kind : Kind) {returns : Unit → Cursor σ → Prop} :
    Ends (expect kind) returns stops cursor ↔
      (cursor.peek.kind = kind → returns () cursor.advance) ∧
        (cursor.peek.kind ≠ kind →
          stops (.fault ⟨.ofMismatch kind cursor.peek.kind, cursor.peek.span.start⟩)
            cursor) := by
  simp only [expect, ends_bind, ends_peek, ends_ite, ends_skip, ends_fail, ne_eq]

@[simp] theorem ends_endStatement {returns : Unit → Cursor σ → Prop} :
    Ends endStatement returns stops cursor ↔
      (cursor.peek.kind = .semicolon → returns () cursor.advance) ∧
        (cursor.peek.kind ≠ .semicolon → returns () cursor) := by
  simp only [endStatement, ends_bind, ends_peek, ends_ite, ends_skip, ends_pure, ne_eq]

end MonkeySyntax.Reader
