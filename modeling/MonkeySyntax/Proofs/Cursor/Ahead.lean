import MonkeySyntax.Parser.Cursor
import MonkeySyntax.Token.Queue

namespace MonkeySyntax

namespace Cursor

/-! The tokens that come next, how many are left at most, and that every step takes one. -/

variable {σ : Type} [TokenSource σ]

@[simp] theorem left_note (cursor : Cursor σ) (entry : Journal.Entry) :
    (cursor.note entry).left = cursor.left := rfl

@[simp] theorem left_withDepth (cursor : Cursor σ) (depth : Depth) :
    { cursor with depth }.left = cursor.left := rfl

/-- The token so many places after the current one. -/
def lookahead : Nat → Cursor σ → Token
  | 0, cursor => cursor.current
  | count + 1, cursor => lookahead count cursor.advance

variable [BoundedTokenSource σ]

theorem weight_add_left_advance_le (cursor : Cursor σ) :
    cursor.current.weight + cursor.advance.left ≤ cursor.left := by
  have h := BoundedTokenSource.weight_next_add_remaining_le cursor.source
  simp only [left, advance]
  omega

theorem left_advance_le (cursor : Cursor σ) : cursor.advance.left ≤ cursor.left := by
  have h := cursor.weight_add_left_advance_le
  omega

theorem left_advance_lt {cursor : Cursor σ} (h : cursor.current.kind ≠ .eof) :
    cursor.advance.left < cursor.left := by
  have hle := cursor.weight_add_left_advance_le
  rw [Token.weight_of_ne_eof h] at hle
  omega

theorem exists_lookahead_eof (cursor : Cursor σ) :
    ∃ count ≤ cursor.left, (cursor.lookahead count).kind = .eof := by
  generalize hleft : cursor.left = left
  induction left using Nat.strongRecOn generalizing cursor with
  | ind left ih =>
      by_cases hcurrent : cursor.current.kind = .eof
      · exact ⟨0, Nat.zero_le left, hcurrent⟩
      · have hlt := left_advance_lt hcurrent
        obtain ⟨count, hle, heof⟩ := ih _ (hleft ▸ hlt) cursor.advance rfl
        exact ⟨count + 1, by omega, heof⟩

end Cursor

/-! The tokens that lie ahead: what a source is still to hand out, and what a cursor
is still to move over. -/

/-- The kind of the first token, where the end follows the tokens. -/
def Token.firstKind : List Token → Kind
  | [] => .eof
  | first :: _ => first.kind

@[simp] theorem Token.firstKind_nil : firstKind [] = .eof := rfl

@[simp] theorem Token.firstKind_cons (first : Token) (rest : List Token) :
    firstKind (first :: rest) = first.kind := rfl

variable {σ : Type}

section Sources

variable [TokenSource σ]

namespace TokenSource

/-- The source hands out the tokens, of which none is an end, and then its end. -/
def Yields (source : σ) : List Token → Token → Prop
  | [], finish => finish.kind = .eof ∧ (next source).1 = finish
  | token :: rest, finish =>
    token.kind ≠ .eof ∧ (next source).1 = token ∧ Yields (next source).2 rest finish

theorem exists_yields [BoundedTokenSource σ] (source : σ) :
    ∃ tokens finish, Yields source tokens finish := by
  generalize hbound : remaining source = bound
  induction bound using Nat.strongRecOn generalizing source with
  | ind bound ih =>
      by_cases hkind : (next source).1.kind = .eof
      · exact ⟨[], _, hkind, rfl⟩
      · have hle := BoundedTokenSource.weight_next_add_remaining_le source
        rw [Token.weight_of_ne_eof hkind] at hle
        obtain ⟨tokens, finish, hrest⟩ := ih _ (by omega) (next source).2 rfl
        exact ⟨(next source).1 :: tokens, finish, hkind, rfl, hrest⟩

namespace Yields

variable {source : σ} {tokens : List Token} {finish : Token}

theorem length_le_remaining [BoundedTokenSource σ] (h : Yields source tokens finish) :
    tokens.length ≤ remaining source := by
  induction tokens generalizing source with
  | nil => exact Nat.zero_le _
  | cons token rest ih =>
      obtain ⟨hkind, rfl, hrest⟩ := h
      have hle := BoundedTokenSource.weight_next_add_remaining_le source
      rw [Token.weight_of_ne_eof hkind] at hle
      have hlength := ih hrest
      rw [List.length_cons]
      omega

theorem drain_eq (h : Yields source tokens finish) {limit : Nat} (hlimit : tokens.length ≤ limit) :
    drain limit source = tokens ++ [finish] := by
  induction tokens generalizing source limit with
  | nil =>
      obtain ⟨hkind, rfl⟩ := h
      cases limit with
      | zero => rfl
      | succ limit => simp only [drain, if_pos hkind, List.nil_append]
  | cons token rest ih =>
      obtain ⟨hkind, rfl, hrest⟩ := h
      obtain ⟨limit, rfl⟩ := Nat.exists_eq_add_of_lt hlimit
      simp only [drain, if_neg hkind, List.cons_append]
      rw [ih hrest (by omega)]

theorem tokens_eq [BoundedTokenSource σ] (h : Yields source tokens finish) :
    TokenSource.tokens source = tokens ++ [finish] :=
  h.drain_eq h.length_le_remaining

theorem kind_finish (h : Yields source tokens finish) : finish.kind = .eof := by
  induction tokens generalizing source with
  | nil => exact h.1
  | cons token rest ih => exact ih h.2.2

theorem ne_eof (h : Yields source tokens finish) : ∀ token ∈ tokens, token.kind ≠ .eof := by
  induction tokens generalizing source with
  | nil => exact fun _ hmem => absurd hmem List.not_mem_nil
  | cons token rest ih => exact List.forall_mem_cons.mpr ⟨h.1, ih h.2.2⟩

end Yields

end TokenSource

theorem TokenQueue.yields {tokens : List Token} {finish : Token} (hfinish : finish.kind = .eof)
    (h : ∀ token ∈ tokens, token.kind ≠ .eof) :
    TokenSource.Yields (⟨tokens, finish, hfinish⟩ : TokenQueue) tokens finish := by
  induction tokens with
  | nil => exact ⟨hfinish, rfl⟩
  | cons token rest ih =>
      have hkind := h token (by simp)
      refine ⟨hkind, ?_⟩
      change (TokenQueue.next _).1 = token ∧ TokenSource.Yields (TokenQueue.next _).2 _ _
      rw [TokenQueue.next_cons hkind]
      exact ⟨rfl, ih fun other hother => h other (by simp [hother])⟩

/-- The end among the tokens of a queue is its end. -/
theorem TokenQueue.yields_append {tokens : List Token} {last finish : Token}
    (hfinish : finish.kind = .eof) (hlast : last.kind = .eof)
    (h : ∀ token ∈ tokens, token.kind ≠ .eof) (others : List Token) :
    TokenSource.Yields (⟨tokens ++ last :: others, finish, hfinish⟩ : TokenQueue) tokens last := by
  induction tokens with
  | nil => exact ⟨hlast, congrArg Prod.fst (next_cons_of_eof hlast)⟩
  | cons token rest ih =>
      obtain ⟨hkind, hrest⟩ := List.forall_mem_cons.mp h
      refine ⟨hkind, congrArg Prod.fst (next_cons hkind), ?_⟩
      change TokenSource.Yields (TokenQueue.next _).2 _ _
      rw [List.cons_append, next_cons hkind]
      exact ih hrest

theorem TokenQueue.yields_ofTokens {tokens : List Token}
    (h : ∀ token ∈ tokens, token.kind ≠ .eof) :
    TokenSource.Yields (ofTokens tokens) tokens (ofTokens tokens).finish :=
  yields rfl h

end Sources

namespace Cursor

/-! A cursor looks at its window and its source; what it has counted and noted on the
way does not matter to it. -/

def window (cursor : Cursor σ) : σ × Token × Token :=
  (cursor.source, cursor.current, cursor.peek)

@[simp] theorem window_note (cursor : Cursor σ) (entry : Journal.Entry) :
    (cursor.note entry).window = cursor.window := rfl

@[simp] theorem window_record (cursor : Cursor σ) (diagnostic : Diagnostic) :
    (cursor.record diagnostic).window = cursor.window := rfl

@[simp] theorem window_withDepth (cursor : Cursor σ) (depth : Depth) :
    { cursor with depth }.window = cursor.window := rfl

variable [TokenSource σ]

theorem window_advance {cursor cursor' : Cursor σ} (h : cursor.window = cursor'.window) :
    cursor.advance.window = cursor'.advance.window := by
  simp only [window, Prod.mk.injEq] at h
  simp only [window, advance, h]

@[simp] theorem current_advance (cursor : Cursor σ) : cursor.advance.current = cursor.peek := rfl

theorem lookahead_congr {cursor cursor' : Cursor σ} (h : cursor.window = cursor'.window)
    (count : Nat) : cursor.lookahead count = cursor'.lookahead count := by
  induction count generalizing cursor cursor' with
  | zero => exact congrArg (fun window => window.2.1) h
  | succ count ih => exact ih (window_advance h)

/-- The input has ended, and goes on ending. -/
structure Ended (cursor : Cursor σ) (finish : Token) : Prop where
  kind_finish : finish.kind = .eof
  current : cursor.current = finish
  peek : cursor.peek = finish
  next_source : TokenSource.next cursor.source = (finish, cursor.source)

theorem Ended.advance {cursor : Cursor σ} {finish : Token} (h : cursor.Ended finish) :
    cursor.advance.Ended finish := by
  obtain ⟨hkind, hcurrent, hpeek, hnext⟩ := h
  refine ⟨hkind, hpeek, ?_, ?_⟩
  · simp only [Cursor.advance, hnext]
  · simp only [Cursor.advance, hnext]

/-- The cursor is on the first of the tokens, of which none is an end, and the end
follows them. -/
def Holds (cursor : Cursor σ) : List Token → Token → Prop
  | [], finish => cursor.Ended finish
  | token :: rest, finish =>
    token.kind ≠ .eof ∧ cursor.current = token ∧ cursor.advance.Holds rest finish

instance decidableEnded [DecidableEq σ] (cursor : Cursor σ) (finish : Token) :
    Decidable (cursor.Ended finish) :=
  decidable_of_iff
    (finish.kind = .eof ∧ cursor.current = finish ∧ cursor.peek = finish ∧
      TokenSource.next cursor.source = (finish, cursor.source))
    ⟨fun ⟨hkind, hcurrent, hpeek, hnext⟩ => ⟨hkind, hcurrent, hpeek, hnext⟩,
      fun h => ⟨h.kind_finish, h.current, h.peek, h.next_source⟩⟩

instance decidableHolds [DecidableEq σ] : (cursor : Cursor σ) → (tokens : List Token) →
    (finish : Token) → Decidable (cursor.Holds tokens finish)
  | cursor, [], finish => decidableEnded cursor finish
  | cursor, token :: rest, finish =>
    have := decidableHolds cursor.advance rest finish
    inferInstanceAs <| Decidable <|
      token.kind ≠ .eof ∧ cursor.current = token ∧ cursor.advance.Holds rest finish

variable {cursor cursor' : Cursor σ} {token : Token} {tokens rest : List Token}
  {finish : Token}

theorem holds_congr (h : cursor.window = cursor'.window) :
    cursor.Holds tokens finish ↔ cursor'.Holds tokens finish := by
  induction tokens generalizing cursor cursor' with
  | nil =>
      simp only [window, Prod.mk.injEq] at h
      constructor
      · rintro ⟨hkind, hcurrent, hpeek, hnext⟩
        exact ⟨hkind, by rw [← h.2.1, hcurrent], by rw [← h.2.2, hpeek], by rw [← h.1, hnext]⟩
      · rintro ⟨hkind, hcurrent, hpeek, hnext⟩
        exact ⟨hkind, by rw [h.2.1, hcurrent], by rw [h.2.2, hpeek], by rw [h.1, hnext]⟩
  | cons token rest ih =>
      have hcurrent : cursor.current = cursor'.current := congrArg (fun window => window.2.1) h
      simp only [Holds, hcurrent, ih (window_advance h)]

@[simp] theorem holds_note (entry : Journal.Entry) :
    (cursor.note entry).Holds tokens finish ↔ cursor.Holds tokens finish :=
  holds_congr (window_note cursor entry)

@[simp] theorem holds_record (diagnostic : Diagnostic) :
    (cursor.record diagnostic).Holds tokens finish ↔ cursor.Holds tokens finish :=
  holds_congr (window_record cursor diagnostic)

@[simp] theorem holds_withDepth (depth : Depth) :
    { cursor with depth }.Holds tokens finish ↔ cursor.Holds tokens finish :=
  holds_congr (window_withDepth cursor depth)

namespace Holds

theorem ended (h : cursor.Holds [] finish) : cursor.Ended finish := h

theorem advance (h : cursor.Holds (token :: rest) finish) :
    cursor.advance.Holds rest finish := h.2.2

theorem current (h : cursor.Holds (token :: rest) finish) : cursor.current = token := h.2.1

theorem current_eq (h : cursor.Holds tokens finish) : cursor.current = tokens.headD finish := by
  cases tokens with
  | nil => exact h.ended.current
  | cons token rest => exact h.current

theorem kind_current (h : cursor.Holds tokens finish) :
    cursor.current.kind = Token.firstKind tokens := by
  cases tokens with
  | nil => rw [h.ended.current, h.ended.kind_finish, Token.firstKind_nil]
  | cons token rest => rw [h.current, Token.firstKind_cons]

theorem kind_peek (h : cursor.Holds (token :: rest) finish) :
    cursor.peek.kind = Token.firstKind rest := by
  rw [← current_advance, h.advance.kind_current]

theorem eq_nil (h : cursor.Holds tokens finish) (heof : cursor.current.kind = .eof) :
    tokens = [] := by
  cases tokens with
  | nil => rfl
  | cons token rest => exact absurd (h.current ▸ heof) h.1

theorem exists_cons (h : cursor.Holds tokens finish) (hne : cursor.current.kind ≠ .eof) :
    ∃ rest, tokens = cursor.current :: rest := by
  cases tokens with
  | nil => exact absurd h.kind_current hne
  | cons token rest => exact ⟨rest, by rw [h.current]⟩

theorem ne_eof (h : cursor.Holds tokens finish) : ∀ token ∈ tokens, token.kind ≠ .eof := by
  induction tokens generalizing cursor with
  | nil => exact fun _ hmem => absurd hmem List.not_mem_nil
  | cons token rest ih => exact List.forall_mem_cons.mpr ⟨h.1, ih h.advance⟩

/-- What comes next is the tokens and then their end, over and over. -/
theorem getElem?_lookahead (h : cursor.Holds tokens finish) (count : Nat) :
    (tokens ++ [finish])[min count tokens.length]? = some (cursor.lookahead count) := by
  induction count generalizing cursor tokens with
  | zero =>
      rw [Nat.zero_min, lookahead, h.current_eq]
      cases tokens <;> rfl
  | succ count ih =>
      cases tokens with
      | nil =>
          have hrest : cursor.advance.Holds [] finish := h.ended.advance
          have hfinish := ih hrest
          rwa [List.length_nil, Nat.min_zero] at hfinish ⊢
      | cons token rest =>
          rw [List.length_cons, Nat.succ_min_succ]
          exact ih h.advance

theorem kind_lookahead_length (h : cursor.Holds tokens finish) :
    (cursor.lookahead tokens.length).kind = .eof := by
  induction tokens generalizing cursor with
  | nil => exact h.kind_current
  | cons token rest ih => exact ih h.advance

theorem unique {tokens' : List Token} {finish' : Token} (h : cursor.Holds tokens finish)
    (h' : cursor.Holds tokens' finish') : tokens = tokens' ∧ finish = finish' := by
  induction tokens generalizing cursor tokens' with
  | nil =>
      obtain rfl := h'.eq_nil h.kind_current
      exact ⟨rfl, h.ended.current.symm.trans h'.ended.current⟩
  | cons token rest ih =>
      obtain ⟨rest', rfl⟩ := h'.exists_cons (h.kind_current ▸ h.1)
      obtain ⟨hrest, hfinish⟩ := ih h.advance h'.advance
      exact ⟨by rw [h.current, hrest], hfinish⟩

end Holds

/-- The window holds the first two tokens of the source. -/
structure Opens (cursor : Cursor σ) (source : σ) : Prop where
  current : cursor.current = (TokenSource.next source).1
  peek : cursor.peek = (TokenSource.next (TokenSource.next source).2).1
  source : cursor.source = (TokenSource.next (TokenSource.next source).2).2

theorem opens_ofSource (source : σ) : (ofSource source).Opens source := ⟨rfl, rfl, rfl⟩

theorem Opens.advance {source : σ} (h : cursor.Opens source) :
    cursor.advance.Opens (TokenSource.next source).2 := by
  refine ⟨h.peek, ?_, ?_⟩
  · simp only [Cursor.advance, h.source]
  · simp only [Cursor.advance, h.source]

theorem Opens.holds [LawfulTokenSource σ] {source : σ} (hopens : cursor.Opens source)
    (h : TokenSource.Yields source tokens finish) : cursor.Holds tokens finish := by
  induction tokens generalizing cursor source with
  | nil =>
      obtain ⟨hkind, hfirst⟩ := h
      have hagain := LawfulTokenSource.next_next source (hfirst ▸ hkind)
      refine ⟨hkind, hopens.current.trans hfirst, ?_, ?_⟩
      · rw [hopens.peek, hagain, hfirst]
      · rw [hopens.source, hagain, hagain, ← hfirst]
  | cons token rest ih =>
      obtain ⟨hkind, hfirst, hrest⟩ := h
      exact ⟨hkind, hopens.current.trans hfirst, ih hopens.advance hrest⟩

theorem holds_ofSource [LawfulTokenSource σ] {source : σ}
    (h : TokenSource.Yields source tokens finish) : (ofSource source).Holds tokens finish :=
  (opens_ofSource source).holds h

theorem Holds.length_le_left [BoundedTokenSource σ] (h : cursor.Holds tokens finish) :
    tokens.length ≤ cursor.left := by
  induction tokens generalizing cursor with
  | nil => exact Nat.zero_le _
  | cons token rest ih =>
      have hlt := left_advance_lt (h.current ▸ h.1)
      have hle := ih h.advance
      simp only [List.length_cons]
      omega

/-! A reader only ever moves a cursor on. -/

/-- The first cursor moves on to the second. -/
inductive Reaches : Cursor σ → Cursor σ → Prop
  | here {cursor cursor' : Cursor σ} (h : cursor.window = cursor'.window) :
      Reaches cursor cursor'
  | step {cursor cursor' : Cursor σ} (h : Reaches cursor.advance cursor') :
      Reaches cursor cursor'

namespace Reaches

theorem refl (cursor : Cursor σ) : cursor.Reaches cursor := .here rfl

theorem of_window {cursor'' : Cursor σ} (hwindow : cursor.window = cursor'.window)
    (h : cursor'.Reaches cursor'') : cursor.Reaches cursor'' := by
  induction h generalizing cursor with
  | here heq => exact .here (hwindow.trans heq)
  | step _ ih => exact .step (ih (window_advance hwindow))

theorem trans {cursor'' : Cursor σ} (h : cursor.Reaches cursor')
    (h' : cursor'.Reaches cursor'') : cursor.Reaches cursor'' := by
  induction h with
  | here hwindow => exact of_window hwindow h'
  | step _ ih => exact .step (ih h')

theorem advance (cursor : Cursor σ) : cursor.Reaches cursor.advance := .step (refl _)

theorem ended (h : cursor.Reaches cursor') (hended : cursor.Ended finish) :
    cursor'.Ended finish := by
  induction h with
  | here hwindow => exact (holds_congr hwindow).mp (show Holds _ [] finish from hended)
  | step _ ih => exact ih hended.advance

theorem left_le [BoundedTokenSource σ] (h : cursor.Reaches cursor') :
    cursor'.left ≤ cursor.left := by
  induction h with
  | here hwindow =>
      simp only [window, Prod.mk.injEq] at hwindow
      simp only [left, hwindow, Nat.le_refl]
  | @step cursor _ _ ih => exact Nat.le_trans ih cursor.left_advance_le

/-- From a token that is not the end, moving on takes it at least. -/
theorem left_advance_lt [BoundedTokenSource σ] (h : cursor.Reaches cursor')
    (hcurrent : cursor.current.kind ≠ .eof) : cursor'.advance.left < cursor.left := by
  cases h with
  | here hwindow =>
      have hlt := Cursor.left_advance_lt hcurrent
      have hle := (Reaches.here (window_advance hwindow)).left_le
      omega
  | step h =>
      have hlt := Cursor.left_advance_lt hcurrent
      have hle := h.left_le
      have hle' := cursor'.left_advance_le
      omega

/-- What lies ahead afterwards is what lay ahead before, but for what was passed. -/
theorem holds (h : cursor.Reaches cursor') (hholds : cursor.Holds tokens finish) :
    ∃ passed rest, tokens = passed ++ rest ∧ cursor'.Holds rest finish := by
  induction h generalizing tokens with
  | here hwindow => exact ⟨[], tokens, rfl, (holds_congr hwindow).mp hholds⟩
  | step h ih =>
      cases tokens with
      | nil => exact ⟨[], [], rfl, h.ended (Ended.advance hholds)⟩
      | cons token rest =>
          obtain ⟨passed, rest', rfl, hrest⟩ := ih hholds.advance
          exact ⟨token :: passed, rest', rfl, hrest⟩

end Reaches

end Cursor

end MonkeySyntax
