import MonkeySyntax.Parser
import MonkeySyntax.Proofs.Cursor.Ahead

namespace MonkeySyntax

/-! How deep the tokens lie in blocks, and where the tokens of a statement at fault are
skipped to. -/

theorem Cursor.depthAfter_succ {depth : Nat} {kind : Kind}
    (h : kind = .closeCurly → 0 < depth) :
    depthAfter (depth + 1) kind = depthAfter depth kind + 1 := by
  cases kind with
  | closeCurly => exact (Nat.succ_pred_eq_of_pos (h rfl)).symm
  | _ => rfl

namespace Token

/-- Every closing brace closes a block, and all blocks are closed, the ones that are open
before the tokens too. -/
def Balanced : Nat → List Token → Prop
  | depth, [] => depth = 0
  | depth, token :: rest =>
    match token.kind with
    | .openCurly => Balanced (depth + 1) rest
    | .closeCurly => 0 < depth ∧ Balanced (depth - 1) rest
    | _ => Balanced depth rest

/-- Of the blocks that are open before the tokens, the one with `depth` others inside it has
a semicolon of its own among the tokens. -/
def SemicolonWithin : Nat → List Token → Prop
  | _, [] => False
  | depth, token :: rest =>
    match token.kind with
    | .semicolon => depth = 0 ∨ SemicolonWithin depth rest
    | .openCurly => SemicolonWithin (depth + 1) rest
    | .closeCurly => 0 < depth ∧ SemicolonWithin (depth - 1) rest
    | _ => SemicolonWithin depth rest

variable {depth : Nat} {token : Token} {tokens passed rest : List Token}

theorem balanced_cons :
    Balanced depth (token :: rest) ↔
      (token.kind = .closeCurly → 0 < depth) ∧
        Balanced (Cursor.depthAfter depth token.kind) rest := by
  rw [Balanced]
  cases token.kind <;> simp [Cursor.depthAfter]

theorem semicolonWithin_cons :
    SemicolonWithin depth (token :: rest) ↔
      (token.kind = .semicolon ∧ depth = 0) ∨
        (token.kind = .closeCurly → 0 < depth) ∧
          SemicolonWithin (Cursor.depthAfter depth token.kind) rest := by
  rw [SemicolonWithin]
  cases token.kind <;> simp [Cursor.depthAfter]

instance decidableBalanced : (depth : Nat) → (tokens : List Token) →
    Decidable (Balanced depth tokens)
  | depth, [] => inferInstanceAs (Decidable (depth = 0))
  | depth, token :: rest =>
    have := decidableBalanced (Cursor.depthAfter depth token.kind) rest
    decidable_of_iff _ balanced_cons.symm

def count (kind : Kind) (tokens : List Token) : Nat :=
  (tokens.map Token.kind).count kind

theorem Balanced.add_count (h : Balanced depth tokens) :
    depth + count .openCurly tokens = count .closeCurly tokens := by
  induction tokens generalizing depth with
  | nil => exact h
  | cons token rest ih =>
      obtain ⟨hclose, hrest⟩ := balanced_cons.mp h
      have hcount := ih hrest
      simp only [count, List.map_cons, List.count_cons] at hcount ⊢
      cases hkind : token.kind with
      | closeCurly =>
          have hlt := hclose hkind
          simp only [hkind, Cursor.depthAfter] at hcount
          simp
          omega
      | openCurly =>
          simp only [hkind, Cursor.depthAfter] at hcount
          simp
          omega
      | _ =>
          simp only [hkind, Cursor.depthAfter] at hcount
          simpa using hcount

/-- Of balanced tokens, as many blocks are open as still have to be closed. -/
theorem Balanced.count_passed (h : Balanced 0 (passed ++ rest)) (hrest : Balanced depth rest) :
    count .openCurly passed = count .closeCurly passed + depth := by
  have hall := h.add_count
  have hahead := hrest.add_count
  simp only [count, List.map_append, List.count_append] at hall hahead ⊢
  omega

end Token

namespace Cursor

variable {σ : Type} [TokenSource σ]

/-- So many blocks are open at the cursor, and all of them are closed ahead. -/
def Nested (finish : Token) (depth : Nat) (cursor : Cursor σ) : Prop :=
  ∃ tokens, cursor.Holds tokens finish ∧ Token.Balanced depth tokens

/-- The cursor is where the statements that lie so deep may end. -/
def EndsAt (finish : Token) (depth : Nat) (cursor : Cursor σ) : Prop :=
  cursor.Nested finish depth ∧
    (cursor.current.kind = .eof ∨ cursor.current.kind = .semicolon)

def Among (tokens : List Token) (finish : Token) (cursor : Cursor σ) : Prop :=
  ∃ passed rest, tokens = passed ++ rest ∧ cursor.Holds rest finish

/-- The cursor is at the end of the tokens, or on a semicolon that no block encloses. -/
def Outside (tokens : List Token) (finish : Token) (cursor : Cursor σ) : Prop :=
  ∃ count ≤ tokens.length, cursor.Holds (tokens.drop count) finish ∧
    (cursor.current.kind = .eof ∨
      cursor.current.kind = .semicolon ∧
        Token.count .openCurly (tokens.take count) =
          Token.count .closeCurly (tokens.take count))

instance decidableOutside [DecidableEq σ] (tokens : List Token) (finish : Token) :
    DecidablePred (Outside tokens finish : Cursor σ → Prop) := fun cursor =>
  inferInstanceAs <| Decidable <|
    ∃ count ≤ tokens.length, cursor.Holds (tokens.drop count) finish ∧
      (cursor.current.kind = .eof ∨
        cursor.current.kind = .semicolon ∧
          Token.count .openCurly (tokens.take count) =
            Token.count .closeCurly (tokens.take count))

variable {cursor cursor' : Cursor σ} {tokens : List Token} {finish : Token}
  {depth limit : Nat}

theorem Among.of_reaches (h : cursor.Among tokens finish) (hreaches : cursor.Reaches cursor') :
    cursor'.Among tokens finish := by
  obtain ⟨passed, rest, rfl, hholds⟩ := h
  obtain ⟨more, rest, rfl, hholds'⟩ := hreaches.holds hholds
  exact ⟨passed ++ more, rest, (List.append_assoc ..).symm, hholds'⟩

theorem nested_congr (h : cursor.window = cursor'.window) :
    cursor.Nested finish depth ↔ cursor'.Nested finish depth := by
  simp only [Nested, holds_congr h]

theorem endsAt_congr (h : cursor.window = cursor'.window) :
    cursor.EndsAt finish depth ↔ cursor'.EndsAt finish depth := by
  have hcurrent : cursor.current = cursor'.current := congrArg (fun window => window.2.1) h
  simp only [EndsAt, nested_congr h, hcurrent]

theorem EndsAt.advance (h : cursor.EndsAt finish depth) : cursor.advance.Nested finish depth := by
  obtain ⟨⟨tokens, hholds, hbalanced⟩, heof | hsemicolon⟩ := h
  · obtain rfl := hholds.eq_nil heof
    exact ⟨[], Ended.advance hholds, hbalanced⟩
  · obtain ⟨rest, rfl⟩ := hholds.exists_cons (hsemicolon ▸ by decide)
    have hrest := (Token.balanced_cons.mp hbalanced).2
    rw [hsemicolon] at hrest
    exact ⟨rest, hholds.advance, hrest⟩

theorem EndsAt.outside_iff (h : cursor.EndsAt finish depth)
    (hbalanced : Token.Balanced 0 tokens) (hamong : cursor.Among tokens finish) :
    cursor.Outside tokens finish ↔ depth = 0 := by
  obtain ⟨⟨rest, hholds, hdepth⟩, hkind⟩ := h
  obtain ⟨passed, rest', rfl, hholds'⟩ := hamong
  obtain ⟨rfl, -⟩ := hholds.unique hholds'
  have hcount := hbalanced.count_passed hdepth
  constructor
  · intro houtside
    obtain ⟨count, -, hdrop, hstop⟩ := houtside
    obtain ⟨hrest, -⟩ := hdrop.unique hholds
    have hsplit := List.take_append_drop count (passed ++ rest)
    rw [hrest] at hsplit
    have hpassed := List.append_cancel_right hsplit
    obtain heof | ⟨-, hequal⟩ := hstop
    · obtain rfl := hholds.eq_nil heof
      exact hdepth
    · rw [hpassed] at hequal
      omega
  · intro hzero
    refine ⟨passed.length, ?_, ?_, hkind.imp_right fun hsemicolon => ⟨hsemicolon, ?_⟩⟩
    · rw [List.length_append]
      exact Nat.le_add_right _ _
    · rwa [List.drop_left]
    · rw [List.take_left, hcount, hzero, Nat.add_zero]

/-! Skipping tokens. -/

/-- The statement that the cursor lies in is skipped, if the depth is the one at which the
cursor lies. -/
theorem endsAt_skipStatement (skipped : Nat) (h : cursor.Holds tokens finish)
    (hbalanced : Token.Balanced depth tokens) (hlimit : tokens.length < limit) :
    (cursor.skipStatement limit depth skipped).2.EndsAt finish 0 := by
  induction limit generalizing depth skipped cursor tokens with
  | zero => exact absurd hlimit (Nat.not_lt_zero _)
  | succ limit ih =>
      rw [skipStatement]
      split
      case isTrue hstop =>
        obtain heof | ⟨hsemicolon, rfl⟩ := hstop
        · obtain rfl := h.eq_nil heof
          exact ⟨⟨[], h, rfl⟩, .inl heof⟩
        · exact ⟨⟨tokens, h, hbalanced⟩, .inr hsemicolon⟩
      case isFalse hgo =>
        obtain ⟨rest, rfl⟩ := h.exists_cons fun heof => hgo (.inl heof)
        have hbalanced' := (Token.balanced_cons.mp hbalanced).2
        exact ih _ h.advance hbalanced' (Nat.lt_of_succ_lt_succ hlimit)

/-- Where one block too few is counted, a semicolon of that block ends the statement. -/
theorem endsAt_skipStatement_of_semicolonWithin (skipped : Nat)
    (h : cursor.Holds tokens finish) (hbalanced : Token.Balanced (depth + 1) tokens)
    (hwithin : Token.SemicolonWithin depth tokens) (hlimit : tokens.length < limit) :
    (cursor.skipStatement limit depth skipped).2.EndsAt finish 1 := by
  induction limit generalizing depth skipped cursor tokens with
  | zero => exact absurd hlimit (Nat.not_lt_zero _)
  | succ limit ih =>
      cases tokens with
      | nil => exact hwithin.elim
      | cons token rest =>
          have hcurrent : cursor.current.kind = token.kind := congrArg Token.kind h.current
          rw [skipStatement, hcurrent]
          split
          case isTrue hstop =>
            obtain ⟨hsemicolon, rfl⟩ := hstop.resolve_left h.1
            exact ⟨⟨_, h, hbalanced⟩, .inr (hcurrent.trans hsemicolon)⟩
          case isFalse hgo =>
            obtain ⟨hclose, hrest⟩ := (Token.semicolonWithin_cons.mp hwithin).resolve_left
              fun hstop => hgo (.inr hstop)
            have hbalanced' := (Token.balanced_cons.mp hbalanced).2
            rw [depthAfter_succ hclose] at hbalanced'
            exact ih _ h.advance hbalanced' hrest (Nat.lt_of_succ_lt_succ hlimit)

/-- Where one block too few is counted and has no semicolon, the count is right again once
that block is closed. -/
theorem endsAt_skipStatement_of_not_semicolonWithin (skipped : Nat)
    (h : cursor.Holds tokens finish) (hbalanced : Token.Balanced (depth + 1) tokens)
    (hwithin : ¬ Token.SemicolonWithin depth tokens) (hlimit : tokens.length < limit) :
    (cursor.skipStatement limit depth skipped).2.EndsAt finish 0 := by
  induction limit generalizing depth skipped cursor tokens with
  | zero => exact absurd hlimit (Nat.not_lt_zero _)
  | succ limit ih =>
      cases tokens with
      | nil => exact absurd hbalanced (Nat.succ_ne_zero depth)
      | cons token rest =>
          have hcurrent : cursor.current.kind = token.kind := congrArg Token.kind h.current
          rw [Token.semicolonWithin_cons, not_or] at hwithin
          obtain ⟨hstop, hrest⟩ := hwithin
          have hbalanced' := (Token.balanced_cons.mp hbalanced).2
          have hlimit' := Nat.lt_of_succ_lt_succ hlimit
          rw [skipStatement, hcurrent, if_neg (not_or.mpr ⟨h.1, hstop⟩)]
          by_cases hclose : token.kind = .closeCurly ∧ depth = 0
          -- The block that was not counted ends here, and the count cannot fall below zero.
          · obtain ⟨hkind, rfl⟩ := hclose
            rw [hkind] at hbalanced' ⊢
            exact endsAt_skipStatement _ h.advance hbalanced' hlimit'
          · have hpos : token.kind = .closeCurly → 0 < depth := fun hkind =>
              Nat.pos_of_ne_zero fun hzero => hclose ⟨hkind, hzero⟩
            rw [depthAfter_succ hpos] at hbalanced'
            exact ih _ h.advance hbalanced' (fun hwithin => hrest ⟨hpos, hwithin⟩) hlimit'

/-! A closing brace that has been counted is counted once more. -/

theorem skipStatement_closeCurly (depth skipped : Nat)
    (hclose : cursor.current.kind = .closeCurly) :
    cursor.skipStatement (limit + 1) depth skipped =
      cursor.advance.skipStatement limit (depth - 1) (skipped + 1) := by
  rw [skipStatement, if_neg (by simp [hclose]), hclose]
  rfl

theorem endsAt_skipStatement_closeCurly_of_semicolonWithin (skipped : Nat)
    (hclose : cursor.current.kind = .closeCurly) (h : cursor.advance.Holds tokens finish)
    (hbalanced : Token.Balanced depth tokens) (hlimit : tokens.length < limit)
    (hpos : 0 < depth) (hwithin : Token.SemicolonWithin (depth - 1) tokens) :
    (cursor.skipStatement (limit + 1) depth skipped).2.EndsAt finish 1 := by
  obtain ⟨depth, rfl⟩ := Nat.exists_eq_succ_of_ne_zero (Nat.ne_of_gt hpos)
  rw [skipStatement_closeCurly _ _ hclose]
  exact endsAt_skipStatement_of_semicolonWithin _ h hbalanced hwithin hlimit

theorem endsAt_skipStatement_closeCurly (skipped : Nat)
    (hclose : cursor.current.kind = .closeCurly) (h : cursor.advance.Holds tokens finish)
    (hbalanced : Token.Balanced depth tokens) (hlimit : tokens.length < limit)
    (hwithin : 0 < depth → ¬ Token.SemicolonWithin (depth - 1) tokens) :
    (cursor.skipStatement (limit + 1) depth skipped).2.EndsAt finish 0 := by
  rw [skipStatement_closeCurly _ _ hclose]
  cases depth with
  | zero => exact endsAt_skipStatement _ h hbalanced hlimit
  | succ depth =>
      exact endsAt_skipStatement_of_not_semicolonWithin _ h hbalanced
        (hwithin (Nat.succ_pos depth)) hlimit

end Cursor

end MonkeySyntax
