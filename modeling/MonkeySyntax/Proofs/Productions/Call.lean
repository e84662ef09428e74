import MonkeySyntax.Proofs.Productions.Knot

namespace MonkeySyntax

/-! What a parser may be asked to read, from wherever its cursor stands.  No call goes deeper than
the tokens that are left allow. -/

/-- A statement, an expression or a block, or what one of the rules reads that a grammar can
name. -/
inductive Call : Type → Type
  | statement : Call Stmt
  | expression (power : BindingPower) : Call Expr
  | block : Call Block
  | statementRule (rule : StatementRule) : Call Stmt
  | operandRule (rule : OperandRule) : Call Expr
  | operatorRule (left : Expr) (power : BindingPower) (rule : OperatorRule) : Call Expr

variable {σ : Type} [TokenSource σ]

def Call.reader {α : Type} (call : Call α) (inner : Productions σ) : Reader σ α :=
  match call with
  | .statement => inner.statement
  | .expression power => inner.expression power
  | .block => inner.block
  | .statementRule rule => rule.read inner
  | .operandRule rule => rule.read inner
  | .operatorRule left power rule => rule.read inner left power

namespace Reader

/-- No more than so many tokens are left, and the reader does not run out of calls. -/
def bounding (σ : Type) [TokenSource σ] [BoundedTokenSource σ] (bound : Nat) :
    StepRelation σ σ where
  Holds reader _ := ∀ cursor, cursor.left ≤ bound →
    Ends reader (fun _ cursor' => cursor'.left ≤ bound) (fun stop _ => stop ≠ .endless) cursor
  pure _ _ h := h
  bind h hnext cursor hle := by
    rw [ends_bind]
    exact (h cursor hle).then fun value middle hmiddle => hnext value middle hmiddle
  current _ h := h
  peek _ h := h
  fail _ _ _ _ := nofun
  note _ _ h := h
  enterBlock _ h := ends_enterBlock.mpr ⟨fun _ _ => h, fun _ => nofun⟩
  leaveBlock _ h := h
  skip cursor h := Nat.le_trans cursor.left_advance_le h
  advance cursor h := Nat.le_trans cursor.left_advance_le h

end Reader

namespace Productions

open Reader

theorem Related.call {τ : Type} [TokenSource τ] {R : Relation σ τ} {inner : Productions σ}
    {inner' : Productions τ} (h : Related R inner inner') {α : Type} (call : Call α) :
    R.Holds (call.reader inner) (call.reader inner') := by
  cases call with
  | statement => exact h.statement
  | expression power => exact h.expression power
  | block => exact h.block
  | statementRule rule => exact h.statementRule rule
  | operandRule rule => exact h.operandRule rule
  | operatorRule left power rule => exact h.operatorRule left power rule

theorem Advances.bounds {α : Type} {reader : Reader σ α} {bound : Nat}
    {cursor : Cursor σ} (h : Advances reader cursor.left cursor) (hle : cursor.left ≤ bound) :
    Ends reader (fun _ cursor' => cursor'.left ≤ bound) (fun stop _ => stop ≠ .endless) cursor :=
  h.mono (fun _ _ hcursor => Nat.le_trans hcursor.1 hle) (fun _ _ hcursor => hcursor.1)

theorem Continues.bounds {α : Type} {reader : Reader σ α} {bound : Nat}
    {cursor : Cursor σ} (h : Continues reader cursor) (hle : cursor.left ≤ bound) :
    Ends reader (fun _ cursor' => cursor'.left ≤ bound) (fun stop _ => stop ≠ .endless) cursor :=
  h.mono (fun _ _ hcursor => Nat.le_trans hcursor.1 hle) (fun _ _ hcursor => hcursor.1)

variable [BoundedTokenSource σ] {grammar : Grammar} {depth bound : Nat}

theorem related_bounding (hgrammar : grammar.LeavesEnd) (hdepth : 4 * bound + 4 ≤ depth) :
    Related (bounding σ bound).toRelation (toDepth grammar depth) (toDepth grammar depth) := by
  have hdeep : Sufficient depth (toDepth grammar depth : Productions σ) :=
    sufficient_toDepth hgrammar depth
  constructor
  case statement => exact fun cursor hle => (hdeep.statement cursor (by omega)).bounds hle
  case statements =>
    intro cursor hle
    exact (hdeep.statements cursor (by omega)).mono
      (fun _ _ hcursor => Nat.le_trans hcursor hle) (fun _ _ hstop => hstop.1)
  case expression =>
    exact fun power cursor hle => (hdeep.expression power cursor (by omega)).bounds hle
  case operators =>
    exact fun power left cursor hle => (hdeep.operators power left cursor (by omega)).bounds hle
  case parameters => exact fun cursor hle => (hdeep.parameters cursor (by omega)).bounds hle
  case arguments => exact fun cursor hle => (hdeep.arguments cursor (by omega)).bounds hle

/-- No call goes on for ever, not even one at the end of the input. -/
theorem call_ne_endless (hgrammar : grammar.LeavesEnd) {α : Type} (call : Call α)
    (cursor cursor' : Cursor σ) :
    call.reader (toDepth grammar (sufficientDepth cursor)) cursor ≠
      .error .endless cursor' := by
  have hdepth : 4 * cursor.left + 4 ≤ sufficientDepth cursor := by
    unfold sufficientDepth
    omega
  have hends := (related_bounding hgrammar hdepth).call call cursor (Nat.le_refl _)
  exact hends.ne_error fun hne => hne rfl

end Productions

end MonkeySyntax
