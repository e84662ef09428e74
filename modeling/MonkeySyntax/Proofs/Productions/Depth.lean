import MonkeySyntax.Parser.Recursion
import MonkeySyntax.Proofs.Cursor.Ahead
import MonkeySyntax.Proofs.Reader

namespace MonkeySyntax

open Reader

/-! The depth to which productions call one another is bounded by the tokens that
are left: no reader is exhausted at a depth of four for each of them. -/

variable {σ : Type} [TokenSource σ]

/-- No rule is named for the end of the input. -/
structure Grammar.LeavesEnd (grammar : Grammar) : Prop where
  statement : grammar.statement? .eof = none
  operand : grammar.operand? .eof = none
  operator : grammar.operator? .eof = none

theorem Grammar.standard_leavesEnd : Grammar.standard.LeavesEnd := ⟨rfl, rfl, rfl⟩

namespace Productions

/-- The reader does not run out of calls, and no more than so many tokens are left when it
ends; what it has read ends before the end of the input. -/
abbrev Advances {α : Type} (reader : Reader σ α) (bound : Nat) (cursor : Cursor σ) : Prop :=
  Ends reader (fun _ cursor => cursor.left ≤ bound ∧ cursor.current.kind ≠ .eof)
    (fun stop cursor => stop ≠ .endless ∧ cursor.left ≤ bound) cursor

theorem Advances.then {α : Type} {reader : Reader σ α} {bound bound' : Nat}
    {cursor : Cursor σ} (h : Advances reader bound cursor) (hle : bound ≤ bound')
    {returns : α → Cursor σ → Prop}
    (hreturns : ∀ value cursor, cursor.left ≤ bound → cursor.current.kind ≠ .eof →
      returns value cursor) :
    Ends reader returns (fun stop cursor => stop ≠ .endless ∧ cursor.left ≤ bound')
      cursor := by
  refine h.mono (fun value cursor hcursor => ?_) (fun stop cursor hcursor => ?_)
  · exact hreturns value cursor hcursor.1 hcursor.2
  · exact ⟨hcursor.1, Nat.le_trans hcursor.2 hle⟩

theorem Advances.le {α : Type} {reader : Reader σ α} {bound bound' : Nat}
    {cursor : Cursor σ} (h : Advances reader bound cursor) (hle : bound ≤ bound') :
    Advances reader bound' cursor :=
  h.then hle fun _ _ hleft hcurrent => ⟨Nat.le_trans hleft hle, hcurrent⟩

/-- The reader goes on with what has been read, and may read nothing more. -/
abbrev Continues {α : Type} (reader : Reader σ α) (cursor : Cursor σ) : Prop :=
  Ends reader
    (fun _ cursor' => cursor'.left ≤ cursor.left ∧
      (cursor.current.kind ≠ .eof → cursor'.current.kind ≠ .eof))
    (fun stop cursor' => stop ≠ .endless ∧ cursor'.left ≤ cursor.left) cursor

theorem Continues.advances {α : Type} {reader : Reader σ α} {cursor : Cursor σ}
    (h : Continues reader cursor) (hcurrent : cursor.current.kind ≠ .eof) :
    Advances reader cursor.left cursor :=
  h.mono (fun _ _ hcursor => ⟨hcursor.1, hcursor.2 hcurrent⟩) (fun _ _ hcursor => hcursor)

/-- The productions do not run out of calls while the tokens that are left do not ask for
more than the depth.  The order of the productions is that in which they call one
another before a token has been read. -/
structure Sufficient (depth : Nat) (inner : Productions σ) : Prop where
  parameters (cursor : Cursor σ) (h : 4 * cursor.left + 1 ≤ depth) :
    Continues inner.parameters cursor
  arguments (cursor : Cursor σ) (h : 4 * cursor.left + 1 ≤ depth) :
    Continues inner.arguments cursor
  operators (power : BindingPower) (left : Expr) (cursor : Cursor σ)
    (h : 4 * cursor.left + 1 ≤ depth) : Continues (inner.operators power left) cursor
  expression (power : BindingPower) (cursor : Cursor σ) (h : 4 * cursor.left + 2 ≤ depth) :
    Advances (inner.expression power) cursor.left cursor
  statement (cursor : Cursor σ) (h : 4 * cursor.left + 3 ≤ depth) :
    Advances inner.statement cursor.left cursor
  statements (cursor : Cursor σ) (h : 4 * cursor.left + 4 ≤ depth) :
    Ends inner.statements (fun _ cursor' => cursor'.left ≤ cursor.left)
      (fun stop cursor' => stop ≠ .endless ∧ cursor'.left ≤ cursor.left) cursor

namespace Sufficient

variable [BoundedTokenSource σ] {depth : Nat} {inner : Productions σ} {cursor : Cursor σ}

/-! What each rule reads, from a token that is not the end. -/

theorem expect_then {kind : Kind} {bound : Nat} (hkind : kind ≠ .eof)
    (hcurrent : cursor.current.kind ≠ .eof) (hle : cursor.left ≤ bound)
    {returns : Unit → Cursor σ → Prop}
    (hreturns : ∀ cursor' : Cursor σ, cursor'.left < cursor.left →
      cursor'.current.kind ≠ .eof → returns () cursor') :
    Ends (expect kind) returns (fun stop cursor' => stop ≠ .endless ∧ cursor'.left ≤ bound)
      cursor := by
  rw [ends_expect]
  refine ⟨fun hpeek => hreturns _ (Cursor.left_advance_lt hcurrent) ?_, fun _ => ⟨by simp, hle⟩⟩
  exact hpeek ▸ hkind

theorem endStatement (hcurrent : cursor.current.kind ≠ .eof) :
    Advances Reader.endStatement cursor.left cursor := by
  rw [Advances, ends_endStatement]
  refine ⟨fun hpeek => ⟨cursor.left_advance_le, ?_⟩, fun _ => ⟨Nat.le_refl _, hcurrent⟩⟩
  exact hpeek ▸ by decide

theorem expression_advance (h : Sufficient depth inner) (power : BindingPower)
    (hdepth : 4 * cursor.left ≤ depth + 2) (hcurrent : cursor.current.kind ≠ .eof) :
    Advances (inner.expression power) (cursor.left - 1) cursor.advance := by
  have hlt := Cursor.left_advance_lt hcurrent
  exact (h.expression power cursor.advance (by omega)).le (by omega)

theorem block (h : Sufficient depth inner) (hdepth : 4 * cursor.left ≤ depth)
    (hcurrent : cursor.current.kind ≠ .eof) : Advances inner.block cursor.left cursor := by
  have hlt := Cursor.left_advance_lt hcurrent
  simp only [Productions.block, ends_bind, ends_advance, ends_enterBlock, ends_current,
    ends_ite, ends_fail, ends_leaveBlock, ends_pure]
  refine ⟨fun depth _ => ?_, fun _ => ⟨by simp, by omega⟩⟩
  refine (h.statements _ (by simp only [Cursor.left_withDepth]; omega)).mono
    (fun statements cursor' hleft => ?_) (fun stop cursor' hstop => ?_)
  · simp only [Cursor.left_withDepth] at hleft ⊢
    exact ⟨fun _ => ⟨by simp, by omega⟩, fun hlast => ⟨by omega, hlast⟩⟩
  · simp only [Cursor.left_withDepth] at hstop
    exact ⟨hstop.1, by omega⟩

theorem expressionStatement (h : Sufficient depth inner)
    (hdepth : 4 * cursor.left + 2 ≤ depth) :
    Advances inner.expressionStatement cursor.left cursor := by
  simp only [Productions.expressionStatement, ends_bind, ends_current, ends_pure]
  apply (h.expression _ _ hdepth).then (Nat.le_refl _)
  intro value cursor' hleft hcurrent
  exact (endStatement hcurrent).then hleft fun _ cursor'' hleft' hcurrent' =>
    ⟨Nat.le_trans hleft' hleft, hcurrent'⟩

theorem letStatement (h : Sufficient depth inner) (hdepth : 4 * cursor.left ≤ depth)
    (hcurrent : cursor.current.kind ≠ .eof) :
    Advances inner.letStatement cursor.left cursor := by
  simp only [Productions.letStatement, ends_bind, ends_current, ends_skip, ends_pure]
  apply expect_then (by decide) hcurrent (Nat.le_refl _)
  intro name hname hcurrent
  apply expect_then (by decide) hcurrent (by omega)
  intro sign hsign hcurrent
  refine (h.expression_advance _ (by omega) hcurrent).then (by omega)
    fun value cursor' hleft hcurrent => ?_
  exact (endStatement hcurrent).then (by omega) fun _ cursor'' hleft' hcurrent' =>
    ⟨by omega, hcurrent'⟩

theorem returnedValue (h : Sufficient depth inner) (hdepth : 4 * cursor.left ≤ depth)
    (hcurrent : cursor.current.kind ≠ .eof) :
    Advances inner.returnedValue cursor.left cursor := by
  simp only [Productions.returnedValue, ends_bind, ends_peek, ends_ite, ends_skip, ends_pure]
  refine ⟨fun _ => ⟨Nat.le_refl _, hcurrent⟩, fun _ => ?_⟩
  exact (h.expression_advance _ (by omega) hcurrent).le (by omega)

theorem returnStatement (h : Sufficient depth inner) (hdepth : 4 * cursor.left ≤ depth)
    (hcurrent : cursor.current.kind ≠ .eof) :
    Advances inner.returnStatement cursor.left cursor := by
  simp only [Productions.returnStatement, ends_bind, ends_current, ends_pure]
  refine (h.returnedValue hdepth hcurrent).then (Nat.le_refl _)
    fun value? cursor' hleft hcurrent => ?_
  exact (endStatement hcurrent).then hleft fun _ cursor'' hleft' hcurrent' =>
    ⟨Nat.le_trans hleft' hleft, hcurrent'⟩

theorem blockStatement (h : Sufficient depth inner) (hdepth : 4 * cursor.left ≤ depth)
    (hcurrent : cursor.current.kind ≠ .eof) :
    Advances inner.blockStatement cursor.left cursor := by
  simp only [Productions.blockStatement, ends_bind, ends_pure]
  apply (h.block hdepth hcurrent).then (Nat.le_refl _)
  intro body cursor' hleft hcurrent
  exact (endStatement hcurrent).then hleft fun _ cursor'' hleft' hcurrent' =>
    ⟨Nat.le_trans hleft' hleft, hcurrent'⟩

theorem statementRule (h : Sufficient depth inner) (rule : StatementRule)
    (hdepth : 4 * cursor.left + 2 ≤ depth) (hcurrent : cursor.current.kind ≠ .eof) :
    Advances (rule.read inner) cursor.left cursor := by
  have hdepth' : 4 * cursor.left ≤ depth := by omega
  cases rule with
  | expression => exact h.expressionStatement hdepth
  | letBinding => exact h.letStatement hdepth' hcurrent
  | returning => exact h.returnStatement hdepth' hcurrent
  | block => exact h.blockStatement hdepth' hcurrent

theorem unary (h : Sufficient depth inner) (hdepth : 4 * cursor.left ≤ depth)
    (hcurrent : cursor.current.kind ≠ .eof) : Advances inner.unary cursor.left cursor := by
  simp only [Productions.unary, ends_bind, ends_advance, ends_pure]
  exact (h.expression_advance _ (by omega) hcurrent).then (by omega)
    fun operand cursor' hleft hcurrent' => ⟨by omega, hcurrent'⟩

theorem grouping (h : Sufficient depth inner) (hdepth : 4 * cursor.left ≤ depth)
    (hcurrent : cursor.current.kind ≠ .eof) : Advances inner.grouping cursor.left cursor := by
  simp only [Productions.grouping, ends_bind, ends_skip, ends_pure]
  refine (h.expression_advance _ (by omega) hcurrent).then (by omega)
    fun value cursor' hleft hcurrent => ?_
  exact expect_then (by decide) hcurrent (by omega) fun closing hclosing hcurrent =>
    ⟨by omega, hcurrent⟩

theorem alternative (h : Sufficient depth inner) (hdepth : 4 * cursor.left ≤ depth)
    (hcurrent : cursor.current.kind ≠ .eof) :
    Advances inner.alternative cursor.left cursor := by
  simp only [Productions.alternative, ends_bind, ends_peek, ends_ite, ends_skip, ends_pure]
  refine ⟨fun helse => ?_, fun _ => ⟨Nat.le_refl _, hcurrent⟩⟩
  have hlt := Cursor.left_advance_lt hcurrent
  have hword : cursor.advance.current.kind ≠ .eof := by
    change cursor.peek.kind ≠ .eof
    exact helse ▸ by decide
  apply expect_then (by decide) hword (by omega)
  intro opening hopening hcurrent
  exact (h.block (by omega) hcurrent).then (by omega) fun body cursor' hleft hcurrent =>
    ⟨by omega, hcurrent⟩

theorem ifElse (h : Sufficient depth inner) (hdepth : 4 * cursor.left ≤ depth)
    (hcurrent : cursor.current.kind ≠ .eof) : Advances inner.ifElse cursor.left cursor := by
  simp only [Productions.ifElse, ends_bind, ends_current, ends_skip, ends_pure]
  apply expect_then (by decide) hcurrent (Nat.le_refl _)
  intro opening hopening hcurrent
  refine (h.expression_advance _ (by omega) hcurrent).then (by omega)
    fun condition closing hcondition hcurrent => ?_
  apply expect_then (by decide) hcurrent (by omega)
  intro closing hclosing hcurrent
  apply expect_then (by decide) hcurrent (by omega)
  intro brace hbrace hcurrent
  refine (h.block (by omega) hcurrent).then (by omega)
    fun consequence last hconsequence hcurrent => ?_
  exact (h.alternative (by omega) hcurrent).then (by omega)
    fun alternative? last' halternative hcurrent => ⟨by omega, hcurrent⟩

theorem parameterList (h : Sufficient depth inner) (hdepth : 4 * cursor.left ≤ depth)
    (hcurrent : cursor.current.kind ≠ .eof) :
    Advances inner.parameterList cursor.left cursor := by
  simp only [Productions.parameterList, Productions.identifier, ends_bind, ends_peek, ends_ite,
    ends_skip, ends_current, ends_pure]
  refine ⟨fun hpeek => ⟨cursor.left_advance_le, hpeek ▸ by decide⟩, fun _ => ?_⟩
  apply expect_then (by decide) hcurrent (Nat.le_refl _)
  intro first hfirst hcurrent
  refine ((h.parameters first (by omega)).advances hcurrent).then (by omega)
    fun rest cursor' hleft hcurrent => ?_
  exact expect_then (by decide) hcurrent (by omega) fun closing hclosing hcurrent =>
    ⟨by omega, hcurrent⟩

theorem function (h : Sufficient depth inner) (hdepth : 4 * cursor.left ≤ depth)
    (hcurrent : cursor.current.kind ≠ .eof) : Advances inner.function cursor.left cursor := by
  simp only [Productions.function, ends_bind, ends_current, ends_pure]
  apply expect_then (by decide) hcurrent (Nat.le_refl _)
  intro opening hopening hcurrent
  refine (h.parameterList (by omega) hcurrent).then (by omega)
    fun parameters cursor' hleft hcurrent => ?_
  apply expect_then (by decide) hcurrent (by omega)
  intro brace hbrace hcurrent
  exact (h.block (by omega) hcurrent).then (by omega) fun body cursor'' hleft' hcurrent =>
    ⟨by omega, hcurrent⟩

theorem operandRule (h : Sufficient depth inner) (rule : OperandRule)
    (hdepth : 4 * cursor.left ≤ depth) (hcurrent : cursor.current.kind ≠ .eof) :
    Advances (rule.read inner) cursor.left cursor := by
  cases rule with
  | identifier => exact ⟨Nat.le_refl _, hcurrent⟩
  | integer =>
      simp only [OperandRule.read, Productions.integer, ends_bind, ends_current]
      cases Numeral.value? cursor.current.text with
      | none => exact ⟨by simp, Nat.le_refl _⟩
      | some value => exact ⟨Nat.le_refl _, hcurrent⟩
  | boolean => exact ⟨Nat.le_refl _, hcurrent⟩
  | unary => exact h.unary hdepth hcurrent
  | grouping => exact h.grouping hdepth hcurrent
  | ifElse => exact h.ifElse hdepth hcurrent
  | function => exact h.function hdepth hcurrent

/-- An operator is followed by at least one token. -/
theorem operatorRule (h : Sufficient depth inner) (left : Expr) (power : BindingPower)
    (rule : OperatorRule) (hdepth : 4 * cursor.left ≤ depth)
    (hcurrent : cursor.current.kind ≠ .eof) :
    Advances (rule.read inner left power) (cursor.left - 1) cursor := by
  have hlt := Cursor.left_advance_lt hcurrent
  cases rule with
  | binary =>
      simp only [OperatorRule.read, Productions.binary, ends_bind, ends_advance, ends_pure]
      exact (h.expression_advance _ (by omega) hcurrent).then (Nat.le_refl _)
        fun right cursor' hleft hcurrent' => ⟨hleft, hcurrent'⟩
  | call =>
      simp only [OperatorRule.read, Productions.call, Productions.argumentList, ends_bind,
        ends_current, ends_peek, ends_ite, ends_skip, ends_pure]
      refine ⟨fun hpeek => ⟨by omega, hpeek ▸ by decide⟩, fun _ => ?_⟩
      refine (h.expression_advance _ (by omega) hcurrent).then (Nat.le_refl _)
        fun first cursor' hleft hcurrent => ?_
      refine ((h.arguments cursor' (by omega)).advances hcurrent).then hleft
        fun rest cursor'' hleft' hcurrent => ?_
      exact expect_then (by decide) hcurrent (by omega) fun closing hclosing hcurrent =>
        ⟨by omega, hcurrent⟩

end Sufficient

/-! One more layer, and any depth that is great enough. -/

theorem sufficient_exhausted : Sufficient 0 (exhausted σ) where
  parameters _ h := absurd h (by omega)
  arguments _ h := absurd h (by omega)
  operators _ _ _ h := absurd h (by omega)
  expression _ _ h := absurd h (by omega)
  statement _ h := absurd h (by omega)
  statements _ h := absurd h (by omega)

variable [BoundedTokenSource σ] {grammar : Grammar}

theorem Sufficient.layer (hgrammar : grammar.LeavesEnd) {depth : Nat}
    {inner : Productions σ} (h : Sufficient depth inner) :
    Sufficient (depth + 1) (layer grammar inner) where
  parameters cursor hdepth := by
    have hle := cursor.left_advance_le
    simp only [Productions.layer, Productions.identifier, ends_bind, ends_peek, ends_ite,
      ends_skip, ends_current, ends_pure]
    refine ⟨fun hcomma => ?_, fun _ => ⟨Nat.le_refl _, id⟩⟩
    have hnext : cursor.advance.current.kind ≠ .eof := by
      change cursor.peek.kind ≠ .eof
      exact hcomma ▸ by decide
    apply expect_then (by decide) hnext hle
    intro first hfirst hcurrent
    exact ((h.parameters first (by omega)).advances hcurrent).then (by omega)
      fun rest cursor' hleft hcurrent => ⟨by omega, fun _ => hcurrent⟩
  arguments cursor hdepth := by
    have hle := cursor.left_advance_le
    simp only [Productions.layer, ends_bind, ends_peek, ends_ite, ends_skip, ends_pure]
    refine ⟨fun hcomma => ?_, fun _ => ⟨Nat.le_refl _, id⟩⟩
    have hnext : cursor.advance.current.kind ≠ .eof := by
      change cursor.peek.kind ≠ .eof
      exact hcomma ▸ by decide
    have hlt := Cursor.left_advance_lt hnext
    refine (h.expression_advance _ (by omega) hnext).then (by omega)
      fun first cursor' hleft hcurrent => ?_
    exact ((h.arguments cursor' (by omega)).advances hcurrent).then (by omega)
      fun rest cursor'' hleft' hcurrent => ⟨by omega, fun _ => hcurrent⟩
  operators power left cursor hdepth := by
    have hle := cursor.left_advance_le
    simp only [Productions.layer, ends_bind, ends_peek]
    cases hoperator : grammar.operator? cursor.peek.kind with
    | none => exact ⟨Nat.le_refl _, id⟩
    | some operator =>
        have hnext : cursor.advance.current.kind ≠ .eof := by
          intro heof
          rw [show cursor.peek.kind = .eof from heof, hgrammar.operator] at hoperator
          cases hoperator
        have hlt := Cursor.left_advance_lt hnext
        simp only [ends_ite, ends_bind, ends_skip, ends_pure]
        refine ⟨fun _ => ?_, fun _ => ⟨Nat.le_refl _, id⟩⟩
        refine (h.operatorRule left operator.power operator.rule (by omega) hnext).then
          (by omega) fun longer cursor' hleft hcurrent => ?_
        exact ((h.operators power longer cursor' (by omega)).advances hcurrent).then (by omega)
          fun longest cursor'' hleft' hcurrent => ⟨by omega, fun _ => hcurrent⟩
  expression power cursor hdepth := by
    simp only [Productions.layer, ends_bind, ends_current]
    cases hoperand : grammar.operand? cursor.current.kind with
    | none => exact ⟨by simp, Nat.le_refl _⟩
    | some rule =>
        have hcurrent : cursor.current.kind ≠ .eof := by
          intro heof
          rw [heof, hgrammar.operand] at hoperand
          cases hoperand
        simp only [ends_bind]
        refine (h.operandRule rule (by omega) hcurrent).then (Nat.le_refl _)
          fun left cursor' hleft hcurrent => ?_
        exact ((h.operators power left cursor' (by omega)).advances hcurrent).le hleft
  statement cursor hdepth := by
    simp only [Productions.layer, ends_bind, ends_current, ends_note]
    cases hstatement : grammar.statement? cursor.current.kind with
    | none => exact h.expressionStatement (by rw [Cursor.left_note]; omega)
    | some rule =>
        have hcurrent : cursor.current.kind ≠ .eof := by
          intro heof
          rw [heof, hgrammar.statement] at hstatement
          cases hstatement
        exact h.statementRule rule (by rw [Cursor.left_note]; omega) hcurrent
  statements cursor hdepth := by
    simp only [Productions.layer, ends_bind, ends_current, ends_ite, ends_skip, ends_pure]
    refine ⟨fun _ => Nat.le_refl _, fun _ => ?_⟩
    refine (h.statement cursor (by omega)).then (Nat.le_refl _)
      fun first cursor' hleft hcurrent => ?_
    have hlt := Cursor.left_advance_lt hcurrent
    exact (h.statements cursor'.advance (by omega)).mono
      (fun rest cursor'' hleft' => by omega)
      (fun stop cursor'' hstop => ⟨hstop.1, by omega⟩)

theorem sufficient_toDepth (hgrammar : grammar.LeavesEnd) (depth : Nat) :
    Sufficient depth (toDepth grammar depth : Productions σ) := by
  induction depth with
  | zero => exact sufficient_exhausted
  | succ depth ih => exact ih.layer hgrammar

end Productions

end MonkeySyntax
