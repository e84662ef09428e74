import MonkeySyntax.Proofs.Cursor.Mirror
import MonkeySyntax.Proofs.Productions.Knot
import MonkeySyntax.Proofs.Tree.Mirror
import MonkeySyntax.Proofs.Written.Tokens

namespace MonkeySyntax

open Reader

/-! Productions that start at like tokens go on in step: they move over as many tokens, give
trees of one shape, and stop at the same faults.  Nothing that they do depends on places. -/

/-- What the fault says of the token is true. -/
def Fault.Describes (token : Token) : Fault → Prop
  | .unexpectedToken expected found =>
    token.kind = found ∧ found ≠ expected ∧ expected ≠ .closeParen ∧ expected ≠ .closeCurly
  | .noOperand kind => token.kind = kind ∧ Grammar.standard.operand? kind = none
  | .malformedInteger text =>
    token.kind = .integer ∧ token.text = text ∧ Numeral.value? text = none
  | .unclosedDelimiter expected found =>
    token.kind = found ∧ found ≠ expected ∧ (expected = .closeParen ∨ expected = .closeCurly)

theorem Fault.describes_ofMismatch {token : Token} {expected : Kind}
    (h : token.kind ≠ expected) : (ofMismatch expected token.kind).Describes token := by
  cases expected with
  | closeParen => exact ⟨rfl, h, .inl rfl⟩
  | closeCurly => exact ⟨rfl, h, .inr rfl⟩
  | _ => exact ⟨rfl, h, by decide, by decide⟩

theorem Fault.Describes.of_like {fault : Fault} {token token' : Token}
    (h : fault.Describes token) (hkind : token.kind = token'.kind)
    (htext : token.text = token'.text) : fault.Describes token' := by
  cases fault <;> simpa only [Describes, ← hkind, ← htext] using h

/-- The diagnostic points at the token, and is right about it. -/
structure Diagnostic.Tells (diagnostic : Diagnostic) (token : Token) : Prop where
  position : diagnostic.position = token.span.start
  describes : diagnostic.fault.Describes token

/-- The same fault, at tokens that are like each other. -/
structure Diagnostic.Mirrors (L : Token.Likeness) (diagnostic diagnostic' : Diagnostic) : Prop where
  fault : diagnostic.fault = diagnostic'.fault
  tells : ∃ token token', L.Holds token token' ∧ diagnostic.Tells token ∧
    diagnostic'.Tells token'

variable {σ τ : Type} [TokenSource σ] [TokenSource τ] {L : Token.Likeness}

namespace Reader

variable {α β γ δ : Type} {V : α → β → Prop} {W : γ → δ → Prop}

/-- Related values, or the same fault, and cursors that mirror each other. -/
inductive EndsAlike (L : Token.Likeness) (V : α → β → Prop) :
    EStateM.Result Stop (Cursor σ) α → EStateM.Result Stop (Cursor τ) β → Prop
  | ok {value : α} {value' : β} {cursor : Cursor σ} {cursor' : Cursor τ}
      (hvalue : V value value') (hcursor : cursor.Mirrors L cursor') :
      EndsAlike L V (.ok value cursor) (.ok value' cursor')
  | fault {diagnostic diagnostic' : Diagnostic} {cursor : Cursor σ} {cursor' : Cursor τ}
      (hfault : diagnostic.Mirrors L diagnostic') (hcursor : cursor.Mirrors L cursor') :
      EndsAlike L V (.error (.fault diagnostic) cursor) (.error (.fault diagnostic') cursor')
  | exhausted {resource : Resource} {cursor : Cursor σ} {cursor' : Cursor τ} :
      EndsAlike L V (.error (@Stop.exhausted resource) cursor)
        (.error (@Stop.exhausted resource) cursor')

/-- The readers end alike wherever they start alike. -/
def Mirrors (L : Token.Likeness) (V : α → β → Prop) (reader : Reader σ α) (reader' : Reader τ β) :
    Prop :=
  ∀ ⦃cursor : Cursor σ⦄ ⦃cursor' : Cursor τ⦄, cursor.Mirrors L cursor' →
    EndsAlike L V (reader cursor) (reader' cursor')

theorem EndsAlike.bind {reader : Reader σ α} {reader' : Reader τ β} {next : α → Reader σ γ}
    {next' : β → Reader τ δ} {cursor : Cursor σ} {cursor' : Cursor τ}
    (h : EndsAlike L V (reader cursor) (reader' cursor'))
    (hnext : ∀ value value', V value value' → Mirrors L W (next value) (next' value')) :
    EndsAlike L W ((reader >>= next) cursor) ((reader' >>= next') cursor') := by
  rw [bind_apply, bind_apply]
  generalize reader cursor = result at h
  generalize reader' cursor' = result' at h
  cases h with
  | ok hvalue hcursor => exact hnext _ _ hvalue hcursor
  | fault hfault hcursor => exact .fault hfault hcursor
  | exhausted => exact .exhausted

namespace Mirrors

theorem bind {reader : Reader σ α} {reader' : Reader τ β} {next : α → Reader σ γ}
    {next' : β → Reader τ δ} (h : Mirrors L V reader reader')
    (hnext : ∀ value value', V value value' → Mirrors L W (next value) (next' value')) :
    Mirrors L W (reader >>= next) (reader' >>= next') :=
  fun _ _ hcursor => (h hcursor).bind hnext

protected theorem ite {p p' : Prop} [Decidable p] [Decidable p'] {first second : Reader σ α}
    {first' second' : Reader τ β} (hcondition : p ↔ p') (hfirst : p → Mirrors L V first first')
    (hsecond : ¬p → Mirrors L V second second') :
    Mirrors L V (if p then first else second) (if p' then first' else second') := by
  by_cases h : p
  · rw [if_pos h, if_pos (hcondition.mp h)]
    exact hfirst h
  · rw [if_neg h, if_neg fun h' => h (hcondition.mpr h')]
    exact hsecond h

/-! The single steps. -/

protected theorem pure {value : α} {value' : β} (h : V value value') :
    Mirrors L V (pure value : Reader σ α) (pure value' : Reader τ β) :=
  fun _ _ hcursor => .ok h hcursor

protected theorem current :
    Mirrors L L.Holds (current : Reader σ Token) (current : Reader τ Token) :=
  fun _ _ hcursor => .ok hcursor.current hcursor

protected theorem peek : Mirrors L L.Holds (peek : Reader σ Token) (peek : Reader τ Token) :=
  fun _ _ hcursor => .ok hcursor.peek hcursor

protected theorem fail {token token' : Token} {fault fault' : Fault} (h : L.Holds token token')
    (hdescribes : fault.Describes token) (hfault : fault = fault') :
    Mirrors L V (fail fault token.span.start : Reader σ α)
      (fail fault' token'.span.start : Reader τ β) := by
  intro cursor cursor' hcursor
  subst hfault
  exact .fault ⟨rfl, token, token', h, ⟨rfl, hdescribes⟩,
    rfl, hdescribes.of_like (L.kind h) (L.text h)⟩ hcursor

protected theorem note (entry entry' : Journal.Entry) :
    Mirrors L Eq (note entry : Reader σ Unit) (note entry' : Reader τ Unit) :=
  fun _ _ hcursor => .ok rfl (hcursor.note entry entry')

protected theorem enterBlock :
    Mirrors L Eq (enterBlock : Reader σ Unit) (enterBlock : Reader τ Unit) := by
  intro cursor cursor' hcursor
  rw [enterBlock_apply, enterBlock_apply, ← hcursor.depth]
  cases cursor.depth.enter? with
  | none => exact .exhausted
  | some depth => exact .ok rfl (hcursor.withDepth depth)

protected theorem leaveBlock :
    Mirrors L Eq (leaveBlock : Reader σ Unit) (leaveBlock : Reader τ Unit) :=
  fun _ _ hcursor => .ok rfl hcursor.leaveBlock

protected theorem skip : Mirrors L Eq (skip : Reader σ Unit) (skip : Reader τ Unit) :=
  fun _ _ hcursor => .ok rfl hcursor.advance

protected theorem advance :
    Mirrors L L.Holds (advance : Reader σ Token) (advance : Reader τ Token) :=
  fun _ _ hcursor => .ok hcursor.current hcursor.advance

protected theorem expect (kind : Kind) :
    Mirrors L Eq (expect kind : Reader σ Unit) (expect kind : Reader τ Unit) := by
  refine .bind .peek fun next next' hnext => ?_
  refine .ite (by rw [L.kind hnext]) (fun _ => .skip) (fun hne => ?_)
  exact .fail hnext (Fault.describes_ofMismatch hne) (by rw [L.kind hnext])

protected theorem endStatement :
    Mirrors L Eq (endStatement : Reader σ Unit) (endStatement : Reader τ Unit) := by
  refine .bind .peek fun next next' hnext => ?_
  exact .ite (by rw [L.kind hnext]) (fun _ => .skip) (fun _ => .pure rfl)

end Mirrors

end Reader

namespace Productions

structure Mirrored (L : Token.Likeness) (inner : Productions σ) (inner' : Productions τ) :
    Prop where
  statement : Mirrors L (Stmt.Mirrors L.Holds) inner.statement inner'.statement
  statements : Mirrors L (Stmt.MirrorsAll L.Holds) inner.statements inner'.statements
  expression (power : BindingPower) :
    Mirrors L (Expr.Mirrors L.Holds) (inner.expression power) (inner'.expression power)
  operators (power : BindingPower) {left left' : Expr} (hleft : left.Mirrors L.Holds left') :
    Mirrors L (Expr.Mirrors L.Holds) (inner.operators power left) (inner'.operators power left')
  parameters :
    Mirrors L (List.Forall₂ (Identifier.Mirrors L.Holds)) inner.parameters inner'.parameters
  arguments : Mirrors L (Expr.MirrorsAll L.Holds) inner.arguments inner'.arguments

namespace Mirrored

variable {inner : Productions σ} {inner' : Productions τ}

/-! Statements. -/

theorem block (h : Mirrored L inner inner') :
    Mirrors L (Block.Mirrors L.Holds) inner.block inner'.block := by
  refine .bind .advance fun token token' htoken => ?_
  refine .bind .enterBlock fun _ _ _ => ?_
  refine .bind h.statements fun stmts stmts' hstmts => ?_
  refine .bind .current fun last last' hlast => ?_
  refine .ite (by rw [L.kind hlast]) (fun heof => ?_) (fun _ => ?_)
  · exact .fail hlast ⟨heof, by decide, .inr rfl⟩ rfl
  · exact .bind .leaveBlock fun _ _ _ => .pure (.mk htoken hstmts)

theorem expressionStatement (h : Mirrored L inner inner') :
    Mirrors L (Stmt.Mirrors L.Holds) inner.expressionStatement inner'.expressionStatement := by
  refine .bind .current fun token token' htoken => ?_
  refine .bind (h.expression .lowest) fun value value' hvalue => ?_
  exact .bind .endStatement fun _ _ _ => .pure (.expression htoken hvalue)

theorem letStatement (h : Mirrored L inner inner') :
    Mirrors L (Stmt.Mirrors L.Holds) inner.letStatement inner'.letStatement := by
  refine .bind .current fun token token' htoken => ?_
  refine .bind (.expect _) fun _ _ _ => ?_
  refine .bind .current fun name name' hname => ?_
  refine .bind (.expect _) fun _ _ _ => ?_
  refine .bind .skip fun _ _ _ => ?_
  refine .bind (h.expression .lowest) fun value value' hvalue => ?_
  exact .bind .endStatement fun _ _ _ => .pure (.letBinding htoken ⟨hname, L.text hname⟩ hvalue)

theorem returnStatement (h : Mirrored L inner inner') :
    Mirrors L (Stmt.Mirrors L.Holds) inner.returnStatement inner'.returnStatement := by
  refine .bind .current fun token token' htoken => ?_
  refine .bind (V := fun value? value?' => Stmt.Mirrors L.Holds (.returning token value?)
    (.returning token' value?')) ?_ fun value? value?' hvalue => ?_
  · refine .bind .peek fun next next' hnext => ?_
    refine .ite (by rw [L.kind hnext]) (fun _ => .pure (.returning htoken)) (fun _ => ?_)
    refine .bind .skip fun _ _ _ => ?_
    exact .bind (h.expression .lowest) fun _ _ hvalue => .pure (.returningValue htoken hvalue)
  · exact .bind .endStatement fun _ _ _ => .pure hvalue

theorem blockStatement (h : Mirrored L inner inner') :
    Mirrors L (Stmt.Mirrors L.Holds) inner.blockStatement inner'.blockStatement := by
  refine .bind h.block fun body body' hbody => ?_
  exact .bind .endStatement fun _ _ _ => .pure (.block hbody)

theorem statementRule (h : Mirrored L inner inner') (rule : StatementRule) :
    Mirrors L (Stmt.Mirrors L.Holds) (rule.read inner) (rule.read inner') := by
  cases rule with
  | expression => exact h.expressionStatement
  | letBinding => exact h.letStatement
  | returning => exact h.returnStatement
  | block => exact h.blockStatement

/-! Operands. -/

theorem identifier : Mirrors L (Identifier.Mirrors L.Holds)
    (Productions.identifier : Reader σ Identifier) (Productions.identifier : Reader τ Identifier) :=
  .bind .current fun _ _ htoken => .pure ⟨htoken, L.text htoken⟩

/-- The token has to be known for what it is: else its text could be anything. -/
theorem integer {cursor : Cursor σ} {cursor' : Cursor τ} (hcursor : cursor.Mirrors L cursor')
    (hkind : cursor.current.kind = .integer) :
    EndsAlike L (Expr.Mirrors L.Holds) (Productions.integer cursor)
      (Productions.integer cursor') := by
  have htoken := hcursor.current
  simp only [Productions.integer, bind_apply, current_apply, ← L.text htoken]
  cases hvalue : Numeral.value? cursor.current.text with
  | none =>
      have htells : (Fault.malformedInteger cursor.current.text).Describes cursor.current :=
        ⟨hkind, rfl, hvalue⟩
      exact Mirrors.fail htoken htells rfl hcursor
  | some value => exact .ok (.integer htoken) hcursor

theorem boolean : Mirrors L (Expr.Mirrors L.Holds) (Productions.boolean : Reader σ Expr)
    (Productions.boolean : Reader τ Expr) := by
  refine .bind .current fun token token' htoken => .pure ?_
  rw [L.kind htoken]
  exact .boolean htoken

theorem unary (h : Mirrored L inner inner') :
    Mirrors L (Expr.Mirrors L.Holds) inner.unary inner'.unary := by
  refine .bind .advance fun token token' htoken => ?_
  refine .bind (h.expression .unary) fun operand operand' hoperand => .pure ?_
  rw [L.text htoken]
  exact .unary htoken hoperand

theorem grouping (h : Mirrored L inner inner') :
    Mirrors L (Expr.Mirrors L.Holds) inner.grouping inner'.grouping := by
  refine .bind .skip fun _ _ _ => ?_
  refine .bind (h.expression .lowest) fun value value' hvalue => ?_
  exact .bind (.expect _) fun _ _ _ => .pure hvalue

theorem alternative (h : Mirrored L inner inner') :
    Mirrors L (Block.MirrorsElse L.Holds) inner.alternative inner'.alternative := by
  refine .bind .peek fun next next' hnext => ?_
  refine .ite (by rw [L.kind hnext]) (fun _ => ?_) (fun _ => .pure .none)
  refine .bind .skip fun _ _ _ => ?_
  refine .bind (.expect _) fun _ _ _ => ?_
  exact .bind h.block fun _ _ hbody => .pure (.some hbody)

theorem ifElse (h : Mirrored L inner inner') :
    Mirrors L (Expr.Mirrors L.Holds) inner.ifElse inner'.ifElse := by
  refine .bind .current fun token token' htoken => ?_
  refine .bind (.expect _) fun _ _ _ => ?_
  refine .bind .skip fun _ _ _ => ?_
  refine .bind (h.expression .lowest) fun condition condition' hcondition => ?_
  refine .bind (.expect _) fun _ _ _ => ?_
  refine .bind (.expect _) fun _ _ _ => ?_
  refine .bind h.block fun consequence consequence' hconsequence => ?_
  refine .bind h.alternative fun alternative? alternative?' halternative => ?_
  exact .pure (.ifElse htoken hcondition hconsequence halternative)

theorem parameterList (h : Mirrored L inner inner') :
    Mirrors L (List.Forall₂ (Identifier.Mirrors L.Holds)) inner.parameterList
      inner'.parameterList := by
  refine .bind .peek fun next next' hnext => ?_
  refine .ite (by rw [L.kind hnext]) (fun _ => ?_) (fun _ => ?_)
  · exact .bind .skip fun _ _ _ => .pure .nil
  · refine .bind (.expect _) fun _ _ _ => ?_
    refine .bind identifier fun first first' hfirst => ?_
    refine .bind h.parameters fun rest rest' hrest => ?_
    exact .bind (.expect _) fun _ _ _ => .pure (.cons hfirst hrest)

theorem function (h : Mirrored L inner inner') :
    Mirrors L (Expr.Mirrors L.Holds) inner.function inner'.function := by
  refine .bind .current fun token token' htoken => ?_
  refine .bind (.expect _) fun _ _ _ => ?_
  refine .bind h.parameterList fun parameters parameters' hparameters => ?_
  refine .bind (.expect _) fun _ _ _ => ?_
  exact .bind h.block fun _ _ hbody => .pure (.function htoken hparameters hbody)

theorem operandRule (h : Mirrored L inner inner') {cursor : Cursor σ} {cursor' : Cursor τ}
    (hcursor : cursor.Mirrors L cursor') {rule : OperandRule}
    (hrule : Grammar.standard.operand? cursor.current.kind = some rule) :
    EndsAlike L (Expr.Mirrors L.Holds) (rule.read inner cursor) (rule.read inner' cursor') := by
  cases rule with
  | identifier => exact (identifier hcursor).bind fun _ _ hname => .pure (.identifier hname)
  | integer =>
      rw [Grammar.standard_operand?_iff] at hrule
      exact integer hcursor (List.mem_singleton.mp hrule)
  | boolean => exact boolean hcursor
  | unary => exact h.unary hcursor
  | grouping => exact h.grouping hcursor
  | ifElse => exact h.ifElse hcursor
  | function => exact h.function hcursor

/-! Operators. -/

theorem argumentList (h : Mirrored L inner inner') :
    Mirrors L (Expr.MirrorsAll L.Holds) inner.argumentList inner'.argumentList := by
  refine .bind .peek fun next next' hnext => ?_
  refine .ite (by rw [L.kind hnext]) (fun _ => ?_) (fun _ => ?_)
  · exact .bind .skip fun _ _ _ => .pure .nil
  · refine .bind .skip fun _ _ _ => ?_
    refine .bind (h.expression .lowest) fun first first' hfirst => ?_
    refine .bind h.arguments fun rest rest' hrest => ?_
    exact .bind (.expect _) fun _ _ _ => .pure (.cons hfirst hrest)

theorem operatorRule (h : Mirrored L inner inner') {left left' : Expr}
    (hleft : left.Mirrors L.Holds left') (power : BindingPower) (rule : OperatorRule) :
    Mirrors L (Expr.Mirrors L.Holds) (rule.read inner left power)
      (rule.read inner' left' power) := by
  cases rule with
  | binary =>
      refine .bind .advance fun token token' htoken => ?_
      refine .bind (h.expression power) fun right right' hright => .pure ?_
      rw [L.text htoken]
      exact .binary htoken hleft hright
  | call =>
      refine .bind .current fun token token' htoken => ?_
      exact .bind h.argumentList fun _ _ harguments => .pure (.call htoken hleft harguments)

/-! The productions, in terms of the rules. -/

theorem layer (h : Mirrored L inner inner') :
    Mirrored L (layer Grammar.standard inner) (layer Grammar.standard inner') where
  statement := by
    refine .bind .current fun token token' htoken => ?_
    refine .bind (.note _ _) fun _ _ _ => ?_
    rw [← L.kind htoken]
    cases Grammar.standard.statement? token.kind with
    | none => exact h.expressionStatement
    | some rule => exact h.statementRule rule
  statements := by
    refine .bind .current fun token token' htoken => ?_
    refine .ite (by rw [L.kind htoken]) (fun _ => .pure .nil) (fun _ => ?_)
    refine .bind h.statement fun first first' hfirst => ?_
    refine .bind .skip fun _ _ _ => ?_
    exact .bind h.statements fun _ _ hrest => .pure (.cons hfirst hrest)
  expression power := by
    intro cursor cursor' hcursor
    have htoken := hcursor.current
    simp only [Productions.layer, bind_apply, current_apply, ← L.kind htoken]
    cases hrule : Grammar.standard.operand? cursor.current.kind with
    | none =>
        have htells : (Fault.noOperand cursor.current.kind).Describes cursor.current :=
          ⟨rfl, hrule⟩
        exact Mirrors.fail htoken htells rfl hcursor
    | some rule =>
        exact (h.operandRule hcursor hrule).bind fun _ _ hleft => h.operators power hleft
  operators power {left left'} hleft := by
    refine .bind .peek fun next next' hnext => ?_
    rw [← L.kind hnext]
    cases Grammar.standard.operator? next.kind with
    | none => exact .pure hleft
    | some operator =>
        refine .ite Iff.rfl (fun _ => ?_) (fun _ => .pure hleft)
        refine .bind .skip fun _ _ _ => ?_
        exact .bind (h.operatorRule hleft operator.power operator.rule)
          fun _ _ hlonger => h.operators power hlonger
  parameters := by
    refine .bind .peek fun next next' hnext => ?_
    refine .ite (by rw [L.kind hnext]) (fun _ => ?_) (fun _ => .pure .nil)
    refine .bind .skip fun _ _ _ => ?_
    refine .bind (.expect _) fun _ _ _ => ?_
    refine .bind identifier fun first first' hfirst => ?_
    exact .bind h.parameters fun _ _ hrest => .pure (.cons hfirst hrest)
  arguments := by
    refine .bind .peek fun next next' hnext => ?_
    refine .ite (by rw [L.kind hnext]) (fun _ => ?_) (fun _ => .pure .nil)
    refine .bind .skip fun _ _ _ => ?_
    refine .bind .skip fun _ _ _ => ?_
    refine .bind (h.expression .lowest) fun first first' hfirst => ?_
    exact .bind h.arguments fun _ _ hrest => .pure (.cons hfirst hrest)

theorem toDepth (L : Token.Likeness) (depth : Nat) :
    Mirrored L (toDepth Grammar.standard depth : Productions σ)
      (toDepth Grammar.standard depth : Productions τ) := by
  induction depth with
  | zero => constructor <;> intros <;> exact fun _ _ _ => .exhausted
  | succ depth ih => exact ih.layer

end Mirrored

theorem tied_statement_mirrors [BoundedTokenSource σ] [BoundedTokenSource τ] {cursor : Cursor σ}
    {cursor' : Cursor τ} (h : cursor.Mirrors L cursor') :
    EndsAlike L (Stmt.Mirrors L.Holds) ((tied Grammar.standard).statement cursor)
      ((tied Grammar.standard).statement cursor') := by
  have hgrammar := Grammar.standard_leavesEnd
  have hends := (Mirrored.toDepth L
    (max (sufficientDepth cursor) (sufficientDepth cursor'))).statement h
  rwa [toDepth_statement hgrammar (Nat.le_max_left ..),
    toDepth_statement hgrammar (Nat.le_max_right ..)] at hends

end Productions

end MonkeySyntax
