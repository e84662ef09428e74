import MonkeySyntax.Proofs.Written.Tokens

namespace MonkeySyntax

/-! Where a reader that goes on past the operators above a power takes the whole of an
expression, and how the places of an expression ask for just that. -/

namespace Grammar

variable {kind : Kind} {power : BindingPower}

theorem standard_power_of_binary (h : standard.operator? kind = some ⟨power, .binary⟩) :
    standard.power kind = power := by
  rw [Grammar.power, h]

theorem standard_binary_bounds (h : standard.operator? kind = some ⟨power, .binary⟩) :
    .lowest < power ∧ power < .unary ∧ kind ≠ .openParen := by
  cases kind with
  | equals | notEquals | less | greater | plus | dash | star | slash =>
      obtain rfl : _ = power := congrArg Operator.power (Option.some.inj h)
      decide
  | openParen => cases h
  | _ => cases h

theorem standard_operator_cases {operator : Operator}
    (h : standard.operator? kind = some operator) :
    operator.rule = .binary ∨ kind = .openParen ∧ operator = ⟨.call, .call⟩ := by
  cases kind with
  | equals | notEquals | less | greater | plus | dash | star | slash =>
      obtain rfl := Option.some.inj h
      exact .inl rfl
  | openParen => exact .inr ⟨rfl, (Option.some.inj h).symm⟩
  | _ => cases h

theorem standard_operator_ne {operator : Operator}
    (h : standard.operator? kind = some operator) : kind ≠ .eof ∧ kind ≠ .semicolon := by
  constructor <;> rintro rfl <;> exact absurd h nofun

theorem standard_not_unary_lt (h : kind ≠ .openParen) :
    ¬ .unary < standard.power kind := by
  revert h
  cases kind <;> decide

theorem standard_power_eq_lowest_iff :
    standard.power kind = .lowest ↔ standard.operator? kind = none := by
  cases kind <;> decide

end Grammar

theorem BindingPower.eq_lowest_of_not_lt {power : BindingPower} (h : ¬ .lowest < power) :
    power = .lowest := by
  revert h
  cases power <;> decide

theorem BindingPower.lt_call_of_lt_unary {power : BindingPower} (h : power < .unary) :
    power < .call := by
  revert h
  cases power <;> decide

namespace Expr

/-- A reader that goes on past operators above the power takes the whole expression
where a token of the kind comes next. -/
def Joins (power : BindingPower) (next : Kind) : Expr → Prop
  | .binary token .. =>
    power < Grammar.standard.power token.kind ∧
      ¬ Grammar.standard.power token.kind < Grammar.standard.power next
  | .unary .. => next ≠ .openParen
  | _ => True

theorem Written.mono {fits fits' : Expr → Prop} {expr : Expr} {tokens : List Token}
    (h : expr.Written fits tokens) (hmono : expr.Bare tokens → fits expr → fits' expr) :
    expr.Written fits' tokens := by
  cases h with
  | bare h hfits => exact .bare h (hmono h hfits)
  | grouped hopening h hclosing => exact .grouped hopening h hclosing

variable {expr : Expr} {tokens : List Token} {power operator : BindingPower} {kind next : Kind}

/-! From what a reader takes to what fits. -/

theorem Joins.fitsLeft (h : expr.Joins power kind)
    (hkind : Grammar.standard.operator? kind = some ⟨operator, .binary⟩) :
    expr.FitsLeft operator := by
  cases expr with
  | binary token left operator right =>
      rw [← Grammar.standard_power_of_binary hkind]
      exact h.2
  | _ => trivial

theorem Joins.fitsRight (h : expr.Joins power next) : expr.FitsRight power := by
  cases expr with
  | binary token left operator right => exact h.1
  | _ => trivial

theorem FitsOperand.fitsRight (h : expr.FitsOperand) : expr.FitsRight power := by
  cases expr with
  | binary => exact h.elim
  | _ => trivial

theorem FitsRight.fitsOperand (hbare : expr.Bare tokens) (h : expr.FitsRight .unary) :
    expr.FitsOperand := by
  cases hbare with
  | binary hkind _ _ =>
      obtain ⟨-, hlt, -⟩ := Grammar.standard_binary_bounds hkind
      have hlt' : BindingPower.unary < _ := h
      rw [Grammar.standard_power_of_binary hkind, BindingPower.lt_iff] at hlt'
      rw [BindingPower.lt_iff] at hlt
      omega
  | _ => trivial

theorem Joins.fitsOperand (hbare : expr.Bare tokens) (h : expr.Joins .unary next) :
    expr.FitsOperand :=
  h.fitsRight.fitsOperand hbare

theorem Joins.fitsCallee (hbare : expr.Bare tokens) (h : expr.Joins power .openParen) :
    expr.FitsCallee := by
  cases hbare with
  | binary hkind _ _ =>
      obtain ⟨-, hlt, -⟩ := Grammar.standard_binary_bounds hkind
      refine absurd ?_ h.2
      rw [Grammar.standard_power_of_binary hkind]
      exact BindingPower.lt_call_of_lt_unary hlt
  | unary => exact absurd rfl h
  | _ => trivial

/-! From what fits to what a reader takes. -/

theorem FitsLeft.joins (h : expr.FitsLeft operator) (hlt : power < operator)
    (hkind : Grammar.standard.operator? kind = some ⟨operator, .binary⟩) :
    expr.Joins power kind := by
  cases expr with
  | binary token left operator right =>
      have hge : ¬ Grammar.standard.power token.kind < _ := h
      refine ⟨BindingPower.lt_of_lt_of_not_lt hlt hge, ?_⟩
      rwa [Grammar.standard_power_of_binary hkind]
  | unary token operator operand => exact (Grammar.standard_binary_bounds hkind).2.2
  | _ => trivial

theorem FitsRight.joins (h : expr.FitsRight operator) (hlt : operator < .unary)
    (hnext : ¬ operator < Grammar.standard.power next) : expr.Joins operator next := by
  cases expr with
  | binary token left operator right =>
      have hright : _ < Grammar.standard.power token.kind := h
      exact ⟨hright, BindingPower.not_lt_of_lt_of_not_lt hright hnext⟩
  | unary token operator operand =>
      rintro rfl
      exact hnext (BindingPower.lt_call_of_lt_unary hlt)
  | _ => trivial

theorem FitsOperand.joins (h : expr.FitsOperand) (hnext : next ≠ .openParen) :
    expr.Joins .unary next := by
  cases expr with
  | binary token left operator right => exact h.elim
  | unary token operator operand => exact hnext
  | _ => trivial

theorem FitsCallee.joins (h : expr.FitsCallee) : expr.Joins power .openParen := by
  cases expr with
  | binary token left operator right => exact h.elim
  | unary token operator operand => exact h.elim
  | _ => trivial

theorem Bare.joins_lowest (hbare : expr.Bare tokens)
    (hnext : Grammar.standard.power next = .lowest) : expr.Joins .lowest next := by
  cases hbare with
  | binary hkind _ _ =>
      have hbounds := Grammar.standard_binary_bounds hkind
      refine ⟨?_, ?_⟩
      · rw [Grammar.standard_power_of_binary hkind]
        exact hbounds.1
      · rw [hnext]
        exact Nat.not_lt_zero _
  | unary =>
      rintro rfl
      exact absurd hnext (by decide)
  | _ => trivial

end Expr

/-- A token of the kind may come after the statement when no semicolon ends it. -/
def Stmt.Abuts (next : Kind) : Stmt → Prop
  | .block _ => True
  | .returning _ none => next = .closeCurly ∨ next = .eof
  | _ => Grammar.standard.power next = .lowest

/-- What may come next is told by the statements that follow, which a closing brace or
the end comes after. -/
theorem Stmt.WrittenAll.abuts_iff {stmts : List Stmt} {tokens rest : List Token}
    (h : Stmt.WrittenAll stmts tokens) (stmt : Stmt)
    (hrest : Token.firstKind rest = .closeCurly ∨ Token.firstKind rest = .eof) :
    stmt.Abuts (Token.firstKind (tokens ++ rest)) ↔ stmt.MayAbut tokens := by
  rcases h.starts with rfl | hstarts
  · have hlowest : Grammar.standard.power (Token.firstKind rest) = .lowest := by
      rcases hrest with hrest | hrest <;> rw [hrest] <;> rfl
    have hnil : Token.firstKind [] ≠ .openParen ∧ Token.firstKind [] ≠ .dash := by decide
    cases stmt with
    | letBinding => exact iff_of_true hlowest hnil
    | returning token value? =>
        cases value? with
        | none => exact iff_of_true hrest rfl
        | some value => exact iff_of_true hlowest hnil
    | expression => exact iff_of_true hlowest hnil
    | block => exact Iff.rfl
  · rw [Token.firstKind_append rest hstarts.ne_eof]
    cases stmt with
    | letBinding => exact hstarts.power_eq_lowest_iff
    | returning token value? =>
        cases value? with
        | none =>
            refine iff_of_false (fun hnext => ?_) (fun hnil => ?_)
            · exact hnext.elim hstarts.ne_closeCurly hstarts.ne_eof
            · exact hstarts.ne_eof (congrArg Token.firstKind hnil)
        | some value => exact hstarts.power_eq_lowest_iff
    | expression => exact hstarts.power_eq_lowest_iff
    | block => exact Iff.rfl

theorem Stmt.abuts_eof (stmt : Stmt) : stmt.Abuts .eof := by
  cases stmt with
  | returning token value? =>
      cases value? with
      | none => exact .inr rfl
      | some value => exact rfl
  | block => trivial
  | _ => exact rfl

theorem Stmt.mayAbut_nil (stmt : Stmt) : stmt.MayAbut [] :=
  (Stmt.WrittenAll.nil.abuts_iff stmt (.inr Token.firstKind_nil)).mp stmt.abuts_eof

end MonkeySyntax
