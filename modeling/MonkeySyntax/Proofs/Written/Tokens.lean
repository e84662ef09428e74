import MonkeySyntax.Proofs.Written

namespace MonkeySyntax

/-! The tokens of what is written: what kind the first may have, and that none of them
is an end. -/

theorem Token.firstKind_append {tokens : List Token} (rest : List Token)
    (h : firstKind tokens ≠ .eof) : firstKind (tokens ++ rest) = firstKind tokens := by
  cases tokens with
  | nil => exact absurd rfl h
  | cons first tokens => rfl

/-- The kinds of the tokens that the rule is named for. -/
def OperandRule.kinds : OperandRule → List Kind
  | .identifier => [.identifier]
  | .integer => [.integer]
  | .boolean => [.trueWord, .falseWord]
  | .unary => [.not, .dash]
  | .grouping => [.openParen]
  | .ifElse => [.ifWord]
  | .function => [.fnWord]

theorem Grammar.standard_operand?_iff {kind : Kind} {rule : OperandRule} :
    standard.operand? kind = some rule ↔ kind ∈ rule.kinds := by
  cases rule <;> cases kind <;> decide

def StatementRule.kinds : StatementRule → List Kind
  | .expression => []
  | .letBinding => [.letWord]
  | .returning => [.returnWord]
  | .block => [.openCurly]

theorem Grammar.standard_statement?_iff {kind : Kind} {rule : StatementRule} :
    standard.statement? kind = some rule ↔ kind ∈ rule.kinds := by
  cases rule <;> cases kind <;> decide

namespace Kind

def StartsExpression (kind : Kind) : Prop :=
  Grammar.standard.operand? kind ≠ none

def StartsStatement (kind : Kind) : Prop :=
  Grammar.standard.statement? kind ≠ none ∨ kind.StartsExpression

instance (kind : Kind) : Decidable kind.StartsExpression :=
  inferInstanceAs (Decidable (_ ≠ _))

instance (kind : Kind) : Decidable kind.StartsStatement :=
  inferInstanceAs (Decidable (_ ∨ _))

variable {kind : Kind}

theorem StartsExpression.startsStatement (h : kind.StartsExpression) :
    kind.StartsStatement :=
  .inr h

theorem StartsExpression.statement?_eq (h : kind.StartsExpression) :
    Grammar.standard.statement? kind = none := by
  revert h
  cases kind <;> decide

theorem StartsExpression.ne_eof (h : kind.StartsExpression) : kind ≠ .eof := by
  rintro rfl
  exact absurd h (by decide)

theorem StartsExpression.ne_closeParen (h : kind.StartsExpression) :
    kind ≠ .closeParen := by
  rintro rfl
  exact absurd h (by decide)

namespace StartsStatement

theorem ne_eof (h : kind.StartsStatement) : kind ≠ .eof := by
  rintro rfl
  exact absurd h (by decide)

theorem ne_closeCurly (h : kind.StartsStatement) : kind ≠ .closeCurly := by
  rintro rfl
  exact absurd h (by decide)

theorem ne_semicolon (h : kind.StartsStatement) : kind ≠ .semicolon := by
  rintro rfl
  exact absurd h (by decide)

theorem ne_elseWord (h : kind.StartsStatement) : kind ≠ .elseWord := by
  rintro rfl
  exact absurd h (by decide)

/-- Parentheses and dashes both start expressions and go on with them. -/
theorem power_eq_lowest_iff (h : kind.StartsStatement) :
    Grammar.standard.power kind = .lowest ↔ kind ≠ .openParen ∧ kind ≠ .dash := by
  revert h
  cases kind <;> decide

end StartsStatement

end Kind

mutual

theorem Expr.Bare.starts {expr : Expr} {tokens : List Token} (h : expr.Bare tokens) :
    (Token.firstKind tokens).StartsExpression :=
  match h with
  | .identifier hkind => by rw [Token.firstKind_cons, hkind]; decide
  | .integer hkind _ => by rw [Token.firstKind_cons, hkind]; decide
  | .boolean hkind => by
      rcases hkind with hkind | hkind
      · rw [Token.firstKind_cons, hkind]; decide
      · rw [Token.firstKind_cons, hkind]; decide
  | .unary hkind _ => by
      rcases hkind with hkind | hkind
      · rw [Token.firstKind_cons, hkind]; decide
      · rw [Token.firstKind_cons, hkind]; decide
  | .binary _ hleft _ => by
      rw [Token.firstKind_append _ hleft.starts.ne_eof]
      exact hleft.starts
  | .ifElse hkind _ _ _ _ _ => by rw [Token.firstKind_cons, hkind]; decide
  | .function hkind _ _ _ _ => by rw [Token.firstKind_cons, hkind]; decide
  | .call hcallee _ _ _ => by
      rw [Token.firstKind_append _ hcallee.starts.ne_eof]
      exact hcallee.starts

theorem Expr.Written.starts {fits : Expr → Prop} {expr : Expr} {tokens : List Token}
    (h : expr.Written fits tokens) : (Token.firstKind tokens).StartsExpression :=
  match h with
  | .bare h _ => h.starts
  | .grouped hopening _ _ => by rw [Token.firstKind_cons, hopening]; decide

end

theorem Block.Written.firstKind {body : Block} {tokens : List Token}
    (h : body.Written tokens) : Token.firstKind tokens = .openCurly := by
  cases h with
  | braces hopening _ _ => exact hopening

theorem Stmt.Written.starts {stmt : Stmt} {tokens : List Token} (h : stmt.Written tokens) :
    (Token.firstKind tokens).StartsStatement := by
  cases h with
  | letBinding hkind => rw [Token.firstKind_cons, hkind]; decide
  | returning hkind => rw [Token.firstKind_cons, hkind]; decide
  | returningValue hkind => rw [Token.firstKind_cons, hkind]; decide
  | expression h => exact h.starts.startsStatement
  | block h => rw [h.firstKind]; decide

theorem Stmt.WrittenAll.starts {stmts : List Stmt} {tokens : List Token}
    (h : Stmt.WrittenAll stmts tokens) :
    tokens = [] ∨ (Token.firstKind tokens).StartsStatement := by
  cases h with
  | nil => exact .inl rfl
  | closed hfirst _ _ =>
      rw [Token.firstKind_append _ hfirst.starts.ne_eof]
      exact .inr hfirst.starts
  | abutting hfirst _ _ =>
      rw [Token.firstKind_append _ hfirst.starts.ne_eof]
      exact .inr hfirst.starts

/-- No semicolon comes first, and no alternative. -/
theorem Stmt.WrittenAll.firstKind_ne {stmts : List Stmt} {tokens rest : List Token}
    (h : Stmt.WrittenAll stmts tokens)
    (hrest : Token.firstKind rest = .closeCurly ∨ Token.firstKind rest = .eof) :
    Token.firstKind (tokens ++ rest) ≠ .semicolon ∧
      Token.firstKind (tokens ++ rest) ≠ .elseWord := by
  rcases h.starts with rfl | hstarts
  · rw [List.nil_append]
    rcases hrest with hrest | hrest <;> rw [hrest] <;> decide
  · rw [Token.firstKind_append _ hstarts.ne_eof]
    exact ⟨hstarts.ne_semicolon, hstarts.ne_elseWord⟩

theorem Expr.WrittenRest.firstKind {exprs : List Expr} {tokens : List Token}
    (h : Expr.WrittenRest exprs tokens) : tokens = [] ∨ Token.firstKind tokens = .comma := by
  cases h with
  | nil => exact .inl rfl
  | cons hcomma _ _ => exact .inr hcomma

theorem Identifier.WrittenRest.ne_eof {names : List Identifier} {tokens : List Token}
    (h : Identifier.WrittenRest names tokens) : ∀ token ∈ tokens, token.kind ≠ .eof := by
  induction h with
  | nil => simp
  | cons hcomma hkind _ ih => simpa [hcomma, hkind] using ih

theorem Identifier.WrittenAll.ne_eof {names : List Identifier} {tokens : List Token}
    (h : Identifier.WrittenAll names tokens) : ∀ token ∈ tokens, token.kind ≠ .eof := by
  cases h with
  | nil => simp
  | cons hkind hrest => simpa [hkind] using hrest.ne_eof

mutual

theorem Expr.Bare.ne_eof {expr : Expr} {tokens : List Token} (h : expr.Bare tokens) :
    ∀ token ∈ tokens, token.kind ≠ .eof :=
  match h with
  | .identifier hkind => by simp [hkind]
  | .integer hkind _ => by simp [hkind]
  | .boolean hkind => by rcases hkind with hkind | hkind <;> simp [hkind]
  | .unary hkind hoperand => by
      have hne := hoperand.ne_eof
      rcases hkind with hkind | hkind <;> simpa [hkind] using hne
  | @Expr.Bare.binary token _ _ _ _ _ hkind hleft hright => by
      have hne : token.kind ≠ .eof := fun heof => by simp [heof, Grammar.standard] at hkind
      simpa [or_imp, forall_and, hne] using And.intro hleft.ne_eof hright.ne_eof
  | .ifElse hkind hopening hcondition hclosing hconsequence halternative => by
      simpa [or_imp, forall_and, hkind, hopening, hclosing] using
        And.intro hcondition.ne_eof (And.intro hconsequence.ne_eof halternative.ne_eof)
  | .function hkind hopening hparameters hclosing hbody => by
      simpa [or_imp, forall_and, hkind, hopening, hclosing] using
        And.intro hparameters.ne_eof hbody.ne_eof
  | .call hcallee hkind harguments hclosing => by
      simpa [or_imp, forall_and, hkind, hclosing] using
        And.intro hcallee.ne_eof harguments.ne_eof

theorem Expr.Written.ne_eof {fits : Expr → Prop} {expr : Expr} {tokens : List Token}
    (h : expr.Written fits tokens) : ∀ token ∈ tokens, token.kind ≠ .eof :=
  match h with
  | .bare h _ => by exact h.ne_eof
  | .grouped hopening h hclosing => by
      simpa [or_imp, forall_and, hopening, hclosing] using h.ne_eof

theorem Expr.WrittenAll.ne_eof {exprs : List Expr} {tokens : List Token}
    (h : Expr.WrittenAll exprs tokens) : ∀ token ∈ tokens, token.kind ≠ .eof :=
  match h with
  | .nil => by simp
  | .cons hfirst hrest => by
      simpa [or_imp, forall_and] using And.intro hfirst.ne_eof hrest.ne_eof

theorem Expr.WrittenRest.ne_eof {exprs : List Expr} {tokens : List Token}
    (h : Expr.WrittenRest exprs tokens) : ∀ token ∈ tokens, token.kind ≠ .eof :=
  match h with
  | .nil => by simp
  | .cons hcomma hfirst hrest => by
      simpa [or_imp, forall_and, hcomma] using And.intro hfirst.ne_eof hrest.ne_eof

theorem Block.Written.ne_eof {body : Block} {tokens : List Token}
    (h : body.Written tokens) : ∀ token ∈ tokens, token.kind ≠ .eof :=
  match h with
  | .braces hopening h hclosing => by
      simpa [or_imp, forall_and, hopening, hclosing] using h.ne_eof

theorem Block.WrittenElse.ne_eof {body? : Option Block} {tokens : List Token}
    (h : Block.WrittenElse body? tokens) : ∀ token ∈ tokens, token.kind ≠ .eof :=
  match h with
  | .none => by simp
  | .some hword h => by simpa [hword] using h.ne_eof

theorem Stmt.Written.ne_eof {stmt : Stmt} {tokens : List Token} (h : stmt.Written tokens) :
    ∀ token ∈ tokens, token.kind ≠ .eof :=
  match h with
  | .letBinding hkind hname hsign hvalue => by
      simpa [hkind, hname, hsign] using hvalue.ne_eof
  | .returning hkind => by simp [hkind]
  | .returningValue hkind hvalue => by simpa [hkind] using hvalue.ne_eof
  | .expression h => by exact h.ne_eof
  | .block h => by exact h.ne_eof

theorem Stmt.WrittenAll.ne_eof {stmts : List Stmt} {tokens : List Token}
    (h : Stmt.WrittenAll stmts tokens) : ∀ token ∈ tokens, token.kind ≠ .eof :=
  match h with
  | .nil => by simp
  | .closed hfirst hsemicolon hrest => by
      simpa [or_imp, forall_and, hsemicolon] using And.intro hfirst.ne_eof hrest.ne_eof
  | .abutting hfirst _ hrest => by
      simpa [or_imp, forall_and] using And.intro hfirst.ne_eof hrest.ne_eof

end

end MonkeySyntax
