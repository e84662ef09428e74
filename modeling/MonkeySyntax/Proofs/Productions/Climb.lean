import MonkeySyntax.Proofs.Productions.Knot
import MonkeySyntax.Proofs.Productions.Layer
import MonkeySyntax.Proofs.Tree.Ranked

namespace MonkeySyntax

open Reader

/-! Precedence climbing: a chain of binary operators is read as a tree in which each has its rank,
under any grammar that has the usual operands. -/

namespace Grammar

/-- The operators of the links are binary ones. -/
def Chains (grammar : Grammar) (links : List Link) : Prop :=
  ∀ link ∈ links, ∃ power, grammar.operator? link.operator.kind = some ⟨power, .binary⟩

theorem power_of_operator? {grammar : Grammar} {kind : Kind} {operator : Operator}
    (h : grammar.operator? kind = some operator) : grammar.power kind = operator.power := by
  rw [Grammar.power, h]

end Grammar

namespace Productions

variable {σ : Type} [TokenSource σ] {grammar : Grammar} {inner : Productions σ}
  {cursor : Cursor σ} {first : Token} {links : List Link} {rest : List Token} {finish : Token}
  {power : BindingPower} {expr : Expr} {returns : Expr → Cursor σ → Prop}
  {stops : Stop → Cursor σ → Prop}

theorem exists_rule_of_operand? {token : Token} (h : token.operand? = some expr) :
    ∃ rule : OperandRule, Grammar.standard.operand? token.kind = some rule ∧
      ∀ (inner : Productions σ) (cursor : Cursor σ), cursor.current = token →
        rule.read inner cursor = (pure expr : Reader σ Expr) cursor := by
  rcases Token.operand?_cases h with ⟨hkind, rfl⟩ | ⟨hkind, value, hvalue, rfl⟩ | ⟨hkind, rfl⟩
  · refine ⟨.identifier, by rw [hkind]; rfl, ?_⟩
    rintro inner cursor rfl
    rfl
  · refine ⟨.integer, by rw [hkind]; rfl, ?_⟩
    rintro inner cursor rfl
    simp only [OperandRule.read, integer, bind_apply, current_apply, hvalue, pure_apply]
  · refine ⟨.boolean, by rcases hkind with hkind | hkind <;> rw [hkind] <;> rfl, ?_⟩
    rintro inner cursor rfl
    rfl

/-- A tree in which each operator has its rank is read from the chain that it stands for, and the
reading goes on at the operators after it. -/
theorem ends_expression_of_inOrder (hinner : layer grammar inner = inner)
    (hoperand : grammar.operand? = Grammar.standard.operand?)
    (hsemicolon : grammar.operator? .semicolon = none) (h : expr.InOrder first links)
    (hranked : expr.Ranked grammar) (hlinks : grammar.Chains links)
    (hholds : cursor.Holds (first :: (Link.tokens links ++ rest)) finish)
    (habove : ∀ top ∈ expr.power? grammar, power < top)
    (hnext : ∀ top ∈ expr.power? grammar, ¬ top < grammar.power (Token.firstKind rest))
    (hreturns : ∀ cursor' : Cursor σ, cursor'.Holds (Link.last first links :: rest) finish →
      Ends (inner.operators power expr) returns stops cursor') :
    Ends (inner.expression power) returns stops cursor := by
  induction h generalizing cursor rest power returns with
  | operand htoken =>
      obtain ⟨rule, hrule, hread⟩ := exists_rule_of_operand? (σ := σ) htoken
      rw [← hoperand] at hrule
      rw [ends_expression_of_layer hinner hholds hrule,
        ends_congr (hread inner cursor hholds.current), ends_pure]
      exact hreturns cursor hholds
  | @binary token first second left right lefts rights hleft hright ihLeft ihRight =>
      obtain ⟨hrankedLeft, hrankedRight, hlefts, hrights⟩ := hranked
      obtain ⟨hchainLeft, ⟨binds, hoperator⟩, hchainRight⟩ :
          grammar.Chains lefts ∧ (∃ binds, grammar.operator? token.kind = some ⟨binds, .binary⟩) ∧
            grammar.Chains rights := by
        simpa only [Grammar.Chains, List.forall_mem_append, List.forall_mem_cons] using hlinks
      have hbinds : grammar.power token.kind = binds := Grammar.power_of_operator? hoperator
      rw [hbinds] at hlefts hrights
      have hpower : power < binds := hbinds ▸ habove _ rfl
      have hafter : ¬ binds < grammar.power (Token.firstKind rest) := hbinds ▸ hnext _ rfl
      have hne : token.kind ≠ .semicolon := by
        intro hkind
        rw [hkind, hsemicolon] at hoperator
        cases hoperator
      -- The left part is read at the outer power and stops at the operator; the right part is read
      -- at the power of the operator and stops where the whole does.
      rw [Link.tokens_append, Link.tokens_cons, List.append_assoc] at hholds
      refine ihLeft hrankedLeft hchainLeft hholds ?_ ?_ fun cursor' hcursor => ?_
      · exact fun top htop => BindingPower.lt_of_lt_of_not_lt hpower (hlefts top htop)
      · rw [List.cons_append, Token.firstKind_cons, hbinds]
        exact hlefts
      · rw [ends_operators_of_layer_of_lt hinner hoperator hne hpower hcursor.advance]
        simp only [OperatorRule.read, binary, ends_bind, ends_advance]
        rw [hcursor.advance.current]
        refine ihRight hrankedRight hchainRight hcursor.advance.advance hrights ?_
          fun cursor'' hcursor' => ?_
        · exact fun top htop => BindingPower.not_lt_of_lt_of_not_lt (hrights top htop) hafter
        · rw [ends_operators_of_layer_of_not_lt hinner hafter hcursor'.advance, ends_pure]
          rw [Link.last_append_cons] at hreturns
          exact hreturns cursor'' hcursor'

/-- The chain ends where the next operator binds no more tightly than the power. -/
theorem exists_tied_expression_eq_ok [BoundedTokenSource σ] (hgrammar : grammar.LeavesEnd)
    (hoperand : grammar.operand? = Grammar.standard.operand?)
    (hsemicolon : grammar.operator? .semicolon = none) (h : expr.InOrder first links)
    (hranked : expr.Ranked grammar) (hlinks : grammar.Chains links)
    (habove : ∀ link ∈ links, power < grammar.power link.operator.kind)
    (hnext : ¬ power < grammar.power (Token.firstKind rest))
    (hholds : cursor.Holds (first :: (Link.tokens links ++ rest)) finish) :
    ∃ cursor', (tied grammar).expression power cursor = .ok expr cursor' ∧
      cursor'.Holds (Link.last first links :: rest) finish := by
  have hinner : (layer grammar (tied grammar) : Productions σ) = tied grammar :=
    (tied_eq_layer hgrammar).symm
  have hends : Ends ((tied grammar).expression power)
      (fun value cursor' => value = expr ∧ cursor'.Holds (Link.last first links :: rest) finish)
      (fun _ _ => False) cursor := by
    refine ends_expression_of_inOrder hinner hoperand hsemicolon h hranked hlinks hholds
      (h.forall_power? habove) (h.forall_power? fun link hlink => ?_) fun cursor' hcursor => ?_
    · exact BindingPower.not_lt_of_lt_of_not_lt (habove link hlink) hnext
    · rw [ends_operators_of_layer_of_not_lt hinner hnext hcursor.advance]
      exact ⟨rfl, hcursor⟩
  obtain ⟨_, cursor', hread, rfl, hcursor⟩ := hends.exists_ok
  exact ⟨cursor', hread, hcursor⟩

end Productions

end MonkeySyntax
