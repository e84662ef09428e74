import MonkeySyntax.Parser.Recursion
import MonkeySyntax.Proofs.Cursor.Ahead
import MonkeySyntax.Proofs.Reader

namespace MonkeySyntax

open Reader

/-! One step into an expression, by productions that call nothing but themselves: the operand at
the current token, and then an operator for as long as the next one binds tightly enough. -/

namespace Productions

variable {σ : Type} [TokenSource σ] {grammar : Grammar} {inner : Productions σ}
  {cursor : Cursor σ} {token : Token} {tokens rest : List Token} {finish : Token}
  {power : BindingPower} {left : Expr} {returns : Expr → Cursor σ → Prop}
  {stops : Stop → Cursor σ → Prop}

theorem ends_expression_of_layer (hinner : layer grammar inner = inner) {rule : OperandRule}
    (h : cursor.Holds (token :: rest) finish)
    (hrule : grammar.operand? token.kind = some rule) :
    Ends (inner.expression power) returns stops cursor ↔
      Ends (rule.read inner)
        (fun left cursor => Ends (inner.operators power left) returns stops cursor) stops
        cursor := by
  conv => lhs; rw [← hinner]
  simp only [layer, ends_bind, ends_current, h.current, hrule]

theorem ends_operators_of_layer_of_not_lt (hinner : layer grammar inner = inner)
    (hge : ¬ power < grammar.power (Token.firstKind tokens))
    (h : cursor.advance.Holds tokens finish) :
    Ends (inner.operators power left) returns stops cursor ↔ returns left cursor := by
  conv => lhs; rw [← hinner]
  rw [← h.kind_current, Grammar.power] at hge
  simp only [layer, ends_bind, ends_peek]
  rw [← Cursor.current_advance]
  cases hoperator : grammar.operator? cursor.advance.current.kind with
  | none => rfl
  | some operator =>
      rw [hoperator] at hge
      dsimp only at hge ⊢
      rw [if_neg fun hlt => hge hlt.2, ends_pure]

theorem ends_operators_of_layer_of_lt (hinner : layer grammar inner = inner)
    {operator : Operator} (hoperator : grammar.operator? token.kind = some operator)
    (hne : token.kind ≠ .semicolon) (hlt : power < operator.power)
    (h : cursor.advance.Holds (token :: rest) finish) :
    Ends (inner.operators power left) returns stops cursor ↔
      Ends (operator.rule.read inner left operator.power)
        (fun longer cursor => Ends (inner.operators power longer) returns stops cursor) stops
        cursor.advance := by
  conv => lhs; rw [← hinner]
  simp only [layer, ends_bind, ends_peek]
  rw [← Cursor.current_advance, h.current, hoperator]
  dsimp only
  rw [if_pos ⟨hne, hlt⟩, ends_bind, ends_skip, ends_bind]

end Productions

end MonkeySyntax
