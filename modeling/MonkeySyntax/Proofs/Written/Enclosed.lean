import MonkeySyntax.Parser
import MonkeySyntax.Proofs.Written.Begins

namespace MonkeySyntax

/-! Semicolons inside a statement lie in blocks: the only one outside of them is the one that
may end it. -/

/-- A token of the kind neither opens nor closes a block, and ends no statement. -/
def Kind.Inline (kind : Kind) : Prop :=
  kind ≠ .openCurly ∧ kind ≠ .closeCurly ∧ kind ≠ .semicolon
deriving Decidable

theorem Grammar.standard_operator_inline {kind : Kind} {operator : Operator}
    (h : standard.operator? kind = some operator) : kind.Inline := by
  cases kind with
  | openCurly | closeCurly | semicolon => cases h
  | _ => decide

theorem Kind.Inline.depthAfter {kind : Kind} (h : kind.Inline) (depth : Nat) :
    Cursor.depthAfter depth kind = depth := by
  cases kind with
  | openCurly => exact absurd rfl h.1
  | closeCurly => exact absurd rfl h.2.1
  | _ => rfl

namespace Token

/-- All blocks are closed, the ones that are open before the tokens too, and every semicolon
lies in one. -/
def Enclosed : Nat → List Token → Prop
  | depth, [] => depth = 0
  | depth, token :: rest =>
    (token.kind = .closeCurly ∨ token.kind = .semicolon → 0 < depth) ∧
      Enclosed (Cursor.depthAfter depth token.kind) rest

variable {depth least : Nat} {token last : Token} {tokens others used more : List Token}

theorem Enclosed.last_ne_semicolon (h : Enclosed depth (tokens ++ [last])) :
    last.kind ≠ .semicolon := by
  induction tokens generalizing depth with
  | nil =>
      intro hkind
      obtain ⟨hpos, hzero⟩ := h
      rw [hkind] at hzero
      have hlt := hpos (.inr hkind)
      exact Nat.ne_of_gt hlt hzero
  | cons token tokens ih => exact ih h.2

/-- Before the first block is opened there is no semicolon. -/
theorem Enclosed.ne_semicolon (h : Enclosed 0 (used ++ more))
    (hopen : ∀ token ∈ used, token.kind ≠ .openCurly) :
    ∀ token ∈ used, token.kind ≠ .semicolon := by
  induction used with
  | nil => exact fun _ hmem => absurd hmem List.not_mem_nil
  | cons token used ih =>
      obtain ⟨htoken, hused⟩ := List.forall_mem_cons.mp hopen
      obtain ⟨hpos, hrest⟩ := h
      have hinline : token.kind.Inline :=
        ⟨htoken, fun hkind => Nat.lt_irrefl 0 (hpos (.inl hkind)),
          fun hkind => Nat.lt_irrefl 0 (hpos (.inr hkind))⟩
      rw [hinline.depthAfter] at hrest
      exact List.forall_mem_cons.mpr ⟨hinline.2.2, ih hrest hused⟩

/-- Put before enclosed tokens, the tokens are enclosed with them, where so many blocks at
least are open. -/
def Encloses (least : Nat) (tokens : List Token) : Prop :=
  ∀ depth rest, least ≤ depth → Enclosed depth rest → Enclosed depth (tokens ++ rest)

namespace Encloses

theorem enclosed (h : Encloses 0 tokens) : Enclosed 0 tokens := by
  have hall := h 0 [] (Nat.le_refl 0) rfl
  rwa [List.append_nil] at hall

theorem nil : Encloses least [] := fun _ _ _ hrest => hrest

theorem mono (h : Encloses 0 tokens) : Encloses least tokens :=
  fun depth rest _ hrest => h depth rest (Nat.zero_le depth) hrest

theorem append (h : Encloses least tokens) (h' : Encloses least others) :
    Encloses least (tokens ++ others) := by
  intro depth rest hle hrest
  rw [List.append_assoc]
  exact h depth _ hle (h' depth rest hle hrest)

theorem cons (hkind : token.kind.Inline) (h : Encloses least tokens) :
    Encloses least (token :: tokens) := by
  intro depth rest hle hrest
  refine ⟨fun hclose => ?_, ?_⟩
  · exact (hclose.elim hkind.2.1 hkind.2.2).elim
  · rw [hkind.depthAfter]
    exact h depth rest hle hrest

theorem semicolon (hkind : token.kind = .semicolon) (h : Encloses 1 tokens) :
    Encloses 1 (token :: tokens) := by
  intro depth rest hle hrest
  refine ⟨fun _ => hle, ?_⟩
  rw [hkind]
  exact h depth rest hle hrest

theorem braces (hopening : token.kind = .openCurly) (h : Encloses 1 tokens)
    (hclosing : last.kind = .closeCurly) : Encloses 0 (token :: (tokens ++ [last])) := by
  intro depth rest _ hrest
  refine ⟨fun hclose => ?_, ?_⟩
  · rw [hopening] at hclose
    exact absurd hclose (by decide)
  · change Enclosed (Cursor.depthAfter depth token.kind) (tokens ++ [last] ++ rest)
    rw [hopening, List.append_assoc]
    refine h (depth + 1) _ (Nat.le_add_left 1 depth) ⟨fun _ => Nat.succ_pos depth, ?_⟩
    rw [hclosing]
    exact hrest

end Encloses

end Token

open Token (Encloses)

theorem Identifier.WrittenRest.encloses {names : List Identifier} {tokens : List Token}
    (h : Identifier.WrittenRest names tokens) : Encloses 0 tokens := by
  induction h with
  | nil => exact .nil
  | cons hcomma hkind _ ih => exact .cons (hcomma ▸ by decide) (.cons (hkind ▸ by decide) ih)

theorem Identifier.WrittenAll.encloses {names : List Identifier} {tokens : List Token}
    (h : Identifier.WrittenAll names tokens) : Encloses 0 tokens := by
  cases h with
  | nil => exact .nil
  | cons hkind hrest => exact .cons (hkind ▸ by decide) hrest.encloses

mutual

theorem Expr.Bare.encloses {expr : Expr} {tokens : List Token} (h : expr.Bare tokens) :
    Encloses 0 tokens :=
  match h with
  | .identifier hkind => .cons (hkind ▸ by decide) .nil
  | .integer hkind _ => .cons (hkind ▸ by decide) .nil
  | .boolean hkind => .cons (by rcases hkind with hkind | hkind <;> rw [hkind] <;> decide) .nil
  | .unary hkind hoperand =>
      .cons (by rcases hkind with hkind | hkind <;> rw [hkind] <;> decide) hoperand.encloses
  | .binary hkind hleft hright =>
      hleft.encloses.append (.cons (Grammar.standard_operator_inline hkind) hright.encloses)
  | .ifElse hkind hopening hcondition hclosing hconsequence halternative =>
      .cons (hkind ▸ by decide) (.cons (hopening ▸ by decide)
        (hcondition.encloses.append (.cons (hclosing ▸ by decide)
          (hconsequence.encloses.append halternative.encloses))))
  | .function hkind hopening hparameters hclosing hbody =>
      .cons (hkind ▸ by decide) (.cons (hopening ▸ by decide)
        (hparameters.encloses.append (.cons (hclosing ▸ by decide) hbody.encloses)))
  | .call hcallee hkind harguments hclosing =>
      hcallee.encloses.append (.cons (hkind ▸ by decide)
        (harguments.encloses.append (.cons (hclosing ▸ by decide) .nil)))

theorem Expr.Written.encloses {fits : Expr → Prop} {expr : Expr} {tokens : List Token}
    (h : expr.Written fits tokens) : Encloses 0 tokens :=
  match h with
  | .bare h _ => h.encloses
  | .grouped hopening h hclosing =>
      .cons (hopening ▸ by decide) (h.encloses.append (.cons (hclosing ▸ by decide) .nil))

theorem Expr.WrittenAll.encloses {exprs : List Expr} {tokens : List Token}
    (h : Expr.WrittenAll exprs tokens) : Encloses 0 tokens :=
  match h with
  | .nil => .nil
  | .cons hfirst hrest => hfirst.encloses.append hrest.encloses

theorem Expr.WrittenRest.encloses {exprs : List Expr} {tokens : List Token}
    (h : Expr.WrittenRest exprs tokens) : Encloses 0 tokens :=
  match h with
  | .nil => .nil
  | .cons hcomma hfirst hrest =>
      .cons (hcomma ▸ by decide) (hfirst.encloses.append hrest.encloses)

theorem Block.Written.encloses {body : Block} {tokens : List Token}
    (h : body.Written tokens) : Encloses 0 tokens :=
  match h with
  | .braces hopening h hclosing => .braces hopening h.encloses hclosing

theorem Block.WrittenElse.encloses {body? : Option Block} {tokens : List Token}
    (h : Block.WrittenElse body? tokens) : Encloses 0 tokens :=
  match h with
  | .none => .nil
  | .some hword h => .cons (hword ▸ by decide) h.encloses

theorem Stmt.Written.encloses {stmt : Stmt} {tokens : List Token} (h : stmt.Written tokens) :
    Encloses 0 tokens :=
  match h with
  | .letBinding hkind hname hsign hvalue =>
      .cons (hkind ▸ by decide) (.cons (hname ▸ by decide)
        (.cons (hsign ▸ by decide) hvalue.encloses))
  | .returning hkind => .cons (hkind ▸ by decide) .nil
  | .returningValue hkind hvalue => .cons (hkind ▸ by decide) hvalue.encloses
  | .expression h => h.encloses
  | .block h => h.encloses

theorem Stmt.WrittenAll.encloses {stmts : List Stmt} {tokens : List Token}
    (h : Stmt.WrittenAll stmts tokens) : Encloses 1 tokens :=
  match h with
  | .nil => .nil
  | .closed hfirst hsemicolon hrest =>
      hfirst.encloses.mono.append (.semicolon hsemicolon hrest.encloses)
  | .abutting hfirst _ hrest => hfirst.encloses.mono.append hrest.encloses

end

theorem Stmt.Written.last_ne_semicolon {stmt : Stmt} {tokens : List Token} {last : Token}
    (h : stmt.Written (tokens ++ [last])) : last.kind ≠ .semicolon :=
  h.encloses.enclosed.last_ne_semicolon

theorem Stmt.ne_semicolon_of_begins {used : List Token} (h : Begins Stmt.Written used)
    (hopen : ∀ token ∈ used, token.kind ≠ .openCurly) :
    ∀ token ∈ used, token.kind ≠ .semicolon := by
  obtain ⟨stmt, more, hwritten⟩ := h
  exact hwritten.encloses.enclosed.ne_semicolon hopen

end MonkeySyntax
