import MonkeySyntax.Proofs.Parser.Complete
import MonkeySyntax.Proofs.Parser.Sound
import MonkeySyntax.Proofs.Render.Copy

namespace MonkeySyntax

open Scanner

/-! The source text of a program is read as the same program, places apart. -/

theorem Scanner.Lexeme.head {kind : Kind} {text : List Char} (h : Lexeme kind text)
    (hequals : kind ≠ .equals) (hassignment : kind ≠ .assignment) (hillegal : kind ≠ .illegal) :
    text.head?.any (· != '=') = true := by
  cases h with
  | @word c _ hstart _ =>
      have hne : c ≠ '=' := by
        rintro rfl
        exact absurd hstart (by decide)
      simpa using hne
  | @number c _ hdigit _ =>
      have hne : c ≠ '=' := by
        rintro rfl
        exact absurd hdigit (by decide)
      simpa using hne
  | symbol h =>
      have hsymbols : ∀ entry ∈ symbols, entry.1 ≠ .equals → entry.1 ≠ .assignment →
          entry.2.head?.any (· != '=') = true := by decide
      exact hsymbols _ h hequals hassignment
  | illegal c => exact absurd rfl hillegal

theorem Token.IsLexeme.head {token : Token} (h : token.IsLexeme)
    (hkind : token.kind.StartsExpression) : token.text.toList.head?.any (· != '=') = true := by
  refine Lexeme.head h ?_ ?_ ?_ <;> intro heq <;> exact absurd (heq ▸ hkind) (by decide)

theorem head_append {text rest : List Char} (h : text.head?.any (· != '=') = true) :
    (text ++ rest).head?.any (· != '=') = true := by
  cases text with
  | nil => simp at h
  | cons c text => exact h

/-! No expression starts with an equals sign, which would go with a `!` before it. -/

mutual

theorem Expr.Bare.head_render {expr : Expr} {tokens : List Token} (h : expr.Bare tokens)
    (hlexemes : ∀ token ∈ tokens, token.IsLexeme) :
    expr.render.toList.head?.any (· != '=') = true :=
  match h with
  | .identifier hkind =>
      (hlexemes _ (List.mem_singleton_self _)).head (hkind ▸ by decide)
  | .integer hkind _ =>
      (hlexemes _ (List.mem_singleton_self _)).head (hkind ▸ by decide)
  | .boolean hkind =>
      (hlexemes _ (List.mem_singleton_self _)).head <| by
        rcases hkind with hkind | hkind <;> rw [hkind] <;> decide
  | .unary _ _ => by
      simp only [render, String.toList_append, List.append_assoc]
      exact head_append rfl
  | .binary _ _ _ => by
      simp only [render, String.toList_append, List.append_assoc]
      exact head_append rfl
  | .ifElse hkind _ _ _ _ _ => by
      simp only [render, String.toList_append, List.append_assoc]
      exact head_append ((hlexemes _ List.mem_cons_self).head (hkind ▸ by decide))
  | .function hkind _ _ _ _ => by
      simp only [render, String.toList_append, List.append_assoc]
      exact head_append ((hlexemes _ List.mem_cons_self).head (hkind ▸ by decide))
  | .call hcallee _ _ _ => by
      simp only [render, String.toList_append, List.append_assoc]
      exact head_append (hcallee.head_render fun token hmem =>
        hlexemes token (List.mem_append_left _ hmem))

theorem Expr.Written.head_render {fits : Expr → Prop} {expr : Expr} {tokens : List Token}
    (h : expr.Written fits tokens) (hlexemes : ∀ token ∈ tokens, token.IsLexeme) :
    expr.render.toList.head?.any (· != '=') = true :=
  match h with
  | .bare h _ => h.head_render hlexemes
  | .grouped _ h _ => h.head_render fun token hmem => hlexemes token (by simp [hmem])

end

mutual

theorem Expr.Bare.copies {expr : Expr} {tokens : List Token} (h : expr.Bare tokens)
    (hlexemes : ∀ token ∈ tokens, token.IsLexeme) : expr.Copies :=
  match h with
  | .identifier hkind => Expr.copies_identifier hkind (hlexemes _ (by simp))
  | .integer hkind hvalue => Expr.copies_integer hkind hvalue (hlexemes _ (by simp))
  | .boolean hkind => Expr.copies_boolean hkind (hlexemes _ (by simp))
  | .unary hkind hoperand => by
      have hlexemes' := fun token hmem => hlexemes token (List.mem_cons_of_mem _ hmem)
      exact Expr.copies_unary hkind (hlexemes _ (by simp)) (hoperand.head_render hlexemes')
        (hoperand.copies hlexemes')
  | .binary hkind hleft hright =>
      Expr.copies_binary hkind (hlexemes _ (by simp))
        (hleft.copies fun token hmem => hlexemes token (by simp [hmem]))
        (hright.copies fun token hmem => hlexemes token (by simp [hmem]))
  | .ifElse hkind _ hcondition _ hconsequence halternative =>
      Expr.copies_ifElse hkind (hlexemes _ (by simp))
        (hcondition.copies fun token hmem => hlexemes token (by simp [hmem]))
        (hconsequence.copies fun token hmem => hlexemes token (by simp [hmem]))
        (halternative.copies fun token hmem => hlexemes token (by simp [hmem]))
  | .function hkind _ hparameters _ hbody =>
      Expr.copies_function hkind (hlexemes _ (by simp)) hparameters
        (fun token hmem => hlexemes token (by simp [hmem]))
        (hbody.copies fun token hmem => hlexemes token (by simp [hmem]))
  | .call hcallee hkind harguments _ =>
      Expr.copies_call hkind (hlexemes _ (by simp))
        (hcallee.copies fun token hmem => hlexemes token (by simp [hmem]))
        (harguments.copies fun token hmem => hlexemes token (by simp [hmem]))

theorem Expr.Written.copies {fits : Expr → Prop} {expr : Expr} {tokens : List Token}
    (h : expr.Written fits tokens) (hlexemes : ∀ token ∈ tokens, token.IsLexeme) :
    expr.Copies :=
  match h with
  | .bare h _ => h.copies hlexemes
  | .grouped _ h _ => h.copies fun token hmem => hlexemes token (by simp [hmem])

theorem Expr.WrittenAll.copies {exprs : List Expr} {tokens : List Token}
    (h : Expr.WrittenAll exprs tokens) (hlexemes : ∀ token ∈ tokens, token.IsLexeme) :
    Expr.CopiesAll exprs :=
  match h with
  | .nil => Expr.copiesAll_nil
  | .cons hfirst hrest =>
      Expr.copiesAll_cons (hfirst.copies fun token hmem => hlexemes token (by simp [hmem]))
        (hrest.copies fun token hmem => hlexemes token (by simp [hmem]))

theorem Expr.WrittenRest.copies {exprs : List Expr} {tokens : List Token}
    (h : Expr.WrittenRest exprs tokens) (hlexemes : ∀ token ∈ tokens, token.IsLexeme) :
    Expr.CopiesRest exprs :=
  match h with
  | .nil => Expr.copiesRest_nil
  | .cons _ hfirst hrest =>
      Expr.copiesRest_cons (hfirst.copies fun token hmem => hlexemes token (by simp [hmem]))
        (hrest.copies fun token hmem => hlexemes token (by simp [hmem]))

theorem Block.Written.copies {body : Block} {tokens : List Token} (h : body.Written tokens)
    (hlexemes : ∀ token ∈ tokens, token.IsLexeme) : body.Copies :=
  match h with
  | .braces hkind hstmts _ =>
      Block.copies hkind (hlexemes _ (by simp))
        (hstmts.copies fun token hmem => hlexemes token (by simp [hmem]))

theorem Block.WrittenElse.copies {body? : Option Block} {tokens : List Token}
    (h : Block.WrittenElse body? tokens) (hlexemes : ∀ token ∈ tokens, token.IsLexeme) :
    Block.CopiesElse body? :=
  match h with
  | .none => Block.copiesElse_none
  | .some _ hbody =>
      Block.copiesElse_some (hbody.copies fun token hmem => hlexemes token (by simp [hmem]))

theorem Stmt.Written.copies {stmt : Stmt} {tokens : List Token} (h : stmt.Written tokens)
    (hlexemes : ∀ token ∈ tokens, token.IsLexeme) : stmt.Copies :=
  match h with
  | .letBinding hkind hname _ hvalue =>
      Stmt.copies_letBinding hkind (hlexemes _ (by simp)) hname (hlexemes _ (by simp))
        (hvalue.copies fun token hmem => hlexemes token (by simp [hmem]))
  | .returning hkind => Stmt.copies_returning hkind (hlexemes _ (by simp))
  | .returningValue hkind hvalue =>
      Stmt.copies_returningValue hkind (hlexemes _ (by simp))
        (hvalue.copies fun token hmem => hlexemes token (by simp [hmem]))
  | .expression h => Stmt.copies_expression (h.copies hlexemes)
  | .block h => Stmt.copies_block (h.copies hlexemes)

theorem Stmt.WrittenAll.copies {stmts : List Stmt} {tokens : List Token}
    (h : Stmt.WrittenAll stmts tokens) (hlexemes : ∀ token ∈ tokens, token.IsLexeme) :
    Stmt.CopiesAll stmts :=
  match h with
  | .nil => Stmt.copiesAll_nil
  | .closed hfirst _ hrest =>
      Stmt.copiesAll_cons (hfirst.copies fun token hmem => hlexemes token (by simp [hmem]))
        (hrest.copies fun token hmem => hlexemes token (by simp [hmem]))
  | .abutting hfirst _ hrest =>
      Stmt.copiesAll_cons (hfirst.copies fun token hmem => hlexemes token (by simp [hmem]))
        (hrest.copies fun token hmem => hlexemes token (by simp [hmem]))

end

/-- The statement is written in tokens that can be read from a text. -/
def Stmt.IsSpelled (stmt : Stmt) : Prop :=
  ∃ tokens, stmt.Written tokens ∧ ∀ token ∈ tokens, token.IsLexeme

theorem Stmt.IsSpelled.spells_last {stmt : Stmt} (h : stmt.IsSpelled) :
    Spells stmt.render.toList (Copied Stmt.eraseAll Stmt.WrittenAll [stmt]) Delimits := by
  obtain ⟨tokens, hwritten, hlexemes⟩ := h
  cases hbare : stmt.isBare with
  | false =>
      have hcopies := hwritten.copies hlexemes
      simp only [Stmt.Copies, Stmt.renderEnded, hbare, Bool.false_eq_true, if_false,
        String.append_empty] at hcopies
      apply hcopies.anywhere
      intro tokens hcopied
      obtain ⟨copy, hsame, hfirst⟩ := hcopied
      refine ⟨[copy], by simp only [Stmt.eraseAll, hsame], ?_⟩
      simpa using hfirst _ _ .nil
  | true =>
      cases hwritten with
      | @expression token value tokens h =>
          apply (Stmt.spells_expression token (h.copies hlexemes)).imp
          intro tokens hcopied
          obtain ⟨copy, hsame, hcopy⟩ := hcopied
          refine ⟨[copy], by simp only [Stmt.eraseAll, hsame], ?_⟩
          have habut : copy.MayAbut [] := by
            cases copy with
            | returning token value? =>
                cases value? with
                | none => rfl
                | some value => exact ⟨by decide, by decide⟩
            | block => trivial
            | _ => exact ⟨by decide, by decide⟩
          simpa using Stmt.WrittenAll.abutting hcopy habut .nil
      | _ => cases hbare

theorem spells_renderStatements : ∀ stmts : List Stmt, (∀ stmt ∈ stmts, stmt.IsSpelled) →
    Spells (Program.renderStatements stmts).toList
      (Copied Stmt.eraseAll Stmt.WrittenAll stmts) Delimits
  | [], _ => spells_nil.anywhere fun _ hnil => hnil ▸ ⟨[], rfl, .nil⟩
  | [last], h => (h last (List.mem_singleton_self _)).spells_last
  | first :: next :: rest, h => by
      obtain ⟨tokens, hwritten, hlexemes⟩ := h first List.mem_cons_self
      have hrest := spells_renderStatements (next :: rest) fun stmt hmem =>
        h stmt (List.mem_cons_of_mem _ hmem)
      have hspells := (hwritten.copies hlexemes).append hrest fun _ _ => trivial
      rw [Program.renderStatements, ← Stmt.renderEnded, String.toList_append]
      apply hspells.imp
      intro _ hcopied
      obtain ⟨firsts, others, rfl, ⟨first', hsame, hfirsts⟩, ⟨rest', hsame', hothers⟩⟩ := hcopied
      exact ⟨first' :: rest', by rw [Stmt.eraseAll, Stmt.eraseAll, hsame, hsame'],
        hfirsts _ _ hothers⟩

theorem isSpelled_of_parse (source : String) (file? : Option String) :
    ∀ stmt ∈ (parse (Scanner.ofSource source file?)).1.statements, stmt.IsSpelled := by
  intro stmt hmem
  obtain ⟨tokens, finish, hyields⟩ := TokenSource.exists_yields (Scanner.ofSource source file?)
  have hholds : (Parser.ofSource (Scanner.ofSource source file?)).cursor.Holds tokens finish :=
    Cursor.holds_ofSource hyields
  have hrun := Parser.run_ofSource (Scanner.ofSource source file?)
  rw [parse_eq] at hmem
  obtain ⟨used, hwritten, hside⟩ := hrun.exists_written rfl hholds hmem
  exact ⟨used, hwritten, fun token hused =>
    Scanner.lexeme_of_yields hyields token (hside.subset hused)⟩

theorem exists_parse_render {program : Program}
    (h : ∀ stmt ∈ program.statements, stmt.IsSpelled) :
    ∃ copies span, parse (Scanner.ofSource program.render none) = (⟨copies, span⟩, []) ∧
      Stmt.eraseAll copies = Stmt.eraseAll program.statements := by
  obtain ⟨tokens, offset, hleads, copies, hsame, hwritten⟩ :=
    spells_renderStatements program.statements h [] 0 "shell" (by simp [Delimits])
  rw [List.append_nil] at hleads
  have hend : TokenSource.Yields (⟨[], offset, "shell"⟩ : Scanner) []
      (.endAt ⟨offset.toUInt32, "shell"⟩) := ⟨rfl, rfl⟩
  exact ⟨copies, _, parse_of_yields hwritten (hleads.yields hend), hsame⟩

/-- Whatever has been read from a source, its rendering is read as the same program, and
is rendered the same again. -/
theorem parse_render (source : String) (file? : Option String) :
    let program := (parse (Scanner.ofSource source file?)).1
    let reread := parse (Scanner.ofSource program.render none)
    reread.2 = [] ∧ reread.1.statements.length = program.statements.length ∧
      reread.1.erase = program.erase ∧ reread.1.render = program.render := by
  intro program reread
  obtain ⟨copies, span, hreread, hsame⟩ :=
    exists_parse_render (isSpelled_of_parse source file?)
  have hprogram : reread = (⟨copies, span⟩, []) := hreread
  have herase : reread.1.erase = program.erase := by
    rw [hprogram, Program.erase, Program.erase, hsame]
  refine ⟨by rw [hprogram], ?_, herase, ?_⟩
  · rw [hprogram, ← Stmt.length_eraseAll copies, hsame, Stmt.length_eraseAll]
  · rw [← Program.render_erase, herase, Program.render_erase]

end MonkeySyntax
