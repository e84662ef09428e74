import MonkeySyntax.Proofs.Parser.Run
import MonkeySyntax.Proofs.Productions.Sound

namespace MonkeySyntax

/-! A program that is read without a fault is written in its tokens, and so is every
statement that is read before or after a fault. -/

variable {σ : Type} [TokenSource σ]

theorem Productions.tied_statement_reads {cursor : Cursor σ} {tokens : List Token}
    {finish : Token} (h : cursor.Holds tokens finish) :
    Reads (tied Grammar.standard).statement Stmt.Ends tokens finish cursor := by
  rw [Reads, Reader.ends_congr (tied_statement Grammar.standard cursor)]
  exact (Sound.toDepth (sufficientDepth cursor)).statement h

namespace Parser

/-- A run that records no fault reads all of the tokens. -/
theorem Run.writtenAll {parser : Parser σ} {entries : List (Outcome σ × Parser σ)}
    (hrun : Run parser entries) (hgrammar : parser.grammar = .standard) {tokens : List Token}
    {finish : Token} (h : parser.cursor.Holds tokens finish)
    (hclean : faults entries = []) :
    Stmt.WrittenAll (stmts entries) tokens := by
  induction hrun generalizing tokens with
  | finished heof =>
      obtain rfl := h.eq_nil heof
      exact .nil
  | @read parser stmt cursor entries hcurrent hread hrun ih =>
      rw [hgrammar] at hread
      obtain ⟨used, rest, rfl, hrest, hstmt⟩ :=
        (Productions.tied_statement_reads h).of_ok hread
      have hstmts := ih hgrammar hrest hclean
      rw [← List.append_nil rest] at hstmt
      exact hstmt.writtenAll hstmts (.inr rfl)
  | recovered => cases hclean

/-- Each statement that a run reads is written in tokens that lie side by side. -/
theorem Run.exists_written [LawfulTokenSource σ] {parser : Parser σ}
    {entries : List (Outcome σ × Parser σ)} (hrun : Run parser entries)
    (hgrammar : parser.grammar = .standard) {tokens : List Token} {finish : Token}
    (h : parser.cursor.Holds tokens finish) {stmt : Stmt}
    (hmem : stmt ∈ stmts entries) :
    ∃ used, stmt.Written used ∧ used <:+: tokens := by
  induction hrun generalizing tokens with
  | finished => exact absurd hmem List.not_mem_nil
  | @read parser first cursor entries hcurrent hread hrun ih =>
      rw [hgrammar] at hread
      obtain ⟨used, rest, rfl, hrest, hfirst⟩ :=
        (Productions.tied_statement_reads h).of_ok hread
      rcases List.mem_cons.mp hmem with rfl | hmem
      · cases hfirst with
        | @closed firsts semicolon _ hfirst _ =>
            exact ⟨firsts, hfirst, [], semicolon :: rest, by simp⟩
        | abutting hfirst _ => exact ⟨used, hfirst, [], rest, rfl⟩
      · obtain ⟨others, hstmt, hside⟩ := ih hgrammar hrest hmem
        exact ⟨others, hstmt, hside.trans (List.suffix_append used rest).isInfix⟩
  | @recovered parser diagnostic cursor entries hcurrent hfault hrun ih =>
      have hmoves := (Productions.tied_statement_moves parser.grammar parser.cursor).of_error
        hfault
      have hreaches := (hmoves.trans (reaches_recover (cursor.left + 1) diagnostic
        { parser with cursor })).trans (.advance _)
      obtain ⟨passed, rest, rfl, hrest⟩ := hreaches.holds h
      obtain ⟨others, hstmt, hside⟩ := ih hgrammar hrest hmem
      exact ⟨others, hstmt, hside.trans (List.suffix_append passed rest).isInfix⟩

end Parser

/-- The tokens of a program without faults are the ones that its tree is written in. -/
theorem writtenAll_of_parse_eq_nil {tokens : List Token}
    (hends : ∀ token ∈ tokens, token.kind ≠ .eof)
    (hclean : (parse (TokenQueue.ofTokens tokens)).2 = []) :
    Stmt.WrittenAll (parse (TokenQueue.ofTokens tokens)).1.statements tokens := by
  have hholds := Parser.holds_ofTokens hends
  have hrun := Parser.run_ofSource (TokenQueue.ofTokens tokens)
  rw [diagnostics_parse] at hclean
  rw [parse_eq]
  exact hrun.writtenAll rfl hholds hclean

theorem writtenAll_of_parse_eq_nil_productOfSum :
    (∀ token ∈ Token.productOfSum, token.kind ≠ .eof) ∧
      (parse (TokenQueue.ofTokens Token.productOfSum)).2 = [] ∧
      Stmt.WrittenAll (parse (TokenQueue.ofTokens Token.productOfSum)).1.statements
        Token.productOfSum :=
  ⟨by decide, by decide, writtenAll_of_parse_eq_nil (by decide) (by decide)⟩

end MonkeySyntax
