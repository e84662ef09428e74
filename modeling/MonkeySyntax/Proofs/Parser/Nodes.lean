import MonkeySyntax.Proofs.Parser.Diagnosis
import MonkeySyntax.Proofs.Written.Nodes

namespace MonkeySyntax

/-! Each node of a program keeps a token of the text, whether all of the text has been read or
faults have been left out.  The nodes come in the order of the text, and say what their tokens
say. -/

theorem Stmt.Ends.sublist_nodeTokens {stmt : Stmt} {used : List Token} {next : Kind}
    (h : stmt.Ends used next) : stmt.nodeTokens.Sublist used := by
  cases h with
  | closed h _ => exact h.sublist_nodeTokens.trans (List.sublist_append_left ..)
  | abutting h _ => exact h.sublist_nodeTokens

theorem Parser.Run.sublist_nodeTokens {σ : Type} [TokenSource σ] [BoundedTokenSource σ]
    {parser : Parser σ} {entries : List (Outcome σ × Parser σ)} (hrun : Run parser entries)
    (hgrammar : parser.grammar = .standard) {tokens : List Token} {finish : Token}
    (h : parser.cursor.Holds tokens finish) :
    (Stmt.nodeTokensAll (stmts entries)).Sublist tokens := by
  induction hrun generalizing tokens with
  | finished => exact List.nil_sublist tokens
  | @read parser stmt cursor entries hcurrent hread hrun ih =>
      rw [hgrammar] at hread
      obtain ⟨used, rest, rfl, hrest, hstmt⟩ :=
        (Productions.tied_statement_reads h).of_ok hread
      exact hstmt.sublist_nodeTokens.append (ih hgrammar hrest)
  | @recovered parser diagnostic cursor entries hcurrent hfault hrun ih =>
      have hmoves := (Productions.tied_statement_moves parser.grammar parser.cursor).of_error
        hfault
      have hreaches := (hmoves.trans (reaches_recover (cursor.left + 1) diagnostic
        { parser with cursor })).trans (.advance _)
      obtain ⟨passed, rest, rfl, hrest⟩ := hreaches.holds h
      exact (ih hgrammar hrest).trans (List.sublist_append_right ..)

/-- The nodes of a program keep tokens of the text that it has been read from, one after the
other, and each node says what its token says. -/
theorem parse_nodes {source : String} (file? : Option String)
    (hsize : source.utf8ByteSize < 2 ^ 32) :
    let program := (parse (Scanner.ofSource source file?)).1
    program.nodeTokens.Sublist (tokenize source file?) ∧ Token.StartsRise program.nodeTokens ∧
      ∀ stmt ∈ program.statements, stmt.Faithful (tokenize source file?) := by
  intro program
  obtain ⟨tokens, finish, hyields⟩ := TokenSource.exists_yields (Scanner.ofSource source file?)
  have htokens : tokenize source file? = tokens ++ [finish] := hyields.tokens_eq
  have hholds := Cursor.holds_ofSource hyields
  have hrun := Parser.run_ofSource (Scanner.ofSource source file?)
  have hprogram : program.statements =
      Parser.stmts (Parser.ofSource (Scanner.ofSource source file?)).history := by
    simp only [program, parse_eq]
  have hsublist : program.nodeTokens.Sublist (tokenize source file?) := by
    rw [Program.nodeTokens, hprogram, htokens]
    exact (hrun.sublist_nodeTokens rfl hholds).trans (List.sublist_append_left ..)
  refine ⟨hsublist, (startsRise_tokenize file? hsize).sublist hsublist, ?_⟩
  intro stmt hmem
  rw [hprogram] at hmem
  obtain ⟨used, hwritten, hpart⟩ := hrun.exists_written rfl hholds hmem
  rw [htokens]
  exact hwritten.faithful (hpart.trans List.infix_append_left)

/-- Statements are read before, between and after faults, one of them in a block. -/
theorem parse_nodes_betweenFaults :
    let source := "((a) + 0x1f)(!true); let x 5; \x7b -b \x7d ) ; if (c) \x7b fn(é) \x7d; return 7"
    let program := (parse (Scanner.ofSource source none)).1
    source.utf8ByteSize < 2 ^ 32 ∧
      program.nodeTokens.map (·.span.start.offset) = [2, 5, 7, 12, 13, 14, 30, 32, 33, 60, 67] ∧
      program.nodeTokens.Sublist (tokenize source none) ∧ Token.StartsRise program.nodeTokens ∧
      ∀ stmt ∈ program.statements, stmt.Faithful (tokenize source none) := by
  intro source program
  have hsize : source.utf8ByteSize < 2 ^ 32 := by decide
  exact ⟨hsize, by decide +kernel, parse_nodes none hsize⟩

end MonkeySyntax
