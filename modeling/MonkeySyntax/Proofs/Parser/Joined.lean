import MonkeySyntax.Proofs.Parser.Complete
import MonkeySyntax.Proofs.Parser.Sound
import MonkeySyntax.Proofs.Written.Longer

namespace MonkeySyntax

/-! Two programs without faults are read as one without a semicolon between them. -/

/-- Only a return word at the end of the first program can take something amiss from the second.
Otherwise no statement is lost, and at most one of each program becomes part of another. -/
theorem parse_append_unseparated {tokens tokens' : List Token}
    (hends : ∀ token ∈ tokens, token.kind ≠ .eof)
    (hends' : ∀ token ∈ tokens', token.kind ≠ .eof)
    (hclean : (parse (TokenQueue.ofTokens tokens)).2 = [])
    (hclean' : (parse (TokenQueue.ofTokens tokens')).2 = [])
    (hreturn : ∀ last ∈ tokens.getLast?, last.kind ≠ .returnWord) :
    let first := parse (TokenQueue.ofTokens tokens)
    let second := parse (TokenQueue.ofTokens tokens')
    let whole := parse (TokenQueue.ofTokens (tokens ++ tokens'))
    whole.2 = [] ∧
      Stmt.Merges first.1.statements second.1.statements tokens' whole.1.statements := by
  intro first second whole
  have hwritten {tokens : List Token} (hends : ∀ token ∈ tokens, token.kind ≠ .eof)
      (hclean : (parse (TokenQueue.ofTokens tokens)).2 = []) :
      Stmt.WrittenAll (parse (TokenQueue.ofTokens tokens)).1.statements tokens := by
    have hrun := Parser.run_ofSource (TokenQueue.ofTokens tokens)
    rw [diagnostics_parse] at hclean
    rw [parse_eq]
    exact hrun.writtenAll rfl (Parser.holds_ofTokens hends) hclean
  obtain ⟨joined, hjoined, hmerges⟩ :=
    (hwritten hends hclean).exists_join hreturn (hwritten hends' hclean')
  have hwhole : whole = (⟨joined, _⟩, []) :=
    parse_of_yields hjoined (TokenQueue.yields rfl (List.forall_mem_append.mpr ⟨hends, hends'⟩))
  rw [hwhole]
  exact ⟨rfl, hmerges⟩

/-- A group that comes after a product is read as arguments of its last factor. -/
theorem parse_append_unseparated_productOfSum :
    let tokens := Token.productOfSum
    let tokens' := Token.productOfSum.drop 2
    let first := parse (TokenQueue.ofTokens tokens)
    let second := parse (TokenQueue.ofTokens tokens')
    let whole := parse (TokenQueue.ofTokens (tokens ++ tokens'))
    (∀ token ∈ tokens, token.kind ≠ .eof) ∧ (∀ token ∈ tokens', token.kind ≠ .eof) ∧
      first.2 = [] ∧ second.2 = [] ∧ (∀ last ∈ tokens.getLast?, last.kind ≠ .returnWord) ∧
      first.1.statements.length = 1 ∧ second.1.statements.length = 1 ∧
      whole.1.statements.length = 1 ∧ whole.2 = [] ∧
      Stmt.Merges first.1.statements second.1.statements tokens' whole.1.statements := by
  intro tokens tokens' first second whole
  have hends : ∀ token ∈ tokens, token.kind ≠ .eof := by decide
  have hends' : ∀ token ∈ tokens', token.kind ≠ .eof := by decide
  have hclean : first.2 = [] := by decide
  have hclean' : second.2 = [] := by decide
  have hreturn : ∀ last ∈ tokens.getLast?, last.kind ≠ .returnWord := by decide
  exact ⟨hends, hends', hclean, hclean', hreturn, by decide, by decide, by decide,
    parse_append_unseparated hends hends' hclean hclean' hreturn⟩

end MonkeySyntax
