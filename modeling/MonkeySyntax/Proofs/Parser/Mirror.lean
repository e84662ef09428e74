import MonkeySyntax.Proofs.Parser.Run
import MonkeySyntax.Proofs.Productions.Mirror

namespace MonkeySyntax

/-! Two parsers with like tokens ahead go on in step up to the end, through faults as well. -/

variable {σ τ : Type} [TokenSource σ] [TokenSource τ] {L : Token.Likeness}

namespace Cursor.Mirrors

variable {cursor : Cursor σ} {cursor' : Cursor τ}

theorem skipStatement (h : cursor.Mirrors L cursor') (limit depth skipped : Nat) :
    (cursor.skipStatement limit depth skipped).2.Mirrors L
      (cursor'.skipStatement limit depth skipped).2 := by
  induction limit generalizing depth skipped cursor cursor' with
  | zero => exact h
  | succ limit ih =>
      rw [Cursor.skipStatement, Cursor.skipStatement, ← L.kind h.current]
      split
      · exact h
      · exact ih h.advance ..

theorem resynchronize (h : cursor.Mirrors L cursor') (limit : Nat) :
    (cursor.resynchronize limit).Mirrors L (cursor'.resynchronize limit) := by
  have hskip := h.skipStatement limit cursor.depth.blocks 0
  refine hskip.of_window (cursor.window_resynchronize limit).symm ?_ ?_
  · rw [h.depth]
    exact (cursor'.window_resynchronize limit).symm
  · rw [depth_resynchronize, depth_resynchronize, h.depth]

end Cursor.Mirrors

theorem Diagnostic.Mirrors.eq {diagnostic diagnostic' : Diagnostic}
    (h : diagnostic.Mirrors .same diagnostic') : diagnostic = diagnostic' := by
  obtain ⟨fault, position⟩ := diagnostic
  obtain ⟨fault', position'⟩ := diagnostic'
  obtain ⟨hfault, token, _, rfl, htells, htells'⟩ := h
  obtain rfl : fault = fault' := hfault
  obtain rfl : position = position' := htells.position.trans htells'.position.symm
  rfl

namespace Parser

variable [BoundedTokenSource σ] [BoundedTokenSource τ]

/-- How many tokens are left at most need not be known in the same way. -/
theorem recover_mirrors (parser : Parser σ) (parser' : Parser τ)
    (h : parser.cursor.Mirrors L parser'.cursor) (diagnostic diagnostic' : Diagnostic) :
    (recover (parser.cursor.left + 1) diagnostic parser).cursor.Mirrors L
      (recover (parser'.cursor.left + 1) diagnostic' parser').cursor := by
  obtain ⟨count, hle, hle', heof⟩ : ∃ count, count ≤ parser.cursor.left ∧
      count ≤ parser'.cursor.left ∧ (parser.cursor.lookahead count).kind = .eof := by
    obtain ⟨count, hle, heof⟩ := parser.cursor.exists_lookahead_eof
    obtain ⟨count', hle', heof'⟩ := parser'.cursor.exists_lookahead_eof
    rcases Nat.le_total count count' with hless | hless
    · exact ⟨count, hle, Nat.le_trans hless hle', heof⟩
    · exact ⟨count', Nat.le_trans hless hle, hle', L.kind (h.ahead count') ▸ heof'⟩
  have heof' : (parser'.cursor.lookahead count).kind = .eof := L.kind (h.ahead count) ▸ heof
  rw [recover_limit heof (Nat.lt_succ_of_le hle) (Nat.lt_succ_self count),
    recover_limit heof' (Nat.lt_succ_of_le hle') (Nat.lt_succ_self count)]
  exact (h.record diagnostic diagnostic').resynchronize (count + 1)

theorem Run.mirrors {parser : Parser σ} {parser' : Parser τ}
    {entries : List (Outcome σ × Parser σ)} {entries' : List (Outcome τ × Parser τ)}
    (hrun : Run parser entries) (hrun' : Run parser' entries')
    (hgrammar : parser.grammar = .standard) (hgrammar' : parser'.grammar = .standard)
    (h : parser.cursor.Mirrors L parser'.cursor) :
    Stmt.MirrorsAll L.Holds (stmts entries) (stmts entries') ∧
      List.Forall₂ (Diagnostic.Mirrors L) (faults entries) (faults entries') ∧
      (parser.last entries).cursor.Mirrors L (parser'.last entries').cursor := by
  induction hrun generalizing parser' entries' with
  | @finished parser heof =>
      obtain rfl := hrun'.eq_nil (L.kind h.current ▸ heof)
      exact ⟨.nil, .nil, h⟩
  | @read parser stmt cursor entries hcurrent hread hrun ih =>
      have hcurrent' : parser'.cursor.current.kind ≠ .eof := L.kind h.current ▸ hcurrent
      have hends := Productions.tied_statement_mirrors h
      rw [hgrammar] at hread
      rw [hread] at hends
      generalize hread' : (Productions.tied .standard).statement parser'.cursor = result at hends
      rw [← hgrammar'] at hread'
      cases hends with
      | ok hstmt hcursor =>
          obtain ⟨rest, rfl, hrest⟩ := hrun'.exists_of_read hcurrent' hread'
          obtain ⟨hstmts, hfaults, hlast⟩ := ih hrest hgrammar hgrammar' hcursor.advance
          exact ⟨.cons hstmt hstmts, hfaults, hlast⟩
  | @recovered parser diagnostic cursor entries hcurrent hfault hrun ih =>
      have hcurrent' : parser'.cursor.current.kind ≠ .eof := L.kind h.current ▸ hcurrent
      have hends := Productions.tied_statement_mirrors h
      rw [hgrammar] at hfault
      rw [hfault] at hends
      generalize hfault' : (Productions.tied .standard).statement parser'.cursor = result at hends
      rw [← hgrammar'] at hfault'
      cases hends with
      | @fault _ diagnostic' _ cursor' hdiagnostic hcursor =>
          obtain ⟨rest, rfl, hrest⟩ := hrun'.exists_of_fault hcurrent' hfault'
          have hnext := recover_mirrors { parser with cursor } { parser' with cursor := cursor' }
            hcursor diagnostic diagnostic'
          obtain ⟨hstmts, hfaults, hlast⟩ := ih hrest hgrammar hgrammar' hnext.advance
          exact ⟨hstmts, .cons hdiagnostic hfaults, hlast⟩

end Parser

theorem parse_mirrors [BoundedTokenSource σ] [BoundedTokenSource τ] {source : σ} {source' : τ}
    (h : (Cursor.ofSource source).Mirrors L (Cursor.ofSource source')) :
    (parse source).1.Mirrors L.Holds (parse source').1 ∧
      List.Forall₂ (Diagnostic.Mirrors L) (parse source).2 (parse source').2 := by
  obtain ⟨hstmts, hfaults, hlast⟩ :=
    (Parser.run_ofSource source).mirrors (Parser.run_ofSource source') rfl rfl h
  rw [diagnostics_parse, diagnostics_parse, parse_eq, parse_eq]
  exact ⟨⟨hstmts, ⟨_, _, h.current, rfl, rfl⟩, ⟨_, _, hlast.current, rfl, rfl⟩⟩, hfaults⟩

/-- Whatever sources are made of, the same tokens are read as the same program, with the same
faults. -/
theorem parse_eq_of_mirrors [BoundedTokenSource σ] [BoundedTokenSource τ] {source : σ}
    {source' : τ} (h : (Cursor.ofSource source).Mirrors .same (Cursor.ofSource source')) :
    parse source = parse source' := by
  obtain ⟨hprogram, hfaults⟩ := parse_mirrors h
  refine Prod.ext hprogram.eq ?_
  exact List.forall₂_eq_eq_eq ▸ hfaults.imp fun _ _ hfault => hfault.eq

end MonkeySyntax
