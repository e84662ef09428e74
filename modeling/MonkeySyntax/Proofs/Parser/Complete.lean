import MonkeySyntax.Proofs.Parser.Run
import MonkeySyntax.Proofs.Productions.Complete

namespace MonkeySyntax

/-! A program is read without a fault wherever it is written. -/

variable {σ : Type} [TokenSource σ] [LawfulTokenSource σ]

theorem Productions.tied_standard : Tied (tied Grammar.standard : Productions σ) :=
  (tied_eq_layer Grammar.standard_leavesEnd).symm

namespace Parser

/-- The parser reads the statements without a fault. -/
structure Reads (parser : Parser σ) (entries : List (Outcome σ × Parser σ))
    (stmts : List Stmt) (finish : Token) : Prop where
  run : Run parser entries
  statements : Parser.stmts entries = stmts
  faults : Parser.faults entries = []
  holds_last : (parser.last entries).cursor.Holds [] finish

variable {parser : Parser σ} {finish : Token}

omit [LawfulTokenSource σ] in
theorem exists_reads_cons {stmt : Stmt} {stmts : List Stmt} {tokens others rest : List Token}
    (hgrammar : parser.grammar = .standard) (hfits : parser.cursor.depth.greatest? = none)
    (hwritten : stmt.Written tokens)
    (hholds : parser.cursor.Holds (tokens ++ others) finish)
    (hstmt : Productions.Gives (Productions.tied Grammar.standard).statement stmt rest finish
      parser.cursor)
    (hrest : ∀ parser' : Parser σ, parser'.grammar = .standard →
      parser'.cursor.depth.greatest? = none → parser'.cursor.Holds rest finish → ∃ entries, Reads parser' entries stmts finish) :
    ∃ entries, Reads parser entries (stmt :: stmts) finish := by
  have hkeeps := Productions.tied_statement_keeps Grammar.standard parser.cursor
  obtain ⟨cursor, hread, hcursor⟩ := hstmt.exists_ok fun _ => hkeeps.ne_error fun hstop =>
    hstop.2 rfl hfits
  obtain ⟨entries, hrun, hstmts, hfaults, hlast⟩ := hrest { parser with cursor }.advance hgrammar
    ((hkeeps.of_ok hread).greatest.trans hfits) hcursor
  have hne : parser.cursor.current.kind ≠ .eof := by
    rw [hholds.kind_current, Token.firstKind_append _ hwritten.starts.ne_eof]
    exact hwritten.starts.ne_eof
  rw [← hgrammar] at hread
  exact ⟨_, .read hne hread hrun, congrArg (List.cons stmt) hstmts, hfaults, hlast⟩

theorem exists_reads {stmts : List Stmt} {tokens : List Token}
    (h : Stmt.WrittenAll stmts tokens) (parser : Parser σ)
    (hgrammar : parser.grammar = .standard) (hfits : parser.cursor.depth.greatest? = none)
    (hholds : parser.cursor.Holds tokens finish) : ∃ entries, Reads parser entries stmts finish :=
  match h with
  | .nil => ⟨[], .finished hholds.kind_current, rfl, rfl, hholds⟩
  | .closed hfirst hsemicolon hrest => by
      have hstmt := Productions.Tied.gives_closed
        (Productions.tied_standard.takes_stmt_written hfirst) hsemicolon hholds
      exact exists_reads_cons hgrammar hfits hfirst hholds hstmt (exists_reads hrest)
  | @Stmt.WrittenAll.abutting _ _ _ others hfirst habut hrest => by
      have hholds' := hholds
      rw [← List.append_nil others] at hholds'
      have hstmt := Productions.Tied.gives_abutting
        (Productions.tied_standard.takes_stmt_written hfirst) hrest habut (.inr rfl) hholds'
      rw [List.append_nil] at hstmt
      exact exists_reads_cons hgrammar hfits hfirst hholds hstmt (exists_reads hrest)

end Parser

/-- What is read from a source is what its tokens are written for. -/
theorem parse_of_yields {source : σ} {stmts : List Stmt} {tokens : List Token} {finish : Token}
    (h : Stmt.WrittenAll stmts tokens) (hyields : TokenSource.Yields source tokens finish) :
    parse source =
      (⟨stmts, ⟨(tokens.headD finish).span.start, finish.span.start⟩⟩, []) := by
  have hholds : (Parser.ofSource source).cursor.Holds tokens finish :=
    Cursor.holds_ofSource hyields
  obtain ⟨entries, hrun, hstmts, hfaults, hlast⟩ := Parser.exists_reads h _ rfl rfl hholds
  have hcurrent : (Cursor.ofSource source).current = tokens.headD finish := by
    cases tokens with
    | nil => exact hholds.ended.current
    | cons first rest => exact hholds.current
  rw [parse_eq, hrun.history_eq Grammar.standard_leavesEnd, hstmts, hcurrent,
    hlast.ended.current, hrun.diagnostics_last, hfaults]
  rfl

/-- The tokens that a program is written in are read as that program, without a fault. -/
theorem parse_of_writtenAll {stmts : List Stmt} {tokens : List Token}
    (h : Stmt.WrittenAll stmts tokens) :
    parse (TokenQueue.ofTokens tokens) =
      (⟨stmts, ⟨(tokens.headD (TokenQueue.ofTokens tokens).finish).span.start,
        (TokenQueue.ofTokens tokens).finish.span.start⟩⟩, []) :=
  parse_of_yields h (TokenQueue.yields rfl h.ne_eof)

theorem parse_of_writtenAll_productOfSum :
    Stmt.WrittenAll [.expression (.unplaced .identifier "a") .productOfSum]
      Token.productOfSum ∧
    parse (TokenQueue.ofTokens Token.productOfSum) =
      (⟨[.expression (.unplaced .identifier "a") .productOfSum], .nowhere⟩, []) := by
  have hwritten : Stmt.WrittenAll [.expression (.unplaced .identifier "a") .productOfSum]
      Token.productOfSum :=
    .abutting (.expression (.bare Expr.bare_productOfSum trivial)) ⟨by decide, by decide⟩ .nil
  exact ⟨hwritten, parse_of_writtenAll hwritten⟩

end MonkeySyntax
