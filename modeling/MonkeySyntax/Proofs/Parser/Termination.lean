import MonkeySyntax.Proofs.Parser.Run

namespace MonkeySyntax

/-! A program is read to its end under every grammar that has no rule for the end, however
odd the other rules are: each statement, read or at fault, takes a token at least. -/

namespace Grammar

/-- A rule that is named for a kind of token, in place of the one that the kind may have. -/
inductive Extension where
  | statement (kind : Kind) (rule : StatementRule)
  | operand (kind : Kind) (rule : OperandRule)
  | operator (kind : Kind) (operator : Operator)
deriving DecidableEq, Repr

def Extension.kind : Extension → Kind
  | .statement kind _ | .operand kind _ | .operator kind _ => kind

def extendBy (grammar : Grammar) : Extension → Grammar
  | .statement kind rule => grammar.withStatement kind rule
  | .operand kind rule => grammar.withOperand kind rule
  | .operator kind operator => grammar.withOperator kind operator

def extend (grammar : Grammar) (extensions : List Extension) : Grammar :=
  extensions.foldl extendBy grammar

variable {grammar : Grammar}

theorem LeavesEnd.extendBy (h : grammar.LeavesEnd) {extension : Extension}
    (hkind : extension.kind ≠ .eof) : (grammar.extendBy extension).LeavesEnd := by
  obtain ⟨hstatement, hoperand, hoperator⟩ := h
  cases extension with
  | statement kind rule => exact ⟨(if_neg hkind.symm).trans hstatement, hoperand, hoperator⟩
  | operand kind rule => exact ⟨hstatement, (if_neg hkind.symm).trans hoperand, hoperator⟩
  | operator kind operator => exact ⟨hstatement, hoperand, (if_neg hkind.symm).trans hoperator⟩

theorem LeavesEnd.extend (h : grammar.LeavesEnd) {extensions : List Extension}
    (hkinds : ∀ extension ∈ extensions, extension.kind ≠ .eof) :
    (grammar.extend extensions).LeavesEnd := by
  induction extensions generalizing grammar with
  | nil => exact h
  | cons extension extensions ih =>
      rw [List.forall_mem_cons] at hkinds
      exact ih (h.extendBy hkinds.1) hkinds.2

end Grammar

/-- The tokens that come before the first end among them. -/
def Token.beforeEnd (tokens : List Token) : List Token :=
  tokens.takeWhile fun token => token.kind ≠ .eof

theorem TokenQueue.exists_yields_beforeEnd (queue : TokenQueue) :
    ∃ finish, TokenSource.Yields queue (Token.beforeEnd queue.pending) finish := by
  obtain ⟨pending, finish, hfinish⟩ := queue
  induction pending with
  | nil => exact ⟨finish, hfinish, rfl⟩
  | cons token rest ih =>
      by_cases heof : token.kind = .eof
      · have hbefore : Token.beforeEnd (token :: rest) = [] := by
          simp [Token.beforeEnd, heof]
        rw [hbefore]
        exact ⟨token, heof, congrArg Prod.fst (next_cons_of_eof heof)⟩
      · have hbefore : Token.beforeEnd (token :: rest) = token :: Token.beforeEnd rest := by
          simp [Token.beforeEnd, heof]
        obtain ⟨last, hrest⟩ := ih
        rw [hbefore]
        refine ⟨last, heof, congrArg Prod.fst (next_cons heof), ?_⟩
        change TokenSource.Yields (TokenQueue.next _).2 _ _
        rwa [next_cons heof]

namespace Parser

variable {σ : Type} [TokenSource σ]

def extend (parser : Parser σ) (extensions : List Grammar.Extension) : Parser σ :=
  { parser with grammar := parser.grammar.extend extensions }

section Runs

variable {parser : Parser σ} {entries : List (Outcome σ × Parser σ)}

theorem Run.kind_current_last (hrun : Run parser entries) :
    (parser.last entries).cursor.current.kind = .eof := by
  induction hrun with
  | finished heof => exact heof
  | read _ _ _ ih => exact ih
  | recovered _ _ _ ih => exact ih

omit [TokenSource σ] in
/-- Each attempt leaves either a statement or a diagnostic. -/
theorem length_stmts_add_faults (entries : List (Outcome σ × Parser σ)) :
    (stmts entries).length + (faults entries).length = entries.length := by
  induction entries with
  | nil => rfl
  | cons entry entries ih =>
      obtain ⟨outcome, next⟩ := entry
      cases outcome with
      | read stmt =>
          simp only [stmts, faults, List.filterMap_cons, Outcome.stmt?, Outcome.diagnostic?,
            List.length_cons] at ih ⊢
          omega
      | recovered diagnostic fault =>
          simp only [stmts, faults, List.filterMap_cons, Outcome.stmt?, Outcome.diagnostic?,
            List.length_cons] at ih ⊢
          omega

theorem Run.length_stmts_add_size (hrun : Run parser entries) :
    (stmts entries).length + (parser.last entries).diagnostics.size =
      entries.length + parser.diagnostics.size := by
  have hsize := congrArg List.length hrun.diagnostics_last
  have hlength := length_stmts_add_faults entries
  rw [List.length_append, Array.length_toList, Array.length_toList] at hsize
  omega

/-- Each attempt takes a token at least. -/
theorem Run.length_le (hrun : Run parser entries) {tokens : List Token}
    {finish : Token} (h : parser.cursor.Holds tokens finish) :
    entries.length ≤ tokens.length := by
  induction hrun generalizing tokens with
  | finished => exact Nat.zero_le _
  | @read parser stmt cursor entries hcurrent hread hrun ih =>
      have hmoves := Productions.tied_statement_moves parser.grammar parser.cursor
      obtain ⟨rest, rfl⟩ := h.exists_cons hcurrent
      obtain ⟨rest', hrest, hlt⟩ := exists_holds_advance h (hmoves.of_ok hread)
      have hle := ih hrest
      rw [List.length_cons]
      omega
  | @recovered parser diagnostic cursor entries hcurrent hfault hrun ih =>
      have hmoves := Productions.tied_statement_moves parser.grammar parser.cursor
      have hreaches := (hmoves.of_error hfault).trans
        (reaches_recover (cursor.left + 1) diagnostic { parser with cursor })
      obtain ⟨rest, rfl⟩ := h.exists_cons hcurrent
      obtain ⟨rest', hrest, hlt⟩ := exists_holds_advance h hreaches
      have hle := ih hrest
      rw [List.length_cons]
      omega

theorem Run.length_pos (hrun : Run parser entries)
    (hcurrent : parser.cursor.current.kind ≠ .eof) : 0 < entries.length := by
  cases hrun with
  | finished heof => exact absurd heof hcurrent
  | read => exact Nat.succ_pos _
  | recovered => exact Nat.succ_pos _

end Runs

theorem program_of_eof {parser : Parser σ} (heof : parser.cursor.current.kind = .eof) :
    parser.program = (⟨[], ⟨parser.cursor.current.span.start,
      parser.cursor.current.span.start⟩⟩, parser) := by
  have hhistory : parser.history = [] := by
    rw [history, attempts, if_pos heof]
  rw [program_eq, hhistory]
  rfl

variable [BoundedTokenSource σ]

/-- The bounds on how deep productions call one another, and on how many statements are
read, are never reached: greater ones make no difference. -/
theorem statements_eq_program {parser : Parser σ} (hgrammar : parser.grammar.LeavesEnd)
    (hfits : parser.cursor.depth.greatest? = none)
    {depth limit : Nat} (hdepth : Productions.sufficientDepth parser.cursor ≤ depth)
    (hlimit : parser.cursor.left < limit) :
    statements (.toDepth parser.grammar depth) limit [] parser =
      (parser.program.1.statements.reverse, parser.program.2) := by
  have hrun := run_history parser hgrammar hfits
  rw [statements_eq, hrun.attempts_eq hgrammar hdepth hlimit, program_eq, List.append_nil]

/-- A program is read up to the end, at whatever depth suffices.  No more statements and
faults come of it than there are tokens, and one at least if there are any.  From then on
nothing is read and nothing is recorded. -/
theorem program_terminates (tokens : List Token) (extensions : List Grammar.Extension)
    (hkinds : ∀ extension ∈ extensions, extension.kind ≠ .eof) :
    let parser := (ofSource (TokenQueue.ofTokens tokens)).extend extensions
    let read := parser.program.1.statements
    let last := parser.program.2
    (∀ depth limit, Productions.sufficientDepth parser.cursor ≤ depth →
      parser.cursor.left < limit →
        statements (.toDepth parser.grammar depth) limit [] parser = (read.reverse, last)) ∧
    last.cursor.current.kind = .eof ∧
    read.length + last.diagnostics.size ≤ (Token.beforeEnd tokens).length ∧
    (Token.beforeEnd tokens ≠ [] → 0 < read.length + last.diagnostics.size) ∧
    last.program = (⟨[], ⟨last.cursor.current.span.start, last.cursor.current.span.start⟩⟩,
      last) := by
  intro parser read last
  have hgrammar : parser.grammar.LeavesEnd := Grammar.standard_leavesEnd.extend hkinds
  obtain ⟨finish, hyields⟩ := TokenQueue.exists_yields_beforeEnd (TokenQueue.ofTokens tokens)
  have hholds : parser.cursor.Holds (Token.beforeEnd tokens) finish :=
    Cursor.holds_ofSource hyields
  have hrun := run_history parser hgrammar rfl
  have hread : read = stmts parser.history := by simp only [read, program_eq]
  have hlast : last = parser.last parser.history := by simp only [last, program_eq]
  have heof : last.cursor.current.kind = .eof := hlast ▸ hrun.kind_current_last
  have hlength : read.length + last.diagnostics.size = parser.history.length := by
    rw [hread, hlast]
    exact hrun.length_stmts_add_size
  refine ⟨fun depth limit => statements_eq_program hgrammar rfl, heof, ?_, ?_,
    program_of_eof heof⟩
  · rw [hlength]
    exact hrun.length_le hholds
  · intro hne
    rw [hlength]
    apply hrun.length_pos
    intro hcurrent
    exact hne (hholds.eq_nil hcurrent)

end Parser

/-- A closing brace is a name, a comma adds what it separates, and a semicolon returns. -/
def Grammar.oddRules : List Grammar.Extension :=
  [.operand .closeCurly .identifier, .operator .comma ⟨.additive, .binary⟩,
    .statement .semicolon .returning]

def Token.oddTokens : List Token :=
  [.unplaced .closeCurly "\x7d", .unplaced .comma ",", .unplaced .closeCurly "\x7d",
    .unplaced .semicolon ";", .unplaced .semicolon ";", .unplaced .comma ",",
    .unplaced .eof "", .unplaced .comma ","]

theorem Parser.program_terminates_oddRules :
    let parser := (ofSource (TokenQueue.ofTokens Token.oddTokens)).extend Grammar.oddRules
    (∀ extension ∈ Grammar.oddRules, extension.kind ≠ .eof) ∧
      parser.program.2.cursor.current.kind = .eof ∧
      parser.program.1.statements.length + parser.program.2.diagnostics.size ≤ 6 ∧
      0 < parser.program.1.statements.length + parser.program.2.diagnostics.size := by
  intro parser
  have hkinds : ∀ extension ∈ Grammar.oddRules, extension.kind ≠ .eof := by decide
  obtain ⟨-, heof, hle, hpos, -⟩ := program_terminates Token.oddTokens Grammar.oddRules hkinds
  exact ⟨hkinds, heof, hle, hpos (by decide)⟩

end MonkeySyntax
