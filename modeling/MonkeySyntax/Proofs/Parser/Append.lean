import MonkeySyntax.Proofs.Parser.Mirror
import MonkeySyntax.Proofs.Parser.Recovery
import MonkeySyntax.Proofs.Parser.Segments
import MonkeySyntax.Proofs.Productions.Viable
import MonkeySyntax.Proofs.Written.Enclosed

namespace MonkeySyntax

/-! A semicolon outside of all blocks is a barrier: what comes before it is read in the same way
whatever follows it, and what follows it is read as if nothing came before. -/

namespace Token

/-- A semicolon comes last, if there are any tokens. -/
def Finished (tokens : List Token) : Prop :=
  ∀ last ∈ tokens.getLast?, last.kind = .semicolon

def BraceFree (tokens : List Token) : Prop :=
  ∀ token ∈ tokens, token.kind ≠ .openCurly ∧ token.kind ≠ .closeCurly

variable {passed rest tokens : List Token}

theorem Finished.of_append (h : Finished (passed ++ rest)) : Finished rest :=
  fun last hlast => h last (List.mem_getLast?_append_of_mem_getLast? hlast)

theorem Finished.exists_last (h : Finished tokens) (hne : tokens ≠ []) :
    ∃ before last, tokens = before ++ [last] ∧ last.kind = .semicolon :=
  ⟨tokens.dropLast, tokens.getLast hne, (List.dropLast_append_getLast hne).symm,
    h _ (List.getLast?_eq_some_getLast hne)⟩

theorem Finished.exists_semicolon (h : Finished tokens) (hne : tokens ≠ []) :
    ∃ passed semicolon rest, tokens = passed ++ semicolon :: rest ∧
      semicolon.kind = .semicolon ∧ ∀ token ∈ passed, token.kind ≠ .semicolon := by
  induction tokens with
  | nil => exact absurd rfl hne
  | cons token tokens ih =>
      by_cases hkind : token.kind = .semicolon
      · exact ⟨[], token, tokens, rfl, hkind, fun _ hmem => absurd hmem List.not_mem_nil⟩
      · have hrest : tokens ≠ [] := by
          rintro rfl
          exact hkind (h token rfl)
        have hfinished : Finished ([token] ++ tokens) := h
        obtain ⟨passed, semicolon, rest, rfl, hsemicolon, hpassed⟩ := ih hfinished.of_append hrest
        exact ⟨token :: passed, semicolon, rest, rfl, hsemicolon,
          List.forall_mem_cons.mpr ⟨hkind, hpassed⟩⟩

theorem BraceFree.left (h : BraceFree (passed ++ rest)) : BraceFree passed :=
  fun token hmem => h token (List.mem_append_left rest hmem)

theorem BraceFree.right (h : BraceFree (passed ++ rest)) : BraceFree rest :=
  fun token hmem => h token (List.mem_append_right passed hmem)

theorem BraceFree.inline (h : BraceFree passed)
    (hpassed : ∀ token ∈ passed, token.kind ≠ .semicolon) :
    ∀ token ∈ passed, token.kind.Inline :=
  fun token hmem => ⟨(h token hmem).1, (h token hmem).2, hpassed token hmem⟩

theorem BraceFree.balanced_iff (h : BraceFree tokens) {depth : Nat} :
    Balanced depth tokens ↔ depth = 0 := by
  induction tokens generalizing depth with
  | nil => exact Iff.rfl
  | cons token tokens ih =>
      obtain ⟨⟨hopen, hclose⟩, hrest⟩ := List.forall_mem_cons.mp h
      rw [balanced_cons, and_iff_right fun hkind => absurd hkind hclose]
      cases hkind : token.kind with
      | openCurly => exact absurd hkind hopen
      | closeCurly => exact absurd hkind hclose
      | _ => exact ih hrest

end Token

open Token (Finished BraceFree)

variable {σ : Type} [TokenSource σ] {tokens others passed rest : List Token}
  {semicolon finish finish' : Token}

/-! Skipping to a semicolon. -/

theorem Cursor.holds_skipStatement {limit : Nat} (skipped : Nat) {cursor : Cursor σ}
    (h : cursor.Holds (passed ++ semicolon :: rest) finish)
    (hpassed : ∀ token ∈ passed, token.kind.Inline) (hsemicolon : semicolon.kind = .semicolon)
    (hlimit : passed.length < limit) :
    (cursor.skipStatement limit 0 skipped).2.Holds (semicolon :: rest) finish := by
  obtain ⟨more, rfl⟩ := Nat.exists_eq_add_of_lt hlimit
  clear hlimit
  induction passed generalizing skipped cursor with
  | nil =>
      have hstop : cursor.current.kind = .semicolon := h.current ▸ hsemicolon
      rw [skipStatement, if_pos (.inr ⟨hstop, rfl⟩)]
      exact h
  | cons token passed ih =>
      obtain ⟨hinline, hpassed⟩ := List.forall_mem_cons.mp hpassed
      have hkind : cursor.current.kind = token.kind := congrArg Token.kind h.current
      rw [List.length_cons, Nat.succ_add, Nat.succ_add, skipStatement, hkind,
        if_neg (not_or.mpr ⟨h.1, fun hstop => hinline.2.2 hstop.1⟩), hinline.depthAfter]
      exact ih (skipped + 1) h.advance hpassed

theorem Parser.holds_recover [LawfulTokenSource σ] (parser : Parser σ)
    (h : parser.cursor.Holds (passed ++ semicolon :: rest) finish)
    (hdepth : parser.cursor.depth.blocks = 0) (hpassed : ∀ token ∈ passed, token.kind.Inline)
    (hsemicolon : semicolon.kind = .semicolon) (diagnostic : Diagnostic) :
    (recover (parser.cursor.left + 1) diagnostic parser).advance.cursor.Holds rest finish := by
  have hlength := h.length_le_left
  rw [List.length_append, List.length_cons] at hlength
  have hskip := Cursor.holds_skipStatement 0 ((Cursor.holds_record diagnostic).mpr h)
    hpassed hsemicolon (Nat.lt_succ_of_le (Nat.le_of_add_right_le hlength))
  have hwindow := (parser.cursor.record diagnostic).window_resynchronize
    (parser.cursor.left + 1)
  have hrecord : (parser.cursor.record diagnostic).depth.blocks = 0 := hdepth
  rw [hrecord] at hwindow
  exact ((Cursor.holds_congr hwindow).mpr hskip).advance

theorem Cursor.Agrees.of_append {cursor twin : Cursor σ} {count : Nat}
    (h : cursor.Holds tokens finish) (htwin : twin.Holds (tokens ++ others) finish')
    (hdepth : cursor.depth = twin.depth) (hcount : count ≤ tokens.length) :
    cursor.Agrees count twin := by
  rw [← List.append_nil tokens] at h
  exact ⟨.of_holds h htwin (.inl hcount), hdepth⟩

namespace Productions

variable [LawfulTokenSource σ] {cursor cursor' twin : Cursor σ}

/-- A statement is read in the same way when more tokens follow. -/
theorem tied_statement_read_append {stmt : Stmt} (h : cursor.Holds tokens finish)
    (hread : (tied Grammar.standard).statement cursor = .ok stmt cursor')
    (hfinished : Finished tokens) (htwin : twin.Holds (tokens ++ others) finish')
    (hdepth : cursor.depth = twin.depth) (hfits : twin.depth.greatest? = none) :
    ∃ used rest twin', tokens = used ++ rest ∧ cursor'.advance.Holds rest finish ∧
      (tied Grammar.standard).statement twin = .ok stmt twin' ∧
      twin'.advance.Holds (rest ++ others) finish' := by
  obtain ⟨used, rest, rfl, hrest, hstmt⟩ := (tied_statement_reads h).of_ok hread
  have hused := hstmt.ne_nil
  suffices hgives : ∃ twin', (tied Grammar.standard).statement twin = .ok stmt twin' ∧
      twin'.advance.Holds (rest ++ others) finish' by
    obtain ⟨twin', hread', hrest'⟩ := hgives
    exact ⟨used, rest, twin', rfl, hrest, hread', hrest'⟩
  cases hstmt with
  | @closed firsts semicolon _ hwritten hsemicolon =>
      simp only [List.append_assoc, List.singleton_append] at htwin
      have hgives := Tied.gives_closed (tied_standard.takes_stmt_written hwritten) hsemicolon htwin
      exact hgives.exists_ok fun _ => (tied_statement_keeps _ twin).ne_error fun hstop =>
        hstop.2 rfl hfits
  | abutting hwritten _ =>
      -- The semicolon that comes last is not used, so that the next token is one of these.
      have hne : rest ≠ [] := by
        rintro rfl
        rw [List.append_nil] at hfinished
        obtain ⟨before, last, rfl, hlast⟩ := hfinished.exists_last hused
        exact hwritten.last_ne_semicolon hlast
      obtain ⟨-, steps, hrepeats⟩ := (tied_statement_looks cursor).of_ok hread
      have hsteps := hrepeats.moves.advance.length_eq h hrest hne
      have hcount : steps + Sight.peek.count ≤ (used ++ rest).length := by
        have hpos := List.length_pos_iff.mpr hne
        have hpeek : Sight.peek.count = 2 := rfl
        rw [List.length_append]
        omega
      obtain ⟨twin', hread', hmoves, -⟩ := hrepeats.again (.of_append h htwin hdepth hcount)
      have hrest' := hmoves.advance.holds htwin
      rw [← hsteps, List.append_assoc, List.drop_left] at hrest'
      exact ⟨twin', hread', hrest'⟩

omit [LawfulTokenSource σ] in
/-- No block is open where a statement without braces is at fault. -/
theorem depth_of_fault {diagnostic : Diagnostic} (h : cursor.Holds tokens finish)
    (hfault : (tied Grammar.standard).statement cursor = .error (.fault diagnostic) cursor')
    (hfree : BraceFree tokens) (hdepth : cursor.depth.blocks = 0)
    (hahead : cursor'.Holds rest finish) (hrest : rest ⊆ tokens) : cursor'.depth.blocks = 0 := by
  have hlevel : cursor.Level finish := ⟨tokens, h, hfree.balanced_iff.mpr hdepth⟩
  obtain ⟨⟨hclose, -⟩, -⟩ | ⟨-, rest', hahead', hbalanced⟩ :=
    (tied_statement_keepsLevel hlevel).of_error hfault
  · obtain ⟨after, rfl⟩ := hahead.exists_cons (hclose ▸ by decide)
    exact absurd hclose (hfree _ (hrest List.mem_cons_self)).2
  · obtain ⟨rfl, -⟩ := hahead.unique hahead'
    have hfree' : BraceFree rest := fun token hmem => hfree token (hrest hmem)
    exact hfree'.balanced_iff.mp hbalanced

/-- A statement without braces is at fault in the same way, and before its semicolon, when more
tokens follow. -/
theorem tied_statement_fault_append {diagnostic : Diagnostic} (h : cursor.Holds tokens finish)
    (hfault : (tied Grammar.standard).statement cursor = .error (.fault diagnostic) cursor')
    (hne : tokens ≠ []) (hfinished : Finished tokens) (hfree : BraceFree tokens)
    (hblocks : cursor.depth.blocks = 0) (htwin : twin.Holds (tokens ++ others) finish')
    (hdepth : cursor.depth = twin.depth) :
    ∃ passed ahead twin', tokens = passed ++ ahead ∧ ahead ≠ [] ∧
      cursor'.Holds ahead finish ∧ cursor'.depth.blocks = 0 ∧
      (tied Grammar.standard).statement twin = .error (.fault diagnostic) twin' ∧
      twin'.Holds (ahead ++ others) finish' ∧ twin'.depth.blocks = 0 := by
  obtain ⟨-, steps, hrepeats⟩ := (tied_statement_looks cursor).of_error hfault diagnostic rfl
  obtain ⟨culprit, used, rest, hculprit, happend, hrest, hused⟩ :=
    (tied_statement_falters h).of_error hfault diagnostic rfl
  have hnot : rest ≠ [] := by
    rintro rfl
    rw [List.append_nil] at happend
    subst happend
    obtain ⟨before, last, rfl, hlast⟩ := hfinished.exists_last hne
    have hkinds := Stmt.ne_semicolon_of_begins hused fun token hmem => (hfree token hmem).1
    exact hkinds last (by simp) hlast
  have hpos := List.length_pos_iff.mpr hnot
  have hlength : tokens.length = used.length + rest.length := by
    rw [happend, List.length_append]
  have hsteps := (hrepeats.moves.trans hculprit).length_eq (happend ▸ h) hrest hnot
  obtain ⟨twin', hread, hmoves, hdepths⟩ := hrepeats.again
    (.of_append h htwin hdepth (by omega))
  have hahead := hrepeats.moves.holds h
  have hzero := depth_of_fault h hfault hfree hblocks hahead (List.drop_subset steps tokens)
  have hahead' := hmoves.holds htwin
  rw [List.drop_append_of_le_length (by omega)] at hahead'
  refine ⟨_, _, twin', (List.take_append_drop steps tokens).symm, ?_, hahead, hzero, hread,
    hahead', hdepths ▸ hzero⟩
  rw [ne_eq, List.drop_eq_nil_iff]
  omega

end Productions

namespace Parser

/-- The parser is to read the tokens, outside of all blocks. -/
structure Starts (parser : Parser σ) (tokens : List Token) (finish : Token) : Prop where
  grammar : parser.grammar = .standard
  depth : parser.cursor.depth = .outside none
  holds : parser.cursor.Holds tokens finish

variable [LawfulTokenSource σ] {parser twin : Parser σ} {cursor : Cursor σ}
  {entries entries' : List (Outcome σ × Parser σ)}

omit [LawfulTokenSource σ] in
theorem Starts.kind_current_append (h : parser.Starts tokens finish)
    (htwin : twin.Starts (tokens ++ others) finish')
    (hcurrent : parser.cursor.current.kind ≠ .eof) :
    twin.cursor.current.kind ≠ .eof := by
  rw [h.holds.kind_current] at hcurrent
  rwa [htwin.holds.kind_current, Token.firstKind_append others hcurrent]

theorem Starts.read_append {stmt : Stmt} (h : parser.Starts tokens finish)
    (htwin : twin.Starts (tokens ++ others) finish') (hfinished : Finished tokens)
    (hread : (Productions.tied parser.grammar).statement parser.cursor = .ok stmt cursor) :
    ∃ used rest cursor', tokens = used ++ rest ∧
      { parser with cursor }.advance.Starts rest finish ∧
      (Productions.tied twin.grammar).statement twin.cursor = .ok stmt cursor' ∧
      { twin with cursor := cursor' }.advance.Starts (rest ++ others) finish' := by
  rw [h.grammar] at hread
  obtain ⟨used, rest, cursor', happend, hrest, hread', hrest'⟩ :=
    Productions.tied_statement_read_append h.holds hread hfinished htwin.holds
      (h.depth.trans htwin.depth.symm) (congrArg Depth.greatest? htwin.depth)
  obtain ⟨hdepth, -⟩ := (Productions.tied_statement_looks parser.cursor).of_ok hread
  obtain ⟨hdepth', -⟩ := (Productions.tied_statement_looks twin.cursor).of_ok hread'
  rw [← htwin.grammar] at hread'
  exact ⟨used, rest, cursor', happend, ⟨h.grammar, hdepth.trans h.depth, hrest⟩, hread',
    htwin.grammar, hdepth'.trans htwin.depth, hrest'⟩

theorem Starts.recover_append {diagnostic : Diagnostic} (h : parser.Starts tokens finish)
    (htwin : twin.Starts (tokens ++ others) finish') (hne : tokens ≠ [])
    (hfinished : Finished tokens) (hfree : BraceFree tokens)
    (hfault : (Productions.tied parser.grammar).statement parser.cursor =
      .error (.fault diagnostic) cursor) :
    ∃ used rest cursor', tokens = used ++ rest ∧
      (recover (cursor.left + 1) diagnostic { parser with cursor }).advance.Starts rest finish ∧
      (Productions.tied twin.grammar).statement twin.cursor =
        .error (.fault diagnostic) cursor' ∧
      (recover (cursor'.left + 1) diagnostic { twin with cursor := cursor' }).advance.Starts
        (rest ++ others) finish' := by
  have houtside := outside_recover h.depth hfault
  rw [h.grammar] at hfault
  obtain ⟨passed, ahead, cursor', rfl, hahead, hholds, hzero, hfault', hholds', hzero'⟩ :=
    Productions.tied_statement_fault_append h.holds hfault hne hfinished hfree
      (congrArg Depth.blocks h.depth) htwin.holds (h.depth.trans htwin.depth.symm)
  obtain ⟨skipped, semicolon, rest, rfl, hsemicolon, hskipped⟩ :=
    hfinished.of_append.exists_semicolon hahead
  have hinline := hfree.right.left.inline hskipped
  rw [List.append_assoc, List.cons_append] at hholds'
  rw [← htwin.grammar] at hfault'
  refine ⟨passed ++ (skipped ++ [semicolon]), rest, cursor', by simp,
    ⟨h.grammar, houtside _, ?_⟩, hfault',
    htwin.grammar, outside_recover htwin.depth hfault' _, ?_⟩
  · exact holds_recover { parser with cursor } hholds hzero hinline hsemicolon diagnostic
  · exact holds_recover { twin with cursor := cursor' } hholds' hzero' hinline hsemicolon diagnostic

/-- A run over more tokens is the run over the first ones, followed by another one. -/
theorem Run.exists_append (hrun : Run parser entries) (h : parser.Starts tokens finish)
    (hfinished : Finished tokens) (hclean : faults entries = [] ∨ BraceFree tokens)
    (hrun' : Run twin entries') (htwin : twin.Starts (tokens ++ others) finish') :
    ∃ (next : Parser σ) (more : List (Outcome σ × Parser σ)), Run next more ∧
      next.Starts others finish' ∧ stmts entries' = stmts entries ++ stmts more ∧
      faults entries' = faults entries ++ faults more := by
  induction hrun generalizing tokens twin entries' with
  | finished heof =>
      obtain rfl := h.holds.eq_nil heof
      exact ⟨twin, entries', hrun', htwin, rfl, rfl⟩
  | @read parser stmt cursor entries hcurrent hread hrun ih =>
      have hcurrent' := h.kind_current_append htwin hcurrent
      obtain ⟨used, rest, cursor', rfl, hrest, hread', hrest'⟩ :=
        h.read_append htwin hfinished hread
      obtain ⟨others', rfl, hrun''⟩ := hrun'.exists_of_read hcurrent' hread'
      obtain ⟨next, more, hnext, hstarts, hstmts, hfaults⟩ :=
        ih hrest hfinished.of_append (hclean.imp_right .right) hrun'' hrest'
      exact ⟨next, more, hnext, hstarts, congrArg (List.cons stmt) hstmts, hfaults⟩
  | @recovered parser diagnostic cursor entries hcurrent hfault hrun ih =>
      have hcurrent' := h.kind_current_append htwin hcurrent
      have hfree := hclean.resolve_left fun hnone => by cases hnone
      have hne : tokens ≠ [] := by
        rintro rfl
        exact hcurrent h.holds.kind_current
      obtain ⟨used, rest, cursor', rfl, hrest, hfault', hrest'⟩ :=
        h.recover_append htwin hne hfinished hfree hfault
      obtain ⟨others', rfl, hrun''⟩ := hrun'.exists_of_fault hcurrent' hfault'
      obtain ⟨next, more, hnext, hstarts, hstmts, hfaults⟩ :=
        ih hrest hfinished.of_append (.inr hfree.right) hrun'' hrest'
      exact ⟨next, more, hnext, hstarts, hstmts, congrArg (List.cons diagnostic) hfaults⟩

theorem Run.eq_of_starts (hrun : Run parser entries) (h : parser.Starts tokens finish)
    (hrun' : Run twin entries') (htwin : twin.Starts tokens finish) :
    stmts entries = stmts entries' ∧ faults entries = faults entries' := by
  obtain ⟨hstmts, hfaults, -⟩ := hrun.mirrors hrun' h.grammar htwin.grammar
    (.of_same h.holds htwin.holds (h.depth.trans htwin.depth.symm))
  exact ⟨hstmts.eq, List.forall₂_eq_eq_eq ▸ hfaults.imp fun _ _ hfault => hfault.eq⟩

end Parser

theorem Parser.starts_ofTokens {tokens : List Token} (hends : ∀ token ∈ tokens, token.kind ≠ .eof) :
    (ofSource (TokenQueue.ofTokens tokens)).Starts tokens (TokenQueue.ofTokens tokens).finish :=
  ⟨rfl, rfl, holds_ofTokens hends⟩

/-- Tokens that end in a semicolon, and are without faults or without braces, give the same
statements and the same faults whatever follows them, and take nothing from it. -/
theorem parse_append {tokens others : List Token} (hends : ∀ token ∈ tokens, token.kind ≠ .eof)
    (hlast : tokens.getLast?.map Token.kind = some .semicolon)
    (hclean : (parse (TokenQueue.ofTokens tokens)).2 = [] ∨
      ∀ token ∈ tokens, token.kind ≠ .openCurly ∧ token.kind ≠ .closeCurly)
    (hends' : ∀ token ∈ others, token.kind ≠ .eof) (hne : others ≠ []) :
    let first := parse (TokenQueue.ofTokens tokens)
    let second := parse (TokenQueue.ofTokens others)
    let whole := parse (TokenQueue.ofTokens (tokens ++ others))
    whole.1.statements = first.1.statements ++ second.1.statements ∧
      whole.2 = first.2 ++ second.2 := by
  intro first second whole
  have hfinished : Token.Finished tokens := by
    intro last hmem
    rw [Option.mem_def.mp hmem] at hlast
    exact Option.some.inj hlast
  have hwhole := Parser.starts_ofTokens (List.forall_mem_append.mpr ⟨hends, hends'⟩)
  rw [TokenQueue.finish_ofTokens_append tokens hne] at hwhole
  rw [diagnostics_parse] at hclean
  obtain ⟨next, more, hnext, hstarts, hstmts, hfaults⟩ :=
    (Parser.run_ofSource _).exists_append (Parser.starts_ofTokens hends) hfinished hclean
      (Parser.run_ofSource _) hwhole
  obtain ⟨hsame, hsame'⟩ :=
    hnext.eq_of_starts hstarts (Parser.run_ofSource _) (Parser.starts_ofTokens hends')
  rw [hsame] at hstmts
  rw [hsame'] at hfaults
  constructor
  · simp only [whole, first, second, parse_eq]
    exact hstmts
  · simp only [whole, first, second, diagnostics_parse]
    exact hfaults

/-- The semicolon follows a fault. -/
theorem parse_append_nameBetweenFaults :
    let tokens := Token.nameBetweenFaults.take 3
    let others := Token.nameBetweenFaults.drop 3
    let first := parse (TokenQueue.ofTokens tokens)
    let second := parse (TokenQueue.ofTokens others)
    let whole := parse (TokenQueue.ofTokens Token.nameBetweenFaults)
    (∀ token ∈ tokens, token.kind ≠ .eof) ∧
      tokens.getLast?.map Token.kind = some .semicolon ∧
      (∀ token ∈ tokens, token.kind ≠ .openCurly ∧ token.kind ≠ .closeCurly) ∧
      (∀ token ∈ others, token.kind ≠ .eof) ∧ others ≠ [] ∧
      first.2.length = 1 ∧ second.1.statements.length = 1 ∧
      whole.1.statements = first.1.statements ++ second.1.statements ∧
      whole.2 = first.2 ++ second.2 := by
  intro tokens others first second whole
  have hends : ∀ token ∈ tokens, token.kind ≠ .eof := by decide
  have hlast : tokens.getLast?.map Token.kind = some .semicolon := by decide
  have hfree : ∀ token ∈ tokens, token.kind ≠ .openCurly ∧ token.kind ≠ .closeCurly := by decide
  have hends' : ∀ token ∈ others, token.kind ≠ .eof := by decide
  have hne : others ≠ [] := by decide
  have happend : tokens ++ others = Token.nameBetweenFaults := List.take_append_drop 3 _
  have hparse := parse_append hends hlast (.inr hfree) hends' hne
  rw [happend] at hparse
  exact ⟨hends, hlast, hfree, hends', hne, by decide, by decide, hparse⟩

end MonkeySyntax
