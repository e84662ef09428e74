import MonkeySyntax.Proofs.Parser.Complete
import MonkeySyntax.Proofs.Parser.Sound
import MonkeySyntax.Proofs.Parser.Termination
import MonkeySyntax.Proofs.Productions.Viable

namespace MonkeySyntax

/-! The first fault is found at the first token that no program goes on with: the tokens
before it begin a program, and the same fault is found whatever comes after it. -/

variable {σ : Type} [TokenSource σ] [LawfulTokenSource σ] {tokens : List Token} {finish : Token}

namespace Productions

variable {cursor cursor' : Cursor σ}

/-- A statement at fault is at fault in the same way wherever the tokens up to the one at
fault are the same. -/
theorem tied_statement_fault (h : cursor.Holds tokens finish) {diagnostic : Diagnostic}
    (hfault : (tied Grammar.standard).statement cursor = .error (.fault diagnostic) cursor') :
    ∃ used rest, tokens = used ++ rest ∧ diagnostic.Blames (rest.headD finish) ∧
      Begins Stmt.Written used ∧
      (rest ≠ [] → ∀ twin : Cursor σ, cursor.Agrees (used.length + 1) twin →
        ∃ twin', (tied Grammar.standard).statement twin = .error (.fault diagnostic) twin') := by
  obtain ⟨hdetects, steps, hrepeats⟩ :=
    (tied_statement_looks cursor).of_error hfault diagnostic rfl
  obtain ⟨culprit, used, rest, hculprit, happend, hrest, hused⟩ :=
    (tied_statement_falters h).of_error hfault diagnostic rfl
  refine ⟨used, rest, happend, ?_, hused, fun hne twin htwin => ?_⟩
  · rw [← hrest.current_eq]
    exact hdetects.blames culprit hculprit
  · rw [happend] at h
    have hsteps := (hrepeats.moves.trans hculprit).length_eq h hrest hne
    obtain ⟨twin', hread, -, -⟩ := hrepeats.again (htwin.mono (by omega))
    exact ⟨twin', hread⟩

/-- A statement is read in the same way wherever its tokens and the next one are the same. -/
theorem tied_statement_read {stmt : Stmt} (h : cursor.Holds tokens finish)
    (hread : (tied Grammar.standard).statement cursor = .ok stmt cursor') :
    ∃ used rest, tokens = used ++ rest ∧ cursor'.advance.Holds rest finish ∧
      stmt.Ends used (Token.firstKind rest) ∧
      (rest ≠ [] → ∀ (twin : Cursor σ) (count : Nat), 1 ≤ count →
        cursor.Agrees (used.length + count) twin →
        ∃ twin', (tied Grammar.standard).statement twin = .ok stmt twin' ∧
          cursor'.advance.Agrees count twin'.advance) := by
  obtain ⟨-, steps, hrepeats⟩ := (tied_statement_looks cursor).of_ok hread
  obtain ⟨used, rest, happend, hrest, hstmt⟩ := (tied_statement_reads h).of_ok hread
  refine ⟨used, rest, happend, hrest, hstmt, fun hne twin count hcount htwin => ?_⟩
  rw [happend] at h
  rw [hrepeats.moves.advance.length_eq h hrest hne] at htwin
  have hsight : Sight.peek.count = 2 := rfl
  obtain ⟨twin', hread', hmoves, hdepth⟩ := hrepeats.again (htwin.mono (by omega))
  exact ⟨twin', hread', htwin.alike.after hrepeats.moves.advance hmoves.advance, hdepth⟩

end Productions

namespace Parser

variable {parser : Parser σ} {entries : List (Outcome σ × Parser σ)}

theorem Run.exists_firstFault (hrun : Run parser entries) (hgrammar : parser.grammar = .standard)
    (h : parser.cursor.Holds tokens finish) {diagnostic : Diagnostic}
    (hfirst : (faults entries).head? = some diagnostic) :
    ∃ used rest, tokens = used ++ rest ∧ diagnostic.Blames (rest.headD finish) ∧
      Stmt.BegunAll used ∧
      (rest ≠ [] → ∀ (twin : Parser σ) (entries' : List (Outcome σ × Parser σ)),
        Run twin entries' → twin.grammar = .standard →
        parser.cursor.Agrees (used.length + 1) twin.cursor →
        (faults entries').head? = some diagnostic) := by
  induction hrun generalizing tokens with
  | finished => cases hfirst
  | @read parser stmt cursor entries hcurrent hread hrun ih =>
      rw [hgrammar] at hread
      obtain ⟨used, rest, rfl, hrest, hstmt, hagain⟩ :=
        Productions.tied_statement_read h hread
      obtain ⟨used', rest', rfl, hblames, hused', htwin⟩ := ih hgrammar hrest hfirst
      refine ⟨used ++ used', rest', (List.append_assoc ..).symm, hblames,
        hstmt.begunAll hused', ?_⟩
      intro hne twin entries' hrun' hgrammar' hagrees
      rw [List.length_append, Nat.add_assoc] at hagrees
      obtain ⟨cursor', hread', hagrees'⟩ :=
        hagain (List.append_ne_nil_of_right_ne_nil used' hne) twin.cursor _ (by omega) hagrees
      have hcurrent' := hagrees.alike.current (by omega) ▸ hcurrent
      rw [← hgrammar'] at hread'
      obtain ⟨rest, rfl, hrest'⟩ := hrun'.exists_of_read hcurrent' hread'
      exact htwin hne _ rest hrest' hgrammar' hagrees'
  | @recovered parser diagnostic' cursor entries hcurrent hfault hrun _ =>
      obtain rfl : diagnostic' = diagnostic := Option.some.inj hfirst
      rw [hgrammar] at hfault
      obtain ⟨used, rest, happend, hblames, hused, hagain⟩ :=
        Productions.tied_statement_fault h hfault
      refine ⟨used, rest, happend, hblames, Stmt.begunAll_of_begins hused, ?_⟩
      intro hne twin entries' hrun' hgrammar' hagrees
      obtain ⟨cursor', hfault'⟩ := hagain hne twin.cursor hagrees
      have hcurrent' := hagrees.alike.current (by omega) ▸ hcurrent
      rw [← hgrammar'] at hfault'
      obtain ⟨rest, rfl, -⟩ := hrun'.exists_of_fault hcurrent' hfault'
      rfl

end Parser

namespace Token

def StartsRise (tokens : List Token) : Prop :=
  tokens.Pairwise fun token later => token.span.start.offset < later.span.start.offset

instance (tokens : List Token) : Decidable (StartsRise tokens) :=
  inferInstanceAs (Decidable (List.Pairwise _ _))

/-- A place at which a token starts tells which one it is. -/
theorem StartsRise.unique {before before' rest rest' : List Token} {token token' : Token}
    (h : StartsRise tokens) (hsplit : tokens = before ++ token :: rest)
    (hsplit' : tokens = before' ++ token' :: rest')
    (hstart : token.span.start = token'.span.start) : before = before' := by
  induction before generalizing before' tokens with
  | nil =>
      cases before' with
      | nil => rfl
      | cons first others =>
          rw [hsplit'] at hsplit
          obtain ⟨rfl, -⟩ := List.cons.inj hsplit
          rw [hsplit'] at h
          have hlt := List.rel_of_pairwise_cons h (List.mem_append_right others List.mem_cons_self)
          rw [hstart] at hlt
          exact absurd hlt (UInt32.lt_irrefl _)
  | cons first before ih =>
      rw [hsplit] at h hsplit'
      cases before' with
      | nil =>
          obtain ⟨rfl, -⟩ := List.cons.inj hsplit'
          have hlt := List.rel_of_pairwise_cons h (List.mem_append_right before List.mem_cons_self)
          rw [hstart] at hlt
          exact absurd hlt (UInt32.lt_irrefl _)
      | cons first' before' =>
          obtain ⟨rfl, hrest⟩ := List.cons.inj hsplit'
          rw [ih (List.pairwise_cons.mp h).2 rfl hrest]

/-- Of the tokens and their end, one is the end or lies among the tokens. -/
theorem eq_end_or_among {before after : List Token} {token : Token}
    (h : tokens ++ [finish] = before ++ token :: after) :
    before = tokens ∧ token = finish ∨ ∃ rest, tokens = before ++ token :: rest := by
  rcases List.eq_nil_or_concat after with rfl | ⟨rest, last, rfl⟩
  · obtain ⟨hbefore, htoken⟩ := List.append_inj' h rfl
    exact .inl ⟨hbefore.symm, (List.singleton_inj.mp htoken).symm⟩
  · have hsplit : tokens ++ [finish] = (before ++ token :: rest) ++ [last] := by simpa using h
    exact .inr ⟨rest, (List.append_inj' hsplit rfl).1⟩

/-- No two tokens are told by the same diagnostic, and none is taken for the end. -/
theorem StartsRise.blames_unique (hstarts : StartsRise tokens)
    (hends : ∀ token ∈ tokens, token.kind ≠ .eof) (hfinish : finish.kind = .eof)
    {diagnostic : Diagnostic} {before before' after after' : List Token} {token token' : Token}
    (hsplit : tokens ++ [finish] = before ++ token :: after)
    (hsplit' : tokens ++ [finish] = before' ++ token' :: after')
    (hblames : diagnostic.Blames token) (hblames' : diagnostic.Blames token') :
    before' = before := by
  have hkind : token.kind = token'.kind := hblames.found.symm.trans hblames'.found
  rcases eq_end_or_among hsplit with ⟨rfl, rfl⟩ | ⟨rest, hrest⟩
  · rcases eq_end_or_among hsplit' with ⟨hbefore, -⟩ | ⟨rest', rfl⟩
    · exact hbefore
    · exact absurd (hkind.symm.trans hfinish) (hends token' (by simp))
  · rcases eq_end_or_among hsplit' with ⟨-, rfl⟩ | ⟨rest', hrest'⟩
    · exact absurd (hkind.trans hfinish) (hends token (by simp [hrest]))
    · exact (hstarts.unique hrest hrest' (hblames.position.symm.trans hblames'.position)).symm

theorem beforeEnd_append {before : List Token} (h : ∀ token ∈ before, token.kind ≠ .eof)
    (more : List Token) : beforeEnd (before ++ more) = before ++ beforeEnd more :=
  List.takeWhile_append_of_pos fun token hmem => decide_eq_true (h token hmem)

end Token

theorem Parser.agrees_ofTokens {passed : List Token}
    (h : ∀ token ∈ passed, token.kind ≠ .eof) (rest rest' : List Token) :
    (ofSource (TokenQueue.ofTokens (passed ++ rest))).cursor.Agrees passed.length
      (ofSource (TokenQueue.ofTokens (passed ++ rest'))).cursor := by
  have hholds (rest : List Token) : ∃ finish,
      (ofSource (TokenQueue.ofTokens (passed ++ rest))).cursor.Holds
        (passed ++ Token.beforeEnd rest) finish := by
    obtain ⟨finish, hyields⟩ :=
      TokenQueue.exists_yields_beforeEnd (TokenQueue.ofTokens (passed ++ rest))
    refine ⟨finish, Cursor.holds_ofSource ?_⟩
    rwa [← Token.beforeEnd_append h]
  obtain ⟨finish, hrest⟩ := hholds rest
  obtain ⟨finish', hrest'⟩ := hholds rest'
  exact ⟨.of_holds hrest hrest' (.inl (Nat.le_refl _)), rfl⟩

theorem Stmt.BegunAll.exists_parse_eq_nil {used : List Token} (h : Stmt.BegunAll used) :
    ∃ more, (∀ token ∈ more, token.kind ≠ .eof) ∧
      (parse (TokenQueue.ofTokens (used ++ more))).2 = [] := by
  obtain ⟨stmts, more, hwritten, -⟩ := h
  refine ⟨more, fun token hmem => hwritten.ne_eof token (List.mem_append_right used hmem), ?_⟩
  rw [parse_of_yields hwritten (TokenQueue.yields_ofTokens hwritten.ne_eof)]

/-- The first diagnostic is about a token such that those before it begin a program without
faults, while no program goes on with it: the same diagnostic comes first wherever the tokens
up to it come first. -/
theorem parse_firstFault {tokens : List Token} {diagnostic : Diagnostic}
    {others : List Diagnostic} (hends : ∀ token ∈ tokens, token.kind ≠ .eof)
    (hstarts : Token.StartsRise tokens)
    (hfault : (parse (TokenQueue.ofTokens tokens)).2 = diagnostic :: others) :
    ∃ before offending after,
      tokens ++ [(TokenQueue.ofTokens tokens).finish] = before ++ offending :: after ∧
      diagnostic.Blames offending ∧
      (∀ before' offending' after',
        tokens ++ [(TokenQueue.ofTokens tokens).finish] = before' ++ offending' :: after' →
        diagnostic.Blames offending' → before' = before) ∧
      (∃ more, (∀ token ∈ more, token.kind ≠ .eof) ∧
        (parse (TokenQueue.ofTokens (before ++ more))).2 = []) ∧
      (offending.kind ≠ .eof → ∀ longer, before ++ [offending] <+: longer →
        (parse (TokenQueue.ofTokens longer)).2.head? = some diagnostic) := by
  rw [diagnostics_parse] at hfault
  obtain ⟨before, rest, rfl, hblames, hbegun, hagain⟩ :=
    (Parser.run_ofSource _).exists_firstFault rfl (Parser.holds_ofTokens hends)
      (congrArg List.head? hfault)
  generalize hfinish : (TokenQueue.ofTokens (before ++ rest)).finish = finish at hblames ⊢
  have hkind : finish.kind = .eof := by
    rw [← hfinish]
    rfl
  have hsplit : (before ++ rest) ++ [finish] =
      before ++ rest.headD finish :: (rest ++ [finish]).tail := by
    cases rest <;> simp
  refine ⟨before, rest.headD finish, _, hsplit, hblames, ?_, hbegun.exists_parse_eq_nil, ?_⟩
  · intro before' offending' after' hsplit' hblames'
    exact hstarts.blames_unique hends hkind hsplit hsplit' hblames hblames'
  · intro hne longer hlonger
    obtain ⟨following, rfl⟩ := hlonger
    obtain ⟨offending, after, rfl⟩ : ∃ offending after, rest = offending :: after :=
      List.exists_cons_of_ne_nil fun hnil => hne (by rw [hnil]; exact hkind)
    have hstart : before ++ [offending] <+: before ++ offending :: after :=
      ⟨after, List.append_cons .. |>.symm⟩
    have hagrees := Parser.agrees_ofTokens
      (fun token hmem => hends token (hstart.subset hmem)) after following
    rw [← List.append_cons, List.length_append] at hagrees
    rw [List.headD_cons, diagnostics_parse]
    exact hagain (List.cons_ne_nil _ _) _ _ (Parser.run_ofSource _) rfl hagrees

/-- The sign is missed that has to follow a name that is bound. -/
def Token.signMissed : List Token :=
  [⟨.letWord, "let", .ofRange "f" 0 3⟩, ⟨.identifier, "x", .ofRange "f" 4 1⟩,
    ⟨.integer, "5", .ofRange "f" 6 1⟩, ⟨.semicolon, ";", .ofRange "f" 7 1⟩]

theorem parse_firstFault_signMissed :
    let diagnostic : Diagnostic := ⟨.unexpectedToken .assignment .integer, ⟨6, "f"⟩⟩
    (∀ token ∈ Token.signMissed, token.kind ≠ .eof) ∧ Token.StartsRise Token.signMissed ∧
      (parse (TokenQueue.ofTokens Token.signMissed)).2 = [diagnostic] ∧
      (∃ more, (∀ token ∈ more, token.kind ≠ .eof) ∧
        (parse (TokenQueue.ofTokens (Token.signMissed.take 2 ++ more))).2 = []) ∧
      ∀ longer, Token.signMissed.take 3 <+: longer →
        (parse (TokenQueue.ofTokens longer)).2.head? = some diagnostic := by
  intro diagnostic
  have hends : ∀ token ∈ Token.signMissed, token.kind ≠ .eof := by decide
  have hstarts : Token.StartsRise Token.signMissed := by decide
  have hfault : (parse (TokenQueue.ofTokens Token.signMissed)).2 = [diagnostic] := by decide
  obtain ⟨before, offending, after, hsplit, -, hunique, hmore, hlonger⟩ :=
    parse_firstFault hends hstarts hfault
  obtain rfl : Token.signMissed.take 2 = before :=
    hunique _ ⟨.integer, "5", .ofRange "f" 6 1⟩ _ rfl ⟨rfl, rfl⟩
  obtain rfl : ⟨.integer, "5", .ofRange "f" 6 1⟩ = offending :=
    Option.some.inj (congrArg (fun tokens => tokens[2]?) hsplit)
  exact ⟨hends, hstarts, hfault, hmore, hlonger (by decide)⟩

end MonkeySyntax
