import MonkeySyntax.Proofs.Parser.Complete
import MonkeySyntax.Proofs.Parser.Sound
import MonkeySyntax.Proofs.Productions.Sight

namespace MonkeySyntax

/-! A program falls into stretches of tokens, each of which is read on its own as it is read
among the others: as one statement, or as one fault. -/

variable {σ : Type} [TokenSource σ]

theorem TokenQueue.finish_ofTokens_append (passed : List Token) {rest : List Token}
    (h : rest ≠ []) : (ofTokens (passed ++ rest)).finish = (ofTokens rest).finish := by
  simp only [ofTokens, List.getLast?_append, List.getLast?_eq_some_getLast h, Option.some_or]

/-- A cursor that holds the first tokens of those that another one holds agrees with it on
them, and on all that follows if there are no others. -/
theorem Cursor.Agrees.of_take {cursor twin : Cursor σ} {tokens : List Token}
    {finish finish' : Token} {taken count : Nat} (h : cursor.Holds tokens finish)
    (htwin : twin.Holds (tokens.take taken) finish') (hdepth : cursor.depth = twin.depth)
    (hfinish : tokens.length ≤ taken → finish = finish')
    (hcount : count ≤ taken ∨ tokens.length ≤ taken) : cursor.Agrees count twin := by
  refine ⟨?_, hdepth⟩
  rw [← List.take_append_drop taken tokens] at h
  rw [← List.append_nil (tokens.take taken)] at htwin
  refine .of_holds h htwin ?_
  rcases Nat.lt_or_ge taken tokens.length with hlt | hge
  · rw [List.length_take]
    omega
  · exact .inr ⟨List.drop_eq_nil_of_le hge, rfl, hfinish hge⟩

/-! Getting past a fault. -/

/-- The same tokens are skipped from a cursor that agrees on them, and on the one at which
skipping stops. -/
theorem Cursor.exists_after_skipStatement (limit depth skipped : Nat) (cursor : Cursor σ) :
    ∃ steps, cursor.After steps (cursor.skipStatement limit depth skipped).2 ∧
      (0 < limit → cursor.current.kind ≠ .eof → cursor.current.kind ≠ .semicolon → 0 < steps) ∧
      ∀ twin : Cursor σ, Alike (steps + 1) cursor twin →
        twin.After steps (twin.skipStatement limit depth skipped).2 := by
  induction limit generalizing depth skipped cursor with
  | zero => exact ⟨0, .refl cursor, fun h => absurd h (Nat.lt_irrefl 0), fun twin _ => .refl twin⟩
  | succ limit ih =>
      rw [skipStatement]
      split
      case isTrue hstop =>
        refine ⟨0, .refl cursor, fun _ heof hsemicolon => ?_, fun twin halike => ?_⟩
        · exact (hstop.elim heof fun h => hsemicolon h.1).elim
        · rw [skipStatement, ← halike.current (Nat.le_refl 1), if_pos hstop]
          exact .refl twin
      case isFalse hgo =>
        obtain ⟨steps, hafter, -, htwin⟩ :=
          ih (depthAfter depth cursor.current.kind) (skipped + 1) cursor.advance
        refine ⟨steps + 1, hafter, fun _ _ _ => Nat.succ_pos steps, fun twin halike => ?_⟩
        rw [skipStatement, ← halike.1, if_neg hgo]
        exact htwin twin.advance halike.2

namespace Parser

theorem after_recover {limit steps : Nat} {diagnostic : Diagnostic} {parser : Parser σ}
    (h : (parser.cursor.record diagnostic).After steps
      ((parser.cursor.record diagnostic).skipStatement limit parser.cursor.depth.blocks 0).2) :
    parser.cursor.After steps (recover limit diagnostic parser).cursor := by
  have hwindow := (parser.cursor.record diagnostic).window_resynchronize limit
  exact (h.to_window hwindow.symm).of_window (parser.cursor.window_record _).symm

variable [BoundedTokenSource σ] {parser : Parser σ} {tokens : List Token} {finish : Token}

theorem exists_after_recover (h : parser.cursor.Holds tokens finish) (diagnostic : Diagnostic) :
    ∃ steps, parser.cursor.After steps
        (recover (parser.cursor.left + 1) diagnostic parser).cursor ∧
      (parser.cursor.current.kind ≠ .semicolon → 0 < steps ∨ tokens = []) ∧
      ∀ (twin : Parser σ) (others : List Token) (finish' : Token),
        twin.cursor.Holds others finish' → others.length ≤ tokens.length →
        parser.cursor.Agrees (steps + 1) twin.cursor →
        twin.cursor.After steps (recover (twin.cursor.left + 1) diagnostic twin).cursor := by
  have hleft := h.length_le_left
  obtain ⟨steps, hafter, hpos, hskips⟩ :=
    (parser.cursor.record diagnostic).exists_after_skipStatement (parser.cursor.left + 1)
      parser.cursor.depth.blocks 0
  refine ⟨steps, after_recover hafter, fun hsemicolon => ?_, ?_⟩
  · by_cases heof : parser.cursor.current.kind = .eof
    · exact .inr (h.eq_nil heof)
    · exact .inl (hpos (Nat.succ_pos _) heof hsemicolon)
  · intro twin others finish' htwin hle hagrees
    have hlt : others.length < parser.cursor.left + 1 := by omega
    have hlt' := Nat.lt_succ_of_le htwin.length_le_left
    have hskip := hskips _ (hagrees.record diagnostic).alike
    rw [hagrees.depth] at hskip
    rw [recover_limit htwin.kind_lookahead_length hlt' hlt]
    exact after_recover hskip

/-- The tokens from the start of a statement at fault up to where the parser goes on are at
fault on their own. -/
theorem exists_run_recovered {diagnostic : Diagnostic} {cursor : Cursor σ}
    (hgrammar : parser.grammar = .standard) (h : parser.cursor.Holds tokens finish)
    (hcurrent : parser.cursor.current.kind ≠ .eof)
    (hfault : (Productions.tied parser.grammar).statement parser.cursor =
      .error (.fault diagnostic) cursor) :
    ∃ count, 0 < count ∧
      (recover (cursor.left + 1) diagnostic { parser with cursor }).advance.cursor.Holds
        (tokens.drop count) finish ∧
      ∀ (twin : Parser σ) (finish' : Token), twin.grammar = .standard →
        parser.cursor.depth = twin.cursor.depth →
        twin.cursor.Holds (tokens.take count) finish' →
        (tokens.length ≤ count → finish = finish') →
        ∃ cursor' next, Run twin [(.recovered diagnostic cursor', next)] := by
  rw [hgrammar] at hfault
  obtain ⟨hdetects, steps, hrepeats⟩ :=
    (Productions.tied_statement_looks parser.cursor).of_error hfault diagnostic rfl
  have hahead : ({ parser with cursor } : Parser σ).cursor.Holds (tokens.drop steps) finish :=
    hrepeats.moves.holds h
  obtain ⟨more, hafter, hpos, hskips⟩ := exists_after_recover hahead diagnostic
  refine ⟨steps + more + 1, Nat.succ_pos _, (hrepeats.moves.trans hafter).advance.holds h, ?_⟩
  intro twin finish' hgrammar' hdepth htwin hfinish
  have hagrees {count : Nat} (hcount : count ≤ steps + more + 1 ∨
      tokens.length ≤ steps + more + 1) : parser.cursor.Agrees count twin.cursor :=
    .of_take h htwin hdepth hfinish hcount
  -- The token at fault is among the ones that are taken, unless it is the end.
  have hlead : steps + (diagnostic.fault.lead + 1) ≤ steps + more + 1 ∨
      tokens.length ≤ steps + more + 1 := by
    rcases Nat.eq_zero_or_pos diagnostic.fault.lead with hzero | hlead
    · omega
    · have hle := diagnostic.fault.lead_le
      rcases hpos (hdetects.ne_semicolon (by omega)) with hmore | hnil
      · omega
      · have hlength := List.drop_eq_nil_iff.mp hnil
        omega
  obtain ⟨cursor', hread, hmoves, hdepth'⟩ := hrepeats.again (hagrees hlead)
  have hagrees' : cursor.Agrees (more + 1) cursor' :=
    ⟨(hagrees (.inl (Nat.le_of_eq (Nat.add_assoc ..).symm))).alike.after hrepeats.moves hmoves,
      hdepth'⟩
  have hahead' := hmoves.holds htwin
  have hlength : ((tokens.take (steps + more + 1)).drop steps).length ≤
      (tokens.drop steps).length := by
    simp only [List.length_drop, List.length_take]
    omega
  have hafter' := hskips { twin with cursor := cursor' } _ _ hahead' hlength hagrees'
  have hlast := (hmoves.trans hafter').advance.holds htwin
  rw [List.drop_take, Nat.sub_self, List.take_zero] at hlast
  have hcurrent' : twin.cursor.current.kind ≠ .eof := by
    rwa [← (hagrees (.inl (Nat.succ_pos _))).alike.current (Nat.le_refl 1)]
  rw [← hgrammar'] at hread
  exact ⟨cursor', _, .recovered hcurrent' hread (.finished hlast.kind_current)⟩

end Parser

/-! Programs in stretches. -/

namespace Token

/-- From the tokens on their own comes one statement, or one fault. -/
def ReadAlone (tokens : List Token) : Prop :=
  let result := parse (TokenQueue.ofTokens tokens)
  (∃ stmt, result.1.statements = [stmt]) ∧ result.2 = [] ∨
    result.1.statements = [] ∧ ∃ diagnostic, result.2 = [diagnostic]

/-- The tokens fall into segments, from which come the statements and the diagnostics. -/
structure Decomposes (tokens : List Token) (segments : List (List Token))
    (stmts : List Stmt) (diagnostics : List Diagnostic) : Prop where
  flatten : segments.flatten = tokens
  alone : ∀ segment ∈ segments, segment ≠ [] ∧ ReadAlone segment
  statements : stmts = segments.flatMap fun segment =>
    (parse (TokenQueue.ofTokens segment)).1.statements
  diagnostics : diagnostics = segments.flatMap fun segment =>
    (parse (TokenQueue.ofTokens segment)).2

namespace Decomposes

variable {tokens segment : List Token} {segments : List (List Token)} {stmts : List Stmt}
  {diagnostics : List Diagnostic}

theorem nil : Decomposes [] [] [] [] where
  flatten := rfl
  alone _ hmem := absurd hmem List.not_mem_nil
  statements := rfl
  diagnostics := rfl

theorem cons (h : Decomposes tokens segments stmts diagnostics) (hne : segment ≠ [])
    (halone : ReadAlone segment) :
    Decomposes (segment ++ tokens) (segment :: segments)
      ((parse (TokenQueue.ofTokens segment)).1.statements ++ stmts)
      ((parse (TokenQueue.ofTokens segment)).2 ++ diagnostics) where
  flatten := by rw [List.flatten_cons, h.flatten]
  alone := List.forall_mem_cons.mpr ⟨⟨hne, halone⟩, h.alone⟩
  statements := by rw [List.flatMap_cons, h.statements]
  diagnostics := by rw [List.flatMap_cons, h.diagnostics]

end Decomposes

end Token

open MonkeySyntax.Parser in
theorem Parser.Run.exists_decomposes {parser : Parser TokenQueue}
    {entries : List (Outcome TokenQueue × Parser TokenQueue)} (hrun : Run parser entries)
    (hgrammar : parser.grammar = .standard) (hdepth : parser.cursor.depth = .outside none)
    {tokens : List Token} {finish : Token} (h : parser.cursor.Holds tokens finish)
    (hfinish : tokens ≠ [] → finish = (TokenQueue.ofTokens tokens).finish) :
    ∃ segments, Token.Decomposes tokens segments (stmts entries) (faults entries) := by
  induction hrun generalizing tokens with
  | finished heof =>
      obtain rfl := h.eq_nil heof
      exact ⟨[], .nil⟩
  | @read parser stmt cursor entries hcurrent hread hrun ih =>
      rw [hgrammar] at hread
      obtain ⟨used, rest, rfl, hrest, hstmt⟩ :=
        (Productions.tied_statement_reads h).of_ok hread
      obtain ⟨hdepth', -⟩ := (Productions.tied_statement_looks parser.cursor).of_ok hread
      obtain ⟨segments, hsegments⟩ := ih hgrammar (hdepth'.trans hdepth) hrest fun hne => by
        rw [hfinish (List.append_ne_nil_of_right_ne_nil used hne),
          TokenQueue.finish_ofTokens_append used hne]
      have hends : ∀ token ∈ used, token.kind ≠ .eof := fun token hmem =>
        h.ne_eof token (List.mem_append_left rest hmem)
      have hparse := parse_of_yields hstmt.writtenAll_alone (TokenQueue.yields_ofTokens hends)
      have hall := hsegments.cons hstmt.ne_nil (.inl (by rw [hparse]; exact ⟨⟨stmt, rfl⟩, rfl⟩))
      rw [hparse] at hall
      exact ⟨_, hall⟩
  | @recovered parser diagnostic cursor entries hcurrent hfault hrun ih =>
      obtain ⟨count, hpos, hrest, halone⟩ := exists_run_recovered hgrammar h hcurrent hfault
      have hsplit := List.take_append_drop count tokens
      obtain ⟨segments, hsegments⟩ := ih hgrammar (outside_recover hdepth hfault _) hrest
        fun hne => by
          rw [← TokenQueue.finish_ofTokens_append (tokens.take count) hne, hsplit]
          exact hfinish fun hnil => hne (by rw [hnil, List.drop_nil])
      have hne : tokens ≠ [] := by
        rintro rfl
        exact hcurrent h.kind_current
      have hsegment : tokens.take count ≠ [] := by
        simp [List.take_eq_nil_iff, hne, Nat.ne_of_gt hpos]
      have hends : ∀ token ∈ tokens.take count, token.kind ≠ .eof := fun token hmem =>
        h.ne_eof token (List.mem_of_mem_take hmem)
      have hholds := holds_ofTokens hends
      obtain ⟨cursor', next, hrun'⟩ := halone _ _ rfl hdepth hholds fun hle => by
        rw [hfinish hne, List.take_of_length_le hle]
      have hhistory := hrun'.history_eq Grammar.standard_leavesEnd
      have hstatements :
          (parse (TokenQueue.ofTokens (tokens.take count))).1.statements = [] := by
        rw [parse_eq, hhistory]
        rfl
      have hdiagnostics :
          (parse (TokenQueue.ofTokens (tokens.take count))).2 = [diagnostic] := by
        rw [diagnostics_parse, hhistory]
        rfl
      have hall := hsegments.cons hsegment (.inr ⟨hstatements, diagnostic, hdiagnostics⟩)
      rw [hsplit, hstatements, hdiagnostics] at hall
      exact ⟨_, hall⟩

/-- Any tokens fall into segments, each of which gives one statement or one fault when it is
read on its own.  Put one after the other, what they give is what comes of all the tokens. -/
theorem parse_eq_flatMap_segments {tokens : List Token}
    (hends : ∀ token ∈ tokens, token.kind ≠ .eof) :
    ∃ segments : List (List Token), segments.flatten = tokens ∧
      (∀ segment ∈ segments, segment ≠ [] ∧ Token.ReadAlone segment) ∧
      (parse (TokenQueue.ofTokens tokens)).1.statements = (segments.flatMap fun segment =>
        (parse (TokenQueue.ofTokens segment)).1.statements) ∧
      (parse (TokenQueue.ofTokens tokens)).2 = segments.flatMap fun segment =>
        (parse (TokenQueue.ofTokens segment)).2 := by
  have hholds := Parser.holds_ofTokens hends
  obtain ⟨segments, hsegments⟩ :=
    (Parser.run_ofSource _).exists_decomposes rfl rfl hholds fun _ => rfl
  rw [diagnostics_parse, parse_eq]
  exact ⟨segments, hsegments.flatten, hsegments.alone, hsegments.statements,
    hsegments.diagnostics⟩

/-- A name is read after one fault and before another. -/
def Token.nameBetweenFaults : List Token :=
  [.unplaced .letWord "let", .unplaced .integer "5", .unplaced .semicolon ";",
    .unplaced .identifier "a", .unplaced .closeParen ")"]

theorem parse_eq_flatMap_segments_nameBetweenFaults :
    (∀ token ∈ Token.nameBetweenFaults, token.kind ≠ .eof) ∧
      ∃ segments : List (List Token), segments.flatten = Token.nameBetweenFaults ∧
        (∀ segment ∈ segments, segment ≠ [] ∧ Token.ReadAlone segment) ∧
        (parse (TokenQueue.ofTokens Token.nameBetweenFaults)).1.statements =
          (segments.flatMap fun segment =>
            (parse (TokenQueue.ofTokens segment)).1.statements) ∧
        (parse (TokenQueue.ofTokens Token.nameBetweenFaults)).2 =
          segments.flatMap fun segment => (parse (TokenQueue.ofTokens segment)).2 :=
  ⟨by decide, parse_eq_flatMap_segments (by decide)⟩

example : (parse (TokenQueue.ofTokens Token.nameBetweenFaults)).2.length = 2 := by decide

end MonkeySyntax
