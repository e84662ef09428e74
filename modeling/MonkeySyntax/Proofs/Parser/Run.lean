import MonkeySyntax.Parser
import MonkeySyntax.Proofs.Cursor.Ahead
import MonkeySyntax.Proofs.Productions.Knot

namespace MonkeySyntax

open Reader

/-! Runs of a parser: statement after statement, up to the end of the input.  Every
parser has one, and it is the one that the program is read by. -/

variable {σ : Type}

/-- What no reader changes: the diagnostics, and how many blocks can be counted. -/
structure Cursor.Keeps (cursor cursor' : Cursor σ) : Prop where
  diagnostics : cursor'.diagnostics = cursor.diagnostics
  greatest : cursor'.depth.greatest? = cursor.depth.greatest?

theorem Cursor.Keeps.refl (cursor : Cursor σ) : cursor.Keeps cursor := ⟨rfl, rfl⟩

theorem Cursor.Keeps.trans {cursor middle cursor' : Cursor σ} (h : cursor.Keeps middle)
    (h' : middle.Keeps cursor') : cursor.Keeps cursor' :=
  ⟨h'.diagnostics.trans h.diagnostics, h'.greatest.trans h.greatest⟩

variable [TokenSource σ]

/-- Whatever a reader does, the cursor only moves on. -/
def Reader.movement (σ : Type) [TokenSource σ] : StepRelation σ σ where
  Holds reader _ := ∀ cursor, Ends reader (fun _ cursor' => cursor.Reaches cursor')
    (fun _ cursor' => cursor.Reaches cursor') cursor
  pure _ cursor := .refl cursor
  bind h hnext cursor := by
    rw [ends_bind]
    refine (h cursor).mono (fun value middle hmiddle => ?_) (fun _ _ hreaches => hreaches)
    exact (hnext value middle).mono (fun _ _ hreaches => hmiddle.trans hreaches)
      (fun _ _ hreaches => hmiddle.trans hreaches)
  current cursor := .refl cursor
  peek cursor := .refl cursor
  fail _ _ cursor := .refl cursor
  note _ _ := .here rfl
  enterBlock cursor := ends_enterBlock.mpr ⟨fun _ _ => .here rfl, fun _ => .refl cursor⟩
  leaveBlock _ := .here rfl
  skip cursor := .advance cursor
  advance cursor := .advance cursor

/-- Readers record nothing, and the blocks overflow only where there is a greatest number. -/
def Reader.keeping (σ : Type) [TokenSource σ] : StepRelation σ σ where
  Holds reader _ := ∀ cursor, Ends reader (fun _ cursor' => cursor.Keeps cursor')
    (fun stop cursor' => cursor.Keeps cursor' ∧
      (stop = .overflow → cursor.depth.greatest? ≠ none)) cursor
  pure _ cursor := .refl cursor
  bind h hnext cursor := by
    rw [ends_bind]
    refine (h cursor).then fun value middle hmiddle => ?_
    refine (hnext value middle).mono (fun _ _ hkeeps => hmiddle.trans hkeeps) ?_
    intro stop cursor' hstop
    exact ⟨hmiddle.trans hstop.1, hmiddle.greatest ▸ hstop.2⟩
  current cursor := .refl cursor
  peek cursor := .refl cursor
  fail _ _ cursor := ⟨.refl cursor, nofun⟩
  note _ _ := ⟨rfl, rfl⟩
  enterBlock cursor := by
    rw [ends_enterBlock]
    refine ⟨fun depth henter => ⟨rfl, Depth.greatest?_enter? henter⟩, fun hfull => ?_⟩
    refine ⟨.refl cursor, fun _ => ?_⟩
    rw [(Depth.enter?_eq_none_iff _).mp hfull]
    exact Option.some_ne_none _
  leaveBlock _ := ⟨rfl, rfl⟩
  skip _ := ⟨rfl, rfl⟩
  advance _ := ⟨rfl, rfl⟩

namespace Productions

theorem toDepth_moves (grammar : Grammar) (depth : Nat) :
    Related (movement σ).toRelation (toDepth grammar depth) (toDepth grammar depth) := by
  apply related_toDepth
  constructor
  all_goals intros
  all_goals exact fun cursor => .refl cursor

theorem toDepth_keeps (grammar : Grammar) (depth : Nat) :
    Related (keeping σ).toRelation (toDepth grammar depth) (toDepth grammar depth) := by
  apply related_toDepth
  constructor
  all_goals intros
  all_goals exact fun cursor => ⟨.refl cursor, nofun⟩

theorem tied_statement_keeps (grammar : Grammar) (cursor : Cursor σ) :
    Ends (tied grammar).statement (fun _ cursor' => cursor.Keeps cursor')
      (fun stop cursor' => cursor.Keeps cursor' ∧
        (stop = .overflow → cursor.depth.greatest? ≠ none)) cursor := by
  rw [ends_congr (tied_statement grammar cursor)]
  exact (toDepth_keeps grammar (sufficientDepth cursor)).statement cursor

theorem tied_statement_moves (grammar : Grammar) (cursor : Cursor σ) :
    Ends (tied grammar).statement (fun _ cursor' => cursor.Reaches cursor')
      (fun _ cursor' => cursor.Reaches cursor') cursor := by
  rw [ends_congr (tied_statement grammar cursor)]
  exact (toDepth_moves grammar (sufficientDepth cursor)).statement cursor

theorem tied_statement_advances [BoundedTokenSource σ] {grammar : Grammar}
    (hgrammar : grammar.LeavesEnd) (cursor : Cursor σ) :
    Advances (tied grammar).statement cursor.left cursor := by
  rw [Advances, ends_congr (tied_statement grammar cursor)]
  exact (sufficient_tied hgrammar cursor).statement cursor (by omega)

end Productions

namespace Cursor

theorem reaches_skipStatement (limit depth skipped : Nat) (cursor : Cursor σ) :
    cursor.Reaches (cursor.skipStatement limit depth skipped).2 := by
  induction limit generalizing depth skipped cursor with
  | zero => exact .refl cursor
  | succ limit ih =>
      rw [skipStatement]
      split
      · exact .refl cursor
      · exact .step (ih ..)

theorem window_resynchronize (limit : Nat) (cursor : Cursor σ) :
    (cursor.resynchronize limit).window =
      (cursor.skipStatement limit cursor.depth.blocks 0).2.window := by
  simp only [resynchronize]
  split <;> rfl

theorem depth_resynchronize (limit : Nat) (cursor : Cursor σ) :
    (cursor.resynchronize limit).depth = .outside cursor.depth.greatest? := by
  simp only [resynchronize]
  split <;> rfl

theorem diagnostics_skipStatement (limit depth skipped : Nat) (cursor : Cursor σ) :
    (cursor.skipStatement limit depth skipped).2.diagnostics = cursor.diagnostics := by
  induction limit generalizing depth skipped cursor with
  | zero => rfl
  | succ limit ih =>
      rw [skipStatement]
      split
      · rfl
      · exact ih ..

theorem diagnostics_resynchronize (limit : Nat) (cursor : Cursor σ) :
    (cursor.resynchronize limit).diagnostics = cursor.diagnostics := by
  simp only [resynchronize]
  split <;> exact diagnostics_skipStatement ..

/-- The limit does not matter when the end comes before it. -/
theorem skipStatement_limit {count limit limit' depth skipped : Nat} {cursor : Cursor σ}
    (heof : (cursor.lookahead count).kind = .eof) (hlt : count < limit) (hlt' : count < limit') :
    cursor.skipStatement limit depth skipped = cursor.skipStatement limit' depth skipped := by
  induction count generalizing limit limit' depth skipped cursor with
  | zero =>
      obtain ⟨limit, rfl⟩ := Nat.exists_eq_add_of_lt hlt
      obtain ⟨limit', rfl⟩ := Nat.exists_eq_add_of_lt hlt'
      have hcurrent : cursor.current.kind = .eof := heof
      simp only [skipStatement, hcurrent, true_or, if_true]
  | succ count ih =>
      obtain ⟨limit, rfl⟩ : ∃ more, limit = more + 1 := ⟨limit - 1, by omega⟩
      obtain ⟨limit', rfl⟩ : ∃ more, limit' = more + 1 := ⟨limit' - 1, by omega⟩
      rw [skipStatement, skipStatement]
      split
      · rfl
      · exact ih heof (by omega) (by omega)

end Cursor

namespace Parser

@[simp] theorem diagnostics_advance (parser : Parser σ) :
    parser.advance.diagnostics = parser.diagnostics := rfl

theorem diagnostics_recover (limit : Nat) (diagnostic : Diagnostic) (parser : Parser σ) :
    (recover limit diagnostic parser).diagnostics = parser.diagnostics.push diagnostic :=
  Cursor.diagnostics_resynchronize limit (parser.cursor.record diagnostic)

theorem depth_recover (limit : Nat) (diagnostic : Diagnostic) (parser : Parser σ) :
    (recover limit diagnostic parser).cursor.depth =
      .outside parser.cursor.depth.greatest? :=
  Cursor.depth_resynchronize limit (parser.cursor.record diagnostic)

theorem recover_limit {count limit limit' : Nat} {diagnostic : Diagnostic} {parser : Parser σ}
    (heof : (parser.cursor.lookahead count).kind = .eof) (hlt : count < limit)
    (hlt' : count < limit') :
    recover limit diagnostic parser = recover limit' diagnostic parser := by
  rw [← Cursor.lookahead_congr (parser.cursor.window_record diagnostic)] at heof
  simp only [recover, Cursor.resynchronize, Cursor.skipStatement_limit heof hlt hlt']

/-- What comes of an attempt to read a statement. -/
inductive Outcome (σ : Type) where
  | read (stmt : Stmt)
  | recovered (diagnostic : Diagnostic) (fault : Cursor σ)

def Outcome.stmt? : Outcome σ → Option Stmt
  | .read stmt => some stmt
  | .recovered .. => none

def Outcome.diagnostic? : Outcome σ → Option Diagnostic
  | .read _ => none
  | .recovered diagnostic _ => some diagnostic

/-- The outcome of each attempt to read a statement, and the parser after it, in the order
in which a program is read. -/
def attempts (productions : Productions σ) : Nat → Parser σ → List (Outcome σ × Parser σ)
  | 0, _ => []
  | limit + 1, parser =>
    if parser.cursor.current.kind = .eof then
      []
    else
      match productions.statement parser.cursor with
      | .ok stmt cursor =>
        let next := { parser with cursor }
        (.read stmt, next) :: attempts productions limit next.advance
      | .error (.fault diagnostic) cursor =>
        let next := recover (limit + 1) diagnostic { parser with cursor }
        (.recovered diagnostic cursor, next) :: attempts productions limit next.advance
      | .error .exhausted _ => []

/-- The parser after the attempts. -/
def last (parser : Parser σ) : List (Outcome σ × Parser σ) → Parser σ
  | [] => parser
  | (_, next) :: rest => last next.advance rest

/-- The attempts by which the program of the parser is read. -/
def history (parser : Parser σ) : List (Outcome σ × Parser σ) :=
  attempts (.toDepth parser.grammar (Productions.sufficientDepth parser.cursor))
    (parser.cursor.left + 1) parser

def stmts (entries : List (Outcome σ × Parser σ)) : List Stmt :=
  entries.filterMap fun entry => entry.1.stmt?

def faults (entries : List (Outcome σ × Parser σ)) : List Diagnostic :=
  entries.filterMap fun entry => entry.1.diagnostic?

theorem statements_eq (productions : Productions σ) (limit : Nat) (done : List Stmt)
    (parser : Parser σ) :
    statements productions limit done parser =
      ((stmts (attempts productions limit parser)).reverse ++ done,
        parser.last (attempts productions limit parser)) := by
  induction limit generalizing done parser with
  | zero => rfl
  | succ limit ih =>
      rw [statements, attempts]
      split
      · rfl
      · rw [attempt]
        cases hread : productions.statement parser.cursor with
        | ok stmt cursor => simp [ih, last, stmts, Outcome.stmt?]
        | error stop cursor =>
            cases stop with
            | fault diagnostic => simp [ih, last, stmts, Outcome.stmt?]
            | exhausted => rfl

theorem program_eq (parser : Parser σ) :
    parser.program =
      (⟨stmts parser.history, ⟨parser.cursor.current.span.start,
        (parser.last parser.history).cursor.current.span.start⟩⟩,
        parser.last parser.history) := by
  simp only [program, statements_eq, history, List.append_nil, List.reverse_reverse]

/-- The parser reads up to the end, and each entry tells of one attempt. -/
inductive Run : Parser σ → List (Outcome σ × Parser σ) → Prop
  | finished {parser : Parser σ} (heof : parser.cursor.current.kind = .eof) : Run parser []
  | read {parser : Parser σ} {stmt : Stmt} {cursor : Cursor σ}
      {entries : List (Outcome σ × Parser σ)} (hcurrent : parser.cursor.current.kind ≠ .eof)
      (hread : (Productions.tied parser.grammar).statement parser.cursor = .ok stmt cursor)
      (hrun : Run { parser with cursor }.advance entries) :
      Run parser ((.read stmt, { parser with cursor }) :: entries)
  | recovered {parser : Parser σ} {diagnostic : Diagnostic} {cursor : Cursor σ}
      {entries : List (Outcome σ × Parser σ)} (hcurrent : parser.cursor.current.kind ≠ .eof)
      (hfault : (Productions.tied parser.grammar).statement parser.cursor =
        .error (.fault diagnostic) cursor)
      (hrun : Run (recover (cursor.left + 1) diagnostic { parser with cursor }).advance entries) :
      Run parser ((.recovered diagnostic cursor,
        recover (cursor.left + 1) diagnostic { parser with cursor }) :: entries)

/-- A reader of statements has recorded nothing, however it has ended. -/
theorem diagnostics_of_read {parser : Parser σ} {stmt : Stmt} {cursor : Cursor σ}
    (hread : (Productions.tied parser.grammar).statement parser.cursor = .ok stmt cursor) :
    cursor.diagnostics = parser.diagnostics :=
  ((Productions.tied_statement_keeps parser.grammar parser.cursor).of_ok hread).diagnostics

theorem diagnostics_of_fault {parser : Parser σ} {stop : Stop} {cursor : Cursor σ}
    (hfault : (Productions.tied parser.grammar).statement parser.cursor = .error stop cursor) :
    cursor.diagnostics = parser.diagnostics :=
  ((Productions.tied_statement_keeps parser.grammar parser.cursor).of_error hfault).1.diagnostics

/-- Past a fault, the parser is outside of all blocks again. -/
theorem outside_recover {parser : Parser σ} {diagnostic : Diagnostic} {cursor : Cursor σ}
    {greatest? : Option Nat} (hdepth : parser.cursor.depth = .outside greatest?)
    (hfault : (Productions.tied parser.grammar).statement parser.cursor =
      .error (.fault diagnostic) cursor) (limit : Nat) :
    (recover limit diagnostic { parser with cursor }).cursor.depth = .outside greatest? := by
  have hkeeps := Productions.tied_statement_keeps parser.grammar parser.cursor
  rw [depth_recover, (hkeeps.of_error hfault).1.greatest, hdepth, Depth.greatest?_outside]

/-! A run starts as the first attempt goes. -/

theorem Run.eq_nil {parser : Parser σ} {entries : List (Outcome σ × Parser σ)}
    (hrun : Run parser entries) (heof : parser.cursor.current.kind = .eof) : entries = [] := by
  cases hrun with
  | finished => rfl
  | read hcurrent => exact absurd heof hcurrent
  | recovered hcurrent => exact absurd heof hcurrent

theorem Run.exists_of_read {parser : Parser σ} {entries : List (Outcome σ × Parser σ)}
    (hrun : Run parser entries) (hcurrent : parser.cursor.current.kind ≠ .eof) {stmt : Stmt}
    {cursor : Cursor σ}
    (hread : (Productions.tied parser.grammar).statement parser.cursor = .ok stmt cursor) :
    ∃ rest, entries = (.read stmt, { parser with cursor }) :: rest ∧
      Run { parser with cursor }.advance rest := by
  cases hrun with
  | finished heof => exact absurd heof hcurrent
  | read _ hread' hrest =>
      rw [hread] at hread'
      cases hread'
      exact ⟨_, rfl, hrest⟩
  | recovered _ hfault =>
      rw [hread] at hfault
      cases hfault

theorem Run.exists_of_fault {parser : Parser σ} {entries : List (Outcome σ × Parser σ)}
    (hrun : Run parser entries) (hcurrent : parser.cursor.current.kind ≠ .eof)
    {diagnostic : Diagnostic} {cursor : Cursor σ}
    (hfault : (Productions.tied parser.grammar).statement parser.cursor =
      .error (.fault diagnostic) cursor) :
    ∃ rest, entries = (.recovered diagnostic cursor,
        recover (cursor.left + 1) diagnostic { parser with cursor }) :: rest ∧
      Run (recover (cursor.left + 1) diagnostic { parser with cursor }).advance rest := by
  cases hrun with
  | finished heof => exact absurd heof hcurrent
  | read _ hread =>
      rw [hfault] at hread
      cases hread
  | recovered _ hfault' hrest =>
      rw [hfault] at hfault'
      cases hfault'
      exact ⟨_, rfl, hrest⟩

/-- The faults of a run are recorded after the ones that have been recorded before. -/
theorem Run.diagnostics_last {parser : Parser σ} {entries : List (Outcome σ × Parser σ)}
    (hrun : Run parser entries) :
    (parser.last entries).diagnostics.toList = parser.diagnostics.toList ++ faults entries := by
  induction hrun with
  | finished => exact (List.append_nil _).symm
  | read _ hread _ ih =>
      rw [last, ih, diagnostics_advance, diagnostics, diagnostics_of_read hread]
      rfl
  | recovered _ hfault _ ih =>
      rw [last, ih, diagnostics_advance, diagnostics_recover, Array.toList_push,
        List.append_assoc, List.singleton_append, diagnostics, diagnostics_of_fault hfault]
      rfl

theorem reaches_recover (limit : Nat) (diagnostic : Diagnostic) (parser : Parser σ) :
    parser.cursor.Reaches (recover limit diagnostic parser).cursor := by
  have hskip := (parser.cursor.record diagnostic).reaches_skipStatement limit
    parser.cursor.depth.blocks 0
  have hwindow := (parser.cursor.record diagnostic).window_resynchronize limit
  change parser.cursor.Reaches ((parser.cursor.record diagnostic).resynchronize limit)
  exact .of_window (parser.cursor.window_record _).symm (hskip.trans (.here hwindow.symm))

/-- After an attempt, fewer tokens lie ahead. -/
theorem exists_holds_advance {cursor cursor' : Cursor σ} {token : Token}
    {rest : List Token} {finish : Token} (h : cursor.Holds (token :: rest) finish)
    (hreaches : cursor.Reaches cursor') :
    ∃ rest', cursor'.advance.Holds rest' finish ∧ rest'.length < (token :: rest).length := by
  obtain ⟨passed, ahead, happend, hahead⟩ := hreaches.holds h
  cases ahead with
  | nil => exact ⟨[], Cursor.Ended.advance hahead, by simp⟩
  | cons next ahead =>
      refine ⟨ahead, hahead.advance, ?_⟩
      rw [happend, List.length_append, List.length_cons]
      omega

variable [BoundedTokenSource σ]

theorem exists_run (parser : Parser σ) (hgrammar : parser.grammar.LeavesEnd)
    (hfits : parser.cursor.depth.greatest? = none) : ∃ entries, Run parser entries := by
  -- An attempt moves the cursor on by a token at least, also when it fails at its first token.
  generalize hleft : parser.cursor.left = left
  induction left using Nat.strongRecOn generalizing parser with
  | ind left ih =>
      by_cases hcurrent : parser.cursor.current.kind = .eof
      · exact ⟨[], .finished hcurrent⟩
      · have hmoves := Productions.tied_statement_moves parser.grammar parser.cursor
        have hends := Productions.tied_statement_advances hgrammar parser.cursor
        have hkeeps := Productions.tied_statement_keeps parser.grammar parser.cursor
        cases hread : (Productions.tied parser.grammar).statement parser.cursor with
        | ok stmt cursor =>
            have hlt := (hmoves.of_ok hread).left_advance_lt hcurrent
            obtain ⟨entries, hrun⟩ :=
              ih _ (hleft ▸ hlt) { parser with cursor }.advance hgrammar
                ((hkeeps.of_ok hread).greatest.trans hfits) rfl
            exact ⟨_, .read hcurrent hread hrun⟩
        | error stop cursor =>
            cases stop with
            | @exhausted resource =>
                cases resource with
                | calls => exact absurd rfl (hends.of_error hread).1
                | numbers => exact absurd hfits ((hkeeps.of_error hread).2 rfl)
            | fault diagnostic =>
                have hreaches := (hmoves.of_error hread).trans
                  (reaches_recover (cursor.left + 1) diagnostic { parser with cursor })
                have hlt := hreaches.left_advance_lt hcurrent
                have hgreatest := congrArg Depth.greatest?
                  (depth_recover (cursor.left + 1) diagnostic { parser with cursor })
                obtain ⟨entries, hrun⟩ := ih _ (hleft ▸ hlt)
                  (recover (cursor.left + 1) diagnostic { parser with cursor }).advance hgrammar
                  (hgreatest.trans ((hkeeps.of_error hread).1.greatest.trans hfits)) rfl
                exact ⟨_, .recovered hcurrent hread hrun⟩

/-- A run is what the attempts are, at any depth and limit that are great enough. -/
theorem Run.attempts_eq {parser : Parser σ} {entries : List (Outcome σ × Parser σ)}
    (hrun : Run parser entries) (hgrammar : parser.grammar.LeavesEnd) {depth limit : Nat}
    (hdepth : Productions.sufficientDepth parser.cursor ≤ depth)
    (hlimit : parser.cursor.left < limit) :
    attempts (.toDepth parser.grammar depth) limit parser = entries := by
  induction hrun generalizing limit with
  | finished heof =>
      cases limit with
      | zero => rfl
      | succ limit => rw [attempts, if_pos heof]
  | @read parser stmt cursor entries hcurrent hread hrun ih =>
      obtain ⟨limit, rfl⟩ : ∃ count, limit = count + 1 := ⟨limit - 1, by omega⟩
      have hmoves := Productions.tied_statement_moves parser.grammar parser.cursor
      have hlt := (hmoves.of_ok hread).left_advance_lt hcurrent
      have hdepth' : Productions.sufficientDepth cursor.advance ≤ depth := by
        unfold Productions.sufficientDepth at hdepth ⊢
        omega
      have hread' := Productions.toDepth_statement hgrammar hdepth
      rw [attempts, if_neg hcurrent, hread', hread]
      exact congrArg (List.cons _) (ih hgrammar hdepth' (by simp only [advance]; omega))
  | @recovered parser diagnostic cursor entries hcurrent hfault hrun ih =>
      obtain ⟨limit, rfl⟩ : ∃ count, limit = count + 1 := ⟨limit - 1, by omega⟩
      have hmoves := Productions.tied_statement_moves parser.grammar parser.cursor
      have hreaches := hmoves.of_error hfault
      have hrecover : recover (limit + 1) diagnostic { parser with cursor } =
          recover (cursor.left + 1) diagnostic { parser with cursor } := by
        obtain ⟨count, hle, heof⟩ := cursor.exists_lookahead_eof
        have hle' := hreaches.left_le
        exact recover_limit heof (by omega) (by omega)
      have hlt := (hreaches.trans
        (reaches_recover (cursor.left + 1) diagnostic { parser with cursor })).left_advance_lt
          hcurrent
      have hdepth' : Productions.sufficientDepth
          (recover (cursor.left + 1) diagnostic { parser with cursor }).advance.cursor ≤
            depth := by
        unfold Productions.sufficientDepth at hdepth ⊢
        simp only [advance]
        omega
      have hread' := Productions.toDepth_statement hgrammar hdepth
      rw [attempts, if_neg hcurrent, hread', hfault]
      simp only [hrecover]
      exact congrArg (List.cons _) (ih hgrammar hdepth' (by simp only [advance]; omega))

theorem run_history (parser : Parser σ) (hgrammar : parser.grammar.LeavesEnd)
    (hfits : parser.cursor.depth.greatest? = none) : Run parser parser.history := by
  obtain ⟨entries, hrun⟩ := exists_run parser hgrammar hfits
  rwa [history, hrun.attempts_eq hgrammar (Nat.le_refl _) (Nat.lt_succ_self _)]

theorem Run.history_eq {parser : Parser σ} {entries : List (Outcome σ × Parser σ)}
    (hrun : Run parser entries) (hgrammar : parser.grammar.LeavesEnd) :
    parser.history = entries :=
  hrun.attempts_eq hgrammar (Nat.le_refl _) (Nat.lt_succ_self _)

end Parser

theorem Parser.holds_ofTokens {tokens : List Token}
    (hends : ∀ token ∈ tokens, token.kind ≠ .eof) :
    (ofSource (TokenQueue.ofTokens tokens)).cursor.Holds tokens
      (TokenQueue.ofTokens tokens).finish :=
  Cursor.holds_ofSource (TokenQueue.yields rfl hends)

theorem parse_eq (source : σ) :
    let history := (Parser.ofSource source).history
    let last := (Parser.ofSource source).last history
    parse source =
      (⟨Parser.stmts history,
        ⟨(Cursor.ofSource source).current.span.start, last.cursor.current.span.start⟩⟩,
        last.diagnostics.toList) := by
  intro history last
  rw [parse, Parser.program_eq]
  rfl

theorem Parser.run_ofSource [BoundedTokenSource σ] (source : σ) :
    Run (ofSource source) (ofSource source).history :=
  run_history _ Grammar.standard_leavesEnd rfl

theorem diagnostics_parse [BoundedTokenSource σ] (source : σ) :
    (parse source).2 = Parser.faults (Parser.ofSource source).history := by
  rw [parse_eq]
  exact (Parser.run_ofSource source).diagnostics_last.trans (List.nil_append _)

end MonkeySyntax
