import MonkeySyntax.Proofs.Parser.Run
import MonkeySyntax.Proofs.Productions.Level

namespace MonkeySyntax

open Reader

/-! Where a parser goes on after a fault.  It is outside of all blocks, unless the fault came
right after a block that is nested in another one. -/

variable {σ : Type} [TokenSource σ]

theorem Productions.tied_statement_keepsLevel {cursor : Cursor σ} {finish : Token}
    (h : cursor.Level finish) :
    KeepsLevel (tied Grammar.standard).statement finish cursor := by
  rw [KeepsLevel, ends_congr (tied_statement Grammar.standard cursor)]
  exact (Levelled.toDepth (sufficientDepth cursor)).statement h

namespace Cursor

/-- The block that has just been closed is taken for the one around it, which has a semicolon
of its own ahead. -/
def Misled (finish : Token) (diagnostic : Diagnostic) (cursor : Cursor σ) : Prop :=
  cursor.BlockUnclosed diagnostic ∧ 0 < cursor.depth.blocks ∧
    ∃ rest, cursor.advance.Holds rest finish ∧
      Token.SemicolonWithin (cursor.depth.blocks - 1) rest

variable [LawfulTokenSource σ] {parser : Parser σ} {finish : Token} {diagnostic : Diagnostic}

omit [LawfulTokenSource σ] in
theorem endsAt_recover_iff (limit depth : Nat) :
    (Parser.recover limit diagnostic parser).cursor.EndsAt finish depth ↔
      ((parser.cursor.record diagnostic).skipStatement limit
        parser.cursor.depth.blocks 0).2.EndsAt finish depth :=
  endsAt_congr (window_resynchronize limit _)

theorem Faults.endsAt_recover (h : parser.cursor.Faults finish (.fault diagnostic))
    (hmisled : ¬ parser.cursor.Misled finish diagnostic) :
    (Parser.recover (parser.cursor.left + 1) diagnostic parser).cursor.EndsAt finish 0 := by
  rw [endsAt_recover_iff]
  obtain ⟨hblock, -, -, rest, hholds, hbalanced⟩ | ⟨-, tokens, hholds, hbalanced⟩ := h
  · have hrecord := (holds_record diagnostic).mpr hholds
    have hclose : (parser.cursor.record diagnostic).current.kind = .closeCurly :=
      hblock.1
    apply endsAt_skipStatement_closeCurly 0 hclose hrecord.advance hbalanced
    · exact hholds.length_le_left
    · intro hpos hwithin
      exact hmisled ⟨hblock, hpos, rest, hholds.advance, hwithin⟩
  · have hrecord := (holds_record diagnostic).mpr hholds
    apply endsAt_skipStatement 0 hrecord hbalanced
    exact Nat.lt_succ_of_le hholds.length_le_left

theorem Misled.endsAt_recover (h : parser.cursor.Faults finish (.fault diagnostic))
    (hmisled : parser.cursor.Misled finish diagnostic) :
    (Parser.recover (parser.cursor.left + 1) diagnostic parser).cursor.EndsAt finish 1 := by
  rw [endsAt_recover_iff]
  obtain ⟨hblock, hpos, rest, hrest, hwithin⟩ := hmisled
  obtain ⟨-, -, -, rest', hholds, hbalanced⟩ | ⟨hother, -⟩ := h
  · obtain ⟨rfl, -⟩ := hholds.advance.unique hrest
    have hrecord := (holds_record diagnostic).mpr hholds
    have hclose : (parser.cursor.record diagnostic).current.kind = .closeCurly :=
      hblock.1
    apply endsAt_skipStatement_closeCurly_of_semicolonWithin 0 hclose hrecord.advance hbalanced
    · exact hholds.length_le_left
    · exact hpos
    · exact hwithin
  · exact absurd hblock hother

end Cursor

namespace Parser

/-- The parser is among the tokens, and knows how deep it is. -/
structure Tracks (tokens : List Token) (finish : Token) (parser : Parser σ) : Prop where
  grammar : parser.grammar = .standard
  among : parser.cursor.Among tokens finish
  level : parser.cursor.Level finish

/-- An attempt that fails is followed by a cursor outside of all blocks. -/
def GoesOnOutside (tokens : List Token) (finish : Token) : Outcome σ × Parser σ → Prop
  | (.read _, _) => True
  | (.recovered .., next) => next.cursor.Outside tokens finish

instance decidableGoesOnOutside [DecidableEq σ] (tokens : List Token) (finish : Token) :
    DecidablePred (GoesOnOutside tokens finish : Outcome σ × Parser σ → Prop)
  | (.read _, _) => isTrue trivial
  | (.recovered .., next) => inferInstanceAs (Decidable (next.cursor.Outside tokens finish))

/-- The attempt fails where the blocks are miscounted. -/
def Outcome.Misled (finish : Token) : Outcome σ → Prop
  | .read _ => False
  | .recovered diagnostic fault => fault.Misled finish diagnostic

variable [LawfulTokenSource σ] {parser : Parser σ} {tokens : List Token} {finish : Token}

omit [LawfulTokenSource σ] in
theorem Tracks.read (h : parser.Tracks tokens finish) {stmt : Stmt} {cursor : Cursor σ}
    (hread : (Productions.tied parser.grammar).statement parser.cursor = .ok stmt cursor) :
    Tracks tokens finish { parser with cursor }.advance := by
  have hmoves := (Productions.tied_statement_moves parser.grammar parser.cursor).of_ok hread
  rw [h.grammar] at hread
  have hpast := (Productions.tied_statement_keepsLevel h.level).of_ok hread
  exact ⟨h.grammar, h.among.of_reaches (hmoves.trans (.advance _)), hpast.advance⟩

omit [LawfulTokenSource σ] in
theorem Tracks.among_recover (h : parser.Tracks tokens finish) {diagnostic : Diagnostic}
    {cursor : Cursor σ}
    (hfault : (Productions.tied parser.grammar).statement parser.cursor =
      .error (.fault diagnostic) cursor) (limit : Nat) :
    (recover limit diagnostic { parser with cursor }).cursor.Among tokens finish := by
  have hmoves := (Productions.tied_statement_moves parser.grammar parser.cursor).of_error hfault
  exact h.among.of_reaches (hmoves.trans (reaches_recover limit diagnostic { parser with cursor }))

omit [LawfulTokenSource σ] in
theorem Tracks.faults (h : parser.Tracks tokens finish) {diagnostic : Diagnostic}
    {cursor : Cursor σ}
    (hfault : (Productions.tied parser.grammar).statement parser.cursor =
      .error (.fault diagnostic) cursor) : cursor.Faults finish (.fault diagnostic) := by
  rw [h.grammar] at hfault
  exact (Productions.tied_statement_keepsLevel h.level).of_error hfault

theorem Tracks.outside_recover_iff (h : parser.Tracks tokens finish) {diagnostic : Diagnostic}
    {cursor : Cursor σ}
    (hfault : (Productions.tied parser.grammar).statement parser.cursor =
      .error (.fault diagnostic) cursor) (hbalanced : Token.Balanced 0 tokens) :
    (recover (cursor.left + 1) diagnostic { parser with cursor }).cursor.Outside tokens finish ↔
      ¬ cursor.Misled finish diagnostic := by
  have hfaults : ({ parser with cursor } : Parser σ).cursor.Faults finish (.fault diagnostic) :=
    h.faults hfault
  have hamong := h.among_recover hfault (cursor.left + 1)
  by_cases hmisled : cursor.Misled finish diagnostic
  · have hends := Cursor.Misled.endsAt_recover hfaults hmisled
    rw [hends.outside_iff hbalanced hamong]
    exact ⟨fun hone => absurd hone Nat.one_ne_zero, fun hnot => absurd hmisled hnot⟩
  · have hends := hfaults.endsAt_recover hmisled
    rw [hends.outside_iff hbalanced hamong]
    exact ⟨fun _ => hmisled, fun _ => rfl⟩

theorem Tracks.recovered (h : parser.Tracks tokens finish) {diagnostic : Diagnostic}
    {cursor : Cursor σ}
    (hfault : (Productions.tied parser.grammar).statement parser.cursor =
      .error (.fault diagnostic) cursor) (hmisled : ¬ cursor.Misled finish diagnostic) :
    Tracks tokens finish
      (recover (cursor.left + 1) diagnostic { parser with cursor }).advance := by
  have hfaults : ({ parser with cursor } : Parser σ).cursor.Faults finish (.fault diagnostic) :=
    h.faults hfault
  have hends := hfaults.endsAt_recover hmisled
  have hamong := h.among_recover hfault (cursor.left + 1)
  refine ⟨h.grammar, hamong.of_reaches (.advance _), ?_⟩
  have hdepth := congrArg Depth.blocks
    (depth_recover (cursor.left + 1) diagnostic { parser with cursor })
  have hlevel := hends.advance
  rw [← Depth.blocks_outside, ← hdepth] at hlevel
  exact hlevel

theorem Run.goesOnOutside_iff {entries : List (Outcome σ × Parser σ)}
    (hrun : Run parser entries) (hbalanced : Token.Balanced 0 tokens)
    (h : parser.Tracks tokens finish) :
    (∀ entry ∈ entries, GoesOnOutside tokens finish entry) ↔
      ∀ entry ∈ entries, ¬ entry.1.Misled finish := by
  induction hrun with
  | finished => simp only [List.not_mem_nil, false_implies, implies_true]
  | read hcurrent hread hrun ih =>
      rw [List.forall_mem_cons, List.forall_mem_cons, ih (h.read hread)]
      exact and_congr_left' ⟨fun _ => not_false, fun _ => trivial⟩
  | @recovered parser diagnostic cursor entries hcurrent hfault hrun ih =>
      rw [List.forall_mem_cons, List.forall_mem_cons]
      have houtside := h.outside_recover_iff hfault hbalanced
      -- The first fault that misleads the parser decides: it goes on inside a block there, and
      -- its depth means nothing from then on.
      constructor
      · intro hall
        have hmisled := houtside.mp hall.1
        exact ⟨hmisled, (ih (h.recovered hfault hmisled)).mp hall.2⟩
      · intro hnone
        have hmisled := hnone.1
        exact ⟨houtside.mpr hmisled, (ih (h.recovered hfault hmisled)).mpr hnone.2⟩

end Parser

theorem Parser.tracks_ofTokens {tokens : List Token}
    (hends : ∀ token ∈ tokens, token.kind ≠ .eof) (hbalanced : Token.Balanced 0 tokens) :
    Parser.Tracks tokens (TokenQueue.ofTokens tokens).finish
      (ofSource (TokenQueue.ofTokens tokens)) where
  grammar := rfl
  among := ⟨[], tokens, rfl, Parser.holds_ofTokens hends⟩
  level := ⟨tokens, Parser.holds_ofTokens hends, hbalanced⟩

/-- Of balanced tokens, a parser goes on outside of all blocks after each fault, if and only
if it misses no closing parenthesis right after a block that is nested in another one, of
which the outermost has a semicolon of its own ahead. -/
theorem goesOnOutside_iff_not_misled {tokens : List Token}
    (hends : ∀ token ∈ tokens, token.kind ≠ .eof) (hbalanced : Token.Balanced 0 tokens) :
    let finish := (TokenQueue.ofTokens tokens).finish
    let history := (Parser.ofSource (TokenQueue.ofTokens tokens)).history
    (∀ entry ∈ history, Parser.GoesOnOutside tokens finish entry) ↔
      ∀ entry ∈ history, ¬ entry.1.Misled finish := by
  intro finish history
  have hrun := Parser.run_ofSource (TokenQueue.ofTokens tokens)
  exact hrun.goesOnOutside_iff hbalanced (Parser.tracks_ofTokens hends hbalanced)

/-- A fault inside a block, which the parser gets past. -/
def Token.faultInBlock : List Token :=
  [.unplaced .openCurly "\x7b", .unplaced .letWord "let", .unplaced .integer "5",
    .unplaced .semicolon ";", .unplaced .closeCurly "\x7d", .unplaced .semicolon ";",
    .unplaced .identifier "b"]

theorem goesOnOutside_iff_not_misled_faultInBlock :
    let finish := (TokenQueue.ofTokens Token.faultInBlock).finish
    let history := (Parser.ofSource (TokenQueue.ofTokens Token.faultInBlock)).history
    (∀ token ∈ Token.faultInBlock, token.kind ≠ .eof) ∧ Token.Balanced 0 Token.faultInBlock ∧
      (∀ entry ∈ history, Parser.GoesOnOutside Token.faultInBlock finish entry) ∧
      ∀ entry ∈ history, ¬ entry.1.Misled finish := by
  intro finish history
  have hends : ∀ token ∈ Token.faultInBlock, token.kind ≠ .eof := by decide
  have hbalanced : Token.Balanced 0 Token.faultInBlock := by decide
  have hiff := goesOnOutside_iff_not_misled hends hbalanced
  have houtside : ∀ entry ∈ history, Parser.GoesOnOutside Token.faultInBlock finish entry := by
    decide
  exact ⟨hends, hbalanced, houtside, hiff.mp houtside⟩

/-- The semicolon after the missed parenthesis lies in the block that the tokens start with. -/
def Token.parenthesisMissed : List Token :=
  [.unplaced .openCurly "\x7b", .unplaced .openParen "(", .unplaced .fnWord "fn",
    .unplaced .openParen "(", .unplaced .closeParen ")", .unplaced .openCurly "\x7b",
    .unplaced .closeCurly "\x7d", .unplaced .integer "5", .unplaced .closeParen ")",
    .unplaced .semicolon ";", .unplaced .identifier "a", .unplaced .semicolon ";",
    .unplaced .closeCurly "\x7d", .unplaced .semicolon ";", .unplaced .identifier "b",
    .unplaced .semicolon ";"]

theorem not_goesOnOutside_parenthesisMissed :
    ¬ ∀ tokens : List Token, (∀ token ∈ tokens, token.kind ≠ .eof) →
      Token.Balanced 0 tokens →
      ∀ entry ∈ (Parser.ofSource (TokenQueue.ofTokens tokens)).history,
        Parser.GoesOnOutside tokens (TokenQueue.ofTokens tokens).finish entry := by
  intro h
  have hbalanced : Token.Balanced 0 Token.parenthesisMissed := by decide
  have houtside := h Token.parenthesisMissed (by decide) hbalanced
  revert houtside
  decide

end MonkeySyntax
