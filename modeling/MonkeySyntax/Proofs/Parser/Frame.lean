import MonkeySyntax.Proofs.Parser.Run
import MonkeySyntax.Proofs.Productions.Call
import MonkeySyntax.Proofs.Productions.OpenBlocks

namespace MonkeySyntax

/-! What a call leaves of a parser as it was: the rules, the diagnostics, and the count of blocks
as well unless the call is broken off inside some.  So a program is read statement after statement
from outside of all blocks. -/

variable {σ : Type} [TokenSource σ]

namespace Parser

/-- The parser goes by the same rules, has the same diagnostics, and counts blocks in the same
numbers. -/
structure Leaves (parser next : Parser σ) : Prop where
  grammar : next.grammar = parser.grammar
  diagnostics : next.diagnostics = parser.diagnostics
  greatest : next.cursor.depth.greatest? = parser.cursor.depth.greatest?

/-- The call is broken off, in this way only, and the blocks that it is inside of have been
added to the count. -/
structure BrokenOff {α : Type} (parser : Parser σ) (depth : Nat) (call : Call α) (stop : Stop)
    (active : Nat) (next : Parser σ) : Prop where
  readTo : parser.readTo depth call.reader = (.error stop, next)
  leaves : parser.Leaves next
  active_iff (count : Nat) (other : Stop) (cursor : Cursor σ) :
    (call.reader (.toDepth parser.grammar depth)).BreaksOff parser.cursor count other cursor ↔
      count = active ∧ other = stop ∧ cursor = next.cursor
  blocks : next.cursor.depth.blocks = parser.cursor.depth.blocks + active

/-- A call gives a value and leaves the depth as it was, or a fault breaks it off.  Where the
blocks that are open have come to the greatest number, it may be broken off before one more. -/
inductive Keeps {α : Type} (parser : Parser σ) (depth : Nat) (call : Call α) : Prop
  | value {value : α} {next : Parser σ}
      (hread : parser.readTo depth call.reader = (.ok value, next)) (hleaves : parser.Leaves next)
      (hdepth : next.cursor.depth = parser.cursor.depth)
  | fault {diagnostic : Diagnostic} {active : Nat} {next : Parser σ}
      (hbroken : parser.BrokenOff depth call (.fault diagnostic) active next)
  | overflow {active : Nat} {next : Parser σ}
      (hbroken : parser.BrokenOff depth call .overflow active next)
      (hfull : parser.cursor.depth.greatest? = some (parser.cursor.depth.blocks + active))
  | endless {next : Parser σ} (hread : parser.readTo depth call.reader = (.error .endless, next))
      (hleaves : parser.Leaves next)

section Calls

variable {α : Type} {parser : Parser σ} {depth : Nat} {call : Call α} {cursor : Cursor σ}

omit [TokenSource σ] in
theorem Leaves.of_keeps (h : parser.cursor.Keeps cursor) : parser.Leaves { parser with cursor } :=
  ⟨rfl, h.diagnostics, h.greatest⟩

theorem readTo_of_ok {value : α}
    (hread : call.reader (.toDepth parser.grammar depth) parser.cursor = .ok value cursor) :
    parser.readTo depth call.reader = (.ok value, { parser with cursor }) := by
  rw [Parser.readTo, hread]

theorem readTo_of_error {stop : Stop}
    (hread : call.reader (.toDepth parser.grammar depth) parser.cursor = .error stop cursor) :
    parser.readTo depth call.reader = (.error stop, { parser with cursor }) := by
  rw [Parser.readTo, hread]

/-- A reader that is broken off is so inside one number of blocks. -/
theorem BrokenOff.of_breaksOff {stop : Stop} {active : Nat} (hkeeps : parser.cursor.Keeps cursor)
    (hactive : (call.reader (.toDepth parser.grammar depth)).BreaksOff parser.cursor active stop
      cursor) :
    parser.BrokenOff depth call stop active { parser with cursor } where
  readTo := readTo_of_error hactive.eq_error
  leaves := .of_keeps hkeeps
  active_iff count other cursor' := by
    constructor
    · intro hother
      have hsame := hother.eq_error.symm.trans hactive.eq_error
      injection hsame with hstop hcursor
      subst hcursor
      have hblocks := hother.blocks_eq.symm.trans hactive.blocks_eq
      exact ⟨Nat.add_left_cancel hblocks, hstop, rfl⟩
    · rintro ⟨rfl, rfl, rfl⟩
      exact hactive
  blocks := hactive.blocks_eq

end Calls

theorem keeps {α : Type} (parser : Parser σ) (depth : Nat) (call : Call α) :
    parser.Keeps depth call := by
  have htraced := (Productions.related_tracing parser.grammar depth).call call parser.cursor
  have hkeeps := (Productions.toDepth_keeps parser.grammar depth).call call parser.cursor
  cases hread : call.reader (.toDepth parser.grammar depth) parser.cursor with
  | ok value cursor =>
      exact .value (readTo_of_ok hread) (.of_keeps (hkeeps.of_ok hread))
        (htraced.of_ok hread).depth_eq
  | error stop cursor =>
      have hkept := (hkeeps.of_error hread).1
      have hbroken := htraced.of_error hread
      cases stop with
      | fault diagnostic =>
          obtain ⟨active, hactive⟩ := hbroken nofun
          exact .fault (.of_breaksOff hkept hactive)
      | @exhausted resource =>
          cases resource with
          | calls => exact .endless (readTo_of_error hread) (.of_keeps hkept)
          | numbers =>
              obtain ⟨active, hactive⟩ := hbroken nofun
              refine .overflow (.of_breaksOff hkept hactive) ?_
              rw [← hkept.greatest, ← hactive.blocks_eq]
              exact hactive.greatest?_eq

/-- No call goes on for ever where the rules leave the end alone. -/
theorem read_ne_endless [BoundedTokenSource σ] {parser : Parser σ}
    (hgrammar : parser.grammar.LeavesEnd) {α : Type} (call : Call α) (next : Parser σ) :
    parser.read call.reader ≠ (.error .endless, next) := by
  have hne := Productions.call_ne_endless hgrammar call parser.cursor
  rw [read, readTo]
  cases hread : call.reader
      (.toDepth parser.grammar (Productions.sufficientDepth parser.cursor)) parser.cursor with
  | ok value cursor => nofun
  | error stop cursor =>
      rintro ⟨⟩
      exact hne cursor hread

/-- The parser at the start of each attempt. -/
def starts (parser : Parser σ) : List (Outcome σ × Parser σ) → List (Parser σ)
  | [] => []
  | (_, next) :: rest => parser :: starts next.advance rest

section Attempts

variable {grammar : Grammar} {depth : Nat}

/-- An attempt that starts outside of all blocks ends there, since one that fails is followed by a
recovery.  It records no more than its fault. -/
theorem attempts_succ_cases (limit : Nat) (parser : Parser σ) :
    attempts (.toDepth grammar depth) (limit + 1) parser = [] ∨
    ∃ outcome next, attempts (.toDepth grammar depth) (limit + 1) parser =
        (outcome, next) :: attempts (.toDepth grammar depth) limit next.advance ∧
      (parser.cursor.depth.blocks = 0 → next.cursor.depth.blocks = 0) ∧
      next.diagnostics.toList = parser.diagnostics.toList ++ outcome.diagnostic?.toList := by
  have htraced := (Productions.related_tracing grammar depth).statement parser.cursor
  have hkeeps := (Productions.toDepth_keeps grammar depth).statement parser.cursor
  rw [attempts]
  split
  · exact .inl rfl
  · cases hread : (Productions.toDepth grammar depth).statement parser.cursor with
    | ok stmt cursor =>
        refine .inr ⟨_, _, rfl, fun houtside => ?_, ?_⟩
        · exact (congrArg Depth.blocks (htraced.of_ok hread).depth_eq).trans houtside
        · rw [Outcome.diagnostic?, Option.toList_none, List.append_nil, diagnostics,
            (hkeeps.of_ok hread).diagnostics]
          rfl
    | error stop cursor =>
        cases stop with
        | fault diagnostic =>
            refine .inr ⟨_, _, rfl, fun _ => ?_, ?_⟩
            · rw [depth_recover, Depth.blocks_outside]
            · rw [diagnostics_recover, Array.toList_push, diagnostics,
                (hkeeps.of_error hread).1.diagnostics]
              rfl
        | exhausted => exact .inl rfl

theorem blocks_starts_attempts (limit : Nat) (parser : Parser σ)
    (houtside : parser.cursor.depth.blocks = 0) :
    ∀ start ∈ parser.starts (attempts (.toDepth grammar depth) limit parser),
      start.cursor.depth.blocks = 0 := by
  induction limit generalizing parser with
  | zero => exact List.forall_mem_nil _
  | succ limit ih =>
      rcases attempts_succ_cases limit parser with hnone | ⟨_, next, hcons, hnext, -⟩
      · rw [hnone]
        exact List.forall_mem_nil _
      · rw [hcons]
        exact List.forall_mem_cons.mpr ⟨houtside, ih next.advance (hnext houtside)⟩

theorem prefix_last_attempts (limit : Nat) (parser : Parser σ) :
    parser.diagnostics.toList <+:
      (parser.last (attempts (.toDepth grammar depth) limit parser)).diagnostics.toList := by
  induction limit generalizing parser with
  | zero => exact List.prefix_rfl
  | succ limit ih =>
      rcases attempts_succ_cases limit parser with hnone | ⟨_, next, hcons, -, hdiagnostics⟩
      · rw [hnone]
        exact List.prefix_rfl
      · rw [hcons]
        have hlast := ih next.advance
        rw [diagnostics_advance, hdiagnostics] at hlast
        exact (List.prefix_append _ _).trans hlast

/-- What has been recorded stays, and more is put behind it. -/
theorem prefix_starts_attempts (limit : Nat) (parser : Parser σ) :
    ∀ start ∈ parser.starts (attempts (.toDepth grammar depth) limit parser),
      parser.diagnostics.toList <+: start.diagnostics.toList ∧
        start.diagnostics.toList <+:
          (parser.last (attempts (.toDepth grammar depth) limit parser)).diagnostics.toList := by
  induction limit generalizing parser with
  | zero => exact List.forall_mem_nil _
  | succ limit ih =>
      have hlast := @prefix_last_attempts _ _ grammar depth (limit + 1) parser
      rcases attempts_succ_cases limit parser with hnone | ⟨_, next, hcons, -, hdiagnostics⟩
      · rw [hnone]
        exact List.forall_mem_nil _
      · rw [hcons] at hlast ⊢
        refine List.forall_mem_cons.mpr ⟨⟨List.prefix_rfl, hlast⟩, fun start hstart => ?_⟩
        obtain ⟨hbefore, hafter⟩ := ih next.advance start hstart
        rw [diagnostics_advance, hdiagnostics] at hbefore
        exact ⟨(List.prefix_append _ _).trans hbefore, hafter⟩

end Attempts

/-- Whatever a parser is asked to read, by whatever rules and from whatever depth, it keeps its
rules and its diagnostics, and accounts for the blocks that the call is broken off in.  It comes to
an end if the rules leave the end alone.  Statement after statement is read from outside of all
blocks, however many of them and however deep the calls, and diagnostics are only added; a program
is what is read so. -/
theorem read_keeps (parser : Parser σ) :
    (∀ {α : Type} (depth : Nat) (call : Call α), parser.Keeps depth call) ∧
    (∀ [BoundedTokenSource σ], parser.grammar.LeavesEnd → ∀ {α : Type} (call : Call α) next,
      parser.read call.reader ≠ (.error .endless, next)) ∧
    (parser.cursor.depth.blocks = 0 → ∀ depth limit,
      ∀ start ∈ parser.starts (attempts (.toDepth parser.grammar depth) limit parser),
        start.cursor.depth.blocks = 0) ∧
    (∀ depth limit,
      ∀ start ∈ parser.starts (attempts (.toDepth parser.grammar depth) limit parser),
        parser.diagnostics.toList <+: start.diagnostics.toList ∧
          start.diagnostics.toList <+: (parser.last
            (attempts (.toDepth parser.grammar depth) limit parser)).diagnostics.toList) ∧
    parser.program.2 = parser.last parser.history ∧
    parser.diagnostics.toList <+: parser.program.2.diagnostics.toList := by
  have hprogram : parser.program.2 = parser.last parser.history := by rw [program_eq]
  refine ⟨fun depth call => keeps parser depth call, fun hgrammar => read_ne_endless hgrammar,
    fun houtside depth limit => blocks_starts_attempts limit parser houtside,
    fun depth limit => prefix_starts_attempts limit parser, hprogram, ?_⟩
  rw [hprogram]
  exact prefix_last_attempts _ parser

end Parser

/-- Two blocks, with nothing in the inner one that a statement could start with. -/
def Token.twoBlocks : List Token :=
  [.unplaced .openCurly "\x7b", .unplaced .openCurly "\x7b", .unplaced .closeParen ")"]

/-- From a depth of five, a parser of the two blocks that can count as far as seven stops at the
fault.  One that can count as far as six stops before the inner block. -/
theorem Parser.read_keeps_twoBlocks :
    let fresh := ofSource (TokenQueue.ofTokens Token.twoBlocks)
    let parser (depth : Depth) : Parser TokenQueue :=
      { fresh with cursor := { fresh.cursor with depth } }
    let wide := parser ⟨5, some 7, by decide⟩
    let narrow := parser ⟨5, some 6, by decide⟩
    let depth := Productions.sufficientDepth fresh.cursor
    let fault : Diagnostic := ⟨.noOperand .closeParen, .nowhere⟩
    fresh.grammar.LeavesEnd ∧
      (∃ next, wide.BrokenOff depth .statement (.fault fault) 2 next) ∧
      (∃ next, narrow.BrokenOff depth .statement .overflow 1 next) ∧
      ∀ next, wide.read Call.statement.reader ≠ (.error .endless, next) := by
  intro fresh parser wide narrow depth fault
  have hgrammar : fresh.grammar.LeavesEnd := Grammar.standard_leavesEnd
  have hfault : (wide.readTo depth Call.statement.reader).1 = .error (.fault fault) := rfl
  have hoverflow : (narrow.readTo depth Call.statement.reader).1 = .error .overflow := rfl
  refine ⟨hgrammar, ?_, ?_, (read_keeps wide).2.1 hgrammar .statement⟩
  · have hblocks : (wide.readTo depth Call.statement.reader).2.cursor.depth.blocks = 5 + 2 := by
      decide +kernel
    cases (read_keeps wide).1 depth .statement with
    | value hread | endless hread =>
        rw [hread] at hfault
        cases hfault
    | overflow hbroken =>
        rw [hbroken.readTo] at hfault
        cases hfault
    | fault hbroken =>
        rw [hbroken.readTo] at hfault hblocks
        cases hfault
        obtain rfl := Nat.add_left_cancel (hbroken.blocks.symm.trans hblocks)
        exact ⟨_, hbroken⟩
  · cases (read_keeps narrow).1 depth .statement with
    | value hread | endless hread =>
        rw [hread] at hoverflow
        cases hoverflow
    | fault hbroken =>
        rw [hbroken.readTo] at hoverflow
        cases hoverflow
    | overflow hbroken hfull =>
        have hgreatest : 5 + 1 = 5 + _ := Option.some.inj hfull
        obtain rfl := Nat.add_left_cancel hgreatest
        exact ⟨_, hbroken⟩

end MonkeySyntax
