import MonkeySyntax.Proofs.Parser.FirstFault
import MonkeySyntax.Proofs.Parser.Mirror
import MonkeySyntax.Proofs.Parser.Segments
import MonkeySyntax.Proofs.Scanner.Tiling

namespace MonkeySyntax

/-! Diagnostics are about tokens, of which what they say is true, and come in the order of these
tokens.  No token is at fault twice: a parser goes on after it. -/

variable {σ : Type} [TokenSource σ]

/-! What is said of the tokens at fault. -/

/-- The same token on both sides, and one of those given. -/
def Token.Likeness.among (tokens : List Token) : Likeness where
  Holds token token' := token = token' ∧ token ∈ tokens
  kind h := congrArg Token.kind h.1
  text h := congrArg Token.text h.1

theorem Cursor.Mirrors.of_among {cursor : Cursor σ} {tokens : List Token} {finish : Token}
    (h : cursor.Holds tokens finish) : cursor.Mirrors (.among (tokens ++ [finish])) cursor :=
  ⟨fun count => ⟨rfl, List.mem_of_getElem? (h.getElem?_lookahead count)⟩, rfl⟩

theorem exists_tells_of_mem_parse [LawfulTokenSource σ] {source : σ} {tokens : List Token}
    {finish : Token} (h : TokenSource.Yields source tokens finish) {diagnostic : Diagnostic}
    (hmem : diagnostic ∈ (parse source).2) :
    ∃ token ∈ tokens ++ [finish], diagnostic.Tells token := by
  obtain ⟨-, hfaults⟩ := parse_mirrors (.of_among (Cursor.holds_ofSource h))
  have hfault := List.forall₂_same.mp hfaults diagnostic hmem
  obtain ⟨token, -, ⟨-, htoken⟩, htells, -⟩ := hfault.tells
  exact ⟨token, htoken, htells⟩

/-! The order of the tokens at fault. -/

theorem Cursor.exists_after (steps : Nat) (cursor : Cursor σ) :
    ∃ cursor', cursor.After steps cursor' := by
  induction steps generalizing cursor with
  | zero => exact ⟨cursor, .refl cursor⟩
  | succ steps ih => exact ih cursor.advance

namespace Parser

variable [BoundedTokenSource σ] {parser : Parser σ} {tokens : List Token} {finish : Token}

/-- The parser goes on after the token at fault, unless that is the end. -/
theorem exists_blamed (hgrammar : parser.grammar = .standard)
    (h : parser.cursor.Holds tokens finish) {diagnostic : Diagnostic} {cursor : Cursor σ}
    (hfault : (Productions.tied parser.grammar).statement parser.cursor =
      .error (.fault diagnostic) cursor) :
    ∃ passed rest more, tokens = passed ++ rest ∧ diagnostic.Blames (rest.headD finish) ∧
      (recover (cursor.left + 1) diagnostic { parser with cursor }).advance.cursor.Holds
        (rest.drop (more + 1)) finish := by
  rw [hgrammar] at hfault
  obtain ⟨hdetects, steps, hrepeats⟩ :=
    (Productions.tied_statement_looks parser.cursor).of_error hfault diagnostic rfl
  have hahead : ({ parser with cursor } : Parser σ).cursor.Holds (tokens.drop steps) finish :=
    hrepeats.moves.holds h
  obtain ⟨more, hafter, hpos, -⟩ := exists_after_recover hahead diagnostic
  have hnext := hafter.advance.holds hahead
  obtain ⟨culprit, hculprit⟩ := cursor.exists_after diagnostic.fault.lead
  have hblames := hdetects.blames culprit hculprit
  rw [(hculprit.holds hahead).current_eq] at hblames
  have hsplit (count : Nat) := (List.take_append_drop count tokens).symm
  rcases Nat.lt_or_ge more diagnostic.fault.lead with hless | hle
  -- Nothing was skipped, so the statement ends before the token at fault: that is the end.
  · have hlead : diagnostic.fault.lead = 1 := by
      have hle := diagnostic.fault.lead_le
      omega
    rcases hpos (hdetects.ne_semicolon hlead) with hmore | hnil
    · omega
    · rw [hnil, List.drop_nil] at hblames hnext
      exact ⟨tokens, [], 0, (List.append_nil tokens).symm, hblames, hnext⟩
  · obtain ⟨extra, rfl⟩ := Nat.exists_eq_add_of_le hle
    refine ⟨_, _, extra, hsplit (steps + diagnostic.fault.lead), ?_, ?_⟩
    · rwa [← List.drop_drop]
    · rw [List.drop_drop] at hnext ⊢
      rwa [Nat.add_assoc, ← Nat.add_assoc _ extra 1]

/-- The tokens at fault come in the order of the diagnostics, each of them once. -/
theorem Run.exists_culprits {entries : List (Outcome σ × Parser σ)}
    (hrun : Run parser entries) (hgrammar : parser.grammar = .standard)
    (h : parser.cursor.Holds tokens finish) :
    ∃ culprits : List Token, culprits.Sublist (tokens ++ [finish]) ∧
      List.Forall₂ Diagnostic.Blames (faults entries) culprits := by
  induction hrun generalizing tokens with
  | finished => exact ⟨[], List.nil_sublist _, .nil⟩
  | @read parser stmt cursor entries hcurrent hread hrun ih =>
      rw [hgrammar] at hread
      obtain ⟨used, rest, rfl, hrest, -⟩ := (Productions.tied_statement_reads h).of_ok hread
      obtain ⟨culprits, hculprits, hblames⟩ := ih hgrammar hrest
      rw [List.append_assoc]
      exact ⟨culprits, hculprits.trans (List.sublist_append_right ..), hblames⟩
  | @recovered parser diagnostic cursor entries hcurrent hfault hrun ih =>
      obtain ⟨passed, rest, more, rfl, hblames, hnext⟩ := exists_blamed hgrammar h hfault
      rw [List.append_assoc]
      cases rest with
      | nil =>
          rw [List.drop_nil] at hnext
          obtain rfl := hrun.eq_nil hnext.kind_current
          exact ⟨[finish], List.sublist_append_right .., .cons hblames .nil⟩
      | cons culprit rest =>
          obtain ⟨culprits, hculprits, hall⟩ := ih hgrammar hnext
          have hrest : culprits.Sublist (rest ++ [finish]) :=
            hculprits.trans ((List.drop_sublist more rest).append_right [finish])
          exact ⟨culprit :: culprits,
            (hrest.cons_cons culprit).trans (List.sublist_append_right ..), .cons hblames hall⟩

end Parser

theorem Token.Tiles.startsRise {file : String} {offset : Nat} {text : List Char}
    {tokens : List Token} (h : Tiles file offset text tokens) : StartsRise tokens := by
  induction h with
  | finish => exact List.pairwise_singleton ..
  | @token offset gap lexeme rest token tokens _ _ hne _ hspan hrest ih =>
      refine List.pairwise_cons.mpr ⟨fun later hmem => ?_, ih⟩
      have hle := hrest.offset_le later hmem
      have hpos : 0 < Text.byteSize lexeme :=
        Nat.pos_of_ne_zero fun hzero => hne (Text.byteSize_eq_zero_iff.mp hzero)
      rw [UInt32.lt_iff_toNat_lt, hspan.start]
      omega

theorem startsRise_tokenize {source : String} (file? : Option String)
    (hsize : source.utf8ByteSize < 2 ^ 32) : Token.StartsRise (tokenize source file?) := by
  have hbound : 0 + Text.byteSize source.toList < 2 ^ 32 := by
    rwa [Nat.zero_add, Text.byteSize_toList]
  exact (@Scanner.tiles_drain (.ofSource source file?) _ (Nat.le_refl _) hbound).startsRise

/-- The diagnostics of a text come in the order of their places, no two at the same one, and
each lies where a token starts that it is right about. -/
theorem parse_tells {source : String} (file? : Option String)
    (hsize : source.utf8ByteSize < 2 ^ 32) :
    ((parse (Scanner.ofSource source file?)).2.Pairwise fun diagnostic later =>
        diagnostic.position.offset < later.position.offset) ∧
      ∀ diagnostic ∈ (parse (Scanner.ofSource source file?)).2,
        ∃ token ∈ tokenize source file?, diagnostic.Tells token := by
  obtain ⟨tokens, finish, hyields⟩ := TokenSource.exists_yields (Scanner.ofSource source file?)
  have htokens : tokenize source file? = tokens ++ [finish] := hyields.tokens_eq
  constructor
  · obtain ⟨culprits, hculprits, hblames⟩ :=
      (Parser.run_ofSource _).exists_culprits rfl (Cursor.holds_ofSource hyields)
    rw [← diagnostics_parse] at hblames
    have hplaces : (parse (Scanner.ofSource source file?)).2.map Diagnostic.position =
        culprits.map fun culprit => culprit.span.start := by
      rw [← List.forall₂_eq_eq_eq, List.forall₂_map_left_iff, List.forall₂_map_right_iff]
      exact hblames.imp fun _ _ hblame => hblame.position
    have hstarts := (htokens ▸ startsRise_tokenize file? hsize).sublist hculprits
    have hrise : (culprits.map fun culprit => culprit.span.start).Pairwise
        fun position later => position.offset < later.offset := List.pairwise_map.mpr hstarts
    rwa [← hplaces, List.pairwise_map] at hrise
  · intro diagnostic hmem
    rw [htokens]
    exact exists_tells_of_mem_parse hyields hmem

/-- Faults at a number where a name has to follow, at a semicolon before a parenthesis is closed,
at a parenthesis inside a block, at a number that is none, and at the end. -/
theorem parse_tells_fiveFaults :
    let source := "let 5; (1; \x7b ) \x7d; 1x; a +"
    let diagnostics := (parse (Scanner.ofSource source none)).2
    source.utf8ByteSize < 2 ^ 32 ∧
      diagnostics.map (·.position.offset) = [4, 9, 13, 18, 25] ∧
      (diagnostics.Pairwise fun diagnostic later =>
        diagnostic.position.offset < later.position.offset) ∧
      ∀ diagnostic ∈ diagnostics, ∃ token ∈ tokenize source none, diagnostic.Tells token := by
  intro source diagnostics
  have hsize : source.utf8ByteSize < 2 ^ 32 := by decide
  exact ⟨hsize, by decide +kernel, parse_tells none hsize⟩

end MonkeySyntax
