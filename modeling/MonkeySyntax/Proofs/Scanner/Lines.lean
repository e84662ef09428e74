import MonkeySyntax.Proofs.Scanner.Munch

namespace MonkeySyntax

/-! No token goes on over a newline, and none depends on what comes before it.  So the tokens of
two texts with a newline between them are those of each, the second ones moved behind the first
text. -/

def Position.shift (count : Nat) (position : Position) : Position :=
  { position with offset := position.offset + count.toUInt32 }

def Span.shift (count : Nat) (span : Span) : Span :=
  ⟨span.start.shift count, span.stop.shift count⟩

def Token.shift (count : Nat) (token : Token) : Token :=
  { token with span := token.span.shift count }

theorem Span.shift_ofRange (file : String) (count offset size : Nat) :
    (ofRange file offset size).shift count = ofRange file (offset + count) size := by
  simp only [shift, Position.shift, ofRange, Nat.toUInt32_eq, ← UInt32.ofNat_add,
    Nat.add_right_comm]

namespace Scanner

variable {kind : Kind} {text rest more gap : List Char}

theorem head?_append_newline (c : Char) (h : c ∈ (rest ++ '\n' :: more).head?) :
    c ∈ rest.head? ∨ c = '\n' := by
  cases rest with
  | nil => exact .inr (Option.some.inj h).symm
  | cons => exact .inl h

theorem Munched.append_newline (h : Munched kind text rest) :
    Munched kind text (rest ++ '\n' :: more) := by
  have hrun (hrun : LongestRun text rest) : LongestRun text (rest ++ '\n' :: more) := by
    refine ⟨hrun.parts, fun c hc => ?_⟩
    rcases head?_append_newline c hc with hc | rfl
    · exact hrun.stops c hc
    · decide
  have hne {c : Char} (hc : c ≠ '\n') (hhead : rest.head? ≠ some c) :
      (rest ++ '\n' :: more).head? ≠ some c :=
    fun hmem => (head?_append_newline c hmem).elim hhead hc
  exact { h with
    word := fun hstart => (h.word hstart).imp_left hrun
    number := fun hdigit => (h.number hdigit).imp_left hrun
    sign := fun hkind => hne (by decide) (h.sign hkind)
    slash := fun hkind => hne (by decide) (h.slash hkind) }

end Scanner

namespace Text.Trivia

variable {rest more gap gap' : List Char}

theorem append_newline (h : Trivia rest gap) : Trivia (rest ++ '\n' :: more) gap := by
  induction h with
  | nil => exact .nil
  | blank hblank _ ih => exact .blank hblank ih
  | @comment words gap hwords hstop _ ih =>
      refine .comment hwords (.inr ?_) ih
      rw [← List.append_assoc]
      rcases hstop with hnil | hhead
      · rw [hnil]
        rfl
      · rw [List.head?_append, hhead]
        rfl

theorem newline_append (h : Trivia [] gap) (h' : Trivia rest gap') :
    Trivia rest (gap ++ '\n' :: gap') := by
  induction h with
  | nil => exact .blank isBlank_newline h'
  | blank hblank _ ih => exact .blank hblank ih
  | @comment words gap hwords hstop _ ih =>
      have hmore : Trivia rest ('/' :: '/' :: (words ++ (gap ++ '\n' :: gap'))) := by
        refine .comment hwords (.inr ?_) ih
        rw [List.append_nil] at hstop
        rcases hstop with rfl | hhead
        · rfl
        · rw [List.append_assoc, List.head?_append, hhead]
          rfl
      simpa only [List.cons_append, List.append_assoc] using hmore

end Text.Trivia

namespace Token.Munches

variable {file : String} {offset : Nat} {text text' gap : List Char} {tokens tokens' : List Token}

theorem shift (h : Munches file offset text tokens) (count : Nat) :
    Munches file (offset + count) text (tokens.map (Token.shift count)) := by
  induction h with
  | @finish offset gap hgap =>
      rw [List.map_singleton, Token.shift, Span.shift_ofRange, Nat.add_right_comm]
      exact .finish hgap
  | @token offset gap text rest kind tokens hgap hkind hmunched _ ih =>
      rw [List.map_cons, Token.shift, Span.shift_ofRange, Nat.add_right_comm]
      refine .token hgap hkind hmunched ?_
      rwa [Nat.add_right_comm _ _ count, Nat.add_right_comm _ _ count] at ih

theorem after_newline (h : Munches file (offset + Text.byteSize gap + 1) text tokens)
    (hgap : Text.Trivia [] gap) : Munches file offset (gap ++ '\n' :: text) tokens := by
  have hsize (gap' : List Char) : offset + Text.byteSize (gap ++ '\n' :: gap') =
      offset + Text.byteSize gap + 1 + Text.byteSize gap' := by
    rw [Text.byteSize_append, Text.byteSize_cons, ← Nat.add_assoc, ← Nat.add_assoc]
    rfl
  cases h with
  | finish hgap' =>
      rw [← hsize]
      exact .finish (hgap.newline_append hgap')
  | @token _ gap' lexeme rest kind tokens hgap' hkind hmunched hrest =>
      rw [← hsize] at hrest ⊢
      have hwhole := Munches.token (hgap.newline_append hgap') hkind hmunched hrest
      rwa [List.append_assoc, List.cons_append] at hwhole

/-- The end of the first text is all that is lost. -/
theorem append_newline (h : Munches file offset text tokens)
    (h' : Munches file (offset + Text.byteSize text + 1) text' tokens') :
    ∃ words finish, tokens = words ++ [finish] ∧ finish.kind = .eof ∧
      Munches file offset (text ++ '\n' :: text') (words ++ tokens') := by
  induction h with
  | finish hgap => exact ⟨[], _, rfl, rfl, h'.after_newline hgap⟩
  | @token offset gap lexeme rest kind tokens hgap hkind hmunched _ ih =>
      simp only [Text.byteSize_append, ← Nat.add_assoc] at h'
      obtain ⟨words, finish, rfl, heof, hwhole⟩ := ih h'
      refine ⟨_ :: words, finish, rfl, heof, ?_⟩
      have hgap' : Text.Trivia (lexeme ++ (rest ++ '\n' :: text')) gap := by
        rw [← List.append_assoc]
        exact hgap.append_newline
      rw [List.append_assoc, List.append_assoc]
      exact .token hgap' hkind hmunched.append_newline hwhole

end Token.Munches

/-- A text is scanned line by line: the tokens before a newline do not depend on what follows it,
and those after it depend on what comes before in their places only. -/
theorem tokenize_append_newline (source source' : String) (file? : Option String) :
    ∃ tokens finish, tokenize source file? = tokens ++ [finish] ∧ finish.kind = .eof ∧
      tokenize (source ++ "\n" ++ source') file? =
        tokens ++ (tokenize source' file?).map (Token.shift (source.utf8ByteSize + 1)) := by
  have hfirst := Token.munches_iff.mpr (Eq.refl (tokenize source file?))
  have hsecond := Token.munches_iff.mpr (Eq.refl (tokenize source' file?))
  have hshifted := hsecond.shift (source.utf8ByteSize + 1)
  rw [← Text.byteSize_toList, ← Nat.add_assoc] at hshifted
  obtain ⟨words, finish, htokens, heof, hwhole⟩ := hfirst.append_newline hshifted
  refine ⟨words, finish, htokens, heof, (Token.munches_iff.mp ?_).symm⟩
  rw [← Text.byteSize_toList, String.toList_append, String.toList_append, List.append_assoc]
  exact hwhole

/-- Neither operators nor comments go on in the next line. -/
example : (tokenize "!\n= //\n/" none).map Token.kind = [.not, .assignment, .slash, .eof] := by
  decide +kernel

end MonkeySyntax
