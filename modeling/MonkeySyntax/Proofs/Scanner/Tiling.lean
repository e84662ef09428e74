import MonkeySyntax.Proofs.Scanner.Lexer

namespace MonkeySyntax

/-! The tokens of a text tile it: each is cut from the bytes that its span tells, and nothing
but blanks and comments is left over.  No read falls between the bytes of a character. -/

theorem Text.extract_append (before word after : String) :
    (before ++ word ++ after).toByteArray.extract before.utf8ByteSize
      (before.utf8ByteSize + word.utf8ByteSize) = word.toByteArray := by
  rw [String.append_assoc, String.toByteArray_append, String.toByteArray_append,
    ← String.size_toByteArray, ← String.size_toByteArray]
  have hzero := @ByteArray.extract_append_size_add before.toByteArray
    (word.toByteArray ++ after.toByteArray) 0 word.toByteArray.size
  rw [Nat.add_zero] at hzero
  rw [hzero, ByteArray.extract_append_eq_left rfl]

/-- Blanks and comments that the rest of a text comes after.  A comment runs up to the next
newline, or to the end of the text. -/
inductive Text.Trivia (rest : List Char) : List Char → Prop
  | nil : Trivia rest []
  | blank {c : Char} {gap : List Char} (hblank : isBlank c = true) (hgap : Trivia rest gap) :
      Trivia rest (c :: gap)
  | comment {words gap : List Char} (hwords : '\n' ∉ words)
      (hstop : gap ++ rest = [] ∨ (gap ++ rest).head? = some '\n') (hgap : Trivia rest gap) :
      Trivia rest ('/' :: '/' :: (words ++ gap))

/-- The span goes from one byte of the file up to another. -/
structure Span.Covers (file : String) (start stop : Nat) (span : Span) : Prop where
  file_start : span.start.file = file
  file_stop : span.stop.file = file
  start : span.start.offset.toNat = start
  stop : span.stop.offset.toNat = stop

theorem Span.covers_ofRange {file : String} {offset size : Nat} (h : offset + size < 2 ^ 32) :
    (ofRange file offset size).Covers file offset (offset + size) :=
  ⟨rfl, rfl, toNat_start_ofRange (Nat.lt_of_le_of_lt (Nat.le_add_right ..) h),
    toNat_stop_ofRange h⟩

theorem Span.Covers.unique {file : String} {start stop : Nat} {span span' : Span}
    (h : span.Covers file start stop) (h' : span'.Covers file start stop) : span = span' := by
  obtain ⟨⟨startOffset, startFile⟩, stopOffset, stopFile⟩ := span
  obtain ⟨⟨startOffset', startFile'⟩, stopOffset', stopFile'⟩ := span'
  simp only [mk.injEq, Position.mk.injEq]
  exact ⟨⟨UInt32.toNat_inj.mp (h.start.trans h'.start.symm),
    h.file_start.trans h'.file_start.symm⟩,
    UInt32.toNat_inj.mp (h.stop.trans h'.stop.symm), h.file_stop.trans h'.file_stop.symm⟩

/-- The tokens lie one after the other in a text that starts at the offset, and an end comes
last.  What is not theirs is blank, or belongs to comments. -/
inductive Token.Tiles (file : String) : Nat → List Char → List Token → Prop
  | finish {offset : Nat} {gap : List Char} {token : Token} (hgap : Text.Trivia [] gap)
      (hkind : token.kind = .eof) (htext : token.text = "")
      (hspan : token.span.Covers file (offset + Text.byteSize gap) (offset + Text.byteSize gap)) :
      Tiles file offset gap [token]
  | token {offset : Nat} {gap lexeme rest : List Char} {token : Token} {tokens : List Token}
      (hgap : Text.Trivia (lexeme ++ rest) gap) (hkind : token.kind ≠ .eof) (hne : lexeme ≠ [])
      (htext : token.text = String.ofList lexeme)
      (hspan : token.span.Covers file (offset + Text.byteSize gap)
        (offset + Text.byteSize gap + Text.byteSize lexeme))
      (hrest : Tiles file (offset + Text.byteSize gap + Text.byteSize lexeme) rest tokens) :
      Tiles file offset (gap ++ (lexeme ++ rest)) (token :: tokens)

/-- The text of the token is what the source holds between the two ends of its span, which
both lie on boundaries of characters. -/
structure Token.CutFrom (source : String) (token : Token) : Prop where
  start : (⟨token.span.start.offset.toNat⟩ : String.Pos.Raw).IsValid source
  stop : (⟨token.span.stop.offset.toNat⟩ : String.Pos.Raw).IsValid source
  bytes : source.toByteArray.extract token.span.start.offset.toNat
    token.span.stop.offset.toNat = token.text.toByteArray

namespace Token

variable {file : String} {offset : Nat} {text : List Char} {tokens : List Token}

theorem cutFrom_of_append {before after : String} {token : Token}
    (hspan : token.span.Covers file before.utf8ByteSize
      (before.utf8ByteSize + token.text.utf8ByteSize)) :
    token.CutFrom (before ++ token.text ++ after) := by
  obtain ⟨-, -, hstart, hstop⟩ := hspan
  refine ⟨?_, ?_, ?_⟩
  · rw [hstart, String.Pos.Raw.isValid_iff_exists_append]
    exact ⟨before, token.text ++ after, String.append_assoc, rfl⟩
  · rw [hstop, String.Pos.Raw.isValid_iff_exists_append, ← String.utf8ByteSize_append]
    exact ⟨before ++ token.text, after, rfl, rfl⟩
  · rw [hstart, hstop]
    exact Text.extract_append before token.text after

theorem Tiles.cutFrom (h : Tiles file offset text tokens) {before : List Char}
    (hbefore : Text.byteSize before = offset) :
    ∀ token ∈ tokens, token.CutFrom (String.ofList (before ++ text)) := by
  induction h generalizing before with
  | @finish offset gap token hgap hkind htext hspan =>
      rw [List.forall_mem_singleton]
      have hsource : String.ofList (before ++ gap) =
          String.ofList (before ++ gap) ++ token.text ++ "" := by
        rw [htext, String.append_empty, String.append_empty]
      rw [hsource]
      apply cutFrom_of_append
      rwa [Text.utf8ByteSize_ofList, Text.byteSize_append, hbefore, htext]
  | @token offset gap lexeme rest token tokens hgap hkind hne htext hspan hrest ih =>
      rw [List.forall_mem_cons]
      have hsize : Text.byteSize (before ++ gap) = offset + Text.byteSize gap := by
        rw [Text.byteSize_append, hbefore]
      constructor
      · have hsource : String.ofList (before ++ (gap ++ (lexeme ++ rest))) =
            String.ofList (before ++ gap) ++ token.text ++ String.ofList rest := by
          simp only [htext, String.ofList_append, String.append_assoc]
        rw [hsource]
        apply cutFrom_of_append
        rwa [Text.utf8ByteSize_ofList, hsize, htext, Text.utf8ByteSize_ofList]
      · have hrests := @ih (before ++ gap ++ lexeme) (by rw [Text.byteSize_append, hsize])
        simpa only [List.append_assoc] using hrests

theorem Tiles.offset_le (h : Tiles file offset text tokens) :
    ∀ token ∈ tokens, offset ≤ token.span.start.offset.toNat := by
  induction h with
  | finish _ _ _ hspan =>
      rw [List.forall_mem_singleton, hspan.start]
      exact Nat.le_add_right ..
  | token _ _ _ _ hspan _ ih =>
      rw [List.forall_mem_cons, hspan.start]
      refine ⟨Nat.le_add_right .., fun token hmem => ?_⟩
      have hle := ih token hmem
      omega

/-- The spans of the tokens come in order, and do not overlap. -/
theorem Tiles.pairwise (h : Tiles file offset text tokens) :
    tokens.Pairwise fun token later =>
      token.span.stop.offset.toNat ≤ later.span.start.offset.toNat := by
  induction h with
  | finish => exact List.pairwise_singleton ..
  | token _ _ _ _ hspan hrest ih =>
      refine List.pairwise_cons.mpr ⟨fun later hmem => ?_, ih⟩
      rw [hspan.stop]
      exact hrest.offset_le later hmem

/-- The end comes last, and nowhere else. -/
theorem Tiles.exists_append (h : Tiles file offset text tokens) :
    ∃ words finish, tokens = words ++ [finish] ∧
      (∀ token ∈ words, token.kind ≠ .eof ∧ token.text ≠ "") ∧
      finish.kind = .eof ∧ finish.text = "" ∧
      finish.span.Covers file (offset + Text.byteSize text) (offset + Text.byteSize text) := by
  induction h with
  | finish _ hkind htext hspan => exact ⟨[], _, rfl, by simp, hkind, htext, hspan⟩
  | @token offset gap lexeme rest token tokens _ hkind hne htext _ _ ih =>
      obtain ⟨words, finish, rfl, hwords, heof, hempty, hspan⟩ := ih
      refine ⟨token :: words, finish, rfl, ?_, heof, hempty, ?_⟩
      · rw [List.forall_mem_cons]
        refine ⟨⟨hkind, ?_⟩, hwords⟩
        rw [htext, ne_eq, ← String.ofList_nil, String.ofList_inj]
        exact hne
      · simpa only [Text.byteSize_append, Nat.add_assoc] using hspan

end Token

namespace Scanner

/-! What the scanner skips. -/

/-- The text starts with blanks and comments, which are skipped. -/
def SkipsTrivia (offset : Nat) (text : List Char) : Prop :=
  ∃ gap rest, text = gap ++ rest ∧ Text.Trivia rest gap ∧
    skipTrivia false offset text = (offset + Text.byteSize gap, rest)

/-- The text starts inside a comment, which is skipped with what comes after it. -/
def SkipsComment (offset : Nat) (text : List Char) : Prop :=
  ∃ words gap rest, text = words ++ (gap ++ rest) ∧ '\n' ∉ words ∧
    (gap ++ rest = [] ∨ (gap ++ rest).head? = some '\n') ∧ Text.Trivia rest gap ∧
    skipTrivia true offset text = (offset + Text.byteSize (words ++ gap), rest)

theorem SkipsTrivia.newline {offset : Nat} {text : List Char} (h : SkipsTrivia (offset + 1) text) :
    SkipsComment offset ('\n' :: text) := by
  obtain ⟨gap, rest, rfl, hgap, hskip⟩ := h
  refine ⟨[], '\n' :: gap, rest, rfl, List.not_mem_nil, .inr rfl,
    .blank Text.isBlank_newline hgap, ?_⟩
  rw [skipTrivia, if_pos rfl]
  exact hskip.trans (by rw [List.nil_append, Text.byteSize_cons, ← Nat.add_assoc]; rfl)

theorem SkipsComment.cons {offset : Nat} {c : Char} {text : List Char} (hne : c ≠ '\n')
    (h : SkipsComment (offset + c.utf8Size) text) : SkipsComment offset (c :: text) := by
  obtain ⟨words, gap, rest, rfl, hwords, hstop, hgap, hskip⟩ := h
  have hwords' := List.not_mem_cons_of_ne_of_not_mem hne.symm hwords
  refine ⟨c :: words, gap, rest, rfl, hwords', hstop, hgap, ?_⟩
  have hnewline : (c != '\n') = true := bne_iff_ne.mpr hne
  rw [skipTrivia, if_pos rfl, hnewline, hskip, List.cons_append, Text.byteSize_cons,
    Nat.add_assoc]

theorem SkipsTrivia.blank {offset : Nat} {c : Char} {text : List Char}
    (hblank : Text.isBlank c = true) (h : SkipsTrivia (offset + c.utf8Size) text) :
    SkipsTrivia offset (c :: text) := by
  obtain ⟨gap, rest, rfl, hgap, hskip⟩ := h
  refine ⟨c :: gap, rest, rfl, .blank hblank hgap, ?_⟩
  rw [skipTrivia, if_neg Bool.false_ne_true, if_pos hblank, hskip, Text.byteSize_cons,
    Nat.add_assoc]

theorem SkipsComment.slash {offset : Nat} {text : List Char} (hslash : text.head? = some '/')
    (h : SkipsComment (offset + 1) text) : SkipsTrivia offset ('/' :: text) := by
  obtain ⟨words, gap, rest, rfl, hwords, hstop, hgap, hskip⟩ := h
  cases words with
  | nil =>
      rw [List.nil_append] at hslash
      rcases hstop with hnil | hnewline
      · rw [hnil] at hslash
        cases hslash
      · rw [hnewline] at hslash
        exact absurd hslash (by decide)
  | cons c words =>
      obtain rfl : c = '/' := Option.some.inj hslash
      refine ⟨'/' :: '/' :: (words ++ gap), rest, by simp, ?_, ?_⟩
      · exact .comment (fun hmem => hwords (List.mem_cons_of_mem _ hmem)) hstop hgap
      · rw [skipTrivia, if_neg Bool.false_ne_true, if_neg (by decide), if_pos ⟨rfl, rfl⟩]
        refine hskip.trans ?_
        rw [List.cons_append, Text.byteSize_cons '/' ('/' :: _), ← Nat.add_assoc]
        rfl

theorem skips (offset : Nat) (text : List Char) :
    SkipsComment offset text ∧ SkipsTrivia offset text := by
  induction text generalizing offset with
  | nil =>
      exact ⟨⟨[], [], [], rfl, List.not_mem_nil, .inl rfl, .nil, rfl⟩, [], [], rfl, .nil, rfl⟩
  | cons c text ih =>
      obtain ⟨hcomment, htrivia⟩ := ih (offset + c.utf8Size)
      constructor
      · by_cases hnewline : c = '\n'
        · subst hnewline
          exact htrivia.newline
        · exact hcomment.cons hnewline
      · by_cases hblank : Text.isBlank c = true
        · exact htrivia.blank hblank
        by_cases hslash : c = '/' ∧ text.head? = some '/'
        · obtain ⟨rfl, hhead⟩ := hslash
          exact hcomment.slash hhead
        · refine ⟨[], c :: text, rfl, .nil, ?_⟩
          rw [skipTrivia, if_neg Bool.false_ne_true, if_neg hblank, if_neg hslash]
          rfl

/-- What the scanner does in one step: it comes to the end, or cuts off a token. -/
inductive Steps : Scanner → Token → Scanner → Prop
  | finish {offset : Nat} {gap : List Char} {file : String} (hgap : Text.Trivia [] gap) :
      Steps ⟨gap, offset, file⟩ (.endAt ⟨(offset + Text.byteSize gap).toUInt32, file⟩)
        ⟨[], offset + Text.byteSize gap, file⟩
  | token {offset : Nat} {gap lexeme rest : List Char} {file : String} {kind : Kind}
      (hgap : Text.Trivia (lexeme ++ rest) gap) (hkind : kind ≠ .eof) (hne : lexeme ≠ []) :
      Steps ⟨gap ++ (lexeme ++ rest), offset, file⟩
        ⟨kind, String.ofList lexeme,
          .ofRange file (offset + Text.byteSize gap) (Text.byteSize lexeme)⟩
        ⟨rest, offset + Text.byteSize gap + Text.byteSize lexeme, file⟩

theorem steps_next (scanner : Scanner) : Steps scanner scanner.next.1 scanner.next.2 := by
  obtain ⟨text, offset, file⟩ := scanner
  obtain ⟨gap, rest, rfl, hgap, hskip⟩ := (skips offset text).2
  simp only [next, hskip]
  cases rest with
  | nil =>
      rw [List.append_nil]
      exact .finish hgap
  | cons c rest =>
      obtain ⟨hkind, hpos, -⟩ := munch_progress c rest
      have hsplit := (List.take_append_drop (munch (c :: rest)).2 (c :: rest)).symm
      have hne : (c :: rest).take (munch (c :: rest)).2 ≠ [] := by
        simp [List.take_eq_nil_iff, Nat.ne_of_gt hpos]
      simp only [cut]
      conv => arg 1; rw [hsplit]
      rw [hsplit] at hgap
      exact .token hgap hkind hne

theorem drain_zero (scanner : Scanner) : TokenSource.drain 0 scanner = [scanner.next.1] := rfl

theorem drain_succ (count : Nat) (scanner : Scanner) :
    TokenSource.drain (count + 1) scanner =
      if scanner.next.1.kind = .eof then [scanner.next.1]
      else scanner.next.1 :: TokenSource.drain count scanner.next.2 := rfl

theorem tiles_finish {file : String} {offset : Nat} {gap : List Char}
    (hgap : Text.Trivia [] gap) (hsize : offset + Text.byteSize gap < 2 ^ 32) :
    Token.Tiles file offset gap [.endAt ⟨(offset + Text.byteSize gap).toUInt32, file⟩] :=
  .finish hgap rfl rfl (@Span.covers_ofRange file _ 0 hsize)

theorem tiles_drain {scanner : Scanner} {count : Nat} (hcount : scanner.rest.length ≤ count)
    (hsize : scanner.offset + Text.byteSize scanner.rest < 2 ^ 32) :
    Token.Tiles scanner.file scanner.offset scanner.rest (TokenSource.drain count scanner) := by
  induction count generalizing scanner with
  | zero =>
      obtain ⟨rest, offset, file⟩ := scanner
      obtain rfl : rest = [] := List.length_eq_zero_iff.mp (Nat.le_zero.mp hcount)
      exact tiles_finish .nil hsize
  | succ count ih =>
      rw [drain_succ]
      have hsteps := steps_next scanner
      generalize scanner.next = result at hsteps ⊢
      obtain ⟨token, scanner'⟩ := result
      cases hsteps with
      | finish hgap => exact tiles_finish hgap hsize
      | @token offset gap lexeme rest file kind hgap hkind hne =>
          have hpos := List.length_pos_iff.mpr hne
          simp only [List.length_append] at hcount
          dsimp only at hsize ⊢
          simp only [Text.byteSize_append] at hsize
          rw [if_neg hkind]
          refine .token hgap hkind hne rfl (Span.covers_ofRange (by omega)) ?_
          exact @ih ⟨rest, offset + Text.byteSize gap + Text.byteSize lexeme, file⟩
            (by dsimp only; omega) (by dsimp only; omega)

end Scanner

namespace Lexer

/-- The first so many tokens, unless one of the reads falls between the bytes of a character. -/
def take? : Nat → Lexer → Option (List Token)
  | 0, _ => some []
  | count + 1, lexer => do
    let (token, lexer) ← lexer.next?
    let tokens ← take? count lexer
    return token :: tokens

theorem take?_succ {lexer : Lexer} {scanner : Scanner} (h : lexer.Matches scanner) (count : Nat) :
    ∃ lexer' : Lexer, lexer'.Matches scanner.next.2 ∧
      lexer.take? (count + 1) = (lexer'.take? count).map (scanner.next.1 :: ·) := by
  obtain ⟨lexer', hnext, hmatches⟩ := h.next?
  refine ⟨lexer', hmatches, ?_⟩
  rw [take?, hnext, Option.map_eq_bind]
  rfl

theorem take?_of_ended {lexer : Lexer} {offset : Nat} {file : String}
    (h : lexer.Matches ⟨[], offset, file⟩) (count : Nat) :
    lexer.take? count = some (List.replicate count (.endAt ⟨offset.toUInt32, file⟩)) := by
  induction count generalizing lexer with
  | zero => rfl
  | succ count ih =>
      obtain ⟨lexer', hmatches, htake⟩ := take?_succ h count
      rw [htake, ih hmatches]
      rfl

/-- A lexer gives the tokens of its text, and then the end again and again. -/
theorem take?_drain {lexer : Lexer} {scanner : Scanner} {count : Nat}
    (h : lexer.Matches scanner) (hcount : scanner.rest.length ≤ count) (extra : Nat) :
    lexer.take? ((TokenSource.drain count scanner).length + extra) =
      some (TokenSource.drain count scanner ++ List.replicate extra
        (.endAt ⟨(scanner.offset + Text.byteSize scanner.rest).toUInt32, scanner.file⟩)) := by
  induction count generalizing lexer scanner with
  | zero =>
      obtain ⟨rest, offset, file⟩ := scanner
      obtain rfl : rest = [] := List.length_eq_zero_iff.mp (Nat.le_zero.mp hcount)
      rw [Scanner.drain_zero, List.length_singleton, Nat.add_comm, take?_of_ended h]
      rfl
  | succ count ih =>
      rw [Scanner.drain_succ]
      obtain ⟨lexer', hmatches, htake⟩ := take?_succ h
        (if scanner.next.1.kind = .eof then extra
          else (TokenSource.drain count scanner.next.2).length + extra)
      have hsteps := Scanner.steps_next scanner
      generalize scanner.next = result at hsteps hmatches htake ⊢
      obtain ⟨token, scanner'⟩ := result
      cases hsteps with
      | finish hgap =>
          rw [if_pos rfl] at htake
          rw [if_pos rfl, List.length_singleton, Nat.add_comm, htake, take?_of_ended hmatches]
          rfl
      | @token offset gap lexeme rest file kind hgap hkind hne =>
          have hpos := List.length_pos_iff.mpr hne
          simp only [List.length_append] at hcount
          rw [if_neg hkind] at htake
          rw [if_neg hkind, List.length_cons, Nat.add_right_comm, htake,
            ih hmatches (by dsimp only; omega)]
          simp only [Option.map_some, List.cons_append, Text.byteSize_append, Nat.add_assoc]

end Lexer

/-- A text is tiled by its tokens: the end comes last and lies at the end of the text, the
others are cut from it in order, and what they leave over is blank or belongs to comments.
A lexer that is asked for tokens gives these, and then the end for ever. -/
theorem tokenize_tiles (source : String) (file? : Option String)
    (hsize : source.utf8ByteSize < 2 ^ 32) :
    ∃ tokens finish, tokenize source file? = tokens ++ [finish] ∧
      finish.kind = .eof ∧ finish.text = "" ∧
      finish.span.Covers (file?.getD "shell") source.utf8ByteSize source.utf8ByteSize ∧
      (∀ token ∈ tokens, token.kind ≠ .eof ∧ token.text ≠ "") ∧
      (∀ token ∈ tokens ++ [finish], token.CutFrom source) ∧
      (tokens ++ [finish]).Pairwise (fun token later =>
        token.span.stop.offset.toNat ≤ later.span.start.offset.toNat) ∧
      Token.Tiles (file?.getD "shell") 0 source.toList (tokens ++ [finish]) ∧
      ∀ extra, (Lexer.ofSource source file?).take? ((tokens ++ [finish]).length + extra) =
        some (tokens ++ [finish] ++ List.replicate extra finish) := by
  have hbytes : 0 + Text.byteSize source.toList = source.utf8ByteSize := by
    rw [Nat.zero_add, Text.byteSize_toList]
  have hbound : 0 + Text.byteSize source.toList < 2 ^ 32 := hbytes ▸ hsize
  have htiles : Token.Tiles (file?.getD "shell") 0 source.toList (tokenize source file?) :=
    @Scanner.tiles_drain (.ofSource source file?) _ (Nat.le_refl _) hbound
  have htake := Lexer.take?_drain (Lexer.matches_ofSource source file?) (Nat.le_refl _)
  obtain ⟨tokens, finish, htokens, hwords, heof, hempty, hspan⟩ := htiles.exists_append
  have hfinish : finish =
      .endAt ⟨(0 + Text.byteSize source.toList).toUInt32, file?.getD "shell"⟩ := by
    have hspans := hspan.unique (@Span.covers_ofRange (file?.getD "shell") _ 0 hbound)
    obtain ⟨kind, text, span⟩ := finish
    exact Token.mk.injEq .. ▸ ⟨heof, hempty, hspans⟩
  have hcut := @Token.Tiles.cutFrom _ _ _ _ htiles [] rfl
  rw [List.nil_append, String.ofList_toList] at hcut
  rw [hbytes] at hspan
  refine ⟨tokens, finish, htokens, heof, hempty, hspan, hwords, ?_, ?_, ?_, ?_⟩
  · rwa [← htokens]
  · rw [← htokens]
    exact htiles.pairwise
  · rwa [← htokens]
  · rw [← htokens, hfinish]
    exact htake

/-- A character of two bytes starts no token of its own kind, and a comment comes last. -/
theorem tokenize_tiles_commented :
    "é\u2028==a1//ü".utf8ByteSize < 2 ^ 32 ∧
      Token.Tiles "shell" 0 "é\u2028==a1//ü".toList (tokenize "é\u2028==a1//ü" none) ∧
      (tokenize "é\u2028==a1//ü" none).map (·.span.start.offset) = [0, 5, 7, 13] ∧
      ∀ token ∈ tokenize "é\u2028==a1//ü" none, token.CutFrom "é\u2028==a1//ü" := by
  have hsize : "é\u2028==a1//ü".utf8ByteSize < 2 ^ 32 := by decide
  obtain ⟨tokens, finish, htokens, -, -, -, -, hcut, -, htiles, -⟩ :=
    tokenize_tiles "é\u2028==a1//ü" none hsize
  rw [← htokens] at hcut htiles
  exact ⟨hsize, htiles, by decide +kernel, hcut⟩

end MonkeySyntax
