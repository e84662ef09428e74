import MonkeySyntax.Token.Lexer
import MonkeySyntax.Token.Scanner.Progress
import Mathlib.Data.List.TakeWhile
import Mathlib.Data.String.Basic

namespace MonkeySyntax

/-! A lexer hands out the tokens of a scanner that is where it is.  Between tokens it skips what one
pattern takes in at a time, and the scanner all of it. -/

theorem Text.utf8ByteSize_ofList (text : List Char) :
    (String.ofList text).utf8ByteSize = byteSize text := by
  rw [String.utf8ByteSize_ofList]
  induction text with
  | nil => rfl
  | cons c text ih => rw [String.utf8Len_cons, ih, byteSize_cons, Nat.add_comm]

theorem Text.byteSize_toList (source : String) : byteSize source.toList = source.utf8ByteSize := by
  rw [← utf8ByteSize_ofList, String.ofList_toList]

namespace Scanner

variable {file : String} {offset : Nat} {c : Char} {rest : List Char}

theorem skipTrivia_blanks (offset : Nat) (text : List Char) :
    skipTrivia false (offset + Text.byteSize (text.takeWhile Text.isBlank))
      (text.dropWhile Text.isBlank) = skipTrivia false offset text := by
  induction text generalizing offset with
  | nil => rfl
  | cons c text ih =>
      cases hblank : Text.isBlank c with
      | false => simp [hblank]
      | true =>
          rw [List.takeWhile_cons_of_pos hblank, List.dropWhile_cons_of_pos hblank,
            Text.byteSize_cons, ← Nat.add_assoc, ih, skipTrivia, if_neg Bool.false_ne_true,
            if_pos hblank]

theorem skipTrivia_comment {words rest : List Char} (hwords : '\n' ∉ words)
    (hrest : rest = [] ∨ rest.head? = some '\n') (offset : Nat) :
    skipTrivia true offset (words ++ rest) =
      skipTrivia false (offset + Text.byteSize words) rest := by
  induction words generalizing offset with
  | nil =>
      -- A newline is skipped and closes the comment, so it might as well be closed before.
      rcases hrest with rfl | hhead
      · rfl
      · obtain ⟨others, rfl⟩ := List.head?_eq_some_iff.mp hhead
        rfl
  | cons c words ih =>
      rw [List.mem_cons, not_or] at hwords
      have hnewline : (c != '\n') = true := bne_iff_ne.mpr (Ne.symm hwords.1)
      rw [List.cons_append, skipTrivia, if_pos rfl, hnewline, ih hwords.2, Text.byteSize_cons,
        Nat.add_assoc]

theorem next_of_blank (hblank : Text.isBlank c = true) :
    next ⟨rest.dropWhile Text.isBlank,
      offset + Text.byteSize (c :: rest.takeWhile Text.isBlank), file⟩ =
        next ⟨c :: rest, offset, file⟩ := by
  simp only [next, Text.byteSize_cons, ← Nat.add_assoc]
  rw [skipTrivia_blanks, skipTrivia, if_neg Bool.false_ne_true, if_pos hblank]

theorem next_of_comment :
    next ⟨rest.dropWhile (· != '\n'),
      offset + Text.byteSize ('/' :: '/' :: rest.takeWhile (· != '\n')), file⟩ =
        next ⟨'/' :: '/' :: rest, offset, file⟩ := by
  have hwords : '\n' ∉ rest.takeWhile (· != '\n') := fun hmem => by
    simpa using List.mem_takeWhile_imp hmem
  have hstop : rest.dropWhile (· != '\n') = [] ∨
      (rest.dropWhile (· != '\n')).head? = some '\n' := by
    have hhead := List.head?_dropWhile_not (· != '\n') rest
    cases hdrop : rest.dropWhile (· != '\n') with
    | nil => exact .inl rfl
    | cons c others => simpa [hdrop] using hhead
  have hskip := skipTrivia_comment hwords hstop (offset + '/'.utf8Size + '/'.utf8Size)
  rw [List.takeWhile_append_dropWhile] at hskip
  simp only [next, Text.byteSize_cons, ← Nat.add_assoc]
  rw [← hskip, skipTrivia, if_neg Bool.false_ne_true, if_neg (by decide),
    if_pos ⟨rfl, rfl⟩, skipTrivia, if_pos rfl]
  rfl

theorem next_of_token (hblank : Text.isBlank c = false)
    (hslash : ¬(c = '/' ∧ rest.head? = some '/')) :
    next ⟨c :: rest, offset, file⟩ = cut file offset (c :: rest) := by
  rw [next, skipTrivia, if_neg Bool.false_ne_true, if_neg (Bool.eq_false_iff.mp hblank),
    if_neg hslash]

theorem cut_append {kind : Kind} {text : List Char}
    (h : munch (text ++ rest) = (kind, text.length)) :
    cut file offset (text ++ rest) =
      (⟨kind, String.ofList text, .ofRange file offset (Text.byteSize text)⟩,
        ⟨rest, offset + Text.byteSize text, file⟩) := by
  simp only [cut, h, List.take_left, List.drop_left]

end Scanner

namespace Pattern

variable {c : Char} {rest : List Char}

theorem isSome_run?_cons (starts goesOn : Char → Bool) :
    (run? starts goesOn (c :: rest)).isSome = starts c := by
  rw [run?_cons]
  cases starts c <;> rfl

theorem isSome_match?_comment :
    (comment.match? (c :: rest)).isSome = decide (c = '/' ∧ rest.head? = some '/') := by
  by_cases hslash : c = '/' ∧ rest.head? = some '/'
  · obtain ⟨rfl, hhead⟩ := hslash
    obtain ⟨others, rfl⟩ := List.head?_eq_some_iff.mp hhead
    rfl
  · rw [decide_eq_false hslash]
    unfold match?
    split
    case h_2 heq =>
        obtain ⟨rfl, rfl⟩ := List.cons_eq_cons.mp heq
        exact absurd ⟨rfl, rfl⟩ hslash
    all_goals first | rfl | contradiction

theorem find?_symbols (text : List Char) :
    (Symbol.all.map symbol).find? (fun pattern => (pattern.match? text).isSome) =
      (Symbol.find? text).map symbol := by
  rw [List.find?_map, Symbol.find?]
  congr
  funext sign
  simp only [Function.comp_apply, match?]
  cases sign.pattern.isPrefixOf text <;> rfl

/-- Two characters tell what counts, unless it is a symbol. -/
theorem find?_cons (c : Char) (rest : List Char) :
    find? (c :: rest) =
      if Text.isBlank c then some .blanks
      else if c = '/' ∧ rest.head? = some '/' then some .comment
      else if Scanner.isNameStart c then some .word
      else if c.isDigit then some .number
      else (Symbol.find? (c :: rest)).map .symbol := by
  rw [find?, all, List.find?_append, find?_symbols]
  simp only [List.find?_cons, List.find?_nil, isSome_match?_comment]
  simp only [match?, isSome_run?_cons]
  repeat' split
  all_goals simp_all

end Pattern

namespace Lexer

/-- The lexer is where the scanner is. -/
structure Matches (lexer : Lexer) (scanner : Scanner) : Prop where
  source : ∃ before, lexer.source = before ++ scanner.rest ∧ Text.byteSize before = lexer.offset
  offset : lexer.offset = scanner.offset
  file : lexer.file = scanner.file

theorem matches_ofSource (source : String) (file? : Option String) :
    (ofSource source file?).Matches (Scanner.ofSource source file?) :=
  ⟨⟨[], rfl, rfl⟩, rfl, rfl⟩

namespace Matches

variable {lexer : Lexer} {scanner : Scanner} {file : String} {offset : Nat} {c : Char}
  {text rest : List Char}

theorem remainder? (h : lexer.Matches scanner) : lexer.remainder? = some scanner.rest := by
  obtain ⟨⟨before, hsource, hbefore⟩, -, -⟩ := h
  rw [Lexer.remainder?, hsource, ← hbefore, Text.dropBytes?_byteSize_append]

theorem atEnd_iff (h : lexer.Matches scanner) : lexer.atEnd = true ↔ scanner.rest = [] := by
  obtain ⟨⟨before, hsource, hbefore⟩, -, -⟩ := h
  rw [atEnd, decide_eq_true_eq, hsource, Text.byteSize_append, hbefore,
    ← Text.byteSize_eq_zero_iff]
  omega

theorem advance (h : lexer.Matches ⟨text ++ rest, offset, file⟩) :
    (lexer.advance (Text.byteSize text)).Matches ⟨rest, offset + Text.byteSize text, file⟩ := by
  obtain ⟨⟨before, hsource, hbefore⟩, hoffset, hfile⟩ := h
  refine ⟨⟨before ++ text, ?_, ?_⟩, congrArg (· + Text.byteSize text) hoffset, hfile⟩
  · exact hsource.trans (List.append_assoc ..).symm
  · rw [Text.byteSize_append, hbefore]
    rfl

theorem matchedSize? (h : lexer.Matches scanner) {pattern : Pattern}
    (hmatch : pattern.match? scanner.rest = some text) :
    lexer.matchedSize? pattern = some (Text.byteSize text) := by
  rw [Lexer.matchedSize?, h.remainder?, Option.map_some, hmatch, Option.getD_some]

theorem slice? (h : lexer.Matches ⟨text ++ rest, offset, file⟩) :
    lexer.slice? (Text.byteSize text) = some (String.ofList text) := by
  rw [Lexer.slice?, h.remainder?]
  simp only [Option.bind_eq_bind, Option.bind_some, Text.takeBytes?_byteSize_append]
  rfl

theorem step?_of_find? (h : lexer.Matches ⟨c :: rest, offset, file⟩) {pattern : Pattern}
    (hfind : Pattern.find? (c :: rest) = some pattern) : lexer.step? = lexer.handle? pattern := by
  rw [step?, if_neg (mt h.atEnd_iff.mp (List.cons_ne_nil c rest)), h.remainder?]
  simp only [Option.bind_eq_bind, Option.bind_some, hfind]

theorem step?_of_illegal (h : lexer.Matches ⟨c :: rest, offset, file⟩)
    (hfind : Pattern.find? (c :: rest) = none) :
    lexer.step? = some ((lexer.emit .illegal c.toString c.utf8Size).map some id) := by
  rw [step?, if_neg (mt h.atEnd_iff.mp (List.cons_ne_nil c rest)), emitIllegal?, h.remainder?]
  simp only [Option.bind_eq_bind, Option.bind_some, hfind]
  rfl

theorem emitMatch? (h : lexer.Matches ⟨text ++ rest, offset, file⟩) {pattern : Pattern}
    (hmatch : pattern.match? (text ++ rest) = some text) (kindOf : String → Kind) :
    lexer.emitMatch? pattern kindOf =
      some ((lexer.emit (kindOf (String.ofList text)) (String.ofList text)
        (Text.byteSize text)).map some id) := by
  rw [Lexer.emitMatch?, h.matchedSize? hmatch]
  simp only [Option.bind_eq_bind, Option.bind_some, h.slice?]
  rfl

end Matches

/-- One step of the lexer: it hands out the scanner's token, or skips something that the scanner
skips on the way to this token. -/
inductive Steps (lexer : Lexer) (scanner : Scanner) : Prop
  | token {lexer' : Lexer} (hstep : lexer.step? = some (some scanner.next.1, lexer'))
      (hmatches : lexer'.Matches scanner.next.2)
  | skip {lexer' : Lexer} {scanner' : Scanner} (hstep : lexer.step? = some (none, lexer'))
      (hmatches : lexer'.Matches scanner') (hnext : scanner'.next = scanner.next)

namespace Matches

variable {lexer : Lexer} {scanner : Scanner} {file : String} {offset : Nat} {c : Char}
  {text rest others : List Char}

theorem steps_finish (h : lexer.Matches ⟨[], offset, file⟩) :
    Steps lexer ⟨[], offset, file⟩ := by
  refine .token ?_ h
  rw [step?, if_pos (h.atEnd_iff.mpr rfl)]
  obtain ⟨-, rfl, rfl⟩ := h
  rfl

theorem steps_skip (h : lexer.Matches ⟨c :: rest, offset, file⟩) {pattern : Pattern}
    (hfind : Pattern.find? (c :: rest) = some pattern) (hpattern : pattern ∈ [.blanks, .comment])
    (hmatch : pattern.match? (c :: rest) = some text) (hrest : c :: rest = text ++ others)
    (hnext : Scanner.next ⟨others, offset + Text.byteSize text, file⟩ =
      Scanner.next ⟨c :: rest, offset, file⟩) :
    Steps lexer ⟨c :: rest, offset, file⟩ := by
  have hsize := h.matchedSize? hmatch
  refine .skip ?_ (hrest ▸ h).advance hnext
  rw [h.step?_of_find? hfind]
  simp only [List.mem_cons, List.not_mem_nil, or_false] at hpattern
  rcases hpattern with rfl | rfl <;> simp [handle?, hsize]

/-- What is handed out is the scanner's token, if it is cut where the scanner cuts it. -/
theorem steps_token (h : lexer.Matches ⟨c :: rest, offset, file⟩)
    (hblank : Text.isBlank c = false) (hslash : ¬(c = '/' ∧ rest.head? = some '/'))
    {kind : Kind} (hrest : c :: rest = text ++ others)
    (hmunch : Scanner.munch (c :: rest) = (kind, text.length))
    (hstep : lexer.step? =
      some ((lexer.emit kind (String.ofList text) (Text.byteSize text)).map some id)) :
    Steps lexer ⟨c :: rest, offset, file⟩ := by
  have hnext : Scanner.next ⟨c :: rest, offset, file⟩ =
      (⟨kind, String.ofList text, .ofRange file offset (Text.byteSize text)⟩,
        ⟨others, offset + Text.byteSize text, file⟩) := by
    rw [Scanner.next_of_token hblank hslash, hrest, Scanner.cut_append (hrest ▸ hmunch)]
  have hmatches := (hrest ▸ h).advance
  obtain ⟨-, rfl, rfl⟩ := h
  refine .token (hstep.trans (by rw [hnext]; rfl)) ?_
  rwa [hnext]

section

variable (h : lexer.Matches ⟨c :: rest, offset, file⟩) (hblank : Text.isBlank c = false)
  (hslash : ¬(c = '/' ∧ rest.head? = some '/'))

include h hblank hslash

/-- Words and numbers, which differ in what they may start with. -/
theorem steps_name {pattern : Pattern} {kindOf : String → Kind}
    (hfind : Pattern.find? (c :: rest) = some pattern)
    (hmatch : pattern.match? (c :: rest) = some (c :: rest.takeWhile Scanner.isNamePart))
    (hhandle : lexer.handle? pattern = lexer.emitMatch? pattern kindOf)
    (hmunch : Scanner.munch (c :: rest) =
      (kindOf (String.ofList (c :: rest.takeWhile Scanner.isNamePart)),
        (c :: rest.takeWhile Scanner.isNamePart).length)) :
    Steps lexer ⟨c :: rest, offset, file⟩ := by
  have hrest : c :: rest =
      (c :: rest.takeWhile Scanner.isNamePart) ++ rest.dropWhile Scanner.isNamePart := by
    rw [List.cons_append, List.takeWhile_append_dropWhile]
  refine h.steps_token hblank hslash hrest hmunch ?_
  rw [h.step?_of_find? hfind, hhandle]
  rw [hrest] at h hmatch
  exact h.emitMatch? hmatch kindOf

theorem steps_symbol
    (hfind : Pattern.find? (c :: rest) = (Symbol.find? (c :: rest)).map .symbol)
    (hmunch : Scanner.munch (c :: rest) = Scanner.symbol c rest) :
    Steps lexer ⟨c :: rest, offset, file⟩ := by
  rw [Scanner.symbol] at hmunch
  cases hsymbol : Symbol.find? (c :: rest) with
  | none =>
      rw [hsymbol] at hmunch hfind
      exact h.steps_token hblank hslash List.singleton_append.symm hmunch (h.step?_of_illegal hfind)
  | some symbol =>
      rw [hsymbol] at hmunch hfind
      obtain ⟨others, hrest⟩ := Symbol.exists_append_of_find? hsymbol
      refine h.steps_token hblank hslash hrest hmunch ?_
      rw [h.step?_of_find? hfind, handle?,
        Symbol.literal_eq (Symbol.mem_of_find? hsymbol), Text.utf8ByteSize_ofList]
      rfl

end

/-- A lexer that is where the scanner is takes a step that the scanner takes too. -/
theorem steps (h : lexer.Matches scanner) : Steps lexer scanner := by
  obtain ⟨rest, offset, file⟩ := scanner
  cases rest with
  | nil => exact h.steps_finish
  | cons c rest =>
      have hfind := Pattern.find?_cons c rest
      cases hblank : Text.isBlank c with
      | true =>
          rw [if_pos hblank] at hfind
          refine h.steps_skip hfind (by simp) (if_pos hblank) ?_ (Scanner.next_of_blank hblank)
          rw [List.cons_append, List.takeWhile_append_dropWhile]
      | false =>
          rw [if_neg (Bool.eq_false_iff.mp hblank)] at hfind
          by_cases hslash : c = '/' ∧ rest.head? = some '/'
          · obtain ⟨rfl, hhead⟩ := hslash
            obtain ⟨others, rfl⟩ := List.head?_eq_some_iff.mp hhead
            refine h.steps_skip hfind (by simp) rfl ?_ Scanner.next_of_comment
            rw [List.cons_append, List.cons_append, List.takeWhile_append_dropWhile]
          · rw [if_neg hslash] at hfind
            by_cases hstart : Scanner.isNameStart c = true
            · rw [if_pos hstart] at hfind
              exact h.steps_name hblank hslash hfind (if_pos hstart) rfl (if_pos hstart)
            by_cases hdigit : c.isDigit = true
            · rw [if_neg hstart, if_pos hdigit] at hfind
              exact h.steps_name hblank hslash hfind (if_pos hdigit) rfl
                ((if_neg hstart).trans (if_pos hdigit))
            · rw [if_neg hstart, if_neg hdigit] at hfind
              exact h.steps_symbol hblank hslash hfind ((if_neg hstart).trans (if_neg hdigit))

/-- A lexer that is where the scanner is hands out the token that the scanner hands out. -/
theorem next? (h : lexer.Matches scanner) :
    ∃ lexer', lexer.next? = some (scanner.next.1, lexer') ∧ lexer'.Matches scanner.next.2 := by
  -- The induction is on what is left to read: a step that hands nothing out leads closer to the
  -- end.
  induction lexer using Lexer.next?.induct generalizing scanner with
  | case1 lexer hnone =>
      cases h.steps with
      | token hstep | skip hstep => rw [hnone] at hstep; cases hstep
  | case2 lexer token lexer' htoken =>
      cases h.steps with
      | token hstep hmatches => exact ⟨_, next?_of_token hstep, hmatches⟩
      | skip hstep => rw [htoken] at hstep; cases hstep
  | case3 lexer lexer' hskip _ ih =>
      cases h.steps with
      | token hstep => rw [hskip] at hstep; cases hstep
      | skip hstep hmatches hnext =>
          rw [hskip] at hstep
          cases hstep
          rw [next?_of_skip hskip, ← hnext]
          exact ih hmatches

end Matches

end Lexer

end MonkeySyntax
