import MonkeySyntax.Proofs.Scanner.Lexeme
import MonkeySyntax.Proofs.Scanner.Tiling

namespace MonkeySyntax

/-! Each token is the longest that starts where it does, and its kind is told by its text.  That
leaves one way to tile a text. -/

namespace Kind

def reservedWords : List (String × Kind) :=
  [("let", .letWord), ("fn", .fnWord), ("return", .returnWord), ("if", .ifWord),
    ("else", .elseWord), ("true", .trueWord), ("false", .falseWord)]

variable {word word' : String} {kind : Kind}

theorem reserved?_eq_some_iff : reserved? word = some kind ↔ (word, kind) ∈ reservedWords := by
  constructor
  · intro h
    unfold reserved? at h
    split at h
    case h_8 => cases h
    all_goals
      obtain rfl := Option.some.inj h
      decide
  · intro h
    have hwords : ∀ entry ∈ reservedWords, reserved? entry.1 = some entry.2 := by decide
    exact hwords _ h

theorem ofWord_cases (word : String) :
    ofWord word = .identifier ∨ reserved? word = some (ofWord word) := by
  rw [ofWord]
  cases reserved? word with
  | none => exact .inl rfl
  | some kind => exact .inr rfl

/-- A kind is reserved for one word. -/
theorem eq_of_reserved?_ofWord (h : reserved? word = some (ofWord word')) : word' = word := by
  have hunique : ∀ entry ∈ reservedWords, entry.2 ≠ .identifier ∧
      ∀ entry' ∈ reservedWords, entry.2 = entry'.2 → entry.1 = entry'.1 := by decide
  have hmem := reserved?_eq_some_iff.mp h
  rcases ofWord_cases word' with hidentifier | hreserved
  · exact absurd hidentifier (hunique _ hmem).1
  · exact ((hunique _ hmem).2 _ (reserved?_eq_some_iff.mp hreserved) rfl).symm

theorem ofWord_not_mem (word : String) :
    ofWord word ∉ [.illegal, .integer, .assignment, .not, .slash] := by
  unfold ofWord reserved?
  split <;> decide

theorem classes (kind : Kind) :
    kind = .eof ∨ kind = .illegal ∨ kind = .integer ∨ kind = .identifier ∨
      kind ∈ reservedWords.map Prod.snd ∨ kind ∈ Scanner.symbols.map Prod.fst := by
  cases kind <;> decide

end Kind

namespace Scanner

/-- A run of characters of names, which no such character comes after. -/
structure LongestRun (text rest : List Char) : Prop where
  parts : ∀ part ∈ text, isNamePart part = true
  stops : ∀ c ∈ rest.head?, isNamePart c = false

/-- The character starts nothing but itself. -/
structure Stray (c : Char) : Prop where
  not_blank : Text.isBlank c = false
  not_part : isNamePart c = false
  not_symbol : ∀ entry ∈ symbols, entry.2.head? ≠ some c

/-- Where the rest comes after it, the text is the longest that a token can have, and the kind is
the one that it asks for.  Runs of characters of names are words and numbers, and nothing else is;
every other kind has a text of its own, or is that of stray characters. -/
structure Munched (kind : Kind) (text rest : List Char) : Prop where
  word : text.head?.any isNameStart → LongestRun text rest ∧ kind = .ofWord (String.ofList text)
  number : text.head?.any Char.isDigit → LongestRun text rest ∧ kind = .integer
  identifier : kind = .identifier → text.head?.any isNameStart
  integer : kind = .integer → text.head?.any Char.isDigit
  reserved : ∀ word, Kind.reserved? word = some kind → String.ofList text = word
  symbol : ∀ text', (kind, text') ∈ symbols → text = text'
  sign : kind = .assignment ∨ kind = .not → rest.head? ≠ some '='
  slash : kind = .slash → rest.head? ≠ some '/'
  illegal : kind = .illegal → ∃ c, text = [c] ∧ Stray c

section Stray

variable {c : Char} {rest : List Char}

theorem Stray.symbol_eq (h : Stray c) (rest : List Char) : symbol c rest = (.illegal, 1) := by
  rcases symbol_cases c rest with hillegal | ⟨kind, text, others, hmem, htext, -⟩
  · exact hillegal
  · have hne : ∀ entry ∈ symbols, entry.2 ≠ [] := by decide
    refine absurd ?_ (h.not_symbol _ hmem)
    rw [← List.head?_append_of_ne_nil text (hne _ hmem), ← htext, List.head?_cons]

theorem Stray.munch_eq (h : Stray c) (rest : List Char) : munch (c :: rest) = (.illegal, 1) := by
  have hstart : isNameStart c ≠ true := fun hstart =>
    absurd (isNamePart_of_isNameStart hstart) (by simp [h.not_part])
  have hdigit : c.isDigit ≠ true := fun hdigit =>
    absurd (isNamePart_of_isDigit hdigit) (by simp [h.not_part])
  rw [munch, if_neg hstart, if_neg hdigit, h.symbol_eq]

theorem Stray.begins (h : Stray c) (rest : List Char) : Begins (c :: rest) :=
  ⟨h.not_blank, fun hcomment => h.not_symbol (.slash, ['/']) (by decide) (hcomment.1 ▸ rfl)⟩

theorem head?_ne_of_symbol_illegal (h : (symbol c rest).1 = .illegal) :
    ∀ entry ∈ symbols, entry.2.head? ≠ some c := by
  have hillegal : ∀ entry ∈ Symbol.all, entry.kind ≠ .illegal := by decide
  have halone : ∀ entry ∈ symbols, ∃ symbol ∈ Symbol.all, symbol.pattern = entry.2.take 1 := by
    decide
  rw [symbol] at h
  cases hfind : Symbol.find? (c :: rest) with
  | some symbol =>
      rw [hfind] at h
      exact absurd h (hillegal symbol (Symbol.mem_of_find? hfind))
  | none =>
      intro entry hentry hhead
      obtain ⟨symbol, hsymbol, hpattern⟩ := halone entry hentry
      have hnot := List.find?_eq_none.mp hfind symbol hsymbol
      rw [hpattern, List.take_one, hhead] at hnot
      exact hnot (List.isPrefixOf_iff_prefix.mpr ⟨rest, rfl⟩)

theorem stray_of_munch_illegal (hbegins : Begins (c :: rest))
    (h : (munch (c :: rest)).1 = .illegal) : Stray c := by
  rw [munch] at h
  split at h
  · have hword := Kind.ofWord_not_mem (String.ofList (c :: rest.takeWhile isNamePart))
    exact absurd (h ▸ List.mem_cons_self) hword
  · next hstart =>
      split at h
      · cases h
      · next hdigit =>
          refine ⟨hbegins.1, ?_, head?_ne_of_symbol_illegal h⟩
          simp only [isNameStart, Bool.or_eq_true, not_or] at hstart
          simp [isNamePart, Char.isAlphanum, hstart.1, hdigit, hstart.2]

end Stray

/-! What lies after a token that has been cut off. -/

theorem isNamePart_head?_drop (text : List Char) :
    ∀ c ∈ (text.drop (text.takeWhile isNamePart).length).head?, isNamePart c = false := by
  induction text with
  | nil => exact nofun
  | cons c text ih =>
      rw [List.takeWhile_cons]
      split
      · exact ih
      · next hpart =>
          rintro c ⟨⟩
          exact Bool.eq_false_iff.mpr hpart

theorem follows_symbol {c : Char} {rest : List Char} (h : Begins (c :: rest))
    (hkind : (symbol c rest).1 ≠ .illegal) :
    Follows ((c :: rest).drop (symbol c rest).2) (symbol c rest).1 := by
  rcases symbol_cases c rest with hillegal | ⟨kind, text, others, hmem, htext, hsymbol⟩
  · rw [hillegal] at hkind
    exact absurd rfl hkind
  · have htexts : ∀ entry ∈ symbols, (entry.1 = .assignment → entry.2 = ['=']) ∧
        (entry.1 = .not → entry.2 = ['!']) ∧ (entry.1 = .slash → entry.2 = ['/']) := by decide
    obtain ⟨hassignment, hnot, hslash⟩ := htexts _ hmem
    rw [hsymbol, htext, List.drop_left]
    -- Another sign after it would have made the first one a part of a longer symbol.
    cases kind with
    | assignment =>
        obtain rfl := hassignment rfl
        obtain ⟨rfl, rfl⟩ := List.cons.inj htext
        intro hhead
        obtain ⟨others, rfl⟩ := List.head?_eq_some_iff.mp hhead
        cases hsymbol
    | not =>
        obtain rfl := hnot rfl
        obtain ⟨rfl, rfl⟩ := List.cons.inj htext
        intro hhead
        obtain ⟨others, rfl⟩ := List.head?_eq_some_iff.mp hhead
        cases hsymbol
    | slash =>
        obtain rfl := hslash rfl
        obtain ⟨rfl, rfl⟩ := List.cons.inj htext
        exact fun hhead => h.2 ⟨rfl, hhead⟩
    | eof | illegal | integer | identifier | letWord | fnWord | returnWord | ifWord | elseWord
    | trueWord | falseWord => simp [symbols, Symbol.all] at hmem
    | _ => trivial

theorem follows_munch {c : Char} {rest : List Char} (h : Begins (c :: rest))
    (hkind : (munch (c :: rest)).1 ≠ .illegal) :
    Follows ((c :: rest).drop (munch (c :: rest)).2) (munch (c :: rest)).1 := by
  rw [munch] at hkind ⊢
  split at hkind
  · next hstart =>
      rw [if_pos hstart, follows_ofWord]
      exact isNamePart_head?_drop rest
  · next hstart =>
      rw [if_neg hstart]
      split at hkind
      · next hdigit =>
          rw [if_pos hdigit]
          exact isNamePart_head?_drop rest
      · next hdigit =>
          rw [if_neg hdigit]
          exact follows_symbol h hkind

theorem no_run_of_head? {text : List Char} (h : text.head?.any isNamePart = false) :
    text.head?.any isNameStart = false ∧ text.head?.any Char.isDigit = false := by
  cases text with
  | nil => exact ⟨rfl, rfl⟩
  | cons c parts =>
      have hpart : isNamePart c = false := h
      constructor
      · exact Bool.eq_false_iff.mpr fun hstart =>
          Bool.eq_false_iff.mp hpart (isNamePart_of_isNameStart hstart)
      · exact Bool.eq_false_iff.mpr fun hdigit =>
          Bool.eq_false_iff.mp hpart (isNamePart_of_isDigit hdigit)

/-- A token to which nothing can be added. -/
theorem Lexeme.munched {kind : Kind} {text rest : List Char} (h : Lexeme kind text)
    (hfollows : kind ≠ .illegal → Follows rest kind)
    (hillegal : kind = .illegal → ∃ c, text = [c] ∧ Stray c) : Munched kind text rest := by
  cases h with
  | @word c parts hstart hparts =>
      have hkinds := Kind.ofWord_not_mem (String.ofList (c :: parts))
      simp only [List.mem_cons, List.not_mem_nil, or_false, not_or] at hkinds
      obtain ⟨hillegal', hinteger, hassignment, hnot, hslash⟩ := hkinds
      have hrun : LongestRun (c :: parts) rest :=
        ⟨List.forall_mem_cons.mpr ⟨isNamePart_of_isNameStart hstart, hparts⟩,
          (follows_ofWord rest _).mp (hfollows hillegal')⟩
      exact {
        word := fun _ => ⟨hrun, rfl⟩
        number := fun hdigit => absurd hstart (by simp [not_isNameStart_of_isDigit hdigit])
        identifier := fun _ => hstart
        integer := fun hkind => absurd hkind hinteger
        reserved := fun word => Kind.eq_of_reserved?_ofWord
        symbol := fun text' => (Lexeme.word hstart hparts).eq_of_mem_symbols
        sign := fun hkind => absurd hkind (not_or.mpr ⟨hassignment, hnot⟩)
        slash := fun hkind => absurd hkind hslash
        illegal := hillegal }
  | @number c parts hdigit hparts =>
      have hrun : LongestRun (c :: parts) rest :=
        ⟨List.forall_mem_cons.mpr ⟨isNamePart_of_isDigit hdigit, hparts⟩, hfollows nofun⟩
      exact {
        word := fun hstart => absurd hstart (by simp [not_isNameStart_of_isDigit hdigit])
        number := fun _ => ⟨hrun, rfl⟩
        identifier := nofun
        integer := fun _ => hdigit
        reserved := fun word hword => by
          simp [Kind.reserved?_eq_some_iff, Kind.reservedWords] at hword
        symbol := fun text' => (Lexeme.number hdigit hparts).eq_of_mem_symbols
        sign := nofun
        slash := nofun
        illegal := hillegal }
  | symbol hmem =>
      have hplain : ∀ entry ∈ symbols, (entry.2.head?.any isNamePart = false) ∧
          entry.1 ∉ [.identifier, .integer, .illegal] ∧
          ∀ entry' ∈ Kind.reservedWords, entry'.2 ≠ entry.1 := by decide
      obtain ⟨hhead, hkinds, hwords⟩ := hplain _ hmem
      simp only [List.mem_cons, List.not_mem_nil, or_false, not_or] at hkinds
      obtain ⟨hidentifier, hinteger, hillegal'⟩ := hkinds
      obtain ⟨hword, hnumber⟩ := no_run_of_head? hhead
      have hfollows' := hfollows hillegal'
      exact {
        word := fun hstart => absurd hstart (Bool.eq_false_iff.mp hword)
        number := fun hdigit => absurd hdigit (Bool.eq_false_iff.mp hnumber)
        identifier := fun hkind => absurd hkind hidentifier
        integer := fun hkind => absurd hkind hinteger
        reserved := fun word hword =>
          absurd rfl (hwords _ (Kind.reserved?_eq_some_iff.mp hword))
        symbol := fun text' => (Lexeme.symbol hmem).eq_of_mem_symbols
        sign := by
          rintro (rfl | rfl)
          · exact hfollows'
          · exact hfollows'
        slash := by
          rintro rfl
          exact hfollows'
        illegal := hillegal }
  | illegal c =>
      obtain ⟨_, hc, hstray⟩ := hillegal rfl
      obtain rfl := List.singleton_inj.mp hc
      obtain ⟨hword, hnumber⟩ := @no_run_of_head? [c] hstray.not_part
      exact {
        word := fun hstart => absurd hstart (Bool.eq_false_iff.mp hword)
        number := fun hdigit => absurd hdigit (Bool.eq_false_iff.mp hnumber)
        identifier := nofun
        integer := nofun
        reserved := fun word hword => by
          simp [Kind.reserved?_eq_some_iff, Kind.reservedWords] at hword
        symbol := fun text' => (Lexeme.illegal c).eq_of_mem_symbols
        sign := nofun
        slash := nofun
        illegal := hillegal }

namespace Munched

variable {kind : Kind} {text rest : List Char}

theorem lexeme_follows_of_word (h : Munched kind text rest)
    (hword : text.head?.any isNameStart) : Lexeme kind text ∧ Follows rest kind := by
  obtain ⟨⟨hparts, hstops⟩, rfl⟩ := h.word hword
  rw [follows_ofWord]
  refine ⟨?_, hstops⟩
  cases text with
  | nil => cases hword
  | cons c parts => exact .word hword (List.forall_mem_cons.mp hparts).2

theorem lexeme_follows_of_number (h : Munched kind text rest)
    (hdigit : text.head?.any Char.isDigit) : Lexeme kind text ∧ Follows rest kind := by
  obtain ⟨⟨hparts, hstops⟩, rfl⟩ := h.number hdigit
  refine ⟨?_, hstops⟩
  cases text with
  | nil => cases hdigit
  | cons c parts => exact .number hdigit (List.forall_mem_cons.mp hparts).2

theorem follows_of_mem_symbols (h : Munched kind text rest) {text' : List Char}
    (hmem : (kind, text') ∈ symbols) : Follows rest kind := by
  cases kind with
  | assignment => exact h.sign (.inl rfl)
  | not => exact h.sign (.inr rfl)
  | slash => exact h.slash rfl
  | eof | illegal | integer | identifier | letWord | fnWord | returnWord | ifWord | elseWord
  | trueWord | falseWord => simp [symbols, Symbol.all] at hmem
  | _ => trivial

theorem lexeme_follows (h : Munched kind text rest) (heof : kind ≠ .eof)
    (hillegal : kind ≠ .illegal) : Lexeme kind text ∧ Follows rest kind := by
  rcases kind.classes with hkind | hkind | hkind | hkind | hword | hsymbol
  · exact absurd hkind heof
  · exact absurd hkind hillegal
  · exact h.lexeme_follows_of_number (h.integer hkind)
  · exact h.lexeme_follows_of_word (h.identifier hkind)
  · obtain ⟨⟨word, _⟩, hmem, rfl⟩ := List.mem_map.mp hword
    obtain rfl := h.reserved word (Kind.reserved?_eq_some_iff.mpr hmem)
    have hstarts : ∀ entry ∈ Kind.reservedWords, entry.1.toList.head?.any isNameStart := by
      decide
    have hstart := hstarts _ hmem
    rw [String.toList_ofList] at hstart
    exact h.lexeme_follows_of_word hstart
  · obtain ⟨⟨_, text'⟩, hmem, rfl⟩ := List.mem_map.mp hsymbol
    obtain rfl := h.symbol text' hmem
    exact ⟨.symbol hmem, h.follows_of_mem_symbols hmem⟩

theorem munch_eq (h : Munched kind text rest) (heof : kind ≠ .eof) :
    munch (text ++ rest) = (kind, text.length) := by
  by_cases hillegal : kind = .illegal
  · obtain ⟨c, rfl, hstray⟩ := h.illegal hillegal
    exact hillegal ▸ hstray.munch_eq rest
  · obtain ⟨hlexeme, hfollows⟩ := h.lexeme_follows heof hillegal
    exact hlexeme.munch hillegal hfollows

theorem begins (h : Munched kind text rest) (heof : kind ≠ .eof) : Begins (text ++ rest) := by
  by_cases hillegal : kind = .illegal
  · obtain ⟨c, rfl, hstray⟩ := h.illegal hillegal
    exact hstray.begins rest
  · obtain ⟨hlexeme, hfollows⟩ := h.lexeme_follows heof hillegal
    exact hlexeme.begins hillegal hfollows

end Munched

/-- No token has blanks in it. -/
theorem Munched.not_isBlank {kind : Kind} {text rest : List Char} (h : Munched kind text rest)
    (heof : kind ≠ .eof) : ∀ c ∈ text, Text.isBlank c = false := by
  have hpart {c : Char} (hpart : isNamePart c = true) : Text.isBlank c = false :=
    (begins_of_isNamePart hpart []).1
  by_cases hillegal : kind = .illegal
  · obtain ⟨c, rfl, hstray⟩ := h.illegal hillegal
    exact List.forall_mem_singleton.mpr hstray.not_blank
  · cases (h.lexeme_follows heof hillegal).1 with
    | word hstart hparts =>
        exact List.forall_mem_cons.mpr
          ⟨hpart (isNamePart_of_isNameStart hstart), fun c hmem => hpart (hparts c hmem)⟩
    | number hdigit hparts =>
        exact List.forall_mem_cons.mpr
          ⟨hpart (isNamePart_of_isDigit hdigit), fun c hmem => hpart (hparts c hmem)⟩
    | symbol hmem =>
        have hblank : ∀ entry ∈ symbols, entry.2.all (!Text.isBlank ·) = true := by decide
        intro c hc
        simpa using List.all_eq_true.mp (hblank _ hmem) c hc
    | illegal c => exact absurd rfl hillegal

theorem munched_munch {c : Char} {rest : List Char} (h : Begins (c :: rest)) :
    Munched (munch (c :: rest)).1 ((c :: rest).take (munch (c :: rest)).2)
      ((c :: rest).drop (munch (c :: rest)).2) := by
  refine (lexeme_munch c rest).munched (follows_munch h) fun hillegal => ?_
  have hstray := stray_of_munch_illegal h hillegal
  refine ⟨c, ?_, hstray⟩
  rw [hstray.munch_eq]
  rfl

/-! Blanks and comments, up to where a token begins. -/

theorem begins_skipTrivia (inComment : Bool) (offset : Nat) (text : List Char) :
    Begins (skipTrivia inComment offset text).2 := by
  induction text generalizing inComment offset with
  | nil => trivial
  | cons c text ih =>
      rw [skipTrivia]
      split
      · exact ih ..
      · split
        · exact ih ..
        · next hblank =>
            split
            · exact ih ..
            · next hslash => exact ⟨Bool.eq_false_iff.mpr hblank, hslash⟩

theorem skipTrivia_append {gap rest : List Char} (hgap : Text.Trivia rest gap)
    (hrest : Begins rest) (offset : Nat) :
    skipTrivia false offset (gap ++ rest) = (offset + Text.byteSize gap, rest) := by
  induction hgap generalizing offset with
  | nil => exact skipTrivia_of_begins hrest offset
  | blank hblank _ ih =>
      rw [List.cons_append, skipTrivia, if_neg Bool.false_ne_true, if_pos hblank, ih,
        Text.byteSize_cons, Nat.add_assoc]
  | @comment words gap hwords hstop hgap ih =>
      rw [List.cons_append, List.cons_append, List.append_assoc, skipTrivia,
        if_neg Bool.false_ne_true, if_neg (by decide), if_pos ⟨rfl, rfl⟩, skipTrivia, if_pos rfl]
      have hslash : ('/' != '\n') = true := rfl
      rw [hslash, skipTrivia_comment hwords hstop, ih]
      simp only [Text.byteSize_cons, Text.byteSize_append, Nat.add_assoc]

end Scanner

/-- The tokens lie one after the other in a text that starts at the offset, each as long as it can
be, and the end comes last.  Between them lies nothing but blanks and comments.  Spans keep 32 bits
of each offset, however long the text is. -/
inductive Token.Munches (file : String) : Nat → List Char → List Token → Prop
  | finish {offset : Nat} {gap : List Char} (hgap : Text.Trivia [] gap) :
      Munches file offset gap [⟨.eof, "", .ofRange file (offset + Text.byteSize gap) 0⟩]
  | token {offset : Nat} {gap text rest : List Char} {kind : Kind} {tokens : List Token}
      (hgap : Text.Trivia (text ++ rest) gap) (hkind : kind ≠ .eof)
      (hmunched : Scanner.Munched kind text rest)
      (hrest : Munches file (offset + Text.byteSize gap + Text.byteSize text) rest tokens) :
      Munches file offset (gap ++ (text ++ rest))
        (⟨kind, String.ofList text,
          .ofRange file (offset + Text.byteSize gap) (Text.byteSize text)⟩ :: tokens)

namespace Scanner

variable {file : String} {offset : Nat} {text gap rest : List Char} {tokens : List Token}

theorem next_finish (hgap : Text.Trivia [] gap) :
    next ⟨gap, offset, file⟩ =
      (⟨.eof, "", .ofRange file (offset + Text.byteSize gap) 0⟩,
        ⟨[], offset + Text.byteSize gap, file⟩) := by
  have hskip := skipTrivia_append hgap trivial offset
  rw [List.append_nil] at hskip
  simp only [next, hskip]
  rfl

theorem next_token {kind : Kind} (hgap : Text.Trivia (text ++ rest) gap) (hkind : kind ≠ .eof)
    (hmunched : Munched kind text rest) :
    next ⟨gap ++ (text ++ rest), offset, file⟩ =
      (⟨kind, String.ofList text,
          .ofRange file (offset + Text.byteSize gap) (Text.byteSize text)⟩,
        ⟨rest, offset + Text.byteSize gap + Text.byteSize text, file⟩) := by
  simp only [next, skipTrivia_append hgap (hmunched.begins hkind),
    cut_append (hmunched.munch_eq hkind)]

theorem drain_finish (hgap : Text.Trivia [] gap) (count : Nat) :
    TokenSource.drain count (⟨gap, offset, file⟩ : Scanner) =
      [⟨.eof, "", .ofRange file (offset + Text.byteSize gap) 0⟩] := by
  cases count with
  | zero => rw [drain_zero, next_finish hgap]
  | succ count => rw [drain_succ, next_finish hgap, if_pos rfl]

theorem drain_token {kind : Kind} (hgap : Text.Trivia (text ++ rest) gap) (hkind : kind ≠ .eof)
    (hmunched : Munched kind text rest) (count : Nat) :
    TokenSource.drain (count + 1) (⟨gap ++ (text ++ rest), offset, file⟩ : Scanner) =
      ⟨kind, String.ofList text,
          .ofRange file (offset + Text.byteSize gap) (Text.byteSize text)⟩ ::
        TokenSource.drain count
          (⟨rest, offset + Text.byteSize gap + Text.byteSize text, file⟩ : Scanner) := by
  rw [drain_succ, next_token hgap hkind hmunched, if_neg hkind]

theorem Munched.length_pos {kind : Kind} (h : Munched kind text rest) (hkind : kind ≠ .eof) :
    0 < text.length := by
  have hmunch := h.munch_eq hkind
  cases htext : text ++ rest with
  | nil =>
      rw [htext] at hmunch
      exact absurd (congrArg Prod.fst hmunch).symm hkind
  | cons c others =>
      have hpos := (munch_progress c others).2.1
      rwa [← htext, hmunch] at hpos

theorem trivia_or_exists_munched (text : List Char) :
    Text.Trivia [] text ∨ ∃ gap lexeme rest kind, text = gap ++ (lexeme ++ rest) ∧
      Text.Trivia (lexeme ++ rest) gap ∧ kind ≠ .eof ∧ Munched kind lexeme rest := by
  obtain ⟨gap, others, rfl, hgap, hskip⟩ := (skips 0 text).2
  have hbegins := begins_skipTrivia false 0 (gap ++ others)
  rw [hskip] at hbegins
  cases others with
  | nil =>
      left
      rwa [List.append_nil]
  | cons c others =>
      right
      have hsplit := List.take_append_drop (munch (c :: others)).2 (c :: others)
      refine ⟨gap, _, _, (munch (c :: others)).1, ?_, ?_, (munch_progress c others).1,
        munched_munch hbegins⟩
      · rw [hsplit]
      · rwa [hsplit]

/-- The scanner cuts off the longest tokens. -/
theorem munches_drain {count : Nat} (hcount : text.length ≤ count) :
    Token.Munches file offset text (TokenSource.drain count (⟨text, offset, file⟩ : Scanner)) := by
  induction count generalizing text offset with
  | zero =>
      obtain rfl := List.length_eq_zero_iff.mp (Nat.le_zero.mp hcount)
      rw [drain_finish .nil]
      exact .finish .nil
  | succ count ih =>
      rcases trivia_or_exists_munched text with hgap |
        ⟨gap, lexeme, rest, kind, rfl, hgap, hkind, hmunched⟩
      · rw [drain_finish hgap]
        exact .finish hgap
      · have hpos := hmunched.length_pos hkind
        rw [List.length_append, List.length_append] at hcount
        rw [drain_token hgap hkind hmunched]
        exact .token hgap hkind hmunched (ih (by omega))

/-- No other tokens lie in the text in this way. -/
theorem drain_of_munches (h : Token.Munches file offset text tokens) {count : Nat}
    (hcount : text.length ≤ count) :
    TokenSource.drain count (⟨text, offset, file⟩ : Scanner) = tokens := by
  induction h generalizing count with
  | finish hgap => exact drain_finish hgap count
  | @token offset gap text rest kind tokens hgap hkind hmunched _ ih =>
      have hpos := hmunched.length_pos hkind
      rw [List.length_append, List.length_append] at hcount
      obtain ⟨count, rfl⟩ : ∃ more, count = more + 1 := ⟨count - 1, by omega⟩
      rw [drain_token hgap hkind hmunched, ih (by omega)]

end Scanner

theorem Token.munches_iff {source : String} {file? : Option String} {tokens : List Token} :
    Munches (file?.getD "shell") 0 source.toList tokens ↔ tokens = tokenize source file? := by
  constructor
  · intro h
    exact (Scanner.drain_of_munches h (Nat.le_refl _)).symm
  · rintro rfl
    exact Scanner.munches_drain (Nat.le_refl _)

/-- Each token but the end is cut from the text at its span, and is munched before what comes
after it there. -/
theorem Token.Munches.exists_append {file : String} {offset : Nat} {text : List Char}
    {tokens : List Token} (h : Munches file offset text tokens) {token : Token}
    (hmem : token ∈ tokens) (hkind : token.kind ≠ .eof) :
    ∃ before rest, text = before ++ (token.text.toList ++ rest) ∧
      token.span = .ofRange file (offset + Text.byteSize before)
        (Text.byteSize token.text.toList) ∧
      Scanner.Munched token.kind token.text.toList rest := by
  induction h with
  | finish =>
      obtain rfl := List.mem_singleton.mp hmem
      exact absurd rfl hkind
  | @token offset gap lexeme rest kind tokens hgap _ hmunched _ ih =>
      rcases List.mem_cons.mp hmem with rfl | hmem
      · refine ⟨gap, rest, ?_, ?_, ?_⟩
        all_goals rw [String.toList_ofList]
        exact hmunched
      · obtain ⟨before, others, rfl, hspan, hmunched'⟩ := ih hmem
        refine ⟨gap ++ (lexeme ++ before), others, by simp only [List.append_assoc], ?_, hmunched'⟩
        rw [hspan]
        simp only [Text.byteSize_append, Nat.add_assoc]

theorem Token.Munches.of_eof {file : String} {offset : Nat} {text : List Char}
    {tokens : List Token} (h : Munches file offset text tokens) {token : Token}
    (hmem : token ∈ tokens) (hkind : token.kind = .eof) :
    token = ⟨.eof, "", .ofRange file (offset + Text.byteSize text) 0⟩ := by
  induction h with
  | finish => exact List.mem_singleton.mp hmem
  | @token offset gap lexeme rest kind tokens _ hother _ _ ih =>
      rcases List.mem_cons.mp hmem with rfl | hmem
      · exact absurd hkind hother
      · simp only [Text.byteSize_append, ← Nat.add_assoc]
        exact ih hmem

/-- A token stands in a text behind the bytes before it, and the end behind all of them. -/
structure Token.StandsIn (source : List Char) (token : Token) (before rest : List Char) : Prop where
  split : source = before ++ (token.text.toList ++ rest)
  start : token.span.start.offset = (Text.byteSize before).toUInt32
  not_blank : ∀ c ∈ token.text.toList, Text.isBlank c = false
  word : token.kind ≠ .eof → token.text.toList ≠ []
  finish : token.kind = .eof → token.text.toList = [] ∧ rest = []

theorem Token.exists_standsIn {source : String} {file? : Option String} {token : Token}
    (hmem : token ∈ tokenize source file?) :
    ∃ before rest, token.StandsIn source.toList before rest := by
  have hmunches := munches_iff.mpr (Eq.refl (tokenize source file?))
  by_cases hkind : token.kind = .eof
  · obtain rfl := hmunches.of_eof hmem hkind
    exact ⟨source.toList, [], by simp, by simp, by simp, fun hword => absurd hkind hword, by simp⟩
  · obtain ⟨before, rest, hsource, hspan, hmunched⟩ := hmunches.exists_append hmem hkind
    exact ⟨before, rest, hsource, by simp [hspan], hmunched.not_isBlank hkind,
      fun _ => List.ne_nil_of_length_pos (hmunched.length_pos hkind),
      fun heof => absurd heof hkind⟩

/-- The tokens of a text are as long as they can be, and of the kinds that their texts ask for.
They are the only ones that tile it with blanks and comments between them, and are. -/
theorem tokenize_munches (source : String) (file? : Option String) :
    (∀ token ∈ tokenize source file?, token.kind ≠ .eof →
      ∃ before rest, source.toList = before ++ (token.text.toList ++ rest) ∧
        token.span = .ofRange (file?.getD "shell") (Text.byteSize before)
          (Text.byteSize token.text.toList) ∧
        Scanner.Munched token.kind token.text.toList rest) ∧
    ∀ tokens, Token.Munches (file?.getD "shell") 0 source.toList tokens ↔
      tokens = tokenize source file? := by
  refine ⟨fun token hmem hkind => ?_, fun tokens => Token.munches_iff⟩
  have hmunches := Token.munches_iff.mpr (Eq.refl (tokenize source file?))
  obtain ⟨before, rest, hsource, hspan, hmunched⟩ := hmunches.exists_append hmem hkind
  rw [Nat.zero_add] at hspan
  exact ⟨before, rest, hsource, hspan, hmunched⟩

end MonkeySyntax
