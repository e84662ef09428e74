import MonkeySyntax.Proofs.Cursor.Ahead
import MonkeySyntax.Token.Scanner.Progress

namespace MonkeySyntax.Scanner

/-! The texts of tokens, and what may follow them without being taken in. -/

def symbols : List (Kind × List Char) :=
  Symbol.all.map fun symbol => (symbol.kind, symbol.pattern)

inductive Lexeme : Kind → List Char → Prop
  | word {c : Char} {parts : List Char} (hstart : isNameStart c = true)
      (hparts : ∀ part ∈ parts, isNamePart part = true) :
      Lexeme (.ofWord (String.ofList (c :: parts))) (c :: parts)
  | number {c : Char} {parts : List Char} (hdigit : c.isDigit = true)
      (hparts : ∀ part ∈ parts, isNamePart part = true) : Lexeme .integer (c :: parts)
  | symbol {kind : Kind} {text : List Char} (h : (kind, text) ∈ symbols) : Lexeme kind text
  | illegal (c : Char) : Lexeme .illegal [c]

/-- Unless there is none, the symbol at the start of a text is one of the table. -/
theorem symbol_cases (c : Char) (rest : List Char) :
    symbol c rest = (.illegal, 1) ∨ ∃ kind text others, (kind, text) ∈ symbols ∧
      c :: rest = text ++ others ∧ symbol c rest = (kind, text.length) := by
  rw [symbol]
  cases hfind : Symbol.find? (c :: rest) with
  | none => exact .inl rfl
  | some symbol =>
      obtain ⟨others, htext⟩ := Symbol.exists_append_of_find? hfind
      exact .inr ⟨_, _, others, List.mem_map_of_mem (Symbol.mem_of_find? hfind), htext, rfl⟩

theorem lexeme_symbol (c : Char) (rest : List Char) :
    Lexeme (symbol c rest).1 ((c :: rest).take (symbol c rest).2) := by
  rcases symbol_cases c rest with hillegal | ⟨kind, text, others, hmem, htext, hsymbol⟩
  · rw [hillegal]
    exact .illegal c
  · rw [hsymbol, htext, List.take_left]
    exact .symbol hmem

theorem lexeme_munch (c : Char) (rest : List Char) :
    Lexeme (munch (c :: rest)).1 ((c :: rest).take (munch (c :: rest)).2) := by
  have htake := List.prefix_iff_eq_take.mp (List.takeWhile_prefix isNamePart (l := rest))
  have hparts : ∀ part ∈ rest.takeWhile isNamePart, isNamePart part = true := fun part hmem =>
    List.all_eq_true.mp List.all_takeWhile part hmem
  rw [munch]
  split
  · rename_i hstart
    dsimp only
    rw [List.length_cons, List.take_succ_cons, ← htake]
    exact .word hstart hparts
  · split
    · rename_i hdigit
      dsimp only
      rw [List.take_succ_cons, ← htake]
      exact .number hdigit hparts
    · exact lexeme_symbol c rest

/-- What may come after a token of the kind without becoming part of it. -/
def Follows (rest : List Char) : Kind → Prop
  | .assignment | .not => rest.head? ≠ some '='
  | .slash => rest.head? ≠ some '/'
  | .equals | .notEquals | .openCurly | .closeCurly | .openParen | .closeParen | .less
  | .greater | .semicolon | .comma | .plus | .dash | .star => True
  | _ => ∀ c ∈ rest.head?, isNamePart c = false

theorem follows_ofWord (rest : List Char) (word : String) :
    Follows rest (.ofWord word) ↔ ∀ c ∈ rest.head?, isNamePart c = false := by
  unfold Kind.ofWord Kind.reserved?
  split <;> rfl

/-- What may come after any token. -/
def Delimits (rest : List Char) : Prop :=
  ∀ c ∈ rest.head?, c ∈ [' ', '(', ')', '{', '}', ';', ',']

theorem Delimits.follows {rest : List Char} (h : Delimits rest) (kind : Kind) :
    Follows rest kind := by
  have hne (c : Char) (hc : c ∉ [' ', '(', ')', '{', '}', ';', ',']) :
      rest.head? ≠ some c := fun hhead => hc (h c hhead)
  have hparts : ∀ c ∈ rest.head?, isNamePart c = false := fun c hc => by
    have hmem := h c hc
    simp only [List.mem_cons, List.not_mem_nil, or_false] at hmem
    rcases hmem with rfl | rfl | rfl | rfl | rfl | rfl | rfl <;> decide
  cases kind with
  | assignment | not => exact hne '=' (by decide)
  | slash => exact hne '/' (by decide)
  | eof | illegal | integer | identifier | letWord | fnWord | returnWord | ifWord | elseWord
  | trueWord | falseWord => exact hparts
  | _ => trivial

theorem takeWhile_parts {parts rest : List Char}
    (hparts : ∀ part ∈ parts, isNamePart part = true)
    (hrest : ∀ c ∈ rest.head?, isNamePart c = false) :
    (parts ++ rest).takeWhile isNamePart = parts := by
  rw [List.takeWhile_append_of_pos hparts]
  cases rest with
  | nil => simp
  | cons c rest => simp [hrest c rfl]

theorem symbol_not {rest : List Char} (h : rest.head? ≠ some '=') :
    symbol '!' rest = (.not, 1) := by
  cases rest with
  | nil => rfl
  | cons c rest =>
      have hne : '=' ≠ c := fun heq => h (heq ▸ rfl)
      simp [symbol, Symbol.find?, Symbol.all, List.isPrefixOf, hne]

theorem symbol_assignment {rest : List Char} (h : rest.head? ≠ some '=') :
    symbol '=' rest = (.assignment, 1) := by
  cases rest with
  | nil => rfl
  | cons c rest =>
      have hne : '=' ≠ c := fun heq => h (heq ▸ rfl)
      simp [symbol, Symbol.find?, Symbol.all, List.isPrefixOf, hne]

theorem munch_symbol {kind : Kind} {text rest : List Char} (h : (kind, text) ∈ symbols)
    (hrest : Follows rest kind) : munch (text ++ rest) = (kind, text.length) := by
  simp only [symbols, Symbol.all, List.map_cons, List.map_nil, List.mem_cons, Prod.mk.injEq,
    List.not_mem_nil, or_false] at h
  rcases h with ⟨rfl, rfl⟩ | ⟨rfl, rfl⟩ | ⟨rfl, rfl⟩ | ⟨rfl, rfl⟩ | ⟨rfl, rfl⟩ | ⟨rfl, rfl⟩ |
    ⟨rfl, rfl⟩ | ⟨rfl, rfl⟩ | ⟨rfl, rfl⟩ | ⟨rfl, rfl⟩ | ⟨rfl, rfl⟩ | ⟨rfl, rfl⟩ | ⟨rfl, rfl⟩ |
    ⟨rfl, rfl⟩ | ⟨rfl, rfl⟩ | ⟨rfl, rfl⟩
  all_goals first
    | rfl
    | exact symbol_not hrest
    | exact symbol_assignment hrest

/-- A text that starts with neither blanks nor a comment. -/
def Begins : List Char → Prop
  | [] => True
  | c :: rest => Text.isBlank c = false ∧ ¬ (c = '/' ∧ rest.head? = some '/')

theorem skipTrivia_of_begins {text : List Char} (h : Begins text) (offset : Nat) :
    skipTrivia false offset text = (offset, text) := by
  cases text with
  | nil => rfl
  | cons c rest =>
      rw [skipTrivia, if_neg (by decide), if_neg (by simp [h.1]), if_neg h.2]

theorem begins_symbol {kind : Kind} {text rest : List Char} (h : (kind, text) ∈ symbols)
    (hrest : Follows rest kind) : Begins (text ++ rest) := by
  simp only [symbols, Symbol.all, List.map_cons, List.map_nil, List.mem_cons, Prod.mk.injEq,
    List.not_mem_nil, or_false] at h
  rcases h with ⟨rfl, rfl⟩ | ⟨rfl, rfl⟩ | ⟨rfl, rfl⟩ | ⟨rfl, rfl⟩ | ⟨rfl, rfl⟩ | ⟨rfl, rfl⟩ |
    ⟨rfl, rfl⟩ | ⟨rfl, rfl⟩ | ⟨rfl, rfl⟩ | ⟨rfl, rfl⟩ | ⟨rfl, rfl⟩ | ⟨rfl, rfl⟩ | ⟨rfl, rfl⟩ |
    ⟨rfl, rfl⟩ | ⟨rfl, rfl⟩ | ⟨rfl, rfl⟩
  all_goals first
    | exact ⟨rfl, fun hcomment => absurd hcomment.1 (by decide)⟩
    | exact ⟨rfl, fun hcomment => hrest hcomment.2⟩

/-! Blanks lie before and behind the characters of names. -/

theorem toNat_of_isAlpha {c : Char} (h : c.isAlpha = true) :
    (65 ≤ c.toNat ∧ c.toNat ≤ 90) ∨ (97 ≤ c.toNat ∧ c.toNat ≤ 122) := by
  delta Char.isAlpha Char.isUpper Char.isLower at h
  simp only [Bool.or_eq_true, Bool.and_eq_true, decide_eq_true_eq, UInt32.le_iff_toNat_le,
    ge_iff_le] at h
  exact h

theorem toNat_of_isDigit {c : Char} (h : c.isDigit = true) :
    48 ≤ c.toNat ∧ c.toNat ≤ 57 := by
  simp only [Char.isDigit, Bool.and_eq_true, decide_eq_true_eq, UInt32.le_iff_toNat_le,
    ge_iff_le] at h
  exact h

theorem toNat_of_isNamePart {c : Char} (h : isNamePart c = true) :
    48 ≤ c.toNat ∧ c.toNat ≤ 122 := by
  simp only [isNamePart, Char.isAlphanum, Bool.or_eq_true, beq_iff_eq] at h
  obtain (halpha | hdigit) | rfl := h
  · have hrange := toNat_of_isAlpha halpha
    omega
  · have hrange := toNat_of_isDigit hdigit
    omega
  · decide

theorem toNat_of_isBlank {c : Char} (h : Text.isBlank c = true) :
    c.toNat ≤ 32 ∨ 133 ≤ c.toNat := by
  simp only [Text.isBlank, Bool.or_eq_true, Bool.and_eq_true, decide_eq_true_eq, beq_iff_eq,
    Char.le_def, UInt32.le_iff_toNat_le, or_assoc] at h
  rcases h with h | rfl | rfl | rfl | rfl | h | rfl | rfl | rfl | rfl | rfl
  case inl =>
    change 9 ≤ c.toNat ∧ c.toNat ≤ 13 at h
    omega
  case inr.inr.inr.inr.inr.inl =>
    change 0x2000 ≤ c.toNat ∧ c.toNat ≤ 0x200a at h
    omega
  all_goals decide

theorem begins_of_isNamePart {c : Char} (h : isNamePart c = true) (rest : List Char) :
    Begins (c :: rest) := by
  have hpart := toNat_of_isNamePart h
  refine ⟨Bool.eq_false_iff.mpr fun hblank => ?_, fun hcomment => ?_⟩
  · have hrange := toNat_of_isBlank hblank
    omega
  · obtain ⟨rfl, -⟩ := hcomment
    exact absurd h (by decide)

theorem isNamePart_of_isNameStart {c : Char} (h : isNameStart c = true) :
    isNamePart c = true := by
  simp only [isNameStart, isNamePart, Char.isAlphanum, Bool.or_eq_true] at h ⊢
  exact h.imp_left .inl

theorem isNamePart_of_isDigit {c : Char} (h : c.isDigit = true) : isNamePart c = true := by
  simp only [isNamePart, Char.isAlphanum, Bool.or_eq_true]
  exact .inl (.inr h)

theorem not_isNameStart_of_isDigit {c : Char} (h : c.isDigit = true) :
    isNameStart c = false := by
  apply Bool.eq_false_iff.mpr
  intro hstart
  simp only [isNameStart, Bool.or_eq_true, beq_iff_eq] at hstart
  obtain halpha | rfl := hstart
  · have hdigits := toNat_of_isDigit h
    have hletters := toNat_of_isAlpha halpha
    omega
  · exact absurd h (by decide)

namespace Lexeme

variable {kind : Kind} {text rest : List Char}

theorem munch (h : Lexeme kind text) (hkind : kind ≠ .illegal) (hrest : Follows rest kind) :
    munch (text ++ rest) = (kind, text.length) := by
  cases h with
  | @word c parts hstart hparts =>
      rw [follows_ofWord] at hrest
      rw [List.cons_append, Scanner.munch, if_pos hstart, takeWhile_parts hparts hrest]
  | @number c parts hdigit hparts =>
      have hstart := not_isNameStart_of_isDigit hdigit
      rw [List.cons_append, Scanner.munch, if_neg (by simp [hstart]), if_pos hdigit,
        takeWhile_parts hparts hrest, List.length_cons]
  | symbol h => exact munch_symbol h hrest
  | illegal c => exact absurd rfl hkind

theorem begins (h : Lexeme kind text) (hkind : kind ≠ .illegal) (hrest : Follows rest kind) :
    Begins (text ++ rest) := by
  cases h with
  | word hstart _ => exact begins_of_isNamePart (isNamePart_of_isNameStart hstart) _
  | number hdigit _ => exact begins_of_isNamePart (isNamePart_of_isDigit hdigit) _
  | symbol h => exact begins_symbol h hrest
  | illegal c => exact absurd rfl hkind

/-- A symbol has one text. -/
theorem eq_of_mem_symbols {text' : List Char} (h : Lexeme kind text)
    (hmem : (kind, text') ∈ symbols) : text = text' := by
  cases h with
  | @word c parts _ _ =>
      unfold Kind.ofWord Kind.reserved? at hmem
      split at hmem <;> simp [symbols, Symbol.all] at hmem
  | number => simp [symbols, Symbol.all] at hmem
  | symbol h =>
      have hunique : ∀ entry ∈ symbols, ∀ entry' ∈ symbols, entry.1 = entry'.1 →
          entry.2 = entry'.2 := by decide
      exact hunique _ h _ hmem rfl
  | illegal c => simp [symbols, Symbol.all] at hmem

end Lexeme

theorem lexeme_next {scanner : Scanner} (h : (next scanner).1.kind ≠ .eof) :
    Lexeme (next scanner).1.kind (next scanner).1.text.toList := by
  unfold next at h ⊢
  generalize skipTrivia false scanner.offset scanner.rest = skipped at h ⊢
  obtain ⟨offset, text⟩ := skipped
  cases text with
  | nil => exact absurd rfl h
  | cons c rest =>
      simp only [cut, String.toList_ofList]
      exact lexeme_munch c rest

theorem lexeme_of_yields {scanner : Scanner} {tokens : List Token} {finish : Token}
    (h : TokenSource.Yields scanner tokens finish) :
    ∀ token ∈ tokens, Lexeme token.kind token.text.toList := by
  induction tokens generalizing scanner with
  | nil => simp
  | cons first rest ih =>
      obtain ⟨hkind, hfirst, hrest⟩ := h
      intro token hmem
      rcases List.mem_cons.mp hmem with rfl | hmem
      · rw [← hfirst] at hkind ⊢
        exact lexeme_next hkind
      · exact ih hrest token hmem

end MonkeySyntax.Scanner
