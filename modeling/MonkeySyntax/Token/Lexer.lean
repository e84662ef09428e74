import MonkeySyntax.Token.Scanner

namespace MonkeySyntax

/-! A scanner that can be moved to any byte of its text.  Off the boundaries of
characters, and beyond the end, there is no text to read. -/

/-- What a token, or what lies between tokens, may look like. -/
inductive Pattern where
  | blanks
  | comment
  | word
  | number
  | symbol (sign : Symbol)
deriving DecidableEq, Repr

namespace Pattern

/-- A character, and those after it up to the first that cannot go on with it. -/
def run? (starts goesOn : Char → Bool) : List Char → Option (List Char)
  | [] => none
  | c :: rest => if starts c then some (c :: rest.takeWhile goesOn) else none

theorem run?_cons (starts goesOn : Char → Bool) (c : Char) (rest : List Char) :
    run? starts goesOn (c :: rest) =
      if starts c then some (c :: rest.takeWhile goesOn) else none := rfl

theorem ne_nil_of_run? {starts goesOn : Char → Bool} {text left : List Char}
    (h : run? starts goesOn text = some left) : left ≠ [] := by
  cases text with
  | nil => cases h
  | cons c rest =>
      obtain ⟨-, hleft⟩ := Option.ite_none_right_eq_some.mp h
      exact Option.some.inj hleft ▸ List.cons_ne_nil c _

/-- What the pattern takes in at the start of a text. -/
def match? : Pattern → List Char → Option (List Char)
  | .blanks, text => run? Text.isBlank Text.isBlank text
  | .comment, '/' :: '/' :: rest => some ('/' :: '/' :: rest.takeWhile (· != '\n'))
  | .comment, _ => none
  | .word, text => run? Scanner.isNameStart Scanner.isNamePart text
  | .number, text => run? Char.isDigit Scanner.isNamePart text
  | .symbol sign, text => if sign.pattern.isPrefixOf text then some sign.pattern else none

/-- The first pattern that takes something in counts. -/
def all : List Pattern :=
  [.blanks, .comment, .word, .number] ++ Symbol.all.map symbol

theorem ne_nil_of_match? {pattern : Pattern} (hpattern : pattern ∈ [.blanks, .comment])
    {text left : List Char} (h : pattern.match? text = some left) : left ≠ [] := by
  simp only [List.mem_cons, List.not_mem_nil, or_false] at hpattern
  rcases hpattern with rfl | rfl
  · exact ne_nil_of_run? h
  · unfold match? at h
    split at h
    case h_2 => exact Option.some.inj h ▸ List.cons_ne_nil '/' _
    all_goals contradiction

def find? (text : List Char) : Option Pattern :=
  all.find? fun pattern => (pattern.match? text).isSome

theorem isSome_of_find? {text : List Char} {pattern : Pattern} (h : find? text = some pattern) :
    (pattern.match? text).isSome :=
  @List.find?_some _ (fun pattern : Pattern => (pattern.match? text).isSome) _ _ h

end Pattern

structure Lexer where
  source : List Char
  offset : Nat
  file : String
deriving DecidableEq, Repr

namespace Lexer

def ofSource (source : String) (file? : Option String) : Lexer :=
  ⟨source.toList, 0, file?.getD "shell"⟩

def advance (lexer : Lexer) (size : Nat) : Lexer :=
  { lexer with offset := lexer.offset + size }

def atEnd (lexer : Lexer) : Bool :=
  Text.byteSize lexer.source ≤ lexer.offset

def remainder? (lexer : Lexer) : Option (List Char) :=
  Text.dropBytes? lexer.offset lexer.source

def spanOf (lexer : Lexer) (size : Nat) : Span :=
  .ofRange lexer.file lexer.offset size

/-- Hands out a token of the next so many bytes, and moves past them. -/
def emit (lexer : Lexer) (kind : Kind) (text : String) (size : Nat) : Token × Lexer :=
  (⟨kind, text, lexer.spanOf size⟩, lexer.advance size)

/-- How many bytes a pattern takes in. -/
def matchedSize? (lexer : Lexer) (pattern : Pattern) : Option Nat :=
  lexer.remainder?.map fun rest => Text.byteSize ((pattern.match? rest).getD [])

/-- The next so many bytes. -/
def slice? (lexer : Lexer) (size : Nat) : Option String := do
  let rest ← lexer.remainder?
  let text ← Text.takeBytes? size rest
  return String.ofList text

/-- Hands out what a pattern takes in. -/
def emitMatch? (lexer : Lexer) (pattern : Pattern) (kindOf : String → Kind) :
    Option (Option Token × Lexer) := do
  let size ← lexer.matchedSize? pattern
  let text ← lexer.slice? size
  let (token, lexer) := lexer.emit (kindOf text) text size
  return (some token, lexer)

/-- What is done where a pattern has been found: nothing is handed out for what lies between
tokens. -/
def handle? (lexer : Lexer) : Pattern → Option (Option Token × Lexer)
  | .symbol sign =>
    let (token, lexer) := lexer.emit sign.kind sign.literal sign.literal.utf8ByteSize
    some (some token, lexer)
  | .word => lexer.emitMatch? .word .ofWord
  | .number => lexer.emitMatch? .number fun _ => .integer
  | pattern => do
    let size ← lexer.matchedSize? pattern
    return (none, lexer.advance size)

/-- Hands out a character that no pattern takes in. -/
def emitIllegal? (lexer : Lexer) : Option (Token × Lexer) := do
  let rest ← lexer.remainder?
  let c := rest.head?.getD '\x00'
  return lexer.emit .illegal c.toString c.utf8Size

/-- Skips something, or hands out a token; at the end and beyond it, the end at the present
offset. -/
def step? (lexer : Lexer) : Option (Option Token × Lexer) :=
  if lexer.atEnd then
    some (some ⟨.eof, "", lexer.spanOf 0⟩, lexer)
  else do
    let rest ← lexer.remainder?
    match Pattern.find? rest with
    | some pattern => lexer.handle? pattern
    | none =>
      let (token, lexer) ← lexer.emitIllegal?
      return (some token, lexer)

/-! Whatever is skipped has one byte at least. -/

theorem handle?_skips {lexer lexer' : Lexer} {pattern : Pattern}
    (h : lexer.handle? pattern = some (none, lexer')) : pattern ∈ [.blanks, .comment] ∧
      ∃ size, lexer.matchedSize? pattern = some size ∧ lexer' = lexer.advance size := by
  cases pattern with
  | symbol sign => simp [handle?] at h
  | word | number => simp [handle?, emitMatch?, Option.bind_eq_some_iff] at h
  | blanks | comment =>
      obtain ⟨size, hsize, hskip⟩ := Option.bind_eq_some_iff.mp h
      cases hskip
      exact ⟨by decide, size, hsize, rfl⟩

theorem step?_skips {lexer lexer' : Lexer} (h : lexer.step? = some (none, lexer')) :
    Text.byteSize lexer'.source - lexer'.offset < Text.byteSize lexer.source - lexer.offset := by
  rw [step?] at h
  split at h
  case isTrue => cases h
  case isFalse hend =>
    have hlt : lexer.offset < Text.byteSize lexer.source := by simpa [atEnd] using hend
    obtain ⟨rest, hrest, h⟩ := Option.bind_eq_some_iff.mp h
    split at h
    · next pattern hfind =>
        obtain ⟨hpattern, size, hsize, rfl⟩ := handle?_skips h
        obtain ⟨text, htext⟩ := Option.isSome_iff_exists.mp (Pattern.isSome_of_find? hfind)
        rw [matchedSize?, hrest, Option.map_some, htext, Option.getD_some] at hsize
        have hne := Pattern.ne_nil_of_match? hpattern htext
        have hsize' := Option.some.inj hsize
        have hpos := Nat.pos_of_ne_zero (mt Text.byteSize_eq_zero_iff.mp hne)
        dsimp only [advance]
        omega
    · simp [Option.bind_eq_some_iff] at h

/-- The next token. -/
def next? (lexer : Lexer) : Option (Token × Lexer) :=
  match h : lexer.step? with
  | none => none
  | some (some token, lexer) => some (token, lexer)
  | some (none, lexer) =>
    have := step?_skips h
    next? lexer
termination_by Text.byteSize lexer.source - lexer.offset

theorem next?_of_token {lexer lexer' : Lexer} {token : Token}
    (h : lexer.step? = some (some token, lexer')) : lexer.next? = some (token, lexer') := by
  rw [next?]
  split <;> simp_all

theorem next?_of_skip {lexer lexer' : Lexer} (h : lexer.step? = some (none, lexer')) :
    lexer.next? = lexer'.next? := by
  rw [next?]
  split <;> simp_all

end Lexer

end MonkeySyntax
