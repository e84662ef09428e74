import MonkeySyntax.Text
import MonkeySyntax.Token.Source

namespace MonkeySyntax

/-! Reading tokens from a source text. -/

/-- A text that is a token by itself: as it is looked for, and as the token has it. -/
structure Symbol where
  pattern : List Char
  kind : Kind
  literal : String
deriving DecidableEq, Repr

namespace Symbol

/-- The first that is found counts, so that two characters come before the first of them. -/
def all : List Symbol :=
  [⟨['{'], .openCurly, "\x7b"⟩, ⟨['}'], .closeCurly, "\x7d"⟩, ⟨['('], .openParen, "("⟩,
    ⟨[')'], .closeParen, ")"⟩, ⟨['=', '='], .equals, "=="⟩, ⟨['!', '='], .notEquals, "!="⟩,
    ⟨['!'], .not, "!"⟩, ⟨['='], .assignment, "="⟩, ⟨['<'], .less, "<"⟩, ⟨['>'], .greater, ">"⟩,
    ⟨[';'], .semicolon, ";"⟩, ⟨[','], .comma, ","⟩, ⟨['+'], .plus, "+"⟩, ⟨['-'], .dash, "-"⟩,
    ⟨['/'], .slash, "/"⟩, ⟨['*'], .star, "*"⟩]

/-- A token has the text that it was looked for by. -/
theorem literal_eq {symbol : Symbol} (h : symbol ∈ all) :
    symbol.literal = String.ofList symbol.pattern := by
  revert symbol
  decide

def find? (text : List Char) : Option Symbol :=
  all.find? fun symbol => symbol.pattern.isPrefixOf text

theorem mem_of_find? {text : List Char} {symbol : Symbol} (h : find? text = some symbol) :
    symbol ∈ all :=
  List.mem_of_find?_eq_some h

/-- What has been found lies at the start of the text. -/
theorem exists_append_of_find? {text : List Char} {symbol : Symbol}
    (h : find? text = some symbol) : ∃ rest, text = symbol.pattern ++ rest := by
  have hprefix := List.find?_some h
  obtain ⟨rest, hrest⟩ := List.isPrefixOf_iff_prefix.mp hprefix
  exact ⟨rest, hrest.symm⟩

end Symbol

/-- What is left of a source text, the byte offset at which it starts, and the
name of the file. -/
structure Scanner where
  rest : List Char
  offset : Nat
  file : String
deriving DecidableEq, Repr, Inhabited

namespace Scanner

/-- A text that comes from no file is named for the prompt it was typed at. -/
def ofSource (source : String) (file? : Option String) : Scanner :=
  ⟨source.toList, 0, file?.getD "shell"⟩

def isNameStart (c : Char) : Bool :=
  c.isAlpha || c == '_'

def isNamePart (c : Char) : Bool :=
  c.isAlphanum || c == '_'

/-! Blanks and comments.  A comment runs up to the next newline. -/

def skipTrivia (inComment : Bool) (offset : Nat) : List Char → Nat × List Char
  | [] => (offset, [])
  | c :: rest =>
    if inComment then
      skipTrivia (c != '\n') (offset + c.utf8Size) rest
    else if Text.isBlank c then
      skipTrivia false (offset + c.utf8Size) rest
    else if c = '/' ∧ rest.head? = some '/' then
      skipTrivia true (offset + c.utf8Size) rest
    else
      (offset, c :: rest)

/-- The operator or delimiter at the start of a text, and the number of its
characters. -/
def symbol (c : Char) (rest : List Char) : Kind × Nat :=
  match Symbol.find? (c :: rest) with
  | some symbol => (symbol.kind, symbol.pattern.length)
  | none => (.illegal, 1)

/-- The kind of the token at the start of a text that starts with neither
blanks nor a comment, and the number of its characters. -/
def munch : List Char → Kind × Nat
  | [] => (.eof, 0)
  | c :: rest =>
    if isNameStart c then
      let word := c :: rest.takeWhile isNamePart
      (.ofWord (String.ofList word), word.length)
    else if c.isDigit then
      (.integer, (rest.takeWhile isNamePart).length + 1)
    else
      symbol c rest

/-- Cuts off the token at the start of the text. -/
def cut (file : String) (offset : Nat) (text : List Char) : Token × Scanner :=
  let (kind, count) := munch text
  let lexeme := text.take count
  let size := Text.byteSize lexeme
  (⟨kind, String.ofList lexeme, .ofRange file offset size⟩,
    ⟨text.drop count, offset + size, file⟩)

def next (scanner : Scanner) : Token × Scanner :=
  let (offset, text) := skipTrivia false scanner.offset scanner.rest
  cut scanner.file offset text

def notice (token : Token) : Option Journal.Entry :=
  match token.kind, token.text.toList with
  | .illegal, [c] => some (.illegalCharacter c token.span.start.offset.toNat)
  | _, _ => none

instance : TokenSource Scanner where
  next := next
  remaining scanner := scanner.rest.length
  notice _ token := notice token

end Scanner

def tokenize (source : String) (file? : Option String) : List Token :=
  TokenSource.tokens (Scanner.ofSource source file?)

end MonkeySyntax
