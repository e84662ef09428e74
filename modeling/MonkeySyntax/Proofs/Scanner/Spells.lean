import MonkeySyntax.Proofs.Scanner.Lexeme

namespace MonkeySyntax

/-! Texts that are read as certain tokens, wherever they stand. -/

namespace TokenSource

variable {σ : Type} [TokenSource σ]

/-- The first source hands out the tokens, of which none is an end, and then what the
second one does. -/
def Leads (source : σ) : List Token → σ → Prop
  | [], source' => next source = next source'
  | token :: rest, source' =>
    token.kind ≠ .eof ∧ (next source).1 = token ∧ Leads (next source).2 rest source'

variable {source source' source'' : σ} {tokens tokens' : List Token} {finish : Token}

theorem Leads.trans (h : Leads source tokens source') (h' : Leads source' tokens' source'') :
    Leads source (tokens ++ tokens') source'' := by
  induction tokens generalizing source with
  | nil =>
      have hnext : next source = next source' := h
      cases tokens' with
      | nil => exact hnext.trans h'
      | cons token rest =>
          refine ⟨h'.1, ?_, ?_⟩
          · rw [hnext]
            exact h'.2.1
          · rw [hnext]
            exact h'.2.2
  | cons token rest ih => exact ⟨h.1, h.2.1, ih h.2.2⟩

theorem Leads.yields (h : Leads source tokens source') (h' : Yields source' [] finish) :
    Yields source tokens finish := by
  induction tokens generalizing source with
  | nil =>
      have hnext : next source = next source' := h
      refine ⟨h'.1, ?_⟩
      rw [hnext]
      exact h'.2
  | cons token rest ih => exact ⟨h.1, h.2.1, ih h.2.2⟩

end TokenSource

namespace Scanner

open TokenSource

/-- The text is read as tokens of a certain form before any text that may follow it. -/
def Spells (text : List Char) (form : List Token → Prop) (follows : List Char → Prop) : Prop :=
  ∀ (rest : List Char) (offset : Nat) (file : String), follows rest →
    ∃ tokens offset', Leads (⟨text ++ rest, offset, file⟩ : Scanner) tokens
      ⟨rest, offset', file⟩ ∧ form tokens

def Anything (_ : List Char) : Prop := True

variable {text text' : List Char} {form form' : List Token → Prop}
  {follows follows' : List Char → Prop}

theorem Spells.mono (h : Spells text form follows)
    (hform : ∀ tokens, form tokens → form' tokens)
    (hfollows : ∀ rest, follows' rest → follows rest) : Spells text form' follows' := by
  intro rest offset file hrest
  obtain ⟨tokens, offset', hleads, htokens⟩ := h rest offset file (hfollows rest hrest)
  exact ⟨tokens, offset', hleads, hform tokens htokens⟩

theorem Spells.imp (h : Spells text form follows)
    (hform : ∀ tokens, form tokens → form' tokens) : Spells text form' follows :=
  h.mono hform fun _ hrest => hrest

theorem Spells.anywhere (h : Spells text form Anything)
    (hform : ∀ tokens, form tokens → form' tokens) : Spells text form' follows :=
  h.mono hform fun _ _ => trivial

/-- What two texts are read as, one after the other. -/
def Followed (form form' : List Token → Prop) (tokens : List Token) : Prop :=
  ∃ firsts others, tokens = firsts ++ others ∧ form firsts ∧ form' others

theorem Spells.append (h : Spells text form follows) (h' : Spells text' form' follows')
    (hfollows : ∀ rest, follows' rest → follows (text' ++ rest)) :
    Spells (text ++ text') (Followed form form') follows' := by
  intro rest offset file hrest
  obtain ⟨firsts, middle, hfirst, hfirsts⟩ := h (text' ++ rest) offset file (hfollows rest hrest)
  obtain ⟨others, last, hlast, hothers⟩ := h' rest middle file hrest
  rw [List.append_assoc]
  exact ⟨firsts ++ others, last, hfirst.trans hlast, firsts, others, rfl, hfirsts, hothers⟩

theorem spells_nil : Spells [] (· = []) Anything :=
  fun _ offset _ _ => ⟨[], offset, rfl, rfl⟩

theorem spells_space : Spells " ".toList (· = []) Anything :=
  fun _ offset _ _ => ⟨[], offset + 1, rfl, rfl⟩

theorem Spells.after_space (h : Spells text form follows) :
    Spells (" ".toList ++ text) form follows := by
  apply (spells_space.append h fun _ _ => trivial).imp
  intro _ hform
  obtain ⟨_, tokens, rfl, rfl, htokens⟩ := hform
  exact htokens

theorem Spells.before_space (h : Spells text form follows)
    (hspace : ∀ rest, follows (' ' :: rest)) : Spells (text ++ " ".toList) form Anything := by
  apply (h.append spells_space fun rest _ => hspace rest).imp
  intro _ hform
  obtain ⟨tokens, _, rfl, htokens, rfl⟩ := hform
  rwa [List.append_nil]

/-- One token of the kind and the text. -/
def Single (kind : Kind) (text : List Char) (tokens : List Token) : Prop :=
  ∃ token : Token, tokens = [token] ∧ token.kind = kind ∧ token.text = String.ofList text

theorem Lexeme.spells {kind : Kind} (h : Lexeme kind text) (hillegal : kind ≠ .illegal)
    (heof : kind ≠ .eof) : Spells text (Single kind text) (Follows · kind) := by
  intro rest offset file hrest
  have hmunch := h.munch hillegal hrest
  have hskip := skipTrivia_of_begins (h.begins hillegal hrest) offset
  have hnext : next ⟨text ++ rest, offset, file⟩ =
      (⟨kind, String.ofList text, .ofRange file offset (Text.byteSize text)⟩,
        ⟨rest, offset + Text.byteSize text, file⟩) := by
    simp only [next, hskip, cut, hmunch, List.take_left, List.drop_left]
  refine ⟨[⟨kind, String.ofList text, .ofRange file offset (Text.byteSize text)⟩],
    offset + Text.byteSize text, ⟨heof, congrArg Prod.fst hnext, ?_⟩, _, rfl, rfl, rfl⟩
  exact congrArg (fun result => next result.2) hnext

end Scanner

end MonkeySyntax
