import MonkeySyntax.Proofs.Parser.Mirror
import MonkeySyntax.Token.Scanner.Progress

namespace MonkeySyntax

/-! What is read depends on the tokens that are handed out, and not on where they come from:
they may be cut from a text one by one, or all of them ahead of time. -/

variable {σ τ : Type} [TokenSource σ] [TokenSource τ]

theorem TokenSource.take_next {source : σ} {source' : τ}
    (h : ∀ count, take count source = take count source') :
    (next source).1 = (next source').1 ∧
      ∀ count, take count (next source).2 = take count (next source').2 :=
  ⟨(List.cons.inj (h 1)).1, fun count => (List.cons.inj (h (count + 1))).2⟩

theorem Cursor.Opens.lookahead_eq {cursor : Cursor σ} {cursor' : Cursor τ} {source : σ}
    {source' : τ} (hopens : cursor.Opens source) (hopens' : cursor'.Opens source')
    (h : ∀ count, TokenSource.take count source = TokenSource.take count source') (count : Nat) :
    cursor.lookahead count = cursor'.lookahead count := by
  obtain ⟨hfirst, hrest⟩ := TokenSource.take_next h
  induction count generalizing cursor cursor' source source' with
  | zero => exact hopens.current.trans (hfirst.trans hopens'.current.symm)
  | succ count ih =>
      obtain ⟨hfirst', hrest'⟩ := TokenSource.take_next hrest
      exact ih hopens.advance hopens'.advance hrest hfirst' hrest'

/-- A text is read in the same way when it has been cut into tokens before, and whatever comes
after its end then is never looked at.  Any two sources that hand out the same tokens for ever
are read as the same program, with the same faults. -/
theorem parse_eq_of_stream :
    (∀ (source : String) (file? : Option String) (others : List Token),
      parse (Scanner.ofSource source file?) =
        parse (TokenQueue.ofTokens (tokenize source file? ++ others))) ∧
      ∀ {σ τ : Type} [TokenSource σ] [TokenSource τ] [BoundedTokenSource σ]
        [BoundedTokenSource τ] (source : σ) (source' : τ),
        (∀ count, TokenSource.take count source = TokenSource.take count source') →
          parse source = parse source' := by
  constructor
  · intro source file? others
    obtain ⟨tokens, finish, hyields⟩ := TokenSource.exists_yields (Scanner.ofSource source file?)
    have htokens : tokenize source file? = tokens ++ [finish] := hyields.tokens_eq
    have hqueue : TokenSource.Yields (TokenQueue.ofTokens (tokenize source file? ++ others)) tokens
        finish := by
      rw [htokens, List.append_assoc]
      exact TokenQueue.yields_append rfl hyields.kind_finish hyields.ne_eof others
    exact parse_eq_of_mirrors
      (.of_same (Cursor.holds_ofSource hyields) (Cursor.holds_ofSource hqueue) rfl)
  · intro σ τ _ _ _ _ source source' h
    exact parse_eq_of_mirrors
      ⟨(Cursor.opens_ofSource source).lookahead_eq (Cursor.opens_ofSource source') h, rfl⟩

/-- A call left open before a comment, with a parenthesis listed after the end that would have
closed it; and a scanner beside the list of what it cuts. -/
theorem parse_eq_of_stream_openCall :
    let others : List Token := [.unplaced .closeParen ")"]
    let scanner : Scanner := ⟨['('], 0, "shell"⟩
    let queue := TokenQueue.ofTokens (TokenSource.tokens scanner ++ others)
    parse (Scanner.ofSource "f( // open" none) =
        parse (TokenQueue.ofTokens (tokenize "f( // open" none ++ others)) ∧
      (∀ count, TokenSource.take count scanner = TokenSource.take count queue) ∧
      parse scanner = parse queue := by
  intro others scanner queue
  have hended (count : Nat) : TokenSource.take count (⟨[], 1, "shell"⟩ : Scanner) =
      TokenSource.take count (⟨[], .endAt ⟨1, "shell"⟩, rfl⟩ : TokenQueue) := by
    induction count with
    | zero => rfl
    | succ count ih => exact congrArg (List.cons _) ih
  have htake : ∀ count, TokenSource.take count scanner = TokenSource.take count queue
    | 0 => rfl
    | 1 => rfl
    | count + 2 => congrArg (fun rest => _ :: _ :: rest) (hended count)
  exact ⟨parse_eq_of_stream.1 _ none others, htake, parse_eq_of_stream.2 scanner queue htake⟩

example : (parse (Scanner.ofSource "f( // open" none)).2.length = 1 := by decide +kernel

end MonkeySyntax
