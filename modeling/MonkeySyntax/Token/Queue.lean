import MonkeySyntax.Token.Source

namespace MonkeySyntax

/-! Reading tokens from a list of them. -/

/-- The tokens that are still to be handed out, and the end that follows them. -/
structure TokenQueue where
  pending : List Token
  finish : Token
  kind_finish : finish.kind = .eof
deriving DecidableEq, Repr

namespace TokenQueue

/-- Unless the list holds an end of its own, the end lies where the last token
ends. -/
def ofTokens (tokens : List Token) : TokenQueue where
  pending := tokens
  finish :=
    .endAt <| match tokens.getLast? with
      | some last => last.span.stop
      | none => ⟨0, "shell"⟩
  kind_finish := rfl

/-- An end inside the list cuts off what follows it. -/
def next (queue : TokenQueue) : Token × TokenQueue :=
  match queue.pending with
  | [] => (queue.finish, queue)
  | token :: rest =>
    if h : token.kind = .eof then
      (token, ⟨[], token, h⟩)
    else
      (token, { queue with pending := rest })

instance : TokenSource TokenQueue where
  next := next
  remaining queue := queue.pending.length
  notice _ _ := none

theorem next_nil {finish : Token} {h : finish.kind = .eof} :
    next ⟨[], finish, h⟩ = (finish, ⟨[], finish, h⟩) := rfl

theorem next_cons {token finish : Token} {rest : List Token} {h : finish.kind = .eof}
    (hne : token.kind ≠ .eof) :
    next ⟨token :: rest, finish, h⟩ = (token, ⟨rest, finish, h⟩) := by
  simp [next, hne]

theorem next_cons_of_eof {token finish : Token} {rest : List Token} {h : finish.kind = .eof}
    (heof : token.kind = .eof) :
    next ⟨token :: rest, finish, h⟩ = (token, ⟨[], token, heof⟩) := by
  simp [next, heof]

instance : LawfulTokenSource TokenQueue where
  weight_next_add_remaining_le queue := by
    obtain ⟨pending, finish, hfinish⟩ := queue
    simp only [TokenSource.next, TokenSource.remaining]
    cases pending with
    | nil => simp [next_nil, Token.weight_of_eof hfinish]
    | cons token rest =>
        by_cases htoken : token.kind = .eof
        · simp [next_cons_of_eof htoken, Token.weight_of_eof htoken]
        · simp only [next_cons htoken, Token.weight_of_ne_eof htoken, List.length_cons]
          omega
  next_next queue h := by
    obtain ⟨pending, finish, hfinish⟩ := queue
    simp only [TokenSource.next] at h ⊢
    cases pending with
    | nil => rfl
    | cons token rest =>
        by_cases htoken : token.kind = .eof
        · simp [next_cons_of_eof htoken, next_nil]
        · simp [next_cons htoken, htoken] at h

end TokenQueue

end MonkeySyntax
