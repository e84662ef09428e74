import MonkeySyntax.Proofs.Parser.Mirror
import MonkeySyntax.Token.Scanner.Progress

namespace MonkeySyntax

/-! Blanks, comments and the name of the file make no difference to what is read.  They only
decide where the tokens lie, and each place in a tree or a diagnostic is that of a token. -/

namespace Token

/-- The tokens have the same index in the two lists. -/
def SameIndex (tokens tokens' : List Token) (token token' : Token) : Prop :=
  ∃ index : Nat, tokens[index]? = some token ∧ tokens'[index]? = some token'

variable {tokens tokens' : List Token} {token token' : Token}

theorem SameIndex.erase_eq (hindex : SameIndex tokens tokens' token token')
    (h : tokens.map erase = tokens'.map erase) : token.erase = token'.erase := by
  obtain ⟨index, htoken, htoken'⟩ := hindex
  have hget := congrArg (fun tokens => tokens[index]?) h
  simp only [List.getElem?_map, htoken, htoken', Option.map_some] at hget
  exact Option.some.inj hget

/-- Tokens with the same index are alike, if the lists differ in nothing but places. -/
def Likeness.ofIndex (h : tokens.map erase = tokens'.map erase) : Likeness where
  Holds := SameIndex tokens tokens'
  kind hindex := (erase_eq_iff.mp (hindex.erase_eq h)).1
  text hindex := (erase_eq_iff.mp (hindex.erase_eq h)).2

end Token

theorem Cursor.Mirrors.ofIndex {σ τ : Type} [TokenSource σ] [TokenSource τ] {cursor : Cursor σ}
    {cursor' : Cursor τ} {tokens tokens' : List Token} {finish finish' : Token}
    (hholds : cursor.Holds tokens finish) (hholds' : cursor'.Holds tokens' finish')
    (hdepth : cursor.depth = cursor'.depth)
    (h : (tokens ++ [finish]).map Token.erase = (tokens' ++ [finish']).map Token.erase) :
    cursor.Mirrors (.ofIndex h) cursor' := by
  have hlength := congrArg List.length h
  simp only [List.length_map, List.length_append, List.length_singleton,
    Nat.add_right_cancel_iff] at hlength
  refine ⟨fun count => ⟨min count tokens.length, hholds.getElem?_lookahead count, ?_⟩, hdepth⟩
  rw [hlength]
  exact hholds'.getElem?_lookahead count

/-- Texts that are cut into tokens of the same kinds and texts are read as the same program, but
for places, with the same faults.  The places in both trees and in both lists of diagnostics are
those of tokens with the same index. -/
theorem parse_mirrors_of_tokenize {source source' : String} {file? file?' : Option String}
    (h : (tokenize source file?).map Token.erase = (tokenize source' file?').map Token.erase) :
    let result := parse (Scanner.ofSource source file?)
    let result' := parse (Scanner.ofSource source' file?')
    let Related := Token.SameIndex (tokenize source file?) (tokenize source' file?')
    result.1.unplaced = result'.1.unplaced ∧ result.1.render = result'.1.render ∧
      result.2.length = result'.2.length ∧
      List.Forall₂ (fun diagnostic diagnostic' => diagnostic.fault = diagnostic'.fault ∧
        diagnostic.message = diagnostic'.message ∧
        ∃ token token', Related token token' ∧ diagnostic.position = token.span.start ∧
          diagnostic'.position = token'.span.start) result.2 result'.2 ∧
      result.1.Mirrors Related result'.1 := by
  intro result result' Related
  obtain ⟨tokens, finish, hyields⟩ := TokenSource.exists_yields (Scanner.ofSource source file?)
  obtain ⟨tokens', finish', hyields'⟩ :=
    TokenSource.exists_yields (Scanner.ofSource source' file?')
  have htokens : tokenize source file? = tokens ++ [finish] := hyields.tokens_eq
  have htokens' : tokenize source' file?' = tokens' ++ [finish'] := hyields'.tokens_eq
  simp only [Related, htokens, htokens'] at h ⊢
  obtain ⟨hprogram, hfaults⟩ := parse_mirrors
    (.ofIndex (Cursor.holds_ofSource hyields) (Cursor.holds_ofSource hyields') rfl h)
  have hunplaced : result.1.unplaced = result'.1.unplaced :=
    hprogram.unplaced_eq fun _ _ hindex => hindex.erase_eq h
  refine ⟨hunplaced, ?_, hfaults.length_eq, hfaults.imp fun diagnostic diagnostic' hfault => ?_,
    hprogram⟩
  · rw [← Program.render_unplaced result.1, hunplaced, Program.render_unplaced]
  · obtain ⟨token, token', hindex, htells, htells'⟩ := hfault.tells
    exact ⟨hfault.fault, congrArg Fault.message hfault.fault, token, token', hindex,
      htells.position, htells'.position⟩

/-- A parenthesis is missed in both texts, at a semicolon. -/
theorem parse_mirrors_of_tokenize_commented :
    let first := parse (Scanner.ofSource "f(1; // a\n b" none)
    let second := parse (Scanner.ofSource "f (1;b" (some "g"))
    (tokenize "f(1; // a\n b" none).map Token.erase =
        (tokenize "f (1;b" (some "g")).map Token.erase ∧
      first.1.unplaced = second.1.unplaced ∧ first.1.render = second.1.render ∧
      first.2.map Diagnostic.position = [⟨3, "shell"⟩] ∧
      second.2.map Diagnostic.position = [⟨4, "g"⟩] ∧
      List.Forall₂ (fun diagnostic diagnostic' => diagnostic.fault = diagnostic'.fault)
        first.2 second.2 := by
  intro first second
  have htokens : (tokenize "f(1; // a\n b" none).map Token.erase =
      (tokenize "f (1;b" (some "g")).map Token.erase := by decide +kernel
  obtain ⟨hunplaced, hrender, -, hfaults, -⟩ := parse_mirrors_of_tokenize htokens
  exact ⟨htokens, hunplaced, hrender, by decide +kernel, by decide +kernel,
    hfaults.imp fun _ _ hfault => hfault.1⟩

end MonkeySyntax
