import MonkeySyntax.Proofs.Cursor.Ahead

namespace MonkeySyntax

/-! Two cursors with related tokens ahead.  Their sources may be of two types. -/

/-- A relation under which tokens differ in nothing but their places. -/
structure Token.Likeness where
  Holds : Token → Token → Prop
  kind {token token' : Token} (h : Holds token token') : token.kind = token'.kind
  text {token token' : Token} (h : Holds token token') : token.text = token'.text

def Token.Likeness.same : Likeness where
  Holds token token' := token = token'
  kind h := congrArg Token.kind h
  text h := congrArg Token.text h

namespace Cursor

variable {σ τ : Type} [TokenSource σ] [TokenSource τ]

/-- The tokens ahead are like each other one by one, and as many blocks have been counted. -/
structure Mirrors (L : Token.Likeness) (cursor : Cursor σ) (cursor' : Cursor τ) : Prop where
  ahead (count : Nat) : L.Holds (cursor.lookahead count) (cursor'.lookahead count)
  depth : cursor.depth = cursor'.depth

namespace Mirrors

variable {L : Token.Likeness} {cursor : Cursor σ} {cursor' : Cursor τ}

theorem of_window {middle : Cursor σ} {middle' : Cursor τ} (h : cursor.Mirrors L cursor')
    (hwindow : cursor.window = middle.window) (hwindow' : cursor'.window = middle'.window)
    (hdepth : middle.depth = middle'.depth) : middle.Mirrors L middle' := by
  refine ⟨fun count => ?_, hdepth⟩
  rw [← lookahead_congr hwindow, ← lookahead_congr hwindow']
  exact h.ahead count

theorem note (h : cursor.Mirrors L cursor') (entry entry' : Journal.Entry) :
    (cursor.note entry).Mirrors L (cursor'.note entry') :=
  h.of_window (window_note cursor entry).symm (window_note cursor' entry').symm h.depth

theorem record (h : cursor.Mirrors L cursor') (diagnostic diagnostic' : Diagnostic) :
    (cursor.record diagnostic).Mirrors L (cursor'.record diagnostic') :=
  h.of_window (window_record cursor diagnostic).symm (window_record cursor' diagnostic').symm
    h.depth

theorem withDepth (h : cursor.Mirrors L cursor') (depth : Depth) :
    { cursor with depth }.Mirrors L { cursor' with depth } :=
  h.of_window (window_withDepth cursor depth).symm (window_withDepth cursor' depth).symm rfl

theorem advance (h : cursor.Mirrors L cursor') : cursor.advance.Mirrors L cursor'.advance :=
  ⟨fun count => h.ahead (count + 1), h.depth⟩

theorem current (h : cursor.Mirrors L cursor') : L.Holds cursor.current cursor'.current :=
  h.ahead 0

theorem peek (h : cursor.Mirrors L cursor') : L.Holds cursor.peek cursor'.peek :=
  h.ahead 1

theorem leaveBlock (h : cursor.Mirrors L cursor') :
    { cursor with depth := cursor.depth.leave }.Mirrors L
      { cursor' with depth := cursor'.depth.leave } :=
  h.depth ▸ h.withDepth cursor.depth.leave

/-- The same tokens lie ahead of both. -/
theorem of_same {tokens : List Token} {finish : Token} (hholds : cursor.Holds tokens finish)
    (hholds' : cursor'.Holds tokens finish) (hdepth : cursor.depth = cursor'.depth) :
    cursor.Mirrors .same cursor' :=
  ⟨fun count => Option.some.inj
    ((hholds.getElem?_lookahead count).symm.trans (hholds'.getElem?_lookahead count)), hdepth⟩

end Mirrors

end Cursor

end MonkeySyntax
