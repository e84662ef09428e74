import MonkeySyntax.Proofs.Cursor.Alike
import MonkeySyntax.Proofs.Productions.Knot
import MonkeySyntax.Proofs.Written.Tokens

namespace MonkeySyntax

open Reader

/-! How far productions look: no further than one token past the last one that they read,
and not past the token that they find at fault.  Whatever comes after that makes no
difference to what they give. -/

/-- The kind of the token that is at fault. -/
def Fault.found : Fault → Kind
  | .unexpectedToken _ found => found
  | .noOperand kind => kind
  | .malformedInteger _ => .integer
  | .unclosedDelimiter _ found => found

/-- How many tokens after the current one the token at fault lies.  A block that is not
closed has been read up to the end. -/
def Fault.lead : Fault → Nat
  | .noOperand _ | .malformedInteger _ | .unclosedDelimiter .closeCurly _ => 0
  | .unexpectedToken .. | .unclosedDelimiter .. => 1

theorem Fault.found_ofMismatch (expected found : Kind) :
    (ofMismatch expected found).found = found := by
  cases expected <;> rfl

theorem Fault.lead_ofMismatch {expected : Kind} (h : expected ≠ .closeCurly) (found : Kind) :
    (ofMismatch expected found).lead = 1 := by
  cases expected with
  | closeCurly => exact absurd rfl h
  | _ => rfl

theorem Fault.lead_le (fault : Fault) : fault.lead ≤ 1 := by
  unfold lead
  split <;> decide

/-- How far has been looked: at the current token, or at the one after it as well. -/
inductive Sight
  | current
  | peek

def Sight.count : Sight → Nat
  | .current => 1
  | .peek => 2

theorem Sight.count_pos (sight : Sight) : 1 ≤ sight.count := by
  cases sight <;> decide

theorem Sight.count_le (sight : Sight) : sight.count ≤ 2 := by
  cases sight <;> decide

/-- The diagnostic is about the token. -/
structure Diagnostic.Blames (diagnostic : Diagnostic) (token : Token) : Prop where
  position : diagnostic.position = token.span.start
  found : diagnostic.fault.found = token.kind

variable {σ : Type} [TokenSource σ]

namespace Cursor

/-- Nothing comes between the current token and the one at fault; a semicolon that is current
is itself at fault. -/
structure Detects (diagnostic : Diagnostic) (cursor : Cursor σ) : Prop where
  blames : ∀ culprit, cursor.After diagnostic.fault.lead culprit →
    diagnostic.Blames culprit.current
  ne_semicolon : diagnostic.fault.lead = 1 → cursor.current.kind ≠ .semicolon

/-- As many blocks are open, and something has been read that does not end in a semicolon. -/
structure Within (cursor cursor' : Cursor σ) : Prop where
  depth : cursor'.depth = cursor.depth
  ne_semicolon : cursor'.current.kind ≠ .semicolon

theorem After.current {cursor culprit : Cursor σ} (h : cursor.After 0 culprit) :
    culprit.current = cursor.current :=
  (congrArg (fun window => window.2.1) h).symm

theorem Detects.of_current {cursor : Cursor σ} {diagnostic : Diagnostic}
    (hlead : diagnostic.fault.lead = 0) (h : diagnostic.Blames cursor.current) :
    cursor.Detects diagnostic where
  blames culprit hculprit := by
    rw [hlead] at hculprit
    rwa [hculprit.current]
  ne_semicolon hlead' := absurd (hlead.symm.trans hlead') Nat.zero_ne_one

theorem Detects.of_peek {cursor : Cursor σ} {diagnostic : Diagnostic}
    (hlead : diagnostic.fault.lead = 1) (h : diagnostic.Blames cursor.peek)
    (hcurrent : cursor.current.kind ≠ .semicolon) : cursor.Detects diagnostic where
  blames culprit hculprit := by
    rw [hlead] at hculprit
    have hcurrent : culprit.current = cursor.advance.current := After.current hculprit
    rwa [hcurrent]
  ne_semicolon _ := hcurrent

end Cursor

namespace Reader

variable {α β : Type} {reader : Reader σ α} {cursor : Cursor σ}

/-- When it ends so many steps on, the reader has looked at the next `after` tokens.  From a
cursor that agrees on all of these it ends in the same way. -/
structure Repeats (reader : Reader σ α) (ending : Cursor σ → EStateM.Result Stop (Cursor σ) α)
    (before steps after : Nat) (cursor cursor' : Cursor σ) : Prop where
  before_le : before ≤ steps + after
  moves : cursor.After steps cursor'
  again {twin : Cursor σ} (h : cursor.Agrees (steps + after) twin) :
    ∃ twin', reader twin = ending twin' ∧ twin.After steps twin' ∧ cursor'.depth = twin'.depth

/-- The reader starts where it has been looked as far as `before`, and ends where it has been
looked as far as `after`; no token is looked at past one that is at fault. -/
def Looks (before : Sight) (reader : Reader σ α) (after : Sight)
    (returns : α → Cursor σ → Prop) (cursor : Cursor σ) : Prop :=
  Ends reader
    (fun value cursor' => returns value cursor' ∧
      ∃ steps, Repeats reader (.ok value) before.count steps after.count cursor cursor')
    (fun stop cursor' => ∀ diagnostic, stop = .fault diagnostic →
      cursor'.Detects diagnostic ∧ ∃ steps, Repeats reader (.error stop) before.count steps
        (diagnostic.fault.lead + 1) cursor cursor')
    cursor

namespace Repeats

variable {next : α → Reader σ β} {before steps after between : Nat} {cursor' : Cursor σ}

/-- The steps of two readers add up, and so do the tokens that are looked at. -/
theorem bind {value : α} {ending : Cursor σ → EStateM.Result Stop (Cursor σ) β}
    {steps' : Nat} {cursor'' : Cursor σ}
    (h : Repeats reader (.ok value) before steps between cursor cursor')
    (hnext : Repeats (next value) ending between steps' after cursor' cursor'') :
    Repeats (reader >>= next) ending before (steps + steps') after cursor cursor'' := by
  have hbefore := h.before_le
  have hbetween := hnext.before_le
  refine ⟨by omega, h.moves.trans hnext.moves, ?_⟩
  intro twin htwin
  obtain ⟨twin', hread, hmoves, hdepth⟩ := h.again (htwin.mono (by omega))
  have halike := htwin.alike
  rw [Nat.add_assoc] at halike
  obtain ⟨twin'', hread', hmoves', hdepth'⟩ := hnext.again ⟨halike.after h.moves hmoves, hdepth⟩
  refine ⟨twin'', ?_, hmoves.trans hmoves', hdepth'⟩
  simp only [bind_apply, hread, hread']

theorem bind_error {stop : Stop}
    (h : Repeats reader (.error stop) before steps after cursor cursor') :
    Repeats (reader >>= next) (.error stop) before steps after cursor cursor' := by
  refine ⟨h.before_le, h.moves, ?_⟩
  intro twin htwin
  obtain ⟨twin', hread, hmoves, hdepth⟩ := h.again htwin
  refine ⟨twin', ?_, hmoves, hdepth⟩
  simp only [bind_apply, hread]

theorem of_approximates {reader' : Reader σ α}
    {ending : Cursor σ → EStateM.Result Stop (Cursor σ) α} (happrox : Approximates reader reader')
    (hending : ∀ twin twin', ending twin ≠ .error .endless twin')
    (h : Repeats reader ending before steps after cursor cursor') :
    Repeats reader' ending before steps after cursor cursor' := by
  refine ⟨h.before_le, h.moves, ?_⟩
  intro twin htwin
  obtain ⟨twin', hread, hmoves, hdepth⟩ := h.again htwin
  refine ⟨twin', ?_, hmoves, hdepth⟩
  rcases happrox twin with ⟨twin'', hexhausted⟩ | heq
  · exact absurd (hread.symm.trans hexhausted) (hending twin' twin'')
  · exact heq.symm.trans hread

end Repeats

namespace Looks

variable {before after between : Sight} {returns : α → Cursor σ → Prop}

theorem mono {returns' : α → Cursor σ → Prop} (h : Looks before reader after returns cursor)
    (hreturns : ∀ value cursor', returns value cursor' → returns' value cursor') :
    Looks before reader after returns' cursor :=
  Ends.then h fun value cursor' hvalue => ⟨hreturns value cursor' hvalue.1, hvalue.2⟩

/-- A reader may be started where less has been looked at. -/
theorem ofCurrent (h : Looks before reader after returns cursor) :
    Looks .current reader after returns cursor := by
  have hle {steps count : Nat} (hbefore : before.count ≤ steps + count) : 1 ≤ steps + count :=
    Nat.le_trans before.count_pos hbefore
  refine Ends.mono h (fun value cursor' hvalue => ?_) (fun stop cursor' hstop => ?_)
  · obtain ⟨hvalue, steps, hrepeats⟩ := hvalue
    exact ⟨hvalue, steps, { hrepeats with before_le := hle hrepeats.before_le }⟩
  · intro diagnostic hdiagnostic
    obtain ⟨hdetects, steps, hrepeats⟩ := hstop diagnostic hdiagnostic
    exact ⟨hdetects, steps, { hrepeats with before_le := hle hrepeats.before_le }⟩

/-- What has been looked at where a reader ends may be taken to be more. -/
theorem toPeek (h : Looks before reader after returns cursor) :
    Looks before reader .peek returns cursor := by
  apply Ends.then h
  intro value cursor' hvalue
  obtain ⟨hvalue, steps, hbefore, hmoves, hagain⟩ := hvalue
  have hle := Nat.add_le_add_left after.count_le steps
  exact ⟨hvalue, steps, Nat.le_trans hbefore hle, hmoves, fun htwin => hagain (htwin.mono hle)⟩

theorem bind {next : α → Reader σ β} {returns : β → Cursor σ → Prop}
    (h : Looks before reader between
      (fun value cursor' => Looks between (next value) after returns cursor') cursor) :
    Looks before (reader >>= next) after returns cursor := by
  rw [Looks, ends_bind]
  refine Ends.mono h (fun value cursor₁ hvalue => ?_) (fun stop cursor₁ hstop => ?_)
  · obtain ⟨hnext, steps₁, hfirst⟩ := hvalue
    refine Ends.mono hnext (fun result cursor₂ hresult => ?_) (fun stop cursor₂ hstop => ?_)
    · obtain ⟨hresult, steps₂, hsecond⟩ := hresult
      exact ⟨hresult, _, hfirst.bind hsecond⟩
    · intro diagnostic hdiagnostic
      obtain ⟨hdetects, steps₂, hsecond⟩ := hstop diagnostic hdiagnostic
      exact ⟨hdetects, _, hfirst.bind hsecond⟩
  · intro diagnostic hdiagnostic
    obtain ⟨hdetects, steps, hrepeats⟩ := hstop diagnostic hdiagnostic
    exact ⟨hdetects, steps, hrepeats.bind_error⟩

theorem of_approximates {reader' : Reader σ α} (happrox : Approximates reader reader')
    (heq : reader cursor = reader' cursor) (h : Looks before reader after returns cursor) :
    Looks before reader' after returns cursor := by
  rw [Looks, ← ends_congr heq]
  refine Ends.mono h (fun value cursor' hvalue => ?_) (fun stop cursor' hstop => ?_)
  · obtain ⟨hvalue, steps, hrepeats⟩ := hvalue
    exact ⟨hvalue, steps, hrepeats.of_approximates happrox fun _ _ heq => by cases heq⟩
  · intro diagnostic hdiagnostic
    obtain ⟨hdetects, steps, hrepeats⟩ := hstop diagnostic hdiagnostic
    subst hdiagnostic
    exact ⟨hdetects, steps, hrepeats.of_approximates happrox fun _ _ heq => by cases heq⟩

protected theorem ite {p : Prop} [Decidable p] {first second : Reader σ α}
    (hfirst : p → Looks before first after returns cursor)
    (hsecond : ¬p → Looks before second after returns cursor) :
    Looks before (if p then first else second) after returns cursor := by
  by_cases h : p
  · rw [if_pos h]
    exact hfirst h
  · rw [if_neg h]
    exact hsecond h

/-! The single steps. -/

protected theorem pure {value : α} (h : returns value cursor) :
    Looks before (pure value) before returns cursor :=
  ⟨h, 0, Nat.le_add_left .., .refl cursor, fun htwin => ⟨_, rfl, rfl, htwin.depth⟩⟩

protected theorem current {returns : Token → Cursor σ → Prop}
    (h : returns cursor.current cursor) : Looks before current before returns cursor := by
  refine ⟨h, 0, Nat.le_add_left .., .refl cursor, ?_⟩
  intro twin htwin
  have hcurrent := htwin.alike.current (Nat.le_trans before.count_pos (Nat.le_add_left ..))
  exact ⟨twin, by rw [current_apply, hcurrent], rfl, htwin.depth⟩

protected theorem peek {returns : Token → Cursor σ → Prop}
    (h : returns cursor.peek cursor) : Looks before peek .peek returns cursor := by
  refine ⟨h, 0, Nat.le_trans before.count_le (Nat.le_add_left ..), .refl cursor, ?_⟩
  intro twin htwin
  have hpeek := htwin.alike.peek (Nat.le_add_left ..)
  exact ⟨twin, by rw [peek_apply, hpeek], rfl, htwin.depth⟩

protected theorem skip {returns : Unit → Cursor σ → Prop} (h : returns () cursor.advance) :
    Looks before skip .current returns cursor :=
  ⟨h, 1, before.count_le, .refl cursor.advance, fun htwin => ⟨_, rfl, .refl _, htwin.depth⟩⟩

protected theorem advance {returns : Token → Cursor σ → Prop}
    (h : returns cursor.current cursor.advance) :
    Looks before advance .current returns cursor := by
  refine ⟨h, 1, before.count_le, .refl cursor.advance, ?_⟩
  intro twin htwin
  have hcurrent := htwin.alike.current (by decide)
  exact ⟨twin.advance, by rw [advance_apply, hcurrent], .refl _, htwin.depth⟩

protected theorem note {entry : Journal.Entry} {returns : Unit → Cursor σ → Prop}
    (h : returns () (cursor.note entry)) : Looks before (note entry) before returns cursor :=
  ⟨h, 0, Nat.le_add_left .., .refl cursor, fun htwin => ⟨_, rfl, rfl, htwin.depth⟩⟩

protected theorem enterBlock {returns : Unit → Cursor σ → Prop}
    (h : ∀ depth, cursor.depth.enter? = some depth → returns () { cursor with depth }) :
    Looks before enterBlock before returns cursor := by
  rw [Looks, ends_enterBlock]
  refine ⟨fun depth henter => ⟨h depth henter, 0, Nat.le_add_left .., .refl cursor, ?_⟩,
    fun _ => nofun⟩
  intro twin htwin
  exact ⟨{ twin with depth }, by rw [enterBlock_apply, ← htwin.depth, henter], rfl, rfl⟩

protected theorem leaveBlock {returns : Unit → Cursor σ → Prop}
    (h : returns () { cursor with depth := cursor.depth.leave }) :
    Looks before leaveBlock before returns cursor :=
  ⟨h, 0, Nat.le_add_left .., .refl cursor,
    fun htwin => ⟨_, rfl, rfl, congrArg Depth.leave htwin.depth⟩⟩

protected theorem fail {fault : Fault} {position : Position}
    (h : cursor.Detects ⟨fault, position⟩) (hle : before.count ≤ fault.lead + 1) :
    Looks before (fail fault position : Reader σ α) after returns cursor := by
  intro diagnostic hdiagnostic
  obtain rfl := Stop.fault.inj hdiagnostic
  exact ⟨h, 0, (Nat.zero_add (fault.lead + 1)).symm ▸ hle, .refl cursor,
    fun htwin => ⟨_, rfl, rfl, htwin.depth⟩⟩

protected theorem expect {kind : Kind} {returns : Unit → Cursor σ → Prop}
    (hkind : kind ≠ .closeCurly ∧ kind ≠ .semicolon) (hcurrent : cursor.current.kind ≠ .semicolon)
    (h : cursor.advance.current.kind ≠ .semicolon → returns () cursor.advance) :
    Looks before (expect kind) .current returns cursor := by
  refine .bind (.peek (.ite (fun hpeek => ?_) (fun _ => ?_)))
  · exact .skip (h fun hsemicolon => hkind.2 (hpeek.symm.trans hsemicolon))
  · have hlead := Fault.lead_ofMismatch hkind.1 cursor.peek.kind
    refine .fail (.of_peek hlead ⟨rfl, Fault.found_ofMismatch ..⟩ hcurrent) ?_
    exact Nat.le_of_eq (congrArg (· + 1) hlead.symm)

protected theorem endStatement {returns : Unit → Cursor σ → Prop}
    (h : ∀ cursor' : Cursor σ, cursor'.depth = cursor.depth → returns () cursor') :
    Looks before endStatement .peek returns cursor := by
  refine .bind (.peek (.ite (fun _ => ?_) (fun _ => ?_)))
  · exact (Looks.skip (h _ rfl)).toPeek
  · exact .pure (h _ rfl)

end Looks

end Reader

namespace Productions

/-- Where a reader starts, the current token has been looked at; one that goes on after the
current token may have been chosen by the next one. -/
structure Sighted (inner : Productions σ) : Prop where
  statement (cursor : Cursor σ) :
    Looks .current inner.statement .peek (fun _ cursor' => cursor'.depth = cursor.depth) cursor
  statements (cursor : Cursor σ) :
    Looks .current inner.statements .current (fun _ cursor' => cursor'.depth = cursor.depth ∧
      (cursor'.current.kind = .closeCurly ∨ cursor'.current.kind = .eof)) cursor
  expression (power : BindingPower) (cursor : Cursor σ) :
    Looks .current (inner.expression power) .peek (fun _ cursor' => cursor.Within cursor') cursor
  operators (power : BindingPower) (left : Expr) {cursor : Cursor σ}
    (h : cursor.current.kind ≠ .semicolon) :
    Looks .peek (inner.operators power left) .peek (fun _ cursor' => cursor.Within cursor') cursor
  parameters {cursor : Cursor σ} (h : cursor.current.kind ≠ .semicolon) :
    Looks .peek inner.parameters .peek (fun _ cursor' => cursor.Within cursor') cursor
  arguments {cursor : Cursor σ} (h : cursor.current.kind ≠ .semicolon) :
    Looks .peek inner.arguments .peek (fun _ cursor' => cursor.Within cursor') cursor

namespace Sighted

variable {inner : Productions σ} {cursor : Cursor σ}

/-! Statements. -/

theorem block (hinner : Sighted inner) (cursor : Cursor σ) :
    Looks .current inner.block .current (fun _ cursor' => cursor.Within cursor') cursor := by
  refine .bind (.advance ?_)
  refine .bind (.enterBlock fun depth henter => ?_)
  refine .bind ((hinner.statements _).mono fun _ cursor' hstatements => ?_)
  obtain ⟨hdepth, hlast⟩ := hstatements
  refine .bind (.current (.ite (fun heof => ?_) (fun hne => ?_)))
  · exact .fail (.of_current rfl ⟨rfl, heof.symm⟩) (Nat.le_refl _)
  · refine .bind (.leaveBlock (.pure ⟨?_, ?_⟩))
    · exact (congrArg Depth.leave hdepth).trans (Depth.leave_enter? henter)
    · exact hlast.resolve_right hne ▸ by decide

theorem expressionStatement (hinner : Sighted inner) (cursor : Cursor σ) :
    Looks .current inner.expressionStatement .peek (fun _ cursor' => cursor'.depth = cursor.depth)
      cursor := by
  refine .bind (.current ?_)
  refine .bind ((hinner.expression .lowest _).mono fun _ cursor' hvalue => ?_)
  refine .bind (.endStatement fun cursor'' hdepth => ?_)
  exact .pure (hdepth.trans hvalue.depth)

theorem letStatement (hinner : Sighted inner) (hkind : cursor.current.kind ≠ .semicolon) :
    Looks .current inner.letStatement .peek (fun _ cursor' => cursor'.depth = cursor.depth)
      cursor := by
  refine .bind (.current ?_)
  refine .bind (.expect (by decide) hkind fun hname => ?_)
  refine .bind (.current ?_)
  refine .bind (.expect (by decide) hname fun _ => ?_)
  refine .bind (.skip ?_)
  refine .bind ((hinner.expression .lowest _).mono fun _ cursor' hvalue => ?_)
  refine .bind (.endStatement fun cursor'' hdepth => ?_)
  exact .pure (hdepth.trans hvalue.depth)

theorem returnedValue (hinner : Sighted inner) (cursor : Cursor σ) :
    Looks .current inner.returnedValue .peek (fun _ cursor' => cursor'.depth = cursor.depth)
      cursor := by
  refine .bind (.peek (.ite (fun _ => ?_) (fun _ => ?_)))
  · exact .pure rfl
  · refine .bind (.skip ?_)
    refine .bind ((hinner.expression .lowest _).mono fun _ cursor' hvalue => ?_)
    exact .pure hvalue.depth

theorem returnStatement (hinner : Sighted inner) (cursor : Cursor σ) :
    Looks .current inner.returnStatement .peek (fun _ cursor' => cursor'.depth = cursor.depth)
      cursor := by
  refine .bind (.current ?_)
  refine .bind ((hinner.returnedValue _).mono fun _ cursor' hvalue => ?_)
  refine .bind (.endStatement fun cursor'' hdepth => ?_)
  exact .pure (hdepth.trans hvalue)

theorem blockStatement (hinner : Sighted inner) (cursor : Cursor σ) :
    Looks .current inner.blockStatement .peek (fun _ cursor' => cursor'.depth = cursor.depth)
      cursor := by
  refine .bind ((hinner.block _).mono fun _ cursor' hbody => ?_)
  refine .bind (.endStatement fun cursor'' hdepth => ?_)
  exact .pure (hdepth.trans hbody.depth)

theorem statementRule (hinner : Sighted inner) (rule : StatementRule)
    (hkind : cursor.current.kind ≠ .semicolon) :
    Looks .current (rule.read inner) .peek (fun _ cursor' => cursor'.depth = cursor.depth)
      cursor := by
  cases rule with
  | expression => exact hinner.expressionStatement cursor
  | letBinding => exact hinner.letStatement hkind
  | returning => exact hinner.returnStatement cursor
  | block => exact hinner.blockStatement cursor

/-! Operands. -/

theorem identifier {returns : Identifier → Cursor σ → Prop}
    (h : returns ⟨cursor.current, cursor.current.text⟩ cursor) :
    Looks .current Productions.identifier .current returns cursor :=
  .bind (.current (.pure h))

theorem alternative (hinner : Sighted inner) (hkind : cursor.current.kind ≠ .semicolon) :
    Looks .peek inner.alternative .peek (fun _ cursor' => cursor.Within cursor') cursor := by
  refine .bind (.peek (.ite (fun hword => ?_) (fun _ => ?_)))
  · have hkind' : cursor.advance.current.kind ≠ .semicolon := hword ▸ by decide
    refine .bind (.skip ?_)
    refine .bind (.expect (by decide) hkind' fun _ => ?_)
    refine .bind ((hinner.block _).mono fun _ cursor' hbody => ?_)
    exact .toPeek (.pure ⟨hbody.depth, hbody.ne_semicolon⟩)
  · exact .pure ⟨rfl, hkind⟩

theorem ifElse (hinner : Sighted inner) (hkind : cursor.current.kind ≠ .semicolon) :
    Looks .current inner.ifElse .peek (fun _ cursor' => cursor.Within cursor') cursor := by
  refine .bind (.current ?_)
  refine .bind (.expect (by decide) hkind fun _ => ?_)
  refine .bind (.skip ?_)
  refine .bind ((hinner.expression .lowest _).mono fun _ cursor₁ hcondition => ?_)
  refine .bind (.expect (by decide) hcondition.ne_semicolon fun hclosing => ?_)
  refine .bind (.expect (by decide) hclosing fun _ => ?_)
  refine .bind ((hinner.block _).mono fun _ cursor₂ hconsequence => ?_)
  refine .bind ((hinner.alternative hconsequence.ne_semicolon).ofCurrent.mono
    fun _ cursor₃ halternative => ?_)
  refine .pure ⟨?_, halternative.ne_semicolon⟩
  exact (halternative.depth.trans hconsequence.depth).trans hcondition.depth

theorem parameterList (hinner : Sighted inner) (hkind : cursor.current.kind ≠ .semicolon) :
    Looks .current inner.parameterList .peek (fun _ cursor' => cursor.Within cursor') cursor := by
  refine .bind (.peek (.ite (fun hclosing => ?_) (fun _ => ?_)))
  · have hkind' : cursor.advance.current.kind ≠ .semicolon := hclosing ▸ by decide
    refine .bind (.skip ?_)
    exact .toPeek (.pure ⟨rfl, hkind'⟩)
  · refine .bind (.expect (by decide) hkind fun hname => ?_)
    refine .bind (identifier ?_)
    refine .bind ((hinner.parameters hname).ofCurrent.mono fun _ cursor' hnames => ?_)
    refine .bind (.expect (by decide) hnames.ne_semicolon fun hclosing => ?_)
    exact .toPeek (.pure ⟨hnames.depth, hclosing⟩)

theorem function (hinner : Sighted inner) (hkind : cursor.current.kind ≠ .semicolon) :
    Looks .current inner.function .peek (fun _ cursor' => cursor.Within cursor') cursor := by
  refine .bind (.current ?_)
  refine .bind (.expect (by decide) hkind fun hopening => ?_)
  refine .bind ((hinner.parameterList hopening).mono fun _ cursor₁ hparameters => ?_)
  refine .bind (.expect (by decide) hparameters.ne_semicolon fun _ => ?_)
  refine .bind ((hinner.block _).mono fun _ cursor₂ hbody => ?_)
  exact .toPeek (.pure ⟨hbody.depth.trans hparameters.depth, hbody.ne_semicolon⟩)

theorem operandRule (hinner : Sighted inner) {rule : OperandRule}
    (hrule : Grammar.standard.operand? cursor.current.kind = some rule) :
    Looks .current (rule.read inner) .peek (fun _ cursor' => cursor.Within cursor') cursor := by
  have hkind : cursor.current.kind ≠ .semicolon := by
    intro hsemicolon
    rw [hsemicolon] at hrule
    cases hrule
  cases rule with
  | identifier => exact .bind (identifier (.toPeek (.pure ⟨rfl, hkind⟩)))
  | integer =>
      refine .bind (.current ?_)
      cases Numeral.value? cursor.current.text with
      | none =>
          rw [Grammar.standard_operand?_iff] at hrule
          have hinteger := List.mem_singleton.mp hrule
          exact .fail (.of_current rfl ⟨rfl, hinteger.symm⟩) (Nat.le_refl _)
      | some value => exact .toPeek (.pure ⟨rfl, hkind⟩)
  | boolean => exact .bind (.current (.toPeek (.pure ⟨rfl, hkind⟩)))
  | unary =>
      refine .bind (.advance ?_)
      refine .bind ((hinner.expression .unary _).mono fun _ cursor' hvalue => ?_)
      exact .pure ⟨hvalue.depth, hvalue.ne_semicolon⟩
  | grouping =>
      refine .bind (.skip ?_)
      refine .bind ((hinner.expression .lowest _).mono fun _ cursor' hvalue => ?_)
      refine .bind (.expect (by decide) hvalue.ne_semicolon fun hclosing => ?_)
      exact .toPeek (.pure ⟨hvalue.depth, hclosing⟩)
  | ifElse => exact hinner.ifElse hkind
  | function => exact hinner.function hkind

/-! Operators. -/

theorem argumentList (hinner : Sighted inner) (cursor : Cursor σ) :
    Looks .current inner.argumentList .peek (fun _ cursor' => cursor.Within cursor') cursor := by
  refine .bind (.peek (.ite (fun hclosing => ?_) (fun _ => ?_)))
  · have hkind' : cursor.advance.current.kind ≠ .semicolon := hclosing ▸ by decide
    refine .bind (.skip ?_)
    exact .toPeek (.pure ⟨rfl, hkind'⟩)
  · refine .bind (.skip ?_)
    refine .bind ((hinner.expression .lowest _).mono fun _ cursor₁ hfirst => ?_)
    refine .bind ((hinner.arguments hfirst.ne_semicolon).mono fun _ cursor₂ hrest => ?_)
    refine .bind (.expect (by decide) hrest.ne_semicolon fun hclosing => ?_)
    exact .toPeek (.pure ⟨hrest.depth.trans hfirst.depth, hclosing⟩)

theorem operatorRule (hinner : Sighted inner) (left : Expr) (power : BindingPower)
    (rule : OperatorRule) (cursor : Cursor σ) :
    Looks .current (rule.read inner left power) .peek (fun _ cursor' => cursor.Within cursor')
      cursor := by
  cases rule with
  | binary =>
      refine .bind (.advance ?_)
      refine .bind ((hinner.expression power _).mono fun _ cursor' hvalue => ?_)
      exact .pure ⟨hvalue.depth, hvalue.ne_semicolon⟩
  | call =>
      refine .bind (.current ?_)
      refine .bind ((hinner.argumentList _).mono fun _ cursor' hvalues => ?_)
      exact .pure hvalues

/-! The productions, in terms of the rules. -/

theorem layer (hinner : Sighted inner) : Sighted (layer Grammar.standard inner) where
  statement cursor := by
    refine .bind (.current ?_)
    refine .bind (.note ?_)
    cases hrule : Grammar.standard.statement? cursor.current.kind with
    | none => exact hinner.expressionStatement _
    | some rule =>
        refine hinner.statementRule rule fun hsemicolon => ?_
        rw [show cursor.current.kind = .semicolon from hsemicolon] at hrule
        cases hrule
  statements cursor := by
    refine .bind (.current (.ite (fun hlast => ?_) (fun _ => ?_)))
    · exact .pure ⟨rfl, hlast⟩
    · refine .bind ((hinner.statement cursor).mono fun _ cursor₁ hfirst => ?_)
      refine .bind (.skip ?_)
      refine .bind ((hinner.statements _).mono fun _ cursor₂ hrest => ?_)
      exact .pure ⟨hrest.1.trans hfirst, hrest.2⟩
  expression power cursor := by
    refine .bind (.current ?_)
    cases hrule : Grammar.standard.operand? cursor.current.kind with
    | none => exact .fail (.of_current rfl ⟨rfl, rfl⟩) (Nat.le_refl _)
    | some rule =>
        refine .bind ((hinner.operandRule hrule).mono fun _ cursor₁ hleft => ?_)
        refine (hinner.operators power _ hleft.ne_semicolon).mono fun _ cursor₂ hvalue => ?_
        exact ⟨hvalue.depth.trans hleft.depth, hvalue.ne_semicolon⟩
  operators power left {cursor} h := by
    refine .bind (.peek ?_)
    cases hoperator : Grammar.standard.operator? cursor.peek.kind with
    | none => exact .pure ⟨rfl, h⟩
    | some operator =>
        refine .ite (fun _ => ?_) (fun _ => ?_)
        · refine .bind (.skip ?_)
          refine .bind ((hinner.operatorRule left _ _ _).mono fun _ cursor₁ hlonger => ?_)
          refine (hinner.operators power _ hlonger.ne_semicolon).mono fun _ cursor₂ hvalue => ?_
          exact ⟨hvalue.depth.trans hlonger.depth, hvalue.ne_semicolon⟩
        · exact .pure ⟨rfl, h⟩
  parameters {cursor} h := by
    refine .bind (.peek (.ite (fun hcomma => ?_) (fun _ => ?_)))
    · have hkind' : cursor.advance.current.kind ≠ .semicolon := hcomma ▸ by decide
      refine .bind (.skip ?_)
      refine .bind (.expect (by decide) hkind' fun hname => ?_)
      refine .bind (identifier ?_)
      refine .bind ((hinner.parameters hname).ofCurrent.mono fun _ cursor' hnames => ?_)
      exact .pure ⟨hnames.depth, hnames.ne_semicolon⟩
    · exact .pure ⟨rfl, h⟩
  arguments {cursor} h := by
    refine .bind (.peek (.ite (fun _ => ?_) (fun _ => ?_)))
    · refine .bind (.skip ?_)
      refine .bind (.skip ?_)
      refine .bind ((hinner.expression .lowest _).mono fun _ cursor₁ hfirst => ?_)
      refine .bind ((hinner.arguments hfirst.ne_semicolon).mono fun _ cursor₂ hrest => ?_)
      exact .pure ⟨hrest.depth.trans hfirst.depth, hrest.ne_semicolon⟩
    · exact .pure ⟨rfl, h⟩

theorem toDepth (depth : Nat) :
    Sighted (toDepth Grammar.standard depth : Productions σ) := by
  induction depth with
  | zero => constructor <;> intros <;> exact fun _ hfault => by cases hfault
  | succ depth ih => exact ih.layer

end Sighted

theorem tied_statement_looks [BoundedTokenSource σ] (cursor : Cursor σ) :
    Looks .current (tied Grammar.standard).statement .peek
      (fun _ cursor' => cursor'.depth = cursor.depth) cursor := by
  have hgrammar := Grammar.standard_leavesEnd
  exact .of_approximates (toDepth_approximates_tied hgrammar (sufficientDepth cursor)).statement
    (toDepth_statement hgrammar (Nat.le_refl _)) ((Sighted.toDepth _).statement cursor)

end Productions

end MonkeySyntax
