import MonkeySyntax.Proofs.Productions.Knot

namespace MonkeySyntax

/-! How a reader gets to its end, and inside how many blocks it is broken off.  A block is under
way from where it is entered until its reader returns.  The derivations are counted by their own
numbers: what the cursor has counted is compared with them afterwards. -/

variable {σ : Type} [TokenSource σ]

theorem Productions.block_apply (inner : Productions σ) (cursor : Cursor σ) :
    inner.block cursor =
      match cursor.advance.depth.enter? with
      | some depth =>
        match inner.statements { cursor.advance with depth } with
        | .ok statements cursor' =>
          if cursor'.current.kind = .eof then
            .error (.fault ⟨.unclosedDelimiter .closeCurly .eof, cursor'.current.span.start⟩)
              cursor'
          else
            .ok (.mk cursor.current statements) { cursor' with depth := cursor'.depth.leave }
        | .error stop cursor' => .error stop cursor'
      | none => .error .overflow cursor.advance := by
  rw [Productions.block]
  simp only [Reader.bind_apply, Reader.advance_apply, Reader.enterBlock_apply,
    Reader.current_apply]
  cases cursor.advance.depth.enter? with
  | none => rfl
  | some depth =>
      dsimp only
      cases inner.statements { cursor.advance with depth } with
      | error stop cursor' => rfl
      | ok statements cursor' =>
          dsimp only
          split
          · rfl
          · rfl

namespace Reader

variable {α β : Type}

/-- The reader gives the value, and has returned from every block that it has entered. -/
inductive Finishes : {α : Type} → Reader σ α → Cursor σ → α → Cursor σ → Prop
  | pure {α : Type} (value : α) (cursor : Cursor σ) : Finishes (pure value) cursor value cursor
  | bind {α β : Type} {reader : Reader σ α} {next : α → Reader σ β} {value : α} {value' : β}
      {cursor middle cursor' : Cursor σ} (hreader : Finishes reader cursor value middle)
      (hnext : Finishes (next value) middle value' cursor') :
      Finishes (reader >>= next) cursor value' cursor'
  | current (cursor : Cursor σ) : Finishes current cursor cursor.current cursor
  | peek (cursor : Cursor σ) : Finishes peek cursor cursor.peek cursor
  | note (entry : Journal.Entry) (cursor : Cursor σ) :
      Finishes (note entry) cursor () (cursor.note entry)
  | skip (cursor : Cursor σ) : Finishes skip cursor () cursor.advance
  | advance (cursor : Cursor σ) : Finishes advance cursor cursor.current cursor.advance
  | block {inner : Productions σ} {depth : Depth} {statements : List Stmt}
      {cursor cursor' : Cursor σ} (henter : cursor.advance.depth.enter? = some depth)
      (hstatements : Finishes inner.statements { cursor.advance with depth } statements cursor')
      (hlast : cursor'.current.kind ≠ .eof) :
      Finishes inner.block cursor (.mk cursor.current statements)
        { cursor' with depth := cursor'.depth.leave }

/-- A fault breaks the reader off inside so many of the blocks that it has entered, or a block
does that cannot be counted any more. -/
inductive BreaksOff : {α : Type} → Reader σ α → Cursor σ → Nat → Stop → Cursor σ → Prop
  | fail {α : Type} (fault : Fault) (position : Position) (cursor : Cursor σ) :
      BreaksOff (fail fault position : Reader σ α) cursor 0 (.fault ⟨fault, position⟩) cursor
  | first {α β : Type} {reader : Reader σ α} (next : α → Reader σ β) {cursor cursor' : Cursor σ}
      {count : Nat} {stop : Stop} (hreader : BreaksOff reader cursor count stop cursor') :
      BreaksOff (reader >>= next) cursor count stop cursor'
  | next {α β : Type} {reader : Reader σ α} {next : α → Reader σ β} {value : α}
      {cursor middle cursor' : Cursor σ} {count : Nat} {stop : Stop}
      (hreader : Finishes reader cursor value middle)
      (hnext : BreaksOff (next value) middle count stop cursor') :
      BreaksOff (reader >>= next) cursor count stop cursor'
  | full {inner : Productions σ} {cursor : Cursor σ}
      (hfull : cursor.advance.depth.enter? = none) :
      BreaksOff inner.block cursor 0 .overflow cursor.advance
  | block {inner : Productions σ} {depth : Depth} {cursor cursor' : Cursor σ} {count : Nat}
      {stop : Stop} (henter : cursor.advance.depth.enter? = some depth)
      (hstatements : BreaksOff inner.statements { cursor.advance with depth } count stop cursor') :
      BreaksOff inner.block cursor (count + 1) stop cursor'
  | unclosed {inner : Productions σ} {depth : Depth} {statements : List Stmt}
      {cursor cursor' : Cursor σ} (henter : cursor.advance.depth.enter? = some depth)
      (hstatements : Finishes inner.statements { cursor.advance with depth } statements cursor')
      (hlast : cursor'.current.kind = .eof) :
      BreaksOff inner.block cursor 1
        (.fault ⟨.unclosedDelimiter .closeCurly .eof, cursor'.current.span.start⟩) cursor'

section Depth

variable {reader : Reader σ α} {value : α} {cursor cursor' : Cursor σ} {count : Nat} {stop : Stop}

theorem Finishes.eq_ok (h : reader.Finishes cursor value cursor') :
    reader cursor = .ok value cursor' := by
  induction h with
  | pure | current | peek | note | skip | advance => rfl
  | bind _ _ hreader hnext => rw [bind_apply, hreader]; exact hnext
  | block henter _ hlast hstatements =>
      rw [Productions.block_apply, henter]
      dsimp only
      rw [hstatements]
      exact if_neg hlast

theorem BreaksOff.eq_error (h : reader.BreaksOff cursor count stop cursor') :
    reader cursor = .error stop cursor' := by
  induction h with
  | fail => rfl
  | first next _ hreader => rw [bind_apply, hreader]
  | next hfinishes _ hnext => rw [bind_apply, hfinishes.eq_ok]; exact hnext
  | full hfull => rw [Productions.block_apply, hfull]
  | block henter _ hstatements =>
      rw [Productions.block_apply, henter]
      dsimp only
      rw [hstatements]
  | unclosed henter hfinishes hlast =>
      rw [Productions.block_apply, henter]
      dsimp only
      rw [hfinishes.eq_ok]
      exact if_pos hlast

/-- Where a reader gets to its end, no block more has been counted, and none less. -/
theorem Finishes.depth_eq (h : reader.Finishes cursor value cursor') :
    cursor'.depth = cursor.depth := by
  induction h with
  | pure | current | peek | note | skip | advance => rfl
  | bind _ _ hreader hnext => exact hnext.trans hreader
  | block henter _ _ hstatements =>
      exact (congrArg Depth.leave hstatements).trans (Depth.leave_enter? henter)

/-- Where a reader is broken off, the blocks that are under way have been counted. -/
theorem BreaksOff.blocks_eq (h : reader.BreaksOff cursor count stop cursor') :
    cursor'.depth.blocks = cursor.depth.blocks + count := by
  induction h with
  | fail | full => rfl
  | first _ _ hreader => exact hreader
  | next hfinishes _ hnext => rw [hnext, hfinishes.depth_eq]
  | @block _ depth cursor _ count _ henter _ hstatements =>
      have hblocks : depth.blocks = cursor.depth.blocks + 1 := Depth.blocks_enter? henter
      rw [hstatements, hblocks]
      omega
  | unclosed henter hfinishes =>
      rw [hfinishes.depth_eq]
      exact Depth.blocks_enter? henter

/-- A block cannot be counted where the count has come to the greatest number. -/
theorem BreaksOff.greatest?_eq (h : reader.BreaksOff cursor count .overflow cursor') :
    cursor'.depth.greatest? = some cursor'.depth.blocks := by
  generalize hstop : Stop.overflow = stop at h
  induction h with
  | fail | unclosed => cases hstop
  | full hfull => exact (Depth.enter?_eq_none_iff _).mp hfull
  | first _ _ hreader => exact hreader hstop
  | next _ _ hnext => exact hnext hstop
  | block _ _ hstatements => exact hstatements hstop

end Depth

/-- Unless it goes on for ever, the reader gets to its end or is broken off. -/
def Traced (reader : Reader σ α) : Prop :=
  ∀ cursor, Ends reader (reader.Finishes cursor)
    (fun stop cursor' => stop ≠ .endless →
      ∃ count, reader.BreaksOff cursor count stop cursor') cursor

theorem Traced.bind {reader : Reader σ α} {next : α → Reader σ β} (h : reader.Traced)
    (hnext : ∀ value, (next value).Traced) : (reader >>= next).Traced := by
  intro cursor
  rw [ends_bind]
  refine (h cursor).mono (fun value middle hreader => ?_) (fun stop _ hstop hne => ?_)
  · refine (hnext value middle).mono (fun _ _ hvalue => .bind hreader hvalue) ?_
    intro stop _ hstop hne
    obtain ⟨count, hcount⟩ := hstop hne
    exact ⟨count, .next hreader hcount⟩
  · obtain ⟨count, hcount⟩ := hstop hne
    exact ⟨count, .first next hcount⟩

theorem Traced.block {inner : Productions σ} (h : inner.statements.Traced) :
    inner.block.Traced := by
  intro cursor
  simp only [Productions.block, ends_bind, ends_advance, ends_enterBlock, ends_current, ends_ite,
    ends_fail, ends_leaveBlock, ends_pure]
  refine ⟨fun depth henter => ?_, fun hfull _ => ⟨0, .full hfull⟩⟩
  refine (h { cursor.advance with depth }).mono
    (fun statements last hstatements => ⟨fun heof _ => ?_, fun hlast => ?_⟩)
    (fun stop _ hstop hne => ?_)
  · exact ⟨1, .unclosed henter hstatements heof⟩
  · exact .block henter hstatements hlast
  · obtain ⟨count, hcount⟩ := hstop hne
    exact ⟨count + 1, .block henter hcount⟩

theorem Traced.endless : Traced (fun cursor => .error .endless cursor : Reader σ α) :=
  fun _ hne => absurd rfl hne

/-- That a reader is traced follows from its steps and from the blocks that it reads. -/
def tracing (σ : Type) [TokenSource σ] : Relation σ σ where
  Holds reader _ := reader.Traced
  pure value cursor := .pure value cursor
  bind h hnext := h.bind hnext
  current cursor := .current cursor
  peek cursor := .peek cursor
  fail fault position cursor _ := ⟨0, .fail fault position cursor⟩
  note entry cursor := .note entry cursor
  skip cursor := .skip cursor
  advance cursor := .advance cursor
  block h := h.block

end Reader

namespace Productions

open Reader

theorem related_tracing (grammar : Grammar) (depth : Nat) :
    Related (tracing σ) (toDepth grammar depth) (toDepth grammar depth) := by
  apply related_toDepth
  constructor
  all_goals intros
  all_goals exact .endless

end Productions

end MonkeySyntax
