import WasmBackend.Proofs.Lowering.AddedCode
import WasmBackend.Proofs.Lowering.Origins
import WasmBackend.Proofs.Lowering.Units

/-!
# A function under way

What holds whenever a statement of a function is lowered: a row of blocks is being written, the
frame has rows of variables of its own, and the layout of the receiver is known.  It holds once the
function is opened, for a constructor once it has its receiver, and it goes on holding as long as
the row is written and the store gains.
-/

namespace WasmBackend

open Ir (Forest Var)
open Stage (Ensures)

theorem ConcreteType.exists_entries_of_slots {t : ConcreteType} {ps : List Prim}
    (h : t.slots = .ok ps) : ∃ entries, t.entries = .ok entries := by
  unfold ConcreteType.slots at h
  cases hentries : t.entries with
  | error e =>
    rw [hentries] at h
    cases h
  | ok entries => exact ⟨entries, rfl⟩

namespace Lowering

variable {α : Type} {σ : Scope} {us us' : Forest} {frame : Frame} {n b : Nat} {s s' : Lowering}
  {store : TypeStore}

/-- A function is being lowered. -/
structure Underway (σ : Scope) (us : Forest) (frame : Frame) (s : Lowering) : Prop where
  writing : Writing σ us s
  below : frame.Below s.vars.size
  steady : s.store.Steady
  scope : frame.Scoped s.store
  apart : RowsApart frame.self frame.locals
  self_laid : frame.self ≠ [] → ∃ entries, s.store.entries? frame.selfType = some entries

/-- What goes on writing, in whatever construct, goes on with the function. -/
theorem Underway.later {σ' : Scope} (h : Underway σ us frame s) (hw : Writing σ' us' s')
    (hvars : s.vars.size ≤ s'.vars.size) (hg : s.store.Gains s'.store) :
    Underway σ' us' frame s' where
  writing := hw
  below := h.below.mono hvars
  steady := hg.steady h.steady
  scope g hmem := hg.toKeeps.lt_size (h.scope g hmem)
  apart := h.apart
  self_laid hself := by
    obtain ⟨entries, hentries⟩ := h.self_laid hself
    exact ⟨entries, hg.lays.toExtends.entries? hentries⟩

/-- A function under way has made progress, and is still under way. -/
structure Advanced (σ : Scope) (frame : Frame) (n b : Nat) (us : Forest) (s : Lowering)
    (us' : Forest) (s' : Lowering) : Prop extends Progress σ frame n b us s us' s' where
  underway : Underway σ us' frame s'
  gains : s.store.Gains s'.store

theorem Advanced.trans {us'' : Forest} {s'' : Lowering} (h : Advanced σ frame n b us s us' s')
    (h' : Advanced σ frame n b us' s' us'' s'') : Advanced σ frame n b us s us'' s'' where
  toProgress := h.toProgress.trans h'.toProgress
  underway := h'.underway
  gains := h.gains.trans h'.gains

/-- A step of a function under way advances it. -/
theorem Underway.exists_advanced {x : M α} {post : α → Nat → Prop} {post' : α → Prop} {a : α}
    (h : Underway σ us frame s) (hn : n ≤ s.vars.size) (hb : b ≤ s.blocks.size)
    (hwrites : Writes σ frame s.vars.size x post) (henlarges : Enlarges frame n b x post')
    (hgrows : Grows frame s.store x) (hx : x frame s = (.ok a, s')) :
    ∃ us', Advanced σ frame n b us s us' s' ∧ post a s'.vars.size ∧ post' a := by
  obtain ⟨us', hp, hpost, hpost'⟩ := exists_progress h.writing hn hb hwrites henlarges hx
  obtain ⟨hg, -⟩ := (hgrows s (.refl _) h.steady h.scope).of_eq hx
  exact ⟨us', ⟨hp, h.later hp.after hp.enlarged.vars_le hg, hg⟩, hpost, hpost'⟩

/-! ## Opening a function -/

theorem yields_slotsOf (h : Handle) :
    Yields frame store (slotsOf h) fun _ st ↦ ∃ entries, st.entries? h = some entries := by
  refine (yields_typeOf h).bind fun t store₁ _ ht ↦ (yields_ofLayout _).imp ?_
  intro ps st hg hps
  obtain ⟨entries, hentries⟩ := ConcreteType.exists_entries_of_slots hps
  exact ⟨entries, TypeStore.entries?_eq_some.2 ⟨t, hg.type _ _ ht, hentries⟩⟩

/-- Whether there is a receiver depends on the frame only. -/
theorem exists_hasReceiver (frame : Frame) : ∃ r, ∀ s, hasReceiver frame s = (.ok r, s) := by
  obtain ⟨name, _ | ⟨⟨kind⟩⟩⟩ := frame
  · exact ⟨false, fun _ ↦ rfl⟩
  · cases kind <;> first | exact ⟨false, fun _ ↦ rfl⟩ | exact ⟨true, fun _ ↦ rfl⟩

theorem yields_hasReceiver {r : Bool} (h : ∀ s, hasReceiver frame s = (.ok r, s)) :
    Yields frame store hasReceiver fun r' _ ↦ r' = r := by
  intro s _ _ _
  show Stage.Meets _ s _ _
  unfold Stage.Meets
  rw [h s]
  exact ⟨.refl _, rfl⟩

theorem grows_frameLocals : Grows frame store frameLocals := by
  refine yields_read ?_
  split
  · exact grows_pure _
  · exact grows_program.andThen fun p _ ↦ grows_pure p.mainLocals

theorem grows_paramSlots : Grows frame store paramSlots := by
  refine grows_frameLocals.andThen fun locals _ ↦ yields_read (grows_each fun p _ _ ↦ ?_)
  refine (yields_expect _).andThen fun l _ ↦ ?_
  exact (grows_resolve l.type).andThen fun type _ ↦ grows_slotsOf type

theorem grows_declareLocals (kind : LocalKind) (locals : List Local) (rows : Array (List Var)) :
    Grows frame store (declareLocals kind locals rows) := by
  unfold declareLocals
  generalize locals.zipIdx = pairs
  induction pairs generalizing store rows with
  | nil => exact grows_pure rows
  | cons q pairs ih =>
    rw [List.foldlM_cons]
    suffices hfirst : ∀ rows : Array (List Var), Grows frame store (do
        if q.1.kind = kind then
          let slots ← slotsOf (← resolve q.1.type)
          return rows.set! q.2 (← newVars slots)
        else return rows) from (hfirst rows).andThen fun rows' _ ↦ ih rows'
    intro rows
    split
    · refine (grows_resolve q.1.type).andThen fun type _ ↦ ?_
      refine (grows_slotsOf type).andThen fun slots _ ↦ ?_
      exact (grows_newVars slots).andThen fun row _ ↦ grows_pure _
    · exact grows_pure rows

theorem grows_frameVars (count : Nat) (params : List (List Prim)) :
    Grows frame store (frameVars count params) := by
  refine grows_frameLocals.andThen fun locals _ ↦ yields_read ?_
  exact (grows_declareLocals .fixed locals _).andThen fun rows _ ↦
    grows_declareLocals .mutable locals rows

/-- A function is opened with its generic parameters, and with a receiver that is laid out. -/
theorem yields_openFunction (owner result : Handle) :
    Yields frame store (openFunction owner result) fun r st ↦ r.1.scope = frame.scope ∧
      (r.1.self ≠ [] → ∃ entries, st.entries? r.1.selfType = some entries) := by
  obtain ⟨receives, hreceives⟩ := exists_hasReceiver frame
  have hself (store : TypeStore) : Yields frame store (receiverSlots owner) fun slots st ↦
      (receives = true ∧ ∃ entries, st.entries? owner = some entries) ∨ slots = [] := by
    refine (yields_hasReceiver hreceives).bind ?_
    rintro _ store₁ - rfl
    split
    · exact (yields_slotsOf owner).imp fun _ _ _ h ↦ .inl ⟨‹_›, h⟩
    · exact yields_pure fun _ _ ↦ .inr rfl
  refine (grows_modify fun _ ↦ by rfl).andThen fun _ store₁ ↦ ?_
  refine (yields_hasReceiver hreceives).bind ?_
  rintro hasSelf store₂ - rfl
  refine (hself store₂).bind fun selfSlots store₃ _ hlaid ↦ ?_
  refine grows_paramSlots.bind fun params store₄ hg₄ _ ↦ ?_
  refine (grows_slotsOf result).bind fun resultSlots store₅ hg₅ _ ↦ ?_
  refine Yields.bind (grows_modify fun _ ↦ by rfl) fun _ store₆ hg₆ _ ↦ ?_
  refine (grows_frameVars selfSlots.length params).bind fun rows store₇ hg₇ _ ↦ ?_
  refine grows_openBasic.bind fun _ store₈ hg₈ _ ↦ yields_read (yields_pure fun st hg ↦ ⟨rfl, ?_⟩)
  intro hne
  obtain ⟨hhas, entries, hentries⟩ | rfl := hlaid
  · have hg := hg₄.trans (hg₅.trans (hg₆.trans (hg₇.trans (hg₈.trans hg))))
    refine ⟨entries, ?_⟩
    show st.entries? (if hasSelf then owner else 0) = _
    rw [if_pos hhas]
    exact hg.lays.toExtends.entries? hentries
  · exact absurd rfl hne

/-- A function without a receiver is under way once its first block is opened. -/
theorem Blank.underway (h : Blank s s) (hbelow : frame.Below s.vars.size)
    (hsteady : s.store.Steady) (hscope : frame.Scoped s.store) (hself : frame.self = [])
    (hapart : RowsApart [] frame.locals) :
    Underway [] [.basic s.pushBasic.current] frame s.pushBasic where
  writing :=
    (show Opened s frame { name := frame.name } _ from h.opened hbelow (Nat.zero_le _)).writing
  below := hbelow
  steady := hsteady
  scope := hscope
  apart := hself ▸ hapart
  self_laid hne := absurd hself hne

/-- **A function is under way once it is opened.** -/
theorem ensures_openFunction_underway (owner result : Handle) (hsteady : s.store.Steady)
    (hscope : frame.Scoped s.store) :
    Ensures (openFunction owner result frame) s fun r s' ↦
      Underway [] [.basic s'.current] r.1 s' := by
  refine ((ensures_openFunction frame owner result s).and
    (yields_openFunction owner result s (.refl _) hsteady hscope)).imp ?_
  rintro r s' ⟨⟨hopened, hapart⟩, hg, hscoped, hlaid⟩
  exact {
    writing := hopened.writing
    below := hopened.below
    steady := hg.steady hsteady
    scope := fun g hmem ↦ hg.toKeeps.lt_size (hscope g (hscoped ▸ hmem))
    apart := hapart
    self_laid := hlaid }

/-! ## The receiver of a constructor -/

theorem enlarges_clear {vars : List Var} (h : ∀ v ∈ vars, n ≤ v) :
    Enlarges frame n b (clear vars) fun _ ↦ True := by
  refine Enlarges.bind (enlarges_forIn fun v hv ↦ ?_) fun _ _ ↦ enlarges_pure trivial
  refine (quiet_primOf v).enlarges.bind fun p _ ↦ ?_
  exact (enlarges_constInto (h v hv) p 0).bind fun _ _ ↦ enlarges_pure rfl

theorem grows_clear (vars : List Var) : Grows frame store (clear vars) := by
  refine Yields.bind (grows_forIn fun v _ st _ ↦ ?_) fun _ _ _ _ ↦ grows_pure _
  refine (grows_primOf v).andThen fun p _ ↦ ?_
  exact (grows_constInto v p 0).andThen fun _ _ ↦ yields_pure fun _ _ ↦ rfl

theorem enlarges_newVars_nodup (ps : List Prim) :
    Enlarges frame n b (newVars ps) fun vs ↦ (∀ v ∈ vs, n ≤ v) ∧ vs.Nodup := by
  refine (enlarges_newVars ps).and fun s hs hn hb ↦ Stage.ensures_iff.2 fun vs t hx ↦ ?_
  have hpost := Stage.ensures_iff.1 (enlarges_newVars ps s hs hn hb) vs t hx
  rw [newVars_apply] at hx
  cases hx
  exact ⟨hpost.1, List.nodup_range'⟩

/-- A constructor gives its receiver variables of its own, and knows how it is laid out. -/
theorem tracks_constructorSelf (owner : Handle) :
    Tracks frame n b store (constructorSelf owner) fun self st ↦
      ((∀ v ∈ self, n ≤ v) ∧ self.Nodup) ∧ ∃ entries, st.entries? owner = some entries := by
  have hlaid {t : ConcreteType} {st st' : TypeStore} (hg : st.Gains st')
      (ht : st.type? owner = some t) {entries : List Slot} (hentries : t.entries = .ok entries) :
      ∃ entries, st'.entries? owner = some entries :=
    ⟨entries, TypeStore.entries?_eq_some.2 ⟨t, hg.type _ _ ht, hentries⟩⟩
  refine (tracks_typeOf owner).bind fun t store₁ _ ht ↦ ?_
  split
  case isTrue hcls =>
    refine ((grows_allocate t.size).tracks (enlarges_allocate t.size)).bind
      fun v store₂ hg₂ hv ↦ tracks_pure fun st hg ↦ ⟨⟨?_, List.nodup_singleton v⟩, ?_⟩
    · exact fun x hx ↦ List.mem_singleton.1 hx ▸ hv.2
    · have hentries : t.entries = .ok [⟨0, .pointer⟩] := by simp [ConcreteType.entries, hcls]
      exact hlaid (hg₂.trans hg) ht hentries
  case isFalse =>
    refine ((yields_ofLayout t.slots).tracks (quiet_ofLayout t.slots).enlarges).bind
      fun slots store₂ hg₂ hslots ↦ ?_
    obtain ⟨entries, hentries⟩ := ConcreteType.exists_entries_of_slots hslots.1
    refine ((grows_newVars slots).tracks (enlarges_newVars_nodup slots)).bind
      fun vars store₃ hg₃ hvars ↦ ?_
    refine ((grows_clear vars).tracks (enlarges_clear hvars.2.1)).bind
      fun _ store₄ hg₄ _ ↦ tracks_pure fun st hg ↦ ⟨hvars.2, ?_⟩
    exact hlaid (hg₂.trans (hg₃.trans (hg₄.trans hg))) ht hentries

/-- **The statements of a constructor have a receiver of their own.** -/
theorem Underway.ensures_constructorSelf (h : Underway σ us frame s) (owner : Handle) :
    Ensures (constructorSelf owner frame) s fun self s' ↦
      ∃ us', Underway σ us' { frame with self := self, selfType := owner } s' := by
  refine ((writes_constructorSelf owner us s h.writing (Nat.le_refl _)).and
    (tracks_constructorSelf owner s (.refl _) h.steady h.scope h.writing.hasCurrent
      (Nat.le_refl _) (Nat.le_refl _))).imp ?_
  rintro self s' ⟨⟨us', hw, hc, hself⟩, hg, -, ⟨hmade, hnodup⟩, hentries⟩
  have hlater := h.later hw hc.vars_le hg
  exact ⟨us', {
    writing := hw
    below := ⟨hself, hlater.below.locals⟩
    steady := hlater.steady
    scope := hlater.scope
    apart := { h.apart with
      nodup_receiver := hnodup
      apart_receiver := fun i row hrow v hv hv' ↦ Nat.not_le_of_lt
        (h.below.locals row (Array.mem_of_getElem? hrow) v hv) (hmade v hv') }
    self_laid := fun _ ↦ hentries }⟩

end Lowering

end WasmBackend
