import WasmBackend.Proofs.Lowering.Linking

/-!
# Results in more than one slot

A function returns the first slot of its result natively and stores the others to scratch memory
right before; behind a call they are loaded again.  Both sides find the scratch slot of a position
by its primitive in one table, where no entry stands twice and none ever moves.  So a caller loads
from where the callee has stored, position by position, when as many variables of the same
primitives are returned as are collected, and nothing else stands in between.
-/

namespace WasmBackend.Lowering

open Ir (Instr Scratch Var)
open Stage (Ensures)

variable {α β : Type} {frame : Frame} {s s' s'' t : Lowering} {is js : List Instr}

/-! ## The table of scratch slots -/

section Intern

variable [DecidableEq α]

theorem getElem?_intern (x : α) (xs : List α) :
    (Ir.intern x xs).2[(Ir.intern x xs).1]? = some x := by
  unfold Ir.intern
  split
  · rename_i i hi
    obtain ⟨hlt, hx, -⟩ := List.findIdx?_eq_some_iff_getElem.1 hi
    rw [List.getElem?_eq_getElem hlt, of_decide_eq_true hx]
  · simp

theorem prefix_intern (x : α) (xs : List α) : xs <+: (Ir.intern x xs).2 := by
  rw [Ir.snd_intern]
  split
  · exact List.prefix_rfl
  · exact List.prefix_append xs [x]

theorem nodup_intern (x : α) {xs : List α} (h : xs.Nodup) : (Ir.intern x xs).2.Nodup := by
  rw [Ir.snd_intern]
  split
  · exact h
  · rename_i hx
    rw [← List.concat_eq_append]
    exact h.concat hx

end Intern

/-! ## Code that uses scratch slots -/

/-- Takes the address of a scratch slot. -/
def scratchAddress (slot : ℕ) (base : Var) : Instr :=
  { op := .addr, dst := [base], zone := .scratch, index := slot, storage := .pointer }

/-- Loads a variable from an address. -/
def loadFrom (p : Prim) (base v : Var) : Instr :=
  { op := .load, dst := [v], args := [base], storage := p }

/-- Stores a variable to an address. -/
def storeTo (p : Prim) (base v : Var) : Instr :=
  { op := .store, args := [base, v], storage := p }

theorem getElem?_of_isPrefix {xs ys : List α} {i : ℕ} {x : α} (h : xs <+: ys)
    (hx : xs[i]? = some x) : ys[i]? = some x := by
  obtain ⟨rest, rfl⟩ := h
  rw [List.getElem?_append_left (List.getElem?_eq_some_iff.1 hx).1, hx]

/-- For every variable, with the positions from `k` on, the code takes the address of the scratch
slot of its position and primitive, and uses it for the variable. -/
inductive Accesses (s : Lowering) (access : Prim → Var → Var → Instr) :
    ℕ → List Var → List ℕ → List Instr → Prop
  | nil (k : ℕ) : Accesses s access k [] [] []
  | cons {k : ℕ} {p : Prim} {base v : Var} {slot : ℕ} {vs : List Var} {slots : List ℕ}
      {is : List Instr} (prim : s.vars[v]? = some p)
      (place : s.unit.scratch[slot]? = some ⟨(k : ℤ), p⟩)
      (rest : Accesses s access (k + 1) vs slots is) :
      Accesses s access k (v :: vs) (slot :: slots)
        (scratchAddress slot base :: access p base v :: is)

section Accesses

variable {access access' : Prim → Var → Var → Instr} {k : ℕ} {vs ws : List Var}
  {slots slots' : List ℕ}

/-- Every slot that is used belongs to a position. -/
theorem Accesses.exists_of_mem (h : Accesses s access k vs slots is) {slot : ℕ}
    (hslot : slot ∈ slots) :
    ∃ i p, k ≤ i ∧ s.unit.scratch[slot]? = some ⟨((i : ℕ) : ℤ), p⟩ := by
  induction h with
  | nil => cases hslot
  | @cons k p _ _ _ _ _ _ _ place _ ih =>
    obtain rfl | hslot := List.mem_cons.1 hslot
    · exact ⟨k, p, le_rfl, place⟩
    · obtain ⟨i, q, hi, hq⟩ := ih hslot
      exact ⟨i, q, (Nat.le_succ k).trans hi, hq⟩

/-- Different positions use different slots. -/
theorem Accesses.nodup (h : Accesses s access k vs slots is) : slots.Nodup := by
  induction h with
  | nil => exact List.nodup_nil
  | @cons k p _ _ slot _ _ _ _ place rest ih =>
    apply List.nodup_cons.2
    refine ⟨?_, ih⟩
    intro hslot
    obtain ⟨i, q, hi, hq⟩ := rest.exists_of_mem hslot
    have hposition : (k : ℤ) = i := by
      rw [place] at hq
      exact (Scratch.mk.inj (Option.some.inj hq)).1
    omega

/-- Variables of the same primitives use the same slots, whatever they are used for. -/
theorem Accesses.slots_eq {table : List Scratch} (htable : table.Nodup)
    (hs : s.unit.scratch <+: table) (ht : t.unit.scratch <+: table)
    (h : Accesses s access k vs slots is) (h' : Accesses t access' k ws slots' js)
    (hprims : vs.map (s.vars[·]?) = ws.map (t.vars[·]?)) : slots = slots' := by
  induction h generalizing ws slots' js with
  | nil =>
    cases h' with
    | nil => rfl
    | cons => cases hprims
  | @cons k p _ v slot _ _ _ prim place _ ih =>
    cases h' with
    | nil => cases hprims
    | @cons _ p' _ _ slot' _ _ _ prim' place' rest' =>
      rw [List.map_cons, List.map_cons, prim, prim'] at hprims
      obtain ⟨hp, hrest⟩ := List.cons_eq_cons.1 hprims
      obtain rfl : p = p' := Option.some.inj hp
      have hslot : table[slot]? = table[slot']? :=
        (getElem?_of_isPrefix hs place).trans (getElem?_of_isPrefix ht place').symm
      obtain ⟨hlt, -⟩ := List.getElem?_eq_some_iff.1 (getElem?_of_isPrefix hs place)
      rw [(List.getElem?_inj hlt htable).1 hslot, ih rest' hrest]

end Accesses

/-! ## Steps that put code at the end of a block -/

/-- From the first state to the second these instructions are put at the end of the current block,
scratch slots are only added, none twice, and variables keep their primitives. -/
structure Emits (s s' : Lowering) (is : List Instr) : Prop where
  blocks : s'.blocks = s.blocks.modify (s.current - 1) fun b ↦ { b with instrs := b.instrs ++ is }
  current : s'.current = s.current
  scratch : s.unit.scratch <+: s'.unit.scratch
  nodup : s.unit.scratch.Nodup → s'.unit.scratch.Nodup
  vars : ∀ (v : Var) (p : Prim), s.vars[v]? = some p → s'.vars[v]? = some p

/-- Steps that touch no block put nothing there. -/
theorem Emits.of_blocks_eq (hblocks : s'.blocks = s.blocks) (hcurrent : s'.current = s.current)
    (hscratch : s.unit.scratch <+: s'.unit.scratch)
    (hnodup : s.unit.scratch.Nodup → s'.unit.scratch.Nodup)
    (hvars : ∀ (v : Var) (p : Prim), s.vars[v]? = some p → s'.vars[v]? = some p) :
    Emits s s' [] where
  blocks := by
    rw [hblocks]
    apply Array.ext_getElem?
    intro i
    rw [Array.getElem?_modify]
    split
    · cases s.blocks[i]? <;> simp
    · rfl
  current := hcurrent
  scratch := hscratch
  nodup := hnodup
  vars := hvars

theorem Emits.refl (s : Lowering) : Emits s s [] :=
  .of_blocks_eq rfl rfl List.prefix_rfl (fun h ↦ h) fun _ _ h ↦ h

theorem Emits.trans (h : Emits s s' is) (h' : Emits s' s'' js) : Emits s s'' (is ++ js) where
  blocks := by
    rw [h'.blocks, h.blocks, h.current]
    apply Array.ext_getElem?
    intro i
    simp only [Array.getElem?_modify]
    split
    · cases s.blocks[i]? <;> simp
    · rfl
  current := h'.current.trans h.current
  scratch := h.scratch.trans h'.scratch
  nodup hs := h'.nodup (h.nodup hs)
  vars v p hv := h'.vars v p (h.vars v p hv)

theorem Accesses.mono {access : Prim → Var → Var → Instr} {k : ℕ} {vs : List Var} {slots : List ℕ}
    (h : Accesses s access k vs slots is) (hs : Emits s s' js) :
    Accesses s' access k vs slots is := by
  induction h with
  | nil k => exact .nil k
  | cons prim place _ ih =>
    exact .cons (hs.vars _ _ prim) (getElem?_of_isPrefix hs.scratch place) ih

/-- From `s` the step puts instructions at the end of the current block; `post` is told what it
gives, these instructions, and the state it leaves. -/
def Adds (frame : Frame) (s : Lowering) (x : M α) (post : α → List Instr → Lowering → Prop) :
    Prop :=
  Ensures (x frame) s fun a s' ↦ ∃ is, Emits s s' is ∧ post a is s'

section Adds

variable {x : M α} {post : α → List Instr → Lowering → Prop}

theorem Adds.imp {post' : α → List Instr → Lowering → Prop} (h : Adds frame s x post)
    (hpost : ∀ a is s', Emits s s' is → post a is s' → post' a is s') : Adds frame s x post' :=
  Stage.Meets.imp h fun a s' ⟨is, hs', ha⟩ ↦ ⟨is, hs', hpost a is s' hs' ha⟩

theorem Adds.bind {f : α → M β} {post' : β → List Instr → Lowering → Prop}
    (hx : Adds frame s x post)
    (hf : ∀ a is s', Emits s s' is → post a is s' →
      Adds frame s' (f a) fun b js s'' ↦ post' b (is ++ js) s'') :
    Adds frame s (x >>= f) post' := by
  show Ensures (x frame >>= fun a ↦ f a frame) s _
  rw [Ensures, Stage.meets_bind]
  refine Stage.Meets.imp hx ?_
  rintro a s₁ ⟨is, hs₁, ha⟩
  refine Stage.Meets.imp (hf a is s₁ hs₁ ha) ?_
  rintro b s₂ ⟨js, hs₂, hb⟩
  exact ⟨is ++ js, hs₁.trans hs₂, hb⟩

theorem adds_pure {a : α} (h : post a [] s) : Adds frame s (pure a) post :=
  ⟨[], .refl s, h⟩

theorem adds_emit (i : Instr) : Adds frame s (emit i) fun _ is _ ↦ is = [i] :=
  ⟨[i], ⟨rfl, rfl, List.prefix_rfl, fun h ↦ h, fun _ _ h ↦ h⟩, rfl⟩

theorem adds_newVar (p : Prim) :
    Adds frame s (newVar p) fun v is s' ↦ is = [] ∧ s'.vars[v]? = some p := by
  refine ⟨[], .of_blocks_eq rfl rfl List.prefix_rfl (fun h ↦ h) ?_, rfl,
    Array.getElem?_push_size⟩
  intro v q hv
  obtain ⟨hlt, hq⟩ := Array.getElem?_eq_some_iff.1 hv
  rw [← hq]
  exact Array.getElem?_push_lt hlt

theorem adds_scratchSlot (k : ℕ) (p : Prim) :
    Adds frame s (scratchSlot k p) fun slot is s' ↦
      is = [] ∧ s'.unit.scratch[slot]? = some ⟨(k : ℤ), p⟩ :=
  ⟨[], .of_blocks_eq rfl rfl (prefix_intern _ _) (nodup_intern _) fun _ _ h ↦ h, rfl,
    getElem?_intern _ _⟩

theorem adds_address (slot : ℕ) :
    Adds frame s (address .scratch slot) fun base is _ ↦ is = [scratchAddress slot base] := by
  refine (adds_newVar .pointer).bind ?_
  rintro base _ s₁ - ⟨rfl, -⟩
  refine (adds_emit _).bind ?_
  rintro _ _ s₂ - rfl
  exact adds_pure rfl

theorem adds_get {f : Lowering → M β} {post : β → List Instr → Lowering → Prop}
    (h : Adds frame s (f s) post) : Adds frame s (get >>= f) post :=
  h

theorem adds_primOf (v : Var) :
    Adds frame s (primOf v) fun p is s' ↦ is = [] ∧ s'.vars[v]? = some p := by
  refine adds_get ?_
  cases hv : s.vars[v]? with
  | some p => exact adds_pure ⟨rfl, hv⟩
  | none => trivial

theorem adds_onStore (x : TypeStore.M α) : Adds frame s (onStore x) fun _ is _ ↦ is = [] := by
  unfold Adds onStore
  rw [Ensures, Stage.meets_adapt, Stage.meets_zoom]
  apply Stage.ensures_true.imp
  intro a store _
  exact ⟨[], .of_blocks_eq rfl rfl List.prefix_rfl (fun h ↦ h) fun _ _ h ↦ h, rfl⟩

theorem adds_slotsOf (h : Handle) : Adds frame s (slotsOf h) fun _ is _ ↦ is = [] := by
  refine (adds_onStore _).bind ?_
  rintro t _ s₁ - rfl
  cases t.slots with
  | ok ps => exact adds_pure rfl
  | error e => trivial

end Adds

/-! ## Both sides of a result -/

theorem adds_load (k : ℕ) (p : Prim) :
    Adds frame s
      (do
        let slot ← scratchSlot k p
        let base ← address .scratch slot
        let w ← newVar p
        emit { op := .load, dst := [w], args := [base], storage := p }
        return w)
      fun w is s' ↦ s'.vars[w]? = some p ∧ ∃ slot base,
        s'.unit.scratch[slot]? = some ⟨(k : ℤ), p⟩ ∧
          is = [scratchAddress slot base, loadFrom p base w] := by
  refine (adds_scratchSlot k p).bind ?_
  rintro slot _ s₁ - ⟨rfl, hslot⟩
  refine (adds_address slot).bind ?_
  rintro base _ s₂ hs₂ rfl
  refine (adds_newVar p).bind ?_
  rintro w _ s₃ hs₃ ⟨rfl, hw⟩
  refine (adds_emit _).bind ?_
  rintro _ _ s₄ hs₄ rfl
  have hscratch := (hs₂.trans (hs₃.trans hs₄)).scratch
  exact adds_pure ⟨hs₄.vars w p hw, slot, base, getElem?_of_isPrefix hscratch hslot, rfl⟩

theorem adds_store (k : ℕ) (w : Var) :
    Adds frame s
      (do
        let p ← primOf w
        let slot ← scratchSlot k p
        let base ← address .scratch slot
        emit { op := .store, args := [base, w], storage := p }
        pure (ForInStep.yield PUnit.unit))
      fun r is s' ↦ r = .yield ⟨⟩ ∧ ∃ p slot base, s'.vars[w]? = some p ∧
        s'.unit.scratch[slot]? = some ⟨(k : ℤ), p⟩ ∧
          is = [scratchAddress slot base, storeTo p base w] := by
  refine (adds_primOf w).bind ?_
  rintro p _ s₀ - ⟨rfl, hw⟩
  refine (adds_scratchSlot k p).bind ?_
  rintro slot _ s₁ hs₁ ⟨rfl, hslot⟩
  refine (adds_address slot).bind ?_
  rintro base _ s₂ hs₂ rfl
  refine (adds_emit _).bind ?_
  rintro _ _ s₃ hs₃ rfl
  have hs := hs₂.trans hs₃
  exact adds_pure ⟨rfl, p, slot, base, (hs₁.trans hs).vars w p hw,
    getElem?_of_isPrefix hs.scratch hslot, rfl⟩

/-- The variables for the positions from `n + 1` on are loaded. -/
theorem adds_loads (ps : List Prim) (n : ℕ) :
    Adds frame s
      ((ps.zipIdx n).mapM fun (q, k) ↦ do
        let slot ← scratchSlot (k + 1) q
        let base ← address .scratch slot
        let w ← newVar q
        emit { op := .load, dst := [w], args := [base], storage := q }
        return w)
      fun ws is s' ↦ ∃ slots, Accesses s' loadFrom (n + 1) ws slots is := by
  induction ps generalizing s n with
  | nil => exact adds_pure ⟨[], .nil _⟩
  | cons p ps ih =>
    rw [List.zipIdx_cons, List.mapM_cons]
    refine (adds_load (n + 1) p).bind ?_
    rintro w _ s₁ - ⟨hw, slot, base, hslot, rfl⟩
    refine (ih (n + 1)).bind ?_
    rintro ws is s₂ hs₂ ⟨slots, hslots⟩
    refine adds_pure ⟨slot :: slots, ?_⟩
    rw [List.append_nil]
    exact .cons (hs₂.vars w p hw) (getElem?_of_isPrefix hs₂.scratch hslot) hslots

/-- The variables for the positions from `n + 1` on are stored. -/
theorem adds_stores (ws : List Var) (n : ℕ) :
    Adds frame s
      (forIn (ws.zipIdx n) PUnit.unit fun (w, k) _ ↦ do
        let p ← primOf w
        let slot ← scratchSlot (k + 1) p
        let base ← address .scratch slot
        emit { op := .store, args := [base, w], storage := p }
        pure (.yield PUnit.unit))
      fun _ is s' ↦ ∃ slots, Accesses s' storeTo (n + 1) ws slots is := by
  induction ws generalizing s n with
  | nil => exact adds_pure ⟨[], .nil _⟩
  | cons w ws ih =>
    rw [List.zipIdx_cons, List.forIn_cons]
    refine (adds_store (n + 1) w).bind ?_
    rintro _ _ s₁ - ⟨rfl, p, slot, base, hw, hslot, rfl⟩
    refine (ih (n + 1)).imp ?_
    rintro _ is s₂ hs₂ ⟨slots, hslots⟩
    exact ⟨slot :: slots, .cons (hs₂.vars w p hw) (getElem?_of_isPrefix hs₂.scratch hslot) hslots⟩

/-- Behind a call the slots after the first are loaded. -/
theorem adds_emitCall (call : Instr) (result : Handle) :
    Adds frame s (emitCall call result) fun vs is s' ↦ ∀ v rest, vs = v :: rest →
      ∃ slots loads, is = { call with dst := [v] } :: loads ∧
        Accesses s' loadFrom 1 rest slots loads := by
  refine (adds_slotsOf result).bind ?_
  rintro ps _ s₁ - rfl
  cases ps with
  | nil =>
    refine (adds_emit call).bind ?_
    rintro _ _ s₂ - rfl
    exact adds_pure nofun
  | cons p ps =>
    refine (adds_newVar p).bind ?_
    rintro v _ s₂ - ⟨rfl, -⟩
    refine (adds_emit _).bind ?_
    rintro _ _ s₃ - rfl
    refine (adds_loads ps 0).bind ?_
    rintro ws is s₄ - ⟨slots, hslots⟩
    refine adds_pure ?_
    rintro _ _ ⟨rfl, rfl⟩
    rw [List.append_nil]
    exact ⟨slots, is, rfl, hslots⟩

/-- Before a return the slots after the first are stored. -/
theorem adds_lowerReturn (w : Var) (ws : List Var) :
    Adds frame s (lowerReturn (w :: ws)) fun _ is s' ↦
      ∃ slots stores, is = stores ++ [{ op := .ret, args := [w] }] ∧
        Accesses s' storeTo 1 ws slots stores := by
  refine (adds_stores ws 0).bind ?_
  rintro _ is s₁ - ⟨slots, hslots⟩
  refine (adds_emit _).imp ?_
  rintro _ _ s₂ hs₂ rfl
  exact ⟨slots, is, rfl, hslots.mono hs₂⟩

/-- **A caller loads from where the callee has stored.**  The code behind a call and the code before
a return use the same scratch slots, position by position and none for two positions, when the
variables that are collected have the primitives of those that are returned. -/
theorem loads_match_stores {call : Instr} {result : Handle} {frame' : Frame} {t t' : Lowering}
    {table : List Scratch} {v w : Var} {vs ws : List Var}
    (hcall : emitCall call result frame s = (.ok (v :: vs), s'))
    (hreturn : lowerReturn (w :: ws) frame' t = (.ok ⟨⟩, t'))
    (hs : s'.unit.scratch <+: table) (ht : t'.unit.scratch <+: table) (htable : table.Nodup)
    (hprims : vs.map (s'.vars[·]?) = ws.map (t'.vars[·]?)) :
    ∃ slots loads stores, slots.Nodup ∧
      Emits s s' ({ call with dst := [v] } :: loads) ∧
      Accesses s' loadFrom 1 vs slots loads ∧
      Emits t t' (stores ++ [{ op := .ret, args := [w] }]) ∧
      Accesses t' storeTo 1 ws slots stores := by
  obtain ⟨_, hemits, hcollect⟩ := Stage.Ensures.of_eq (adds_emitCall call result) hcall
  obtain ⟨slots, loads, rfl, hloads⟩ := hcollect v vs rfl
  obtain ⟨_, hemits', slots', stores, rfl, hstores⟩ :=
    Stage.Ensures.of_eq (adds_lowerReturn w ws) hreturn
  obtain rfl : slots = slots' := hloads.slots_eq htable hs ht hstores hprims
  exact ⟨slots, loads, stores, hloads.nodup, hemits, hloads, hemits', hstores⟩

/-! ## Intrinsics -/

theorem ensures_behind {x : M α} {f : α → M β} {post : β → Lowering → Prop}
    (h : ∀ a t, Ensures (f a frame) t post) : Ensures ((x >>= f) frame) s post :=
  meets_bind.2 (Stage.ensures_true.imp fun a t _ ↦ h a t)

theorem length_nativeResult_le (result : Handle) :
    Ensures (nativeResult result frame) s fun vs _ ↦ vs.length ≤ 1 := by
  refine ensures_behind ?_
  intro ps t
  cases ps with
  | nil => exact Nat.zero_le 1
  | cons p ps => exact Nat.le_refl 1

/-- An intrinsic gives no slot behind the first, whatever the type of its result: a function that
returns what it gives stores nothing. -/
theorem length_lowerNative_le (name : Text) (args : List Var) (result : Handle) :
    Ensures (lowerNative name args result frame) s fun vs _ ↦ vs.length ≤ 1 := by
  refine meets_bind.2 ((length_nativeResult_le result).imp ?_)
  intro vs s₁ hvs
  refine ensures_behind ?_
  intro storage s₂
  split
  · exact ensures_behind fun _ _ ↦ ensures_behind fun _ _ ↦ hvs
  · exact ensures_behind fun _ _ ↦ hvs

end WasmBackend.Lowering
