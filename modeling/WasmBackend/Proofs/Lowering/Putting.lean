import WasmBackend.Proofs.Lowering.AddedCode
import WasmBackend.Proofs.Lowering.Places

/-!
# Writing into a place

Writing variables into a value copies them to its slots or stores them to its entries, one after
another.  As long as the slots and the variables do not overlap halfway, this gives the place the
values that the variables have before the first of these instructions.
-/

namespace WasmBackend

open Ir (Instr Machine Run State Var runInstrs)
open Stage (Ensures)

/-! ## Copies and stores -/

namespace Ir

variable {V W : Type} {m : Machine V W}

/-- Copying gives the value that is copied. -/
def Machine.Copies (m : Machine V W) : Prop :=
  ∀ x w, m.step { op := .copy } [x] w = .done [x] w

/-- A machine that moves numbers about and negates them as truth values. -/
def mover : Machine Nat Unit where
  zero _ := 0
  test n := some (n != 0)
  step i args world :=
    match i.op, args with
    | .const, [] => .done [i.imm.toInt.toNat] world
    | .copy, [a] => .done [a] world
    | .eqz, [a] => .done [if a = 0 then 1 else 0] world
    | _, _ => .trap (if i.terminates then .unreachable else .malformed)
  world_of_pure := by
    intro i args world results world' _ h
    split at h <;> cases h <;> rfl
  returns_of_pure := by
    intro i args world _
    split <;> simp
  trap_of_terminates := by
    intro i args world hterminates
    split <;> simp_all [Instr.terminates]

theorem copies_mover : mover.Copies :=
  fun _ _ ↦ rfl

/-- Copies a variable. -/
def copyInto (d v : Var) : Instr :=
  { op := .copy, dst := [d], args := [v] }

/-- Copies variables into slots one after another, where the two differ. -/
def slotCopies (slots vars : List Var) : List Instr :=
  ((slots.zip vars).filter fun p ↦ p.1 ≠ p.2).map fun p ↦ copyInto p.1 p.2

/-- An operation with one result that leaves the world alone puts it into its variable. -/
theorem Instr.run_of_done {i : Instr} {d : Var} {x : V} {st : State V W} (hphi : i.op ≠ .phi)
    (hcontrol : i.isControl = false) (heffect : i.isEffect = false) (hdst : i.dst = [d])
    (hstep : m.step i.operation (i.args.map st.vars) st.world = .done [x] st.world) :
    i.run m st = (st.set d x, .fall) := by
  have hrecord : st.record i (i.args.map st.vars) = st := by
    unfold State.record
    rw [heffect]
    rfl
  unfold Instr.run
  rw [if_neg hphi, hcontrol]
  show i.apply m st = _
  unfold Instr.apply
  dsimp only
  rw [hrecord, hstep, hdst]
  rfl

theorem run_copyInto (hm : m.Copies) (d v : Var) (st : State V W) :
    (copyInto d v).run m st = (st.set d (st.vars v), .fall) :=
  Instr.run_of_done nofun rfl rfl rfl (hm _ _)

theorem State.setAll_eq_self {st : State V W} {bindings : List (Var × V)}
    (h : ∀ p ∈ bindings, st.vars p.1 = p.2) : st.setAll bindings = st := by
  induction bindings with
  | nil => rfl
  | cons p bindings ih =>
    have hset : st.set p.1 p.2 = st := by
      unfold State.set
      congr 1
      funext w
      split
      · rw [← h p List.mem_cons_self]
        congr 1
        exact Eq.symm ‹_›
      · rfl
    show (st.set p.1 p.2).setAll bindings = st
    rw [hset]
    exact ih fun q hq ↦ h q (List.mem_cons_of_mem p hq)

/-- Slots that all differ hold what they are given. -/
theorem State.map_vars_setAll {slots : List Var} {values : List V} (hnodup : slots.Nodup)
    (hlength : slots.length = values.length) (st : State V W) :
    slots.map (st.setAll (slots.zip values)).vars = values := by
  induction slots generalizing values st with
  | nil => exact (List.length_eq_zero_iff.1 hlength.symm).symm
  | cons d slots ih =>
    obtain - | ⟨x, values⟩ := values
    · cases hlength
    obtain ⟨hd, hnodup⟩ := List.nodup_cons.1 hnodup
    have hfirst : ((st.set d x).setAll (slots.zip values)).vars d = x := by
      refine (State.vars_setAll_of_forall_ne ?_).trans (if_pos rfl)
      rintro p hp rfl
      exact hd (List.of_mem_zip hp).1
    show ((st.set d x).setAll (slots.zip values)).vars d :: _ = _
    rw [hfirst]
    exact congrArg (x :: ·) (ih hnodup (Nat.succ.inj hlength) _)

/-- Copies between slots and variables that are the same, or have none in common, give the slots
the values that the variables have before the first copy. -/
theorem runInstrs_slotCopies (hm : m.Copies) {slots vars : List Var}
    (h : slots = vars ∨ slots.Disjoint vars) (st : State V W) :
    runInstrs m (slotCopies slots vars) st
      = (st.setAll (slots.zip (vars.map st.vars)), .fall) := by
  obtain rfl | h := h
  · have hpairs {γ : Type} (f : Var → γ) : ∀ p ∈ slots.zip (slots.map f), f p.1 = p.2 := by
      rw [← List.map_prod_left_eq_zip]
      simp
    have hnone : slotCopies slots slots = [] := by
      have hsame := hpairs id
      rw [List.map_id] at hsame
      rw [slotCopies, List.filter_eq_nil_iff.2 (by simpa using hsame), List.map_nil]
    rw [hnone, State.setAll_eq_self (hpairs st.vars)]
    rfl
  · induction slots generalizing vars st with
    | nil => rfl
    | cons d slots ih =>
      cases vars with
      | nil => rfl
      | cons v vars =>
        have hne : d ≠ v := fun heq ↦ h List.mem_cons_self (heq ▸ List.mem_cons_self)
        have hcode : slotCopies (d :: slots) (v :: vars)
            = copyInto d v :: slotCopies slots vars := by
          simp [slotCopies, hne]
        have hrest : slots.Disjoint vars := fun x hx hx' ↦
          h (List.mem_cons_of_mem d hx) (List.mem_cons_of_mem v hx')
        have hkept : vars.map (st.set d (st.vars v)).vars = vars.map st.vars := by
          refine List.map_congr_left fun w hw ↦ if_neg ?_
          rintro rfl
          exact h List.mem_cons_self (List.mem_cons_of_mem v hw)
        rw [hcode, runInstrs, Run.andThen, run_copyInto hm]
        dsimp only
        rw [ih _ hrest, hkept]
        rfl

/-- Apply the operation of an instruction without results to values. -/
def Instr.applyTo (m : Machine V W) (i : Instr) (args : List V) : Run V W := fun st ↦
  let st := st.record i args
  match m.step i.operation args st.world with
  | .done [] world => ({ st with world := world }, .fall)
  | .done _ _ => (st, .trap .malformed)
  | .trap reason => (st, .trap reason)
  | .never => (st, .never)

theorem Instr.apply_of_no_results {i : Instr} (h : i.dst = []) (st : State V W) :
    i.apply m st = i.applyTo m (i.args.map st.vars) st := by
  unfold Instr.apply Instr.applyTo
  dsimp only
  rw [h]
  cases m.step i.operation (i.args.map st.vars) (st.record i (i.args.map st.vars)).world with
  | done results world => cases results <;> rfl
  | trap reason => rfl
  | never => rfl

theorem Instr.vars_applyTo (i : Instr) (args : List V) (st : State V W) :
    (i.applyTo m args st).1.vars = st.vars := by
  unfold Instr.applyTo
  dsimp only
  split <;> exact State.vars_record ..

/-- Store values to the entries that start behind a pointer, one after another. -/
def storeAll (m : Machine V W) (pointer : V) (place : Nat) : List (Slot × V) → Run V W
  | [] => Run.skip
  | (e, x) :: rest =>
    Run.andThen (Instr.applyTo m
        { op := .store, storage := e.prim, offset := (place + e.offset).toUInt32 } [pointer, x])
      (storeAll m pointer place rest)

end Ir

namespace Lowering

open Ir (copyInto slotCopies storeAll)

variable {V W : Type} {m : Machine V W} {budget : Nat} {frame : Frame} {s s' : Lowering}

theorem run_storeEntry (base : Var) (place : Nat) (e : Slot) (v : Var) (st : State V W) :
    (storeEntry base place e v).run m st = Ir.Instr.applyTo m
      { op := .store, storage := e.prim, offset := (place + e.offset).toUInt32 }
      [st.vars base, st.vars v] st := by
  show (storeEntry base place e v).apply m st = _
  rw [Ir.Instr.apply_of_no_results rfl]
  rfl

/-- Stores store the values that the variables have before the first one, behind the pointer as it
is then. -/
theorem runInstrs_storeEntries (base : Var) (place : Nat) (entries : List Slot) (vars : List Var)
    (st : State V W) :
    runInstrs m (List.zipWith (storeEntry base place) entries vars) st
      = storeAll m (st.vars base) place (entries.zip (vars.map st.vars)) st := by
  induction entries generalizing vars st with
  | nil => rfl
  | cons e entries ih =>
    cases vars with
    | nil => rfl
    | cons v vars =>
      rw [List.zipWith_cons_cons, runInstrs, List.map_cons, List.zip_cons_cons, storeAll]
      unfold Run.andThen
      rw [run_storeEntry]
      have hvars := Ir.Instr.vars_applyTo (m := m)
        { op := .store, storage := e.prim, offset := (place + e.offset).toUInt32 }
        [st.vars base, st.vars v] st
      generalize Ir.Instr.applyTo m _ [st.vars base, st.vars v] st = r at hvars
      obtain ⟨st', exit⟩ := r
      cases exit with
      | fall =>
        dsimp only at hvars ⊢
        rw [ih, hvars]
      | _ => rfl

/-! ## The code of writing -/

theorem adds_slotCopies (pairs : List (Var × Var)) :
    Adds frame s
      (forIn pairs PUnit.unit fun p _ ↦ do
        if p.1 ≠ p.2 then emit { op := .copy, dst := [p.1], args := [p.2] }
        pure (.yield PUnit.unit))
      fun _ is _ ↦ is = (pairs.filter fun p ↦ p.1 ≠ p.2).map fun p ↦ copyInto p.1 p.2 := by
  induction pairs generalizing s with
  | nil => exact adds_pure rfl
  | cons p pairs ih =>
    rw [List.forIn_cons]
    have hfirst : Adds frame s (do
        if p.1 ≠ p.2 then emit { op := .copy, dst := [p.1], args := [p.2] }
        pure (ForInStep.yield PUnit.unit)) fun r is _ ↦
          r = .yield ⟨⟩ ∧ is = ([p].filter fun p ↦ p.1 ≠ p.2).map fun p ↦ copyInto p.1 p.2 := by
      by_cases hne : p.1 = p.2
      · simp only [hne, ne_eq, not_true_eq_false, if_false]
        exact adds_pure ⟨rfl, by simp [hne]⟩
      · simp only [hne, ne_eq, not_false_eq_true, if_true]
        refine (adds_emit _).bind ?_
        rintro _ _ s₁ - rfl
        exact adds_pure ⟨rfl, by simp [hne, copyInto]⟩
    refine hfirst.bind ?_
    rintro _ _ s₁ - ⟨rfl, rfl⟩
    refine ih.imp ?_
    rintro _ _ s₂ - rfl
    rw [← List.map_append, ← List.filter_append, List.singleton_append]

/-- Writing to variables copies, slot by slot. -/
theorem adds_writeSlots (h : Handle) (slots vars : List Var) :
    Adds frame s (writeValue (.direct h slots) vars) fun _ is _ ↦
      slots.length = vars.length ∧ is = slotCopies slots vars := by
  unfold writeValue
  dsimp only
  split
  · trivial
  · refine (adds_slotCopies _).bind ?_
    rintro _ _ s₁ - rfl
    exact adds_pure ⟨not_not.1 ‹_›, by simp [slotCopies]⟩

theorem Emits.block?_current {is : List Instr} (h : Emits s s' is) (hs : s.HasCurrent) :
    s'.draft.block? s.current = (s.draft.block? s.current).map fun c ↦ Block.and c is := by
  have hdraft : s'.draft.block? s.current
      = (s.draft.updateBlock s.current fun c ↦ Block.and c is).block? s.current := by
    have hblocks : s'.draft.blocks
        = s.draft.blocks.modify (s.current - 1) fun c ↦ Block.and c is := h.blocks
    simp only [Ir.Function.block?, Ir.Function.updateBlock, if_neg (Nat.ne_of_gt hs.pos), hblocks]
  rw [hdraft, Ir.Function.block?_updateBlock, if_pos rfl]

/-- The code of a step that opens no block is what it puts behind the current one. -/
theorem Progress.run_of_emits {σ : Scope} {n b : Nat} {us us' : Ir.Forest} {is : List Instr}
    (h : Progress σ frame n b us s us' s') (he : Emits s s' is) :
    (∀ i ∈ is, Tame frame n b i) ∧ runAdded m budget s s' = runInstrs m is := by
  obtain ⟨is', ts, hcode, his⟩ := h.exists_code
  have hcurrent := h.before.node_current.block?_eq
  have hsame : is' = is := by
    have hinstrs := hcode.added.instrs
    conv at hinstrs =>
      lhs
      rw [Ir.Function.blockAt, he.block?_current h.before.hasCurrent, hcurrent]
    exact (List.append_cancel_left hinstrs).symm
  have hempty : ts = [] := by
    obtain ⟨hnil, -⟩ | ⟨front, rfl⟩ := hcode.last
    · exact hnil
    · -- a block that was opened would be the current one
      have hfresh := hcode.fresh s'.current (by simp [Ir.Tree.ids])
      rw [he.current] at hfresh
      exact absurd h.before.hasCurrent.le (Nat.not_le_of_lt hfresh)
  subst hsame hempty
  refine ⟨his, ?_⟩
  rw [hcode.added.run_eq]
  exact Run.andThen_skip _

/-! ## What writing does -/

/-- Put the values that variables have into a place, all as they are at the start: one after another
into the slots, or behind the pointer into the entries of the type.  The address of a global is
taken first, into a variable from `n` on. -/
inductive Puts (m : Machine V W) (store : TypeStore) (n : Nat) (vars : List Var) :
    Value → Run V W → Prop
  | slots {h : Handle} {slots : List Var} (hlength : slots.length = vars.length) :
      Puts m store n vars (.direct h slots) fun st ↦
        (st.setAll (slots.zip (vars.map st.vars)), .fall)
  | behind {h : Handle} {base : Var} {offset : UInt32} {entries : List Slot}
      (hentries : store.entries? h = some entries) (hlength : entries.length = vars.length)
      (hinside : ∀ e ∈ entries, offset.toNat + e.offset + e.prim.size < 2 ^ 32) :
      Puts m store n vars (.relative h base offset) fun st ↦
        storeAll m (st.vars base) offset.toNat (entries.zip (vars.map st.vars)) st
  | inside {h : Handle} {index : Nat} {offset : UInt32} {entries : List Slot} {base : Var}
      (hentries : store.entries? h = some entries) (hlength : entries.length = vars.length)
      (hinside : ∀ e ∈ entries, offset.toNat + e.offset + e.prim.size < 2 ^ 32)
      (hbase : n ≤ base) :
      Puts m store n vars (.global h index offset) fun st ↦
        Run.andThen ((globalAddress index base).run m)
          (fun t ↦ storeAll m (t.vars base) offset.toNat (entries.zip (vars.map st.vars)) t) st

/-- Writing to a global takes its address, then writes behind it. -/
theorem writeValue_global (h : Handle) (index : Nat) (offset : UInt32) (vars : List Var) :
    writeValue (.global h index offset) vars = (do
      let base ← address .global index
      writeValue (.relative h base offset) vars) := by
  simp [writeValue, place?, Value.type]

theorem Adds.of_eq {α : Type} {x : M α} {post : α → List Instr → Lowering → Prop} {a : α}
    (h : Adds frame s x post) (hx : x frame s = (.ok a, s')) :
    ∃ is, Emits s s' is ∧ post a is s' :=
  Stage.Ensures.of_eq h hx

/-- The address of a global goes to a new variable. -/
theorem exists_address (index : Nat) (frame : Frame) (s : Lowering) :
    ∃ t, address .global index frame s = (.ok s.vars.size, t) ∧ t.store = s.store ∧
      Emits s t [globalAddress index s.vars.size] := by
  obtain ⟨_, hnew, rfl, -⟩ := Adds.of_eq (show Adds frame s _ _ from adds_newVar .pointer) rfl
  obtain ⟨_, hemit, rfl⟩ := Adds.of_eq
    (show Adds frame _ _ _ from adds_emit (globalAddress index s.vars.size)) rfl
  exact ⟨_, rfl, rfl, hnew.trans hemit⟩

/-- The instructions that write behind a pointer put the values there. -/
theorem exists_puts_behind {h : Handle} {base : Var} {offset : UInt32} {vars : List Var}
    (hs : s.store.Steady) (hfits : (Value.relative h base offset).Fits s.store)
    (hx : writeValue (.relative h base offset) vars frame s = (.ok ⟨⟩, s')) :
    ∃ entries, Emits s s' (List.zipWith (storeEntry base offset.toNat) entries vars) ∧
      s'.store.entries? h = some entries ∧ entries.length = vars.length ∧
      ∀ e ∈ entries, offset.toNat + e.offset + e.prim.size < 2 ^ 32 := by
  obtain ⟨is, hemits, -, huses⟩ := (gathers_writePlace hfits rfl vars hs).of_eq hx
  obtain ⟨entries, base', code, hentries, hlength, hpointer, rfl, hinside⟩ := huses
  cases hpointer
  exact ⟨entries, hemits, hentries, hlength, hinside⟩

theorem vars_globalAddress (index : Nat) {base v : Var} (hne : v ≠ base) (st : State V W) :
    ((globalAddress index base).run m st).1.vars v = st.vars v := by
  have hconfined : Ir.Instr.Confined (fun _ ↦ True) (· = base) (fun _ ↦ False)
      (globalAddress index base) :=
    ⟨nofun, rfl, by simp [globalAddress], fun _ _ ↦ trivial⟩
  exact hconfined.run.vars_eq st v hne

/-- The instructions that writing puts behind the current block put the values where they belong,
unless slots and variables overlap halfway. -/
theorem exists_puts (hm : m.Copies) {target : Value} {vars : List Var} (hs : s.store.Steady)
    (hfits : target.Fits s.store) (hvars : ∀ v ∈ vars, v < s.vars.size)
    (happ : ∀ g slots, target = .direct g slots → slots.length = vars.length →
      slots = vars ∨ slots.Disjoint vars)
    (hx : writeValue target vars frame s = (.ok ⟨⟩, s')) :
    ∃ is, Emits s s' is ∧ Puts m s'.store s.vars.size vars target (runInstrs m is) := by
  cases target with
  | direct h slots =>
    obtain ⟨is, hemits, hlength, rfl⟩ := (adds_writeSlots h slots vars).of_eq hx
    refine ⟨_, hemits, ?_⟩
    rw [funext (Ir.runInstrs_slotCopies hm (happ h slots rfl hlength))]
    exact .slots hlength
  | relative h base offset =>
    obtain ⟨entries, hemits, hentries, hlength, hinside⟩ := exists_puts_behind hs hfits hx
    refine ⟨_, hemits, ?_⟩
    rw [funext (runInstrs_storeEntries base offset.toNat entries vars)]
    exact .behind hentries hlength hinside
  | global h index offset =>
    rw [writeValue_global] at hx
    obtain ⟨t, haddress, hstore, hemits⟩ := exists_address index frame s
    have hx' : writeValue (.relative h s.vars.size offset) vars frame t = (.ok ⟨⟩, s') := by
      rw [← hx]
      show _ = (address .global index frame >>= fun base ↦
        writeValue (.relative h base offset) vars frame) s
      rw [Stage.bind_apply, haddress]
    obtain ⟨entries, hemits', hentries, hlength, hinside⟩ :=
      exists_puts_behind (hstore ▸ hs) (hstore ▸ hfits) hx'
    refine ⟨_, hemits.trans hemits', ?_⟩
    -- the address is taken into a variable that none of the values is in
    have hrun : runInstrs m ([globalAddress index s.vars.size]
        ++ List.zipWith (storeEntry s.vars.size offset.toNat) entries vars) = fun st ↦
        Run.andThen ((globalAddress index s.vars.size).run m) (fun t ↦ storeAll m
          (t.vars s.vars.size) offset.toNat (entries.zip (vars.map st.vars)) t) st := by
      funext st
      rw [List.singleton_append, runInstrs]
      have hkept : vars.map ((globalAddress index s.vars.size).run m st).1.vars
          = vars.map st.vars :=
        List.map_congr_left fun v hv ↦ vars_globalAddress index (Nat.ne_of_lt (hvars v hv)) st
      unfold Run.andThen
      generalize (globalAddress index s.vars.size).run m st = r at hkept
      obtain ⟨st', exit⟩ := r
      cases exit with
      | fall =>
        dsimp only at hkept ⊢
        rw [runInstrs_storeEntries, hkept]
      | _ => rfl
    rw [hrun]
    exact .inside hentries hlength hinside (Nat.le_refl _)

end Lowering

end WasmBackend
