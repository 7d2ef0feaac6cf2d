import WasmBackend.Proofs.DeadCode.Liveness

/-!
# Removing what nothing uses

Without the instructions and assignments that are not live a function runs the same way, as long
as it does not trap: the two runs agree on the live variables, have the same effects apart from
those of pure instructions, and take the same branches.
-/

namespace WasmBackend.DeadCode

open Ir (BlockId Block Copy Correspondence Event Exit Forest Function Instr Machine Outcome SameCode
  State Targets Tree Var runInstrs)
open Stage (Succeeds)

/-- The assignments to live variables. -/
def Live.only (live : Live) (cs : List Copy) : List Copy :=
  cs.filter fun c ↦ live.has c.dst

/-- The instructions that have to stay, with the assignments they need. -/
def Live.sweptInstrs (live : Live) (is : List Instr) : List Instr :=
  is.filterMap fun i ↦ if live.retains i then some { i with copies := live.only i.copies } else none

/-- A block without what nothing uses. -/
def Live.swept (live : Live) (b : Block) : Block :=
  { b with
    instrs := live.sweptInstrs b.instrs
    exitCopies := live.only b.exitCopies
    aroundCopies := live.only b.aroundCopies
    entryCopies := live.only b.entryCopies }

theorem Live.sweptInstrs_cons (live : Live) (i : Instr) (is : List Instr) :
    live.sweptInstrs (i :: is) =
      if live.retains i then { i with copies := live.only i.copies } :: live.sweptInstrs is
      else live.sweptInstrs is := by
  unfold sweptInstrs
  rw [List.filterMap_cons]
  split <;> simp_all

/-! ## Two runs -/

section

variable {V W : Type}

/-- The effects that do not belong to pure instructions. -/
def effects (trace : List (Event V)) : List (Event V) :=
  trace.filter fun e ↦ !e.operation.isPure

/-- The second run has seen the same world, and lacks only effects of pure instructions. -/
structure Trimmed (s s' : State V W) : Prop where
  world_eq : s'.world = s.world
  effects_eq : effects s'.trace = effects s.trace
  sublist : s'.trace.Sublist s.trace

/-- Two runs agree on the live variables. -/
structure AgreeOn (live : Live) (s s' : State V W) : Prop extends Trimmed s s' where
  vars_eq : ∀ v, live.has v → s'.vars v = s.vars v

/-- How a run goes on without what nothing uses; nothing is said once the function has trapped. -/
def trimming (V W : Type) (live : Live) : Correspondence V W where
  At _ := AgreeOn live
  Stopped := Trimmed
  stopped_of_at h := h.toTrimmed
  lenient := True

variable {live : Live} {s s' : State V W}

/-- Assignments to live variables assign the same. -/
theorem AgreeOn.assign (h : AgreeOn live s s') {cs : List Copy} (hcs : live.Feeds cs) :
    AgreeOn live (s.assign cs) (s'.assign (live.only cs)) where
  world_eq := h.world_eq
  effects_eq := h.effects_eq
  sublist := h.sublist
  vars_eq v hv := by
    have hfind : (live.only cs).find? (fun c ↦ c.dst = v) = cs.find? (fun c ↦ c.dst = v) := by
      rw [Live.only, List.find?_filter]
      congr 1
      funext c
      by_cases hc : c.dst = v <;> simp [hc, hv]
    simp only [State.assign, hfind]
    split
    · rename_i c hc
      have hdst : c.dst = v := by simpa using List.find?_some hc
      exact h.vars_eq _ (hcs c (List.mem_of_find?_eq_some hc) (hdst ▸ hv))
    · exact h.vars_eq v hv

theorem AgreeOn.set (h : AgreeOn live s s') (v : Var) (x : V) :
    AgreeOn live (s.set v x) (s'.set v x) where
  world_eq := h.world_eq
  effects_eq := h.effects_eq
  sublist := h.sublist
  vars_eq w hw := by
    unfold State.set
    dsimp only
    split
    · rfl
    · exact h.vars_eq w hw

theorem AgreeOn.setAll (h : AgreeOn live s s') (bindings : List (Var × V)) :
    AgreeOn live (s.setAll bindings) (s'.setAll bindings) := by
  induction bindings generalizing s s' with
  | nil => exact h
  | cons b bindings ih => exact ih (h.set b.1 b.2)

/-- A variable that is not live may get any value. -/
theorem AgreeOn.setAll_left (h : AgreeOn live s s') (bindings : List (Var × V))
    (hdead : ∀ b ∈ bindings, live.has b.1 = false) : AgreeOn live (s.setAll bindings) s' := by
  induction bindings generalizing s with
  | nil => exact h
  | cons b bindings ih =>
    have hset : AgreeOn live (s.set b.1 b.2) s' := by
      refine ⟨⟨h.world_eq, h.effects_eq, h.sublist⟩, fun w hw ↦ ?_⟩
      have hne : w ≠ b.1 := by
        rintro rfl
        rw [hdead b List.mem_cons_self] at hw
        cases hw
      rw [h.vars_eq w hw]
      exact (if_neg hne).symm
    exact ih hset fun b' hb' ↦ hdead b' (List.mem_cons_of_mem b hb')

theorem AgreeOn.args (h : AgreeOn live s s') {vs : List Var} (hvs : ∀ v ∈ vs, live.has v) :
    vs.map s'.vars = vs.map s.vars :=
  List.map_congr_left fun v hv ↦ h.vars_eq v (hvs v hv)

theorem AgreeOn.record (h : AgreeOn live s s') {i i' : Instr} (hi : i'.operation = i.operation)
    (heffect : i'.isEffect = i.isEffect) (args : List V) :
    AgreeOn live (s.record i args) (s'.record i' args) := by
  unfold State.record
  rw [heffect, hi]
  split
  · refine ⟨⟨h.world_eq, ?_, h.sublist.append_right _⟩, h.vars_eq⟩
    unfold effects
    rw [List.filter_append, List.filter_append]
    congr 1
    exact h.effects_eq
  · exact h

/-- An effect of a pure instruction may be missing. -/
theorem AgreeOn.record_left (h : AgreeOn live s s') {i : Instr} (hi : i.isPure) (args : List V) :
    AgreeOn live (s.record i args) s' := by
  unfold State.record
  split
  · refine ⟨⟨h.world_eq, ?_, h.sublist.trans (List.sublist_append_left _ _)⟩, h.vars_eq⟩
    unfold effects
    rw [List.filter_append, List.filter_cons_of_neg (by simpa using hi), List.filter_nil,
      List.append_nil]
    exact h.effects_eq
  · exact h

/-! ## Instructions -/

variable {m : Machine V W} {d : Targets} {next : BlockId}

theorem AgreeOn.apply (h : AgreeOn live s s') {i : Instr} (hargs : ∀ v ∈ i.args, live.has v)
    (copies : List Copy) :
    (trimming V W live).Matches d next (i.apply m s) ({ i with copies := copies }.apply m s') := by
  have hargs' := h.args hargs
  have hrecord : AgreeOn live (s.record i (i.args.map s.vars))
      (s'.record { i with copies := copies } (i.args.map s.vars)) := h.record rfl rfl _
  unfold Instr.apply
  dsimp only
  rw [hargs', State.world_record, State.world_record, h.world_eq]
  cases hstep : m.step i.operation (i.args.map s.vars) s.world with
  | done results world =>
    have hstep' : m.step { i with copies := copies }.operation (i.args.map s.vars) s.world
        = .done results world := hstep
    rw [hstep']
    dsimp only
    split
    · refine .inr ⟨rfl, ?_⟩
      have hworld : AgreeOn live { s.record i (i.args.map s.vars) with world := world }
          { s'.record { i with copies := copies } (i.args.map s.vars) with world := world } :=
        ⟨⟨rfl, hrecord.effects_eq, hrecord.sublist⟩, hrecord.vars_eq⟩
      exact hworld.setAll _
    · exact .inl ⟨trivial, _, rfl⟩
  | trap reason => exact .inl ⟨trivial, _, rfl⟩
  | never =>
    have hstep' : m.step { i with copies := copies }.operation (i.args.map s.vars) s.world
        = .never := hstep
    rw [hstep']
    exact .inr ⟨rfl, hrecord.toTrimmed⟩

theorem AgreeOn.direct (h : AgreeOn live s s') {i : Instr} (hargs : ∀ v ∈ i.args, live.has v)
    (hcopies : live.Feeds i.copies) :
    (trimming V W live).Matches d next (i.direct m s)
      ({ i with copies := live.only i.copies }.direct m s') := by
  have hargs' := h.args hargs
  have hassign := h.assign hcopies
  unfold Instr.direct
  dsimp only
  split
  · rw [hargs']
    exact .inr ⟨rfl, h.toTrimmed⟩
  · exact .inr ⟨rfl, hassign⟩
  · exact .inr ⟨rfl, hassign⟩
  · rename_i a hop harg
    rw [h.vars_eq a (hargs a (by rw [harg]; exact List.mem_cons_self))]
    split
    · exact .inr ⟨rfl, hassign⟩
    · exact .inr ⟨rfl, h⟩
    · exact .inl ⟨trivial, _, rfl⟩
  · exact .inl ⟨trivial, _, rfl⟩
  · exact .inl ⟨trivial, _, rfl⟩

/-- An instruction that has to stay does the same in both runs. -/
theorem AgreeOn.run (h : AgreeOn live s s') {i : Instr} (hargs : ∀ v ∈ i.args, live.has v)
    (hcopies : live.Feeds i.copies) :
    (trimming V W live).Matches d next (i.run m s)
      ({ i with copies := live.only i.copies }.run m s') := by
  unfold Instr.run
  dsimp only
  split
  · exact .inr ⟨rfl, h⟩
  · have hcontrol : { i with copies := live.only i.copies }.isControl = i.isControl := rfl
    rw [hcontrol]
    split
    · split
      · exact h.direct hargs hcopies
      · exact .inl ⟨trivial, _, rfl⟩
    · exact h.apply hargs _

/-- An instruction that is not needed falls through, unless it traps. -/
theorem AgreeOn.run_left (h : AgreeOn live s s') {i : Instr} (hi : live.retains i = false) :
    (∃ reason, (i.run m s).2 = .trap reason)
      ∨ (i.run m s).2 = .fall ∧ AgreeOn live (i.run m s).1 s' := by
  simp only [Live.retains, Bool.or_eq_false_iff, Bool.not_eq_false', List.any_eq_false] at hi
  obtain ⟨hpure, hdead⟩ := hi
  obtain ⟨-, hrun⟩ | ⟨-, hcontrol, -⟩ | ⟨-, hcontrol, -⟩ | ⟨-, -, hrun⟩ := i.run_cases (m := m) s
  · rw [hrun]
    exact .inr ⟨rfl, h⟩
  · rw [Ir.Instr.isControl_of_isPure hpure] at hcontrol
    cases hcontrol
  · rw [Ir.Instr.isControl_of_isPure hpure] at hcontrol
    cases hcontrol
  rw [hrun]
  have hrecord := h.record_left hpure (i.args.map s.vars)
  unfold Instr.apply
  dsimp only
  rw [State.world_record]
  cases hstep : m.step i.operation (i.args.map s.vars) s.world with
  | done results world =>
    dsimp only
    split
    · refine .inr ⟨rfl, ?_⟩
      have hsame : world = (s.record i (i.args.map s.vars)).world := by
        rw [State.world_record]
        exact m.world_of_pure (i := i.operation) hpure hstep
      rw [hsame]
      refine hrecord.setAll_left _ fun b hb ↦ ?_
      exact Bool.eq_false_iff.2 (hdead b.1 (List.of_mem_zip hb).1)
    · exact .inl ⟨_, rfl⟩
  | trap reason => exact .inl ⟨_, rfl⟩
  | never => exact absurd hstep (m.returns_of_pure hpure)

/-- Instructions without those that are not needed do the same, unless they trap. -/
theorem AgreeOn.runInstrs (is : List Instr)
    (hargs : ∀ i ∈ is, live.retains i → ∀ v ∈ i.args, live.has v)
    (hcopies : ∀ i ∈ is, live.Feeds i.copies) (h : AgreeOn live s s') :
    (trimming V W live).Matches d next (Ir.runInstrs m is s)
      (Ir.runInstrs m (live.sweptInstrs is) s') := by
  induction is generalizing s s' with
  | nil => exact .inr ⟨rfl, h⟩
  | cons i is ih =>
    have hrest (t t' : State V W) (ht : AgreeOn live t t') :=
      ih (fun j hj ↦ hargs j (List.mem_cons_of_mem i hj))
        (fun j hj ↦ hcopies j (List.mem_cons_of_mem i hj)) ht
    cases hretains : live.retains i with
    | true =>
      rw [Live.sweptInstrs_cons, if_pos hretains]
      have hhead : (trimming V W live).Matches d next (i.run m s)
          ({ i with copies := live.only i.copies }.run m s') :=
        h.run (hargs i List.mem_cons_self hretains) (hcopies i List.mem_cons_self)
      exact hhead.andThen hrest
    | false =>
      rw [Live.sweptInstrs_cons, hretains, if_neg Bool.false_ne_true, Ir.runInstrs, Ir.Run.andThen]
      obtain ⟨reason, htrap⟩ | ⟨hfall, hagree⟩ := h.run_left (m := m) hretains
      · rcases hrun : i.run m s with ⟨t, x⟩
        rw [hrun] at htrap
        dsimp only at htrap
        subst htrap
        exact .inl ⟨trivial, reason, rfl⟩
      · rcases hrun : i.run m s with ⟨t, x⟩
        rw [hrun] at hfall hagree
        dsimp only at hfall hagree
        subst hfall
        exact hrest t s' hagree

/-! ## Trees -/

/-- The blocks of the second function are those of the first without what is not live. -/
def SweptTo (live : Live) (f f' : Function) (ids : List BlockId) : Prop :=
  ∀ id ∈ ids, live.Closed (f.blockAt id) ∧ f'.blockAt id = live.swept (f.blockAt id)

variable {f f' : Function}

theorem simulates_of_sweptTo :
    (∀ t : Tree, ∀ d next, t.Stored f → SweptTo live f f' t.ids →
        t.Simulates m (trimming V W live) f f' d next) ∧
      ∀ ts : Forest, ∀ d fall, Forest.Stored f ts → SweptTo live f f' (Forest.ids ts) →
        Forest.Simulates m (trimming V W live) f f' d fall ts := by
  refine Tree.induction ?basic ?cond ?branch ?loop ?breakable ?nil ?cons
  case basic =>
    intro id d next _ h s s' hs
    obtain ⟨hclosed, hswept⟩ := h id List.mem_cons_self
    have hinstrs : (trimming V W live).Matches d next (runInstrs m (f.blockAt id).instrs s)
        (runInstrs m (live.sweptInstrs (f.blockAt id).instrs) s') :=
      AgreeOn.runInstrs _ hclosed.args hclosed.branches hs
    rw [hswept]
    refine hinstrs.andThen fun t t' ht ↦ .inr ⟨rfl, ?_⟩
    exact AgreeOn.assign ht hclosed.exits
  case cond =>
    intro id body ih d next hstored h
    obtain ⟨hclosed, hswept⟩ := h id List.mem_cons_self
    refine ⟨fun s s' hs ↦ ⟨?_, hs, ?_⟩, ih d next hstored.2 fun x hx ↦ h x (List.mem_cons_of_mem id hx)⟩
    · rw [hswept]
      exact (hs.vars_eq _ (hclosed.cond (.inl hstored.1.kind_eq))).symm
    · rw [hswept]
      exact AgreeOn.assign hs hclosed.arounds
  case branch =>
    intro id body other ih ih' d next hstored h
    obtain ⟨hclosed, hswept⟩ := h id List.mem_cons_self
    have hinside (x : BlockId) (hx : x ∈ Forest.ids body ∨ x ∈ Forest.ids other) :=
      h x (List.mem_cons_of_mem id (List.mem_append.2 hx))
    refine ⟨fun s s' hs ↦ ⟨?_, hs, hs⟩, ih d next hstored.2.1 fun x hx ↦ hinside x (.inl hx),
      ih' d next hstored.2.2 fun x hx ↦ hinside x (.inr hx)⟩
    rw [hswept]
    exact (hs.vars_eq _ (hclosed.cond (.inr hstored.1.kind_eq))).symm
  case loop =>
    intro id body ih d next hstored h
    obtain ⟨hclosed, hswept⟩ := h id List.mem_cons_self
    refine ⟨fun s s' hs ↦ ?_, ih _ _ hstored.2 fun x hx ↦ h x (List.mem_cons_of_mem id hx)⟩
    rw [hswept]
    exact AgreeOn.assign hs hclosed.entries
  case breakable =>
    intro id body ih d next hstored h
    exact ⟨fun s s' hs ↦ hs, ih _ _ hstored.2 fun x hx ↦ h x (List.mem_cons_of_mem id hx)⟩
  case nil =>
    intro d fall _ _
    trivial
  case cons =>
    intro t ts ih ihs d fall hstored h
    exact ⟨ih d _ hstored.1 fun x hx ↦ h x (List.mem_append_left _ hx),
      ihs d fall hstored.2 fun x hx ↦ h x (List.mem_append_right _ hx)⟩

end

end WasmBackend.DeadCode
