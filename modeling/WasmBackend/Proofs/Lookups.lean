import WasmBackend.Proofs.DeadCode.Liveness
import WasmBackend.Proofs.Flow.Totality
import WasmBackend.Wasm.Usage

/-!
# What the passes look up

Validation checks the fields of a block that its kind gives a meaning.  A walk descends into both
lists of every block, and the passes that count variables read all of its assignments.  The two
agree on tidy functions, whose blocks have nothing in their other fields: there a walk meets every
block once, all blocks and variables that are looked up exist, and every branch names a construct
around it.
-/

namespace WasmBackend.Ir

/-- Whether a block has nothing in the fields that its kind gives no meaning.  The second list of an
`if` with one arm is never entered, but validation looks into it. -/
def Block.isTidy (b : Block) : Bool :=
  match b.kind with
  | .basic => b.aroundCopies.isEmpty && b.entryCopies.isEmpty
  | .cond | .branch => b.instrs.isEmpty && b.exitCopies.isEmpty && b.entryCopies.isEmpty
  | .loop | .breakable =>
    b.otherwise.isEmpty && b.instrs.isEmpty && b.exitCopies.isEmpty && b.aroundCopies.isEmpty
  | .unknown _ _ => false

namespace Function

/-- Whether no block has anything in a field without a meaning. -/
def isTidy (f : Function) : Bool :=
  f.blocks.toList.all Block.isTidy

/-- A block is in one of the lists of another one. -/
def Lists (f : Function) (outer id : BlockId) : Prop :=
  id ∈ (f.blockAt outer).body ∨ id ∈ (f.blockAt outer).otherwise

/-- A block lies inside another one, at any depth. -/
def Encloses (f : Function) : BlockId → BlockId → Prop :=
  Relation.TransGen f.Lists

/-- A branch in a block goes back to the head of a loop around the block, or leaves a loop or a
breakable block around it. -/
structure Aims (f : Function) (id : BlockId) (i : Instr) : Prop where
  encloses : f.Encloses i.target id
  kind : (f.blockAt i.target).kind = .loop ∨
    (f.blockAt i.target).kind = .breakable ∧ i.op ≠ .next

/-- What a walk of a function meets: these blocks, each of them once.  They exist, their variables
exist, and their branches go where they may. -/
structure Surveys (f : Function) (ids : List BlockId) : Prop where
  walk_eq : f.walk = .ok (ids.map fun id ↦ (id, f.blockAt id))
  nodup : ids.Nodup
  exist : ∀ id ∈ ids, f.block? id = some (f.blockAt id)
  within : ∀ id ∈ ids, (f.blockAt id).Within f.vars.size
  aims : ∀ id ∈ ids, ∀ i ∈ (f.blockAt id).instrs, i.isBranch → f.Aims id i

section

variable {f : Function} {scope : List (BlockId × BlockKind)} {ids rest met : List BlockId}
  {id : BlockId} {kind : BlockKind} {body other : List BlockId} {depth : Nat} {b : Block}

theorem Node.isTidy (h : f.Node id kind body other) (hf : f.isTidy) : (f.blockAt id).isTidy :=
  List.all_eq_true.1 hf _ (Array.mem_toList_iff.2 (mem_blocks_of_block? h.block?_eq))

/-- Only basic blocks hold instructions and have assignments where they end. -/
theorem Node.choice_tidy (h : f.Node id kind body other) (hf : f.isTidy)
    (hkind : kind = .cond ∨ kind = .branch) :
    (f.blockAt id).instrs = [] ∧ (f.blockAt id).exitCopies = []
      ∧ (f.blockAt id).entryCopies = [] := by
  have htidy := h.isTidy hf
  unfold Block.isTidy at htidy
  rcases hkind with rfl | rfl <;> simpa [h.kind_eq, and_assoc] using htidy

/-- Loops and breakable blocks have one list of blocks, and assignments only where they begin. -/
theorem Node.frame_tidy (h : f.Node id kind body other) (hf : f.isTidy)
    (hkind : kind = .loop ∨ kind = .breakable) :
    (f.blockAt id).otherwise = [] ∧ (f.blockAt id).instrs = []
      ∧ (f.blockAt id).exitCopies = [] ∧ (f.blockAt id).aroundCopies = [] := by
  have htidy := h.isTidy hf
  unfold Block.isTidy at htidy
  rcases hkind with rfl | rfl <;> simpa [h.kind_eq, and_assoc] using htidy

/-! ## Blocks and variables -/

/-- Every block that validation meets is in the arena. -/
theorem Accepts.exist (h : f.Accepts scope ids met) :
    ∀ id ∈ met, f.block? id = some (f.blockAt id) := by
  induction h with
  | nil => exact List.forall_mem_nil _
  | basic hnode _ _ _ ih => exact List.forall_mem_cons.2 ⟨hnode.block?_eq, ih⟩
  | choice _ hnode _ _ _ _ _ ih ih' ihs =>
    have hinner := List.forall_mem_append.2 ⟨ih, ih'⟩
    exact List.forall_mem_cons.2 ⟨hnode.block?_eq, List.forall_mem_append.2 ⟨hinner, ihs⟩⟩
  | frame _ hnode _ _ _ ih ihs =>
    exact List.forall_mem_cons.2 ⟨hnode.block?_eq, List.forall_mem_append.2 ⟨ih, ihs⟩⟩

/-- Every variable that an instruction of a basic block defines exists. -/
theorem Accepts.dst_lt (h : f.Accepts scope ids met) :
    ∀ id ∈ met, (f.blockAt id).kind = .basic →
      ∀ i ∈ (f.blockAt id).instrs, ∀ v ∈ i.dst, v < f.vars.size := by
  induction h with
  | nil => exact List.forall_mem_nil _
  | basic _ hinstrs _ _ ih =>
    exact List.forall_mem_cons.2 ⟨fun _ i hi ↦ (hinstrs i hi).1.dst, ih⟩
  | choice hkind hnode _ _ _ _ _ ih ih' ihs =>
    have hinner := List.forall_mem_append.2 ⟨ih, ih'⟩
    refine List.forall_mem_cons.2 ⟨fun hbasic ↦ ?_, List.forall_mem_append.2 ⟨hinner, ihs⟩⟩
    rcases hkind with rfl | rfl <;> simp [hnode.kind_eq] at hbasic
  | frame hkind hnode _ _ _ ih ihs =>
    refine List.forall_mem_cons.2 ⟨fun hbasic ↦ ?_, List.forall_mem_append.2 ⟨ih, ihs⟩⟩
    rcases hkind with rfl | rfl <;> simp [hnode.kind_eq] at hbasic

/-- Every variable of a tidy block that validation meets exists. -/
theorem Accepts.within (h : f.Accepts scope ids met) (hf : f.isTidy) :
    ∀ id ∈ met, (f.blockAt id).Within f.vars.size := by
  induction h with
  | nil => exact List.forall_mem_nil _
  | basic hnode hinstrs hexits _ ih =>
    have htidy := hnode.isTidy hf
    simp only [Block.isTidy, hnode.kind_eq, Bool.and_eq_true, List.isEmpty_iff] at htidy
    refine List.forall_mem_cons.2 ⟨?_, ih⟩
    exact ⟨by simp [hnode.kind_eq], fun i hi ↦ (hinstrs i hi).1, hexits, by simp [htidy.1],
      by simp [htidy.2]⟩
  | choice hkind hnode hcond harounds _ _ _ ih ih' ihs =>
    obtain ⟨hinstrs, hexits, hentries⟩ := hnode.choice_tidy hf hkind
    have hinner := List.forall_mem_append.2 ⟨ih, ih'⟩
    refine List.forall_mem_cons.2 ⟨?_, List.forall_mem_append.2 ⟨hinner, ihs⟩⟩
    exact ⟨fun _ ↦ hcond, by simp [hinstrs], by simp [hexits], harounds, by simp [hentries]⟩
  | frame hkind hnode hentries _ _ ih ihs =>
    obtain ⟨-, hinstrs, hexits, harounds⟩ := hnode.frame_tidy hf hkind
    refine List.forall_mem_cons.2 ⟨?_, List.forall_mem_append.2 ⟨ih, ihs⟩⟩
    refine ⟨fun hchoice ↦ ?_, by simp [hinstrs], by simp [hexits], by simp [harounds], hentries⟩
    rcases hkind with rfl | rfl <;> simp [hnode.kind_eq] at hchoice

/-! ## Walks -/

/-- A walk of a tidy function meets the blocks that validation meets, in the same order.  Every
level of nesting takes a block of its own, so their number bounds the depth. -/
theorem Accepts.walkFrom_eq (h : f.Accepts scope ids met) (hf : f.isTidy)
    (hdepth : met.length < depth) :
    f.walkFrom depth ids = .ok (met.map fun id ↦ (id, f.blockAt id)) := by
  induction h generalizing depth with
  | nil => exact walkFrom_nil hdepth
  | basic hnode _ _ _ ih =>
    obtain _ | depth := depth
    · cases hdepth
    have hpos : 0 < depth := Nat.zero_lt_of_lt (Nat.lt_of_succ_lt_succ hdepth)
    exact walkFrom_cons hnode.block?_eq (by rw [hnode.body_eq, walkFrom_nil hpos])
      (by rw [hnode.otherwise_eq, walkFrom_nil hpos]) (ih (Nat.lt_of_succ_lt hdepth))
  | @choice scope id kind body other rest inside beside met _ hnode _ _ _ _ _ ih ih' ihs =>
    obtain _ | depth := depth
    · cases hdepth
    simp only [List.length_cons, List.length_append] at hdepth
    rw [List.map_cons, List.map_append, List.map_append]
    apply walkFrom_cons hnode.block?_eq
    · rw [hnode.body_eq, ih (by omega)]
    · rw [hnode.otherwise_eq, ih' (by omega)]
    · exact ihs (by omega)
  | @frame scope id kind body other rest inside met hkind hnode _ _ _ ih ihs =>
    obtain _ | depth := depth
    · cases hdepth
    simp only [List.length_cons, List.length_append] at hdepth
    obtain ⟨hother, -⟩ := hnode.frame_tidy hf hkind
    rw [List.map_cons, List.map_append, ← List.append_nil (List.map _ inside)]
    apply walkFrom_cons hnode.block?_eq
    · rw [hnode.body_eq, ih (by omega)]
    · rw [hother, walkFrom_nil (by omega)]
    · exact ihs (by omega)

/-! ## Branches -/

/-- The constructs around a list of blocks, as validation knows them. -/
def Surrounds (f : Function) (scope : List (BlockId × BlockKind)) (ids : List BlockId) : Prop :=
  ∀ s ∈ scope, (f.blockAt s.1).kind = s.2 ∧ ∀ id ∈ ids, f.Encloses s.1 id

theorem Surrounds.tail (h : f.Surrounds scope (id :: rest)) : f.Surrounds scope rest :=
  fun s hs ↦ ⟨(h s hs).1, fun x hx ↦ (h s hs).2 x (List.mem_cons_of_mem id hx)⟩

/-- Entering one of the lists of a block. -/
theorem Surrounds.enter (h : f.Surrounds scope (id :: rest)) (hkind : (f.blockAt id).kind = kind)
    (hids : ∀ x ∈ ids, f.Lists id x) : f.Surrounds ((id, kind) :: scope) ids := by
  intro s hs
  rcases List.mem_cons.1 hs with rfl | hs
  · exact ⟨hkind, fun x hx ↦ .single (hids x hx)⟩
  · exact ⟨(h s hs).1, fun x hx ↦ .tail ((h s hs).2 id List.mem_cons_self) (hids x hx)⟩

/-- A branch that validation lets pass goes where it may. -/
theorem Surrounds.aims (h : f.Surrounds scope (id :: rest)) {i : Instr} (hi : i.isBranch)
    (haimed : i.Aimed scope) : f.Aims id i := by
  have hviolations := haimed hi id
  unfold branchViolations at hviolations
  split at hviolations
  · cases hviolations
  · rename_i target kind hfind
    obtain ⟨hkind, hencloses⟩ := h _ (List.mem_of_find?_eq_some hfind)
    obtain rfl : target = i.target := by simpa using List.find?_some hfind
    simp only [List.append_eq_nil_iff, ite_eq_right_iff, List.cons_ne_nil, imp_false,
      not_and_or, not_not] at hviolations
    refine ⟨hencloses id List.mem_cons_self, ?_⟩
    rw [hkind]
    rcases hviolations.2 with hloop | hbreakable
    · exact .inl hloop
    · rcases hviolations.1 with hnext | hloop
      · exact .inr ⟨hbreakable, hnext⟩
      · exact .inl hloop

/-- Every branch in a tidy block that validation meets goes where it may. -/
theorem Accepts.aims (h : f.Accepts scope ids met) (hf : f.isTidy)
    (hscope : f.Surrounds scope ids) :
    ∀ id ∈ met, ∀ i ∈ (f.blockAt id).instrs, i.isBranch → f.Aims id i := by
  induction h with
  | nil => exact List.forall_mem_nil _
  | basic hnode hinstrs _ _ ih =>
    refine List.forall_mem_cons.2 ⟨fun i hi hbranch ↦ ?_, ih hscope.tail⟩
    exact hscope.aims hbranch (hinstrs i hi).2
  | choice hkind hnode _ _ _ _ _ ih ih' ihs =>
    have hinstrs := (hnode.choice_tidy hf hkind).1
    have hbody := ih (hscope.enter hnode.kind_eq fun x hx ↦ .inl (hnode.body_eq ▸ hx))
    have hother := ih' (hscope.enter hnode.kind_eq fun x hx ↦ .inr (hnode.otherwise_eq ▸ hx))
    have hinner := List.forall_mem_append.2 ⟨hbody, hother⟩
    refine List.forall_mem_cons.2 ⟨?_, List.forall_mem_append.2 ⟨hinner, ihs hscope.tail⟩⟩
    simp [hinstrs]
  | frame hkind hnode _ _ _ ih ihs =>
    obtain ⟨-, hinstrs, -⟩ := hnode.frame_tidy hf hkind
    have hbody := ih (hscope.enter hnode.kind_eq fun x hx ↦ .inl (hnode.body_eq ▸ hx))
    refine List.forall_mem_cons.2 ⟨?_, List.forall_mem_append.2 ⟨hbody, ihs hscope.tail⟩⟩
    simp [hinstrs]

/-- A walk of a valid tidy function meets every block once, and finds nothing missing. -/
theorem exists_surveys (hvalid : f.isValid) (hf : f.isTidy) : ∃ ids, f.Surveys ids := by
  obtain ⟨met, haccepts, hnodup⟩ := accepts_of_isValid hvalid
  have hexist := haccepts.exist
  have hlength : met.length ≤ f.blocks.size :=
    length_le_of_nodup hnodup fun id hid ↦ f.mem_range_of_block? (hexist id hid)
  have hdepth : met.length < f.treeDepth + 1 := by
    unfold treeDepth
    omega
  exact ⟨met, haccepts.walkFrom_eq hf hdepth, hnodup, hexist, haccepts.within hf,
    haccepts.aims hf fun _ hs ↦ absurd hs List.not_mem_nil⟩

end

end Function

end WasmBackend.Ir

namespace WasmBackend.Wasm

open Ir (Block BlockId Copy Function Instr Var)

namespace Usage

/-- The tables are made, for `n` variables. -/
def Counts (n : Nat) (x : Except Failure Usage) : Prop :=
  ∃ u, x = .ok u ∧ u.uses.size = n

section

variable {n : Nat} {x : Except Failure Usage} {u : Usage} {v : Var} {b : BlockId} {i : Instr}

theorem counts_pure (hu : u.uses.size = n) : Counts n (pure u) :=
  ⟨u, rfl, hu⟩

theorem Counts.bind {k : Usage → Except Failure Usage} (h : Counts n x)
    (hk : ∀ u, u.uses.size = n → Counts n (k u)) : Counts n (x >>= k) := by
  obtain ⟨u, rfl, hu⟩ := h
  exact hk u hu

theorem counts_foldlM {α : Type} {step : Usage → α → Except Failure Usage} {l : List α}
    (hstep : ∀ a ∈ l, ∀ u, u.uses.size = n → Counts n (step u a)) (hu : u.uses.size = n) :
    Counts n (l.foldlM step u) := by
  induction l generalizing u with
  | nil => exact counts_pure hu
  | cons a l ih =>
    rw [List.foldlM_cons]
    exact (hstep a List.mem_cons_self u hu).bind fun u hu ↦
      ih (fun a ha ↦ hstep a (List.mem_cons_of_mem _ ha)) hu

theorem counts_check (hv : v < u.uses.size) {k : Unit → Except Failure Usage}
    (hk : Counts n (k ())) : Counts n (u.check v >>= k) := by
  rw [check, if_pos hv]
  exact hk

@[simp]
theorem size_use : (u.use v).uses.size = u.uses.size := by
  simp [use]

@[simp]
theorem size_force : (u.force v).uses.size = u.uses.size := rfl

theorem counts_addCopies {cs : List Copy} (hcs : ∀ c ∈ cs, c.dst < n ∧ c.src < n)
    (hu : u.uses.size = n) : Counts n (u.addCopies cs) := by
  refine counts_foldlM (fun c hc u hu ↦ ?_) hu
  obtain ⟨hdst, hsrc⟩ := hcs c hc
  exact counts_check (hu ▸ hdst) (counts_check (hu ▸ hsrc) (counts_pure (by simpa using hu)))

theorem counts_addDef (hv : v < n) (hu : u.uses.size = n) : Counts n (addDef b i u v) := by
  refine counts_check (hu ▸ hv) (counts_pure ?_)
  split <;> split <;> simpa using hu

theorem counts_addRead (hv : v < n) (hu : u.uses.size = n) : Counts n (addRead b u v) :=
  counts_check (hu ▸ hv) (counts_pure (by simpa using hu))

theorem counts_addInstr (hi : i.Within n) (hu : u.uses.size = n) : Counts n (addInstr b u i) := by
  refine (counts_foldlM (fun v hv u ↦ counts_addDef (hi.dst v hv)) hu).bind fun u hu ↦ ?_
  dsimp only
  split
  · exact (counts_pure hu).bind fun u ↦ counts_addCopies hi.copies
  · have hreads := counts_foldlM (fun v hv u ↦ counts_addRead (b := b) (hi.args v hv)) hu
    exact hreads.bind fun u ↦ counts_addCopies hi.copies

theorem counts_addBlock {blk : Block} (h : blk.Within n) (hu : u.uses.size = n) :
    Counts n (u.addBlock b blk) := by
  have hrest (u : Usage) (hu : u.uses.size = n) : Counts n (do
      let u ← u.addCopies blk.exitCopies
      let u ← u.addCopies blk.aroundCopies
      let u ← u.addCopies blk.entryCopies
      blk.instrs.foldlM (addInstr b) u) :=
    (counts_addCopies h.exits hu).bind fun u hu ↦ (counts_addCopies h.arounds hu).bind
      fun u hu ↦ (counts_addCopies h.entries hu).bind fun u hu ↦
        counts_foldlM (fun i hi u ↦ counts_addInstr (h.instrs i hi)) hu
  unfold addBlock
  split
  · rename_i hkind
    exact counts_check (hu ▸ h.cond hkind) ((counts_pure (by simpa using hu)).bind hrest)
  · exact (counts_pure hu).bind hrest

end

/-- The variables of a function are looked up without finding one missing. -/
theorem exists_ofFunction {f : Function} {ids : List BlockId} (h : f.Surveys ids) :
    ∃ u, ofFunction f = .ok u ∧ u.uses.size = f.vars.size := by
  unfold ofFunction
  rw [h.walk_eq]
  show Counts f.vars.size (_ >>= _)
  refine (counts_foldlM (fun p hp u hu ↦ ?_) (by simp [ofSize])).bind fun u hu ↦ counts_pure ?_
  · obtain ⟨id, hid, rfl⟩ := List.mem_map.1 hp
    exact counts_addBlock (h.within id hid) hu
  · refine List.foldlRecOn u.reads _ (motive := fun w : Usage ↦ w.uses.size = f.vars.size) hu ?_
    intro w hw p _
    dsimp only
    split <;> exact hw

end Usage

end WasmBackend.Wasm

namespace WasmBackend.Ir.Function

/-- **Validation is what the passes rely on.**  For a valid tidy function a walk meets every block
once, and control flow, live variables and the uses of variables are found without looking up a
block or variable that does not exist. -/
theorem lookups_succeed {f : Function} (hvalid : f.isValid) (hf : f.isTidy) :
    ∃ ids, f.Surveys ids ∧ (∃ g, Flow.Graph.ofFunction f = .ok g)
      ∧ (∃ live, DeadCode.Live.ofFunction f = .ok live ∧ live.size = f.vars.size
        ∧ ∀ id ∈ ids, live.Closed (f.blockAt id))
      ∧ ∃ u, Wasm.Usage.ofFunction f = .ok u ∧ u.uses.size = f.vars.size := by
  obtain ⟨ids, hids⟩ := exists_surveys hvalid hf
  obtain ⟨ts, hts⟩ := exists_wellFormed_trimmed hvalid
  obtain ⟨g, hg⟩ := Flow.Graph.exists_ofFunction hts
  rw [Flow.Graph.ofFunction_trimmed] at hg
  exact ⟨ids, hids, ⟨g, hg⟩, DeadCode.Live.closed_of_walk hids.walk_eq hids.within,
    Wasm.Usage.exists_ofFunction hids⟩

/-- Without tidiness a walk may meet a block again: validation does not look into the second list
of a loop. -/
example :
    let f : Function :=
      { name := "f", body := [1]
        blocks := #[{ kind := .loop, body := [2], otherwise := [2] }, {}] }
    f.isValid ∧ f.walk.map (List.map Prod.fst) = .ok [1, 2, 2] := by
  decide

end WasmBackend.Ir.Function
