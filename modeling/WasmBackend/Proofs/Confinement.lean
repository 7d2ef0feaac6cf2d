import WasmBackend.Proofs.Execution
import WasmBackend.Proofs.Validity

/-!
# Confined runs

What a part of a function can see and change when it runs.  A run is confined when what it does
depends only on the variables it may read, when it changes only the variables it may write, and when
it either falls through, stops, or leaves one of the constructs it may leave.  Confined runs go
together to confined runs, so that the run of a list of trees is as confined as its instructions.
-/

namespace WasmBackend.Ir

variable {V W : Type} {m : Machine V W} {reads writes : Var → Prop} {leaves : BlockId → Prop}

/-- The states look the same to whoever may read these variables. -/
structure State.Agrees (reads : Var → Prop) (s s' : State V W) : Prop where
  world : s.world = s'.world
  trace : s.trace = s'.trace
  vars : ∀ v, reads v → s.vars v = s'.vars v

/-- A run that goes this way falls through, stops, or leaves one of these constructs. -/
def Exit.Within (leaves : BlockId → Prop) : Exit V → Prop
  | .fall | .trap _ | .never => True
  | .exit target => leaves target
  | .next _ | .ret _ | .pause => False

/-- A run that reads only the variables of `reads`, changes only those of `writes`, and leaves only
constructs of `leaves`. -/
structure Run.Confined (reads writes : Var → Prop) (leaves : BlockId → Prop) (r : Run V W) :
    Prop where
  same_exit : ∀ s s', s.Agrees reads s' → (r s).2 = (r s').2
  agrees : ∀ s s', s.Agrees reads s' → (r s).1.Agrees reads (r s').1
  vars_eq : ∀ s v, ¬writes v → (r s).1.vars v = s.vars v
  within : ∀ s, (r s).2.Within leaves

theorem State.Agrees.refl (s : State V W) : s.Agrees reads s :=
  ⟨rfl, rfl, fun _ _ ↦ rfl⟩

theorem State.Agrees.mono {reads' : Var → Prop} {s s' : State V W} (h : s.Agrees reads s')
    (hreads : ∀ v, reads' v → reads v) : s.Agrees reads' s' :=
  ⟨h.world, h.trace, fun v hv ↦ h.vars v (hreads v hv)⟩

theorem State.Agrees.trans {s s' s'' : State V W} (h : s.Agrees reads s')
    (h' : s'.Agrees reads s'') : s.Agrees reads s'' :=
  ⟨h.world.trans h'.world, h.trace.trans h'.trace, fun v hv ↦ (h.vars v hv).trans (h'.vars v hv)⟩

theorem State.Agrees.symm {s s' : State V W} (h : s.Agrees reads s') : s'.Agrees reads s :=
  ⟨h.world.symm, h.trace.symm, fun v hv ↦ (h.vars v hv).symm⟩

/-- One of the states may differ in what is not read. -/
theorem State.Agrees.set_left {s s' : State V W} {v : Var} (h : s.Agrees reads s')
    (hv : ¬reads v) (x : V) : (s.set v x).Agrees reads s' where
  world := h.world
  trace := h.trace
  vars w hw := by
    refine (if_neg ?_).trans (h.vars w hw)
    rintro rfl
    exact hv hw

/-! ## Runs one behind the other -/

/-- The run that does nothing. -/
def Run.skip : Run V W :=
  fun s ↦ (s, .fall)

@[simp]
theorem Run.skip_andThen (r : Run V W) : Run.andThen Run.skip r = r :=
  rfl

@[simp]
theorem Run.andThen_skip (r : Run V W) : Run.andThen r Run.skip = r := by
  funext s
  unfold Run.andThen Run.skip
  rcases r s with ⟨s', _ | _ | _ | _ | _ | _ | _⟩ <;> rfl

theorem runInstrs_append (is is' : List Instr) :
    runInstrs m (is ++ is') = Run.andThen (runInstrs m is) (runInstrs m is') := by
  induction is with
  | nil => rfl
  | cons i is ih => rw [List.cons_append, runInstrs, runInstrs, ih, Run.andThen_assoc]

theorem Forest.run_append (f : Function) (budget : Nat) (ts us : Forest) :
    Forest.run m f budget (ts ++ us)
      = Run.andThen (Forest.run m f budget ts) (Forest.run m f budget us) := by
  induction ts with
  | nil => rfl
  | cons t ts ih => rw [List.cons_append, Forest.run_cons, Forest.run_cons, ih, Run.andThen_assoc]

theorem Forest.run_singleton (f : Function) (budget : Nat) (t : Tree) :
    Forest.run m f budget [t] = Tree.run m f budget t := by
  rw [Forest.run_cons]
  exact Run.andThen_skip _

/-- A run depends only on the blocks of its trees. -/
theorem Tree.run_congr {f f' : Function} (budget : Nat) :
    (∀ t : Tree, (∀ id ∈ t.ids, f'.blockAt id = f.blockAt id) →
        t.run m f' budget = t.run m f budget) ∧
      ∀ ts : Forest, (∀ id ∈ Forest.ids ts, f'.blockAt id = f.blockAt id) →
        Forest.run m f' budget ts = Forest.run m f budget ts := by
  refine Tree.induction ?basic ?cond ?branch ?loop ?breakable ?nil ?cons
  case basic =>
    intro id h
    rw [Tree.run_basic, Tree.run_basic, h id (by simp [Tree.ids])]
  case cond =>
    intro id body ih h
    rw [Tree.run_cond, Tree.run_cond, h id List.mem_cons_self,
      ih fun x hx ↦ h x (List.mem_cons_of_mem id hx)]
  case branch =>
    intro id body other ih ih' h
    rw [Tree.run_branch, Tree.run_branch, h id List.mem_cons_self,
      ih fun x hx ↦ h x (List.mem_cons_of_mem id (List.mem_append_left _ hx)),
      ih' fun x hx ↦ h x (List.mem_cons_of_mem id (List.mem_append_right _ hx))]
  case loop =>
    intro id body ih h
    rw [Tree.run_loop, Tree.run_loop, h id List.mem_cons_self,
      ih fun x hx ↦ h x (List.mem_cons_of_mem id hx)]
  case breakable =>
    intro id body ih h
    rw [Tree.run_breakable, Tree.run_breakable, ih fun x hx ↦ h x (List.mem_cons_of_mem id hx)]
  case nil =>
    intro _
    rfl
  case cons =>
    intro t ts ih ihs h
    rw [Forest.run_cons, Forest.run_cons, ih fun x hx ↦ h x (List.mem_append_left _ hx),
      ihs fun x hx ↦ h x (List.mem_append_right _ hx)]

/-! ## One rule for every way to put runs together -/

theorem Exit.Within.mono {leaves' : BlockId → Prop} {x : Exit V} (h : x.Within leaves)
    (hleaves : ∀ t, leaves t → leaves' t) : x.Within leaves' := by
  cases x with
  | exit target => exact hleaves target h
  | fall | trap | never => trivial
  | _ => exact h.elim

theorem Run.Confined.mono {writes' : Var → Prop} {leaves' : BlockId → Prop} {r : Run V W}
    (h : r.Confined reads writes leaves) (hwrites : ∀ v, writes v → writes' v)
    (hleaves : ∀ t, leaves t → leaves' t) : r.Confined reads writes' leaves' where
  same_exit := h.same_exit
  agrees := h.agrees
  vars_eq s v hv := h.vars_eq s v fun hw ↦ hv (hwrites v hw)
  within s := (h.within s).mono hleaves

theorem Run.confined_skip : Run.Confined (V := V) (W := W) reads writes leaves Run.skip where
  same_exit _ _ _ := rfl
  agrees _ _ h := h
  vars_eq _ _ _ := rfl
  within _ := trivial

theorem Run.Confined.andThen {r r' : Run V W} (h : r.Confined reads writes leaves)
    (h' : r'.Confined reads writes leaves) : (r.andThen r').Confined reads writes leaves := by
  -- how the two runs go on depends on where the first one went
  have hcases (s : State V W) : ((r s).2 = .fall ∧ r.andThen r' s = r' (r s).1)
      ∨ ((r s).2 ≠ .fall ∧ r.andThen r' s = r s) := by
    unfold Run.andThen
    rcases r s with ⟨t, _ | _ | _ | _ | _ | _ | _⟩ <;> simp
  refine ⟨fun s s' hs ↦ ?_, fun s s' hs ↦ ?_, fun s v hv ↦ ?_, fun s ↦ ?_⟩
  · have hexit := h.same_exit s s' hs
    obtain ⟨hfall, heq⟩ | ⟨hstop, heq⟩ := hcases s <;>
      obtain ⟨hfall', heq'⟩ | ⟨hstop', heq'⟩ := hcases s' <;> rw [heq, heq']
    · exact h'.same_exit _ _ (h.agrees s s' hs)
    · exact absurd (hexit.symm.trans hfall) hstop'
    · exact absurd (hexit.trans hfall') hstop
    · exact hexit
  · have hexit := h.same_exit s s' hs
    obtain ⟨hfall, heq⟩ | ⟨hstop, heq⟩ := hcases s <;>
      obtain ⟨hfall', heq'⟩ | ⟨hstop', heq'⟩ := hcases s' <;> rw [heq, heq']
    · exact h'.agrees _ _ (h.agrees s s' hs)
    · exact absurd (hexit.symm.trans hfall) hstop'
    · exact absurd (hexit.trans hfall') hstop
    · exact h.agrees s s' hs
  · obtain ⟨-, heq⟩ | ⟨-, heq⟩ := hcases s <;> rw [heq]
    · rw [h'.vars_eq _ v hv, h.vars_eq s v hv]
    · exact h.vars_eq s v hv
  · obtain ⟨-, heq⟩ | ⟨-, heq⟩ := hcases s <;> rw [heq]
    · exact h'.within _
    · exact h.within s

/-- A breakable block catches what leaves it. -/
theorem Run.Confined.breakable {id : BlockId} {r : Run V W}
    (h : r.Confined reads writes fun t ↦ leaves t ∨ t = id) :
    (runBreakable id r).Confined reads writes leaves := by
  have hstate (s : State V W) : (runBreakable id r s).1 = (r s).1 := by
    unfold runBreakable
    rcases r s with ⟨t, _ | target | _ | _ | _ | _ | _⟩
    case exit => dsimp only; split <;> rfl
    all_goals rfl
  refine ⟨fun s s' hs ↦ ?_, fun s s' hs ↦ ?_, fun s v hv ↦ ?_, fun s ↦ ?_⟩
  · have hsame := h.same_exit s s' hs
    unfold runBreakable
    generalize r s = x at hsame ⊢
    generalize r s' = x' at hsame ⊢
    obtain ⟨t, exit⟩ := x
    obtain ⟨t', exit'⟩ := x'
    obtain rfl : exit = exit' := hsame
    cases exit with
    | exit target => dsimp only; split <;> rfl
    | _ => rfl
  · rw [hstate, hstate]
    exact h.agrees s s' hs
  · rw [hstate]
    exact h.vars_eq s v hv
  · have hwithin := h.within s
    unfold runBreakable
    generalize r s = x at hwithin ⊢
    obtain ⟨t, exit⟩ := x
    cases exit with
    | exit target =>
      dsimp only
      split
      · trivial
      · exact hwithin.resolve_right ‹_›
    | fall | trap | never => trivial
    | _ => exact hwithin.elim

/-! ## Instructions -/

/-- An instruction with arguments and results among these variables, which directs control only out
of one of these constructs. -/
structure Instr.Confined (reads writes : Var → Prop) (leaves : BlockId → Prop) (i : Instr) :
    Prop where
  control : i.isControl → i.op = .exitIf ∧ leaves i.target
  no_copies : i.copies = []
  dst : ∀ v ∈ i.dst, writes v
  args : ∀ v ∈ i.args, reads v

theorem Instr.Confined.mono {reads' writes' : Var → Prop} {leaves' : BlockId → Prop} {i : Instr}
    (h : i.Confined reads writes leaves) (hreads : ∀ v, reads v → reads' v)
    (hwrites : ∀ v, writes v → writes' v) (hleaves : ∀ t, leaves t → leaves' t) :
    i.Confined reads' writes' leaves' where
  control hcontrol := (h.control hcontrol).imp_right (hleaves _)
  no_copies := h.no_copies
  dst v hv := hwrites v (h.dst v hv)
  args v hv := hreads v (h.args v hv)

theorem State.vars_setAll_of_forall_ne {s : State V W} {bindings : List (Var × V)} {v : Var}
    (h : ∀ p ∈ bindings, p.1 ≠ v) : (s.setAll bindings).vars v = s.vars v := by
  induction bindings generalizing s with
  | nil => rfl
  | cons p bindings ih =>
    rw [State.setAll, List.foldl_cons]
    refine (ih fun q hq ↦ h q (List.mem_cons_of_mem p hq)).trans ?_
    exact if_neg (Ne.symm (h p List.mem_cons_self))

theorem State.Agrees.setAll {s s' : State V W} (h : s.Agrees reads s')
    (bindings : List (Var × V)) : (s.setAll bindings).Agrees reads (s'.setAll bindings) := by
  induction bindings generalizing s s' with
  | nil => exact h
  | cons p bindings ih =>
    refine ih ⟨h.world, h.trace, fun v hv ↦ ?_⟩
    by_cases hp : v = p.1
    · simp [State.set, hp]
    · simp [State.set, hp, h.vars v hv]

theorem State.Agrees.args {s s' : State V W} (h : s.Agrees reads s') {vs : List Var}
    (hvs : ∀ v ∈ vs, reads v) : vs.map s.vars = vs.map s'.vars :=
  List.map_congr_left fun v hv ↦ h.vars v (hvs v hv)

theorem State.Agrees.record {s s' : State V W} (h : s.Agrees reads s') (i : Instr)
    (args : List V) : (s.record i args).Agrees reads (s'.record i args) := by
  unfold State.record
  split
  · exact ⟨h.world, by rw [h.trace], h.vars⟩
  · exact h

theorem Instr.Confined.apply {i : Instr} (hi : i.Confined reads writes leaves) :
    Run.Confined reads writes leaves (i.apply m) := by
  -- applying to the same arguments in the same world gives the same
  have hsame (s s' : State V W) (hs : s.Agrees reads s') :
      (i.apply m s).2 = (i.apply m s').2 ∧ (i.apply m s).1.Agrees reads (i.apply m s').1 := by
    have hargs := hs.args hi.args
    have hrecord := hs.record i (i.args.map s'.vars)
    unfold Instr.apply
    dsimp only
    rw [hargs, hrecord.world]
    split
    · split
      · refine ⟨rfl, ?_⟩
        show State.Agrees reads (State.setAll _ _) (State.setAll _ _)
        refine State.Agrees.setAll ?_ _
        exact ⟨rfl, hrecord.trace, hrecord.vars⟩
      · exact ⟨rfl, hrecord⟩
    · exact ⟨rfl, hrecord⟩
    · exact ⟨rfl, hrecord⟩
  refine ⟨fun s s' hs ↦ (hsame s s' hs).1, fun s s' hs ↦ (hsame s s' hs).2, fun s v hv ↦ ?_,
    fun s ↦ ?_⟩
  · unfold Instr.apply
    dsimp only
    split
    · split
      · rw [State.vars_setAll_of_forall_ne, State.vars_record]
        rintro p hp rfl
        exact hv (hi.dst p.1 (List.of_mem_zip hp).1)
      · rw [State.vars_record]
    · rw [State.vars_record]
    · rw [State.vars_record]
  · obtain h | ⟨_, h⟩ | h := i.exit_apply (m := m) s <;> rw [h] <;> trivial

theorem Instr.Confined.run {i : Instr} (hi : i.Confined reads writes leaves) :
    Run.Confined reads writes leaves (i.run m) := by
  by_cases hphi : i.op = .phi
  · have hskip : i.run m = Run.skip := by
      funext s
      simp only [Instr.run, hphi, if_true, Run.skip]
    rw [hskip]
    exact Run.confined_skip
  by_cases hcontrol : i.isControl
  · obtain ⟨hop, htarget⟩ := hi.control hcontrol
    -- such an instruction leaves, falls through or is malformed, and changes nothing
    have hrun (s : State V W) : ∃ x : Exit V, i.run m s = (s, x) ∧ x.Within leaves
        ∧ ∀ s', s.Agrees reads s' → i.run m s' = (s', x) := by
      unfold Instr.run
      simp only [hphi, if_false, hcontrol, if_true]
      by_cases hdst : i.dst = []
      · simp only [hdst, if_true]
        unfold Instr.direct Instr.leave
        simp only [hop, hi.no_copies, State.assign_nil]
        rcases hargs : i.args with _ | ⟨a, _ | ⟨a', rest⟩⟩
        · exact ⟨_, rfl, trivial, fun _ _ ↦ rfl⟩
        · have ha : reads a := hi.args a (by simp [hargs])
          dsimp only
          cases htest : m.test (s.vars a) with
          | none =>
            exact ⟨_, rfl, trivial, fun s' hs ↦ by rw [← hs.vars a ha, htest]⟩
          | some c =>
            cases c with
            | true => exact ⟨_, rfl, htarget, fun s' hs ↦ by rw [← hs.vars a ha, htest]⟩
            | false => exact ⟨_, rfl, trivial, fun s' hs ↦ by rw [← hs.vars a ha, htest]⟩
        · exact ⟨_, rfl, trivial, fun _ _ ↦ rfl⟩
      · simp only [hdst, if_false]
        exact ⟨_, rfl, trivial, fun _ _ ↦ rfl⟩
    refine ⟨fun s s' hs ↦ ?_, fun s s' hs ↦ ?_, fun s v _ ↦ ?_, fun s ↦ ?_⟩
    · obtain ⟨x, hx, -, hx'⟩ := hrun s
      rw [hx, hx' s' hs]
    · obtain ⟨x, hx, -, hx'⟩ := hrun s
      rw [hx, hx' s' hs]
      exact hs
    · obtain ⟨x, hx, -⟩ := hrun s
      rw [hx]
    · obtain ⟨x, hx, hwithin, -⟩ := hrun s
      rw [hx]
      exact hwithin
  · have happly : i.run m = i.apply m := by
      funext s
      simp only [Instr.run, hphi, if_false, hcontrol]
      rfl
    rw [happly]
    exact hi.apply

theorem runInstrs_confined {is : List Instr}
    (h : ∀ i ∈ is, i.Confined reads writes leaves) :
    Run.Confined reads writes leaves (runInstrs m is) := by
  induction is with
  | nil => exact Run.confined_skip
  | cons i is ih =>
    exact (h i List.mem_cons_self).run.andThen (ih fun j hj ↦ h j (List.mem_cons_of_mem i hj))

/-! ## Blocks -/

/-- A basic or breakable block with confined instructions. -/
structure Block.Confined (reads writes : Var → Prop) (leaves : BlockId → Prop) (c : Block) :
    Prop where
  kind : c.kind = .basic ∨ c.kind = .breakable
  instrs : ∀ i ∈ c.instrs, i.Confined reads writes leaves
  exits : c.exitCopies = []

/-- A branch that may be where it is leaves a construct around it. -/
theorem Instr.Confined.aimed {i : Instr} {scope : List (BlockId × BlockKind)}
    (hi : i.Confined reads writes leaves) (haimed : i.Aimed scope) :
    i.Confined reads writes fun t ↦ leaves t ∧ ∃ kind, (t, kind) ∈ scope where
  control hcontrol := by
    obtain ⟨hop, htarget⟩ := hi.control hcontrol
    have hviolations := haimed (by simp [Instr.isBranch, hop]) 0
    unfold Function.branchViolations at hviolations
    split at hviolations
    · cases hviolations
    · rename_i target kind hfind
      have heq : target = i.target := by simpa using List.find?_some hfind
      exact ⟨hop, htarget, kind, heq ▸ List.mem_of_find?_eq_some hfind⟩
  no_copies := hi.no_copies
  dst := hi.dst
  args := hi.args

theorem Block.run_eq_runInstrs {c : Block} (h : c.exitCopies = []) :
    c.run m = runInstrs m c.instrs := by
  unfold Block.run
  rw [h]
  exact Run.andThen_skip _

/-- Trees with confined blocks run confined, and leave only constructs around them. -/
theorem Tree.confined_run {f : Function} (budget : Nat) :
    (∀ t : Tree, ∀ scope, t.Stored f → t.Checked f scope →
        (∀ id ∈ t.ids, (f.blockAt id).Confined reads writes leaves) →
        (t.run m f budget).Confined reads writes fun t ↦ leaves t ∧ ∃ kind, (t, kind) ∈ scope) ∧
      ∀ ts : Forest, ∀ scope, Forest.Stored f ts → Forest.Checked f scope ts →
        (∀ id ∈ Forest.ids ts, (f.blockAt id).Confined reads writes leaves) →
        (Forest.run m f budget ts).Confined reads writes
          fun t ↦ leaves t ∧ ∃ kind, (t, kind) ∈ scope := by
  -- no other kind of construct is confined
  have other {id : BlockId} {kind : BlockKind} {body otherwise : List BlockId}
      (hnode : f.Node id kind body otherwise) (h : (f.blockAt id).Confined reads writes leaves)
      (hkind : kind ≠ .basic ∧ kind ≠ .breakable) : False := by
    rw [← hnode.kind_eq] at hkind
    exact h.kind.elim hkind.1 hkind.2
  refine Tree.induction ?basic ?cond ?branch ?loop ?breakable ?nil ?cons
  case basic =>
    intro id scope _ hchecked h
    have hid := h id (by simp [Tree.ids])
    rw [Tree.run_basic, Block.run_eq_runInstrs hid.exits]
    refine runInstrs_confined fun i hi ↦ (hid.instrs i hi).aimed ?_
    have hviolations := List.flatMap_eq_nil_iff.1 hchecked.1 i hi
    exact (Function.instrViolations_eq_nil.1 hviolations).2
  case cond | loop =>
    intro id body _ scope hstored _ h
    exact (other hstored.1 (h id List.mem_cons_self) (by simp)).elim
  case branch =>
    intro id body other' _ _ scope hstored _ h
    exact (other hstored.1 (h id List.mem_cons_self) (by simp)).elim
  case breakable =>
    intro id body ih scope hstored hchecked h
    rw [Tree.run_breakable]
    refine Run.Confined.breakable (Run.Confined.mono (ih _ hstored.2 hchecked.2 fun x hx ↦
      h x (List.mem_cons_of_mem id hx)) (fun _ hv ↦ hv) ?_)
    rintro t ⟨ht, kind, hmem⟩
    cases List.mem_cons.1 hmem with
    | inl heq => exact .inr (congrArg Prod.fst heq)
    | inr hmem => exact .inl ⟨ht, kind, hmem⟩
  case nil =>
    intro scope _ _ _
    exact Run.confined_skip
  case cons =>
    intro t ts ih ihs scope hstored hchecked h
    rw [Forest.run_cons]
    exact (ih scope hstored.1 hchecked.1 fun x hx ↦ h x (List.mem_append_left _ hx)).andThen
      (ihs scope hstored.2 hchecked.2 fun x hx ↦ h x (List.mem_append_right _ hx))

end WasmBackend.Ir
