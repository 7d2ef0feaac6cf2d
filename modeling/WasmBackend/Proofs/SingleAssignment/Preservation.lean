import WasmBackend.Proofs.Simulation
import WasmBackend.Proofs.SingleAssignment.Rewriting

/-!
# Conversion preserves runs

A run of the converted function goes through the same blocks as a run of the function itself, with
the same effects.  Where control arrives at a block, a variable that has a name there has the value
of its name, and a variable without a name has not been written yet, so it and every name made for
it still are zero.  The assignments on an edge carry this from the end of its source to the head of
its destination.
-/

namespace WasmBackend.SingleAssignment

open Ir (BlockId Block Copy Correspondence Exit Forest Function Instr Machine Reply Run State Targets
  Tree Var counter isStraight instrEdges runInstrs)
open WasmBackend.Flow (Graph Edge Site)

variable {V W : Type}

/-- The states see the same world and have recorded the same effects. -/
structure SameWorld (s s' : State V W) : Prop where
  world_eq : s'.world = s.world
  trace_eq : s'.trace = s.trace

/-- Variables with names have the values of their names; those without are still zero, and so are
all names made for them. -/
structure Agree (m : Machine V W) (f : Function) (vars : Array Prim) (birth : Var → Birth)
    (env : Env) (s s' : State V W) : Prop extends SameWorld s s' where
  named : ∀ v name, env v = some name → s'.vars name = s.vars v
  unnamed : ∀ v < f.vars.size, env v = none →
    s.vars v = m.zero ((f.vars[v]?).getD .none)
      ∧ ∀ n < vars.size, (birth n).var = v → s'.vars n = m.zero ((f.vars[v]?).getD .none)

section

variable {m : Machine V W} {f : Function} {r : Renaming} {birth : Var → Birth} {env : Env}
  {s s' : State V W}

/-! ## Reading and writing variables -/

theorem Agree.rename (h : Agree m f r.vars birth env s s') (hr : r.Named f birth) {v : Var}
    (hv : v < f.vars.size) : s'.vars (env.rename v) = s.vars v := by
  unfold Env.rename
  cases hname : env v with
  | some name => exact h.named v name hname
  | none =>
    obtain ⟨hzero, hnames⟩ := h.unnamed v hv hname
    rw [hzero]
    exact hnames v (Nat.lt_of_lt_of_le hv hr.size_le) (by rw [hr.original v hv])

theorem Agree.args (h : Agree m f r.vars birth env s s') (hr : r.Named f birth) {vs : List Var}
    (hvs : ∀ v ∈ vs, v < f.vars.size) : (vs.map env.rename).map s'.vars = vs.map s.vars := by
  rw [List.map_map]
  exact List.map_congr_left fun v hv ↦ h.rename hr (hvs v hv)

/-- Writing a variable under a new name. -/
theorem Agree.set (h : Agree m f r.vars birth env s s') (henv : env.Faithful f r.vars birth)
    {v name : Var} (hname : StandsFor f r.vars birth v name) (x : V) :
    Agree m f r.vars birth (Function.update env v (some name)) (s.set v x) (s'.set name x) where
  world_eq := h.world_eq
  trace_eq := h.trace_eq
  named w n hn := by
    rw [Function.update_apply] at hn
    simp only [State.set]
    split at hn <;> rename_i hw
    · cases hn
      rw [if_pos rfl, if_pos hw]
    · have hne : n ≠ name := by
        rintro rfl
        exact hw ((henv w n hn).var_eq.symm.trans hname.var_eq)
      rw [if_neg hne, if_neg hw, h.named w n hn]
  unnamed w hw hn := by
    rw [Function.update_apply] at hn
    split at hn <;> rename_i hwv
    · cases hn
    · obtain ⟨hzero, hnames⟩ := h.unnamed w hw hn
      simp only [State.set, if_neg hwv]
      refine ⟨hzero, fun n hn' hbirth ↦ ?_⟩
      have hne : n ≠ name := by
        rintro rfl
        exact hwv (hbirth.symm.trans hname.var_eq)
      rw [if_neg hne, hnames n hn' hbirth]

theorem Agree.setAll (h : Agree m f r.vars birth env s s') (henv : env.Faithful f r.vars birth)
    {vs names : List Var} (hlength : names.length = vs.length)
    (hnames : ∀ q ∈ vs.zip names, StandsFor f r.vars birth q.1 q.2) (xs : List V)
    (hxs : xs.length = vs.length) :
    Agree m f r.vars birth (env.bind vs names) (s.setAll (vs.zip xs)) (s'.setAll (names.zip xs)) := by
  induction vs generalizing env s s' names xs with
  | nil =>
    obtain rfl := List.eq_nil_of_length_eq_zero hlength
    exact h
  | cons v vs ih =>
    obtain _ | ⟨name, names⟩ := names
    · cases hlength
    obtain _ | ⟨x, xs⟩ := xs
    · cases hxs
    have hname := hnames (v, name) List.mem_cons_self
    have henv' : Env.Faithful f r.vars birth (Function.update env v (some name)) := by
      have hnamed : ∀ q ∈ [v].zip [name], StandsFor f r.vars birth q.1 q.2 := by
        simpa using hname
      exact henv.bind hnamed
    exact ih (h.set henv hname x) henv' (by simpa using hlength)
      (fun q hq ↦ hnames q (List.mem_cons_of_mem _ hq)) xs (by simpa using hxs)

/-! ## One instruction -/

/-- An instruction under new names. -/
def Env.instr (env : Env) (i : Instr) (defs : List Var) (copies : List Copy) : Instr :=
  { i with args := i.args.map env.rename, dst := defs, copies := copies }

/-- What two runs of an instruction have in common: they end the same way, and where control falls
through, the new names are in place. -/
structure Follows (m : Machine V W) (f : Function) (vars : Array Prim) (birth : Var → Birth)
    (env : Env) (p p' : State V W × Exit V) : Prop where
  exit_eq : p'.2 = p.2
  same : SameWorld p.1 p'.1
  agree : p.2 = .fall → Agree m f vars birth env p.1 p'.1

theorem Agree.record (h : Agree m f r.vars birth env s s') (i : Instr) (args : List V) :
    Agree m f r.vars birth env (s.record i args) (s'.record i args) where
  world_eq := by simp [h.world_eq]
  trace_eq := by
    unfold State.record
    split
    · simp [h.trace_eq]
    · exact h.trace_eq
  named := by simpa using h.named
  unnamed := by simpa using h.unnamed

theorem Agree.follows_of_stop (h : SameWorld s s') {x : Exit V} (hx : x ≠ .fall) :
    Follows m f r.vars birth env (s, x) (s', x) :=
  ⟨rfl, h, fun hfall ↦ absurd hfall hx⟩

theorem Agree.follows_apply (h : Agree m f r.vars birth env s s') (hr : r.Named f birth)
    (henv : env.Faithful f r.vars birth) {i : Instr} (hargs : ∀ v ∈ i.args, v < f.vars.size)
    {defs : List Var} (hlength : defs.length = i.dst.length)
    (hdefs : ∀ q ∈ i.dst.zip defs, StandsFor f r.vars birth q.1 q.2) (copies : List Copy) :
    Follows m f r.vars birth (env.bind i.dst defs) (i.apply m s)
      ((env.instr i defs copies).apply m s') := by
  have hvalues : (env.instr i defs copies).args.map s'.vars = i.args.map s.vars := h.args hr hargs
  have hrecord := h.record i (i.args.map s.vars)
  unfold Instr.apply
  rw [hvalues]
  dsimp only
  rw [show (env.instr i defs copies).operation = i.operation from rfl,
    show s'.record (env.instr i defs copies) = s'.record i from rfl, hrecord.world_eq,
    show (env.instr i defs copies).dst = defs from rfl, hlength]
  split
  · rename_i results world _
    split
    · rename_i hresults
      have hworld : Agree m f r.vars birth env
          { s.record i (i.args.map s.vars) with world := world }
          { s'.record i (i.args.map s.vars) with world := world } :=
        ⟨⟨rfl, hrecord.trace_eq⟩, hrecord.named, hrecord.unnamed⟩
      have hall := hworld.setAll henv hlength hdefs results hresults
      exact ⟨rfl, hall.toSameWorld, fun _ ↦ hall⟩
    · exact Agree.follows_of_stop hrecord.toSameWorld (by simp)
  · exact Agree.follows_of_stop hrecord.toSameWorld (by simp)
  · exact Agree.follows_of_stop hrecord.toSameWorld (by simp)

theorem Agree.follows_direct (h : Agree m f r.vars birth env s s') (hr : r.Named f birth)
    {i : Instr} (hargs : ∀ v ∈ i.args, v < f.vars.size) (copies : List Copy) :
    Follows m f r.vars birth env (i.direct m s) ((env.instr i [] copies).direct m s') := by
  have hleave (x : Exit V) (hx : x ≠ .fall) :
      Follows m f r.vars birth env (i.leave x s) ((env.instr i [] copies).leave x s') :=
    ⟨rfl, ⟨h.world_eq, h.trace_eq⟩, fun hfall ↦ absurd hfall hx⟩
  have hvalues : (i.args.map env.rename).map s'.vars = i.args.map s.vars := h.args hr hargs
  unfold Instr.direct
  rw [show (env.instr i [] copies).op = i.op from rfl,
    show (env.instr i [] copies).args = i.args.map env.rename from rfl]
  cases hop : i.op with
  | ret =>
    dsimp only
    rw [hvalues]
    exact Agree.follows_of_stop h.toSameWorld (by simp)
  | exit => exact hleave _ (by simp)
  | next => exact hleave _ (by simp)
  | exitIf =>
    match hi : i.args with
    | [a] =>
      have ha : s'.vars (env.rename a) = s.vars a := h.rename hr (hargs a (by simp [hi]))
      simp only [List.map_cons, List.map_nil, ha]
      split
      · exact hleave _ (by simp)
      · exact ⟨rfl, h.toSameWorld, fun _ ↦ h⟩
      · exact Agree.follows_of_stop h.toSameWorld (by simp)
    | [] => exact Agree.follows_of_stop h.toSameWorld (by simp)
    | _ :: _ :: _ => exact Agree.follows_of_stop h.toSameWorld (by simp)
  | _ => exact Agree.follows_of_stop h.toSameWorld (by simp)

/-- An instruction and what conversion makes of it do the same. -/
theorem Agree.follows (h : Agree m f r.vars birth env s s') (hr : r.Named f birth)
    (henv : env.Faithful f r.vars birth) {i : Instr} (hphi : i.op ≠ .phi)
    (hargs : ∀ v ∈ i.args, v < f.vars.size) {defs : List Var}
    (hlength : defs.length = i.dst.length)
    (hdefs : ∀ q ∈ i.dst.zip defs, StandsFor f r.vars birth q.1 q.2) (copies : List Copy) :
    Follows m f r.vars birth (env.bind i.dst defs) (i.run m s)
      ((env.instr i defs copies).run m s') := by
  unfold Instr.run
  rw [show (env.instr i defs copies).op = i.op from rfl,
    show (env.instr i defs copies).isControl = i.isControl from rfl,
    show (env.instr i defs copies).dst = defs from rfl, if_neg hphi, if_neg hphi]
  split
  · by_cases hdst : i.dst = []
    · have hnil : defs = [] := List.eq_nil_of_length_eq_zero (by rw [hlength, hdst]; rfl)
      rw [if_pos hdst, if_pos hnil, hdst, hnil]
      exact h.follows_direct hr hargs copies
    · have hcons : defs ≠ [] := by
        rintro rfl
        exact hdst (List.eq_nil_of_length_eq_zero hlength.symm)
      rw [if_neg hdst, if_neg hcons]
      exact Agree.follows_of_stop h.toSameWorld (by simp)
  · exact h.follows_apply hr henv hargs hlength hdefs copies

end

/-! ## One edge -/

/-- The names at the end of a block. -/
def outEnv (r : Renaming) (id : BlockId) : Env :=
  match (r.block id).out with
  | some o => Names.get? o
  | none => fun _ ↦ none

section

variable {m : Machine V W} {f : Function} {g : Graph} {r : Renaming} {birth : Var → Birth}
  {s s' : State V W} {id : BlockId} {e : Edge}

theorem outEnv_of_other (h : Renaming.Settled f g r id) (hkind : (f.blockAt id).kind ≠ .basic) :
    outEnv r id = Renaming.headEnv f g r id := by
  obtain ⟨names, o, hnames, hout, hpassed, -⟩ := h.out
  unfold outEnv
  rw [hout, ← hnames, hpassed.other hkind]

theorem outEnv_of_basic (h : Renaming.Settled f g r id) (hkind : (f.blockAt id).kind = .basic) :
    ∃ ds, (r.block id).defs = some ds
      ∧ outEnv r id = (Renaming.headEnv f g r id).through ((f.blockAt id).instrs.zip ds) := by
  obtain ⟨names, o, hnames, hout, hpassed, -⟩ := h.out
  obtain ⟨ds, hds, _, hthrough⟩ := hpassed.basic hkind
  refine ⟨ds, hds, ?_⟩
  unfold outEnv
  rw [hout, ← hnames, ← Names.get?_through _ 0, hthrough]

/-- The names of a variable that arrive along an edge are those at the end of its source. -/
theorem exists_along (hdone : Renaming.Done f g r birth) (he : e ∈ g.edges)
    (hsrc : e.src ∈ g.order) : ∃ o, r.along e = some o ∧ Names.get? o = outEnv r e.src := by
  obtain ⟨_, o, _, hout, _⟩ := (hdone.settled e.src hsrc).out
  refine ⟨o, ?_, ?_⟩
  · rw [hdone.consistent e he, hout]
  · unfold outEnv
    rw [hout]

theorem mem_arriving (hdone : Renaming.Done f g r birth) (he : e ∈ g.edges)
    (hsrc : e.src ∈ g.order) {v name : Var} (hname : outEnv r e.src v = some name) :
    name ∈ arriving (r.incoming f g e.dst) v := by
  obtain ⟨o, halong, hget⟩ := exists_along hdone he hsrc
  refine List.mem_filterMap.2 ⟨o, List.mem_append_right _ ?_, by rw [hget, hname]⟩
  exact List.mem_filterMap.2 ⟨e, Flow.Graph.mem_preds.2 ⟨he, rfl⟩, halong⟩

/-- An edge assigns to a merge of its destination the name that the variable has at its source,
unless that is the merge itself. -/
theorem mem_copiesOf (hdone : Renaming.Done f g r birth) (he : e ∈ g.edges)
    (hsrc : e.src ∈ g.order) {c : Copy} :
    c ∈ copiesOf f r e ↔ ∃ v, (v, c.dst) ∈ (r.block e.dst).merges
      ∧ outEnv r e.src v = some c.src ∧ c.src ≠ c.dst := by
  obtain ⟨o, halong, hget⟩ := exists_along hdone he hsrc
  unfold copiesOf Conversion.edgeCopies Conversion.mergesOf
  simp only [List.mem_filterMap, List.mem_mergeSort, halong, Option.bind_some, hget]
  constructor
  · rintro ⟨⟨v, merge⟩, hmem, hc⟩
    dsimp only at hc
    split at hc
    · rename_i name hname
      split at hc
      · cases hc
      · cases hc
        exact ⟨v, hmem, hname, by assumption⟩
    · cases hc
  · rintro ⟨v, hmem, hname, hne⟩
    exact ⟨(v, c.dst), hmem, by simp [hname, hne]⟩

/-- Whatever an edge assigns to a name stands for the variable of that name. -/
theorem var_of_mem_copiesOf (hdone : Renaming.Done f g r birth) (he : e ∈ g.edges)
    (hsrc : e.src ∈ g.order) {c : Copy} (hc : c ∈ copiesOf f r e) :
    outEnv r e.src (birth c.dst).var = some c.src
      ∧ ((birth c.dst).var, c.dst) ∈ (r.block e.dst).merges ∧ c.src ≠ c.dst := by
  obtain ⟨v, hmem, hname, hne⟩ := (mem_copiesOf hdone he hsrc).1 hc
  have hv : (birth c.dst).var = v := ((hdone.named.block e.dst).merges_fresh _ hmem).standsFor.var_eq
  rw [hv]
  exact ⟨hname, hmem, hne⟩

theorem chosen_of_mem {merges : List (Var × Var)} {v n : Var} {names : List Var} (hn : n ∈ names)
    (h : Undisputed merges v names) :
    chosen merges v names = some ((merges.lookup v).getD n) := by
  cases names with
  | nil => cases hn
  | cons first rest =>
    unfold chosen
    cases hlookup : merges.lookup v with
    | none => rw [h hlookup first List.mem_cons_self n hn]
    | some merge => rfl

/-- The assignments of an edge carry the agreement to the head of its destination. -/
theorem Agree.edge (hdone : Renaming.Done f g r birth) (hparams : f.params.length ≤ f.vars.size)
    (he : e ∈ g.edges) (hsrc : e.src ∈ g.order) (hdst : e.dst ∈ g.order)
    (h : Agree m f r.vars birth (outEnv r e.src) s s') :
    Agree m f r.vars birth (Renaming.headEnv f g r e.dst) s (s'.assign (copiesOf f r e)) where
  world_eq := h.world_eq
  trace_eq := h.trace_eq
  named v name hname := by
    have hstands := hdone.named.headEnv_faithful hparams g e.dst v name hname
    cases hout : outEnv r e.src v with
    | none =>
      -- the variable has not been written on this way, and no assignment is made to its name
      obtain ⟨hzero, hnames⟩ := h.unnamed v hstands.var_lt hout
      rw [State.vars_assign_of_forall_ne, hnames name hstands.name_lt hstands.var_eq, hzero]
      rintro c hc rfl
      have hvar := (var_of_mem_copiesOf hdone he hsrc hc).1
      rw [hstands.var_eq, hout] at hvar
      cases hvar
    | some n =>
      have hmem := mem_arriving hdone he hsrc hout
      have hchosen := chosen_of_mem hmem ((hdone.settled e.dst hdst).undisputed v)
      unfold Renaming.headEnv at hname
      rw [hchosen, Option.some.injEq] at hname
      have hvalue : s'.vars n = s.vars v := h.named v n hout
      by_cases heq : n = name
      · subst heq
        rw [State.vars_assign_of_forall_ne, hvalue]
        rintro c hc rfl
        obtain ⟨hvar, _, hne⟩ := var_of_mem_copiesOf hdone he hsrc hc
        rw [hstands.var_eq, hout] at hvar
        exact hne (Option.some.inj hvar).symm
      · have hlookup : (r.block e.dst).merges.lookup v = some name := by
          cases hlookup : (r.block e.dst).merges.lookup v with
          | none => rw [hlookup] at hname; exact absurd hname heq
          | some merge => rw [hlookup] at hname; rw [← hname]; rfl
        obtain ⟨before, rest, hmerges, _⟩ := List.lookup_eq_some_iff.1 hlookup
        have hc : (⟨name, n⟩ : Copy) ∈ copiesOf f r e :=
          (mem_copiesOf hdone he hsrc).2 ⟨v, by simp [hmerges], hout, heq⟩
        rw [State.vars_assign_of_mem hc fun c hc' hdst' ↦ ?_, hvalue]
        have hvar := (var_of_mem_copiesOf hdone he hsrc hc').1
        rw [hdst', hstands.var_eq, hout] at hvar
        exact (Option.some.inj hvar).symm
  unnamed v hv hnone := by
    have hout : outEnv r e.src v = none := by
      cases hout : outEnv r e.src v with
      | none => rfl
      | some n =>
        have hchosen := chosen_of_mem (mem_arriving hdone he hsrc hout)
          ((hdone.settled e.dst hdst).undisputed v)
        unfold Renaming.headEnv at hnone
        rw [hchosen] at hnone
        cases hnone
    obtain ⟨hzero, hnames⟩ := h.unnamed v hv hout
    refine ⟨hzero, fun n hn hbirth ↦ ?_⟩
    rw [State.vars_assign_of_forall_ne, hnames n hn hbirth]
    rintro c hc rfl
    have hvar := (var_of_mem_copiesOf hdone he hsrc hc).1
    rw [hbirth, hout] at hvar
    cases hvar

end

/-! ## Where the assignments of an edge are -/

section

variable {m : Machine V W} {f f' : Function} {ts : Forest} {g : Graph} {r : Renaming}
  {birth : Var → Birth} {s s' : State V W} {id : BlockId} {e : Edge}

theorem flatMap_ite_eq {order : List BlockId} (hnodup : order.Nodup) (hdst : e.dst ∈ order) :
    (order.flatMap fun b ↦ if e.dst = b then [e] else []) = [e] := by
  induction order with
  | nil => cases hdst
  | cons b order ih =>
    obtain ⟨hb, horder⟩ := List.nodup_cons.1 hnodup
    rw [List.flatMap_cons]
    by_cases heq : e.dst = b
    · have hnone : (order.flatMap fun b ↦ if e.dst = b then [e] else []) = [] := by
        refine List.flatMap_eq_nil_iff.2 fun c hc ↦ if_neg ?_
        rintro rfl
        exact hb (heq ▸ hc)
      rw [if_pos heq, hnone, List.append_nil]
    · rw [if_neg heq, ih horder ((List.mem_cons.1 hdst).resolve_left heq), List.nil_append]

/-- An edge that is the only one of its kind is the only one whose assignments are placed. -/
theorem filter_fedEdges (hnodup : g.order.Nodup) (hdst : e.dst ∈ g.order) {p : Edge → Bool}
    (hp : g.edges.filter p = [e]) : (Conversion.fedEdges g).filter p = [e] := by
  rw [← flatMap_ite_eq hnodup hdst]
  unfold Conversion.fedEdges Flow.Graph.preds
  rw [List.filter_flatMap]
  refine List.flatMap_congr fun b _ ↦ ?_
  rw [List.filter_comm, hp, List.filter_singleton]
  by_cases heq : e.dst = b <;> simp [heq]

theorem only_edge {p : Edge → Bool} (hp : (g.succs id).filter p = e.proper) (hdst : e.dst ≠ 0) :
    e ∈ g.edges ∧ (g.succs id).filter p = [e] := by
  rw [Edge.proper, if_neg hdst] at hp
  have hmem : e ∈ (g.succs id).filter p := by
    rw [hp]
    exact List.mem_singleton_self e
  exact ⟨(Flow.Graph.mem_succs.1 (List.mem_filter.1 hmem).1).1, hp⟩

theorem copiesAt_fedEdges (hnodup : g.order.Nodup) (hdst : e.dst ∈ g.order) {site : Site}
    (he : (g.succs id).filter (fun e ↦ e.site = site) = [e]) :
    copiesAt f r ((Conversion.fedEdges g).filter fun e ↦ e.src = id) site = copiesOf f r e := by
  unfold Flow.Graph.succs at he
  rw [List.filter_filter] at he
  unfold copiesAt
  rw [List.filter_filter, filter_fedEdges hnodup hdst he, List.flatMap_singleton]

theorem branchCopies_fedEdges (hnodup : g.order.Nodup) (hdst : e.dst ∈ g.order) {n : Nat}
    (he : (g.succs id).filter (fun e ↦ e.site = .branch ∧ e.instr = n) = [e]) (count : Nat) :
    branchCopies f r ((Conversion.fedEdges g).filter fun e ↦ e.src = id) count (n + count)
      = copiesOf f r e := by
  unfold Flow.Graph.succs at he
  rw [List.filter_filter] at he
  unfold branchCopies
  simp only [Nat.add_right_cancel_iff]
  rw [List.filter_filter, filter_fedEdges hnodup hdst he, List.flatMap_singleton]

/-! ## Blocks -/

/-- How the states of a function and of its conversion are related. -/
def conversion (m : Machine V W) (f : Function) (g : Graph) (r : Renaming) (birth : Var → Birth) :
    Correspondence V W where
  At b s s' := SameWorld s s'
    ∧ (b ≠ 0 → b ∈ g.order ∧ Agree m f r.vars birth (Renaming.headEnv f g r b) s s')
  Stopped := SameWorld
  stopped_of_at h := h.1

/-- Control arrives where an edge goes, given that its assignments have been made. -/
theorem Converted.arrive (h : Converted f ts f' g r birth) (hsrc : e.src ∈ g.order)
    (hs : Agree m f r.vars birth (outEnv r e.src) s s') (he : e.dst ≠ 0 → e ∈ g.edges)
    {cs : List Copy} (hcs : e.dst ≠ 0 → e.dst ∈ g.order → cs = copiesOf f r e) :
    (conversion m f g r birth).At e.dst s (s'.assign cs) := by
  refine ⟨⟨hs.world_eq, hs.trace_eq⟩, fun hdst ↦ ?_⟩
  have hmem := h.describes.order_closed e.src hsrc e
    (Flow.Graph.mem_succs.2 ⟨he hdst, rfl⟩)
  rw [hcs hdst hmem]
  exact ⟨hmem, hs.edge h.done h.shaped.params_le (he hdst) hsrc hmem⟩

theorem Converted.blockAt_eq (h : Converted f ts f' g r birth)
    (hid : f.block? id = some (f.blockAt id)) :
    f'.blockAt id = Conversion.fedBy f g r (Conversion.fedEdges g) id (f.blockAt id) := by
  rw [Function.blockAt, h.block?_eq, hid, Option.map_some, Option.getD_some]

/-- No assignments are made on the way into a construct other than a loop. -/
theorem Converted.copiesOf_enter (h : Converted f ts f' g r birth) (he : e ∈ g.edges)
    (hdst : e.dst ∈ g.order) (hsite : e.site = .enter) (hkind : (f.blockAt e.src).kind ≠ .loop) :
    copiesOf f r e = [] := by
  have hfed : e ∈ Conversion.fedEdges g :=
    List.mem_flatMap.2 ⟨e.dst, hdst, Flow.Graph.mem_preds.2 ⟨he, rfl⟩⟩
  exact (h.enters e hfed hsite).resolve_right hkind

/-! ## Basic blocks -/

/-- The part of a basic block from position `n` on, where names are as in `env`. -/
structure Suffix (f : Function) (g : Graph) (r : Renaming) (birth : Var → Birth) (d : Targets)
    (id next : BlockId) (n : Nat) (is : List Instr) (ds : List (List Var)) (env : Env) : Prop where
  straight : isStraight is
  args_lt : ∀ i ∈ is, ∀ v ∈ i.args, v < f.vars.size
  length_eq : ds.length = is.length
  results_length : ∀ p ∈ is.zip ds, p.2.length = p.1.dst.length
  stand : ResultsStand f r.vars birth (is.zip ds)
  faithful : env.Faithful f r.vars birth
  out_eq : outEnv r id = env.through (is.zip ds)
  branch_eq : ∀ k, n ≤ k → (g.succs id).filter (fun e ↦ e.site = .branch ∧ e.instr = k) =
    (instrEdges d id next n is).filter fun e ↦ e.site = .branch ∧ e.instr = k
  fall_eq : (g.succs id).filter (fun e ↦ e.site = .fallthrough) =
    (instrEdges d id next n is).filter fun e ↦ e.site = .fallthrough

theorem filter_proper (e : Edge) (p : Edge → Bool) :
    e.proper.filter p = if p e then e.proper else [] := by
  unfold Edge.proper
  split
  · simp
  · rw [List.filter_singleton]
    cases p e <;> rfl

section

variable {d : Targets} {next : BlockId} {n : Nat} {i : Instr} {is : List Instr} {defs : List Var}
  {ds : List (List Var)} {env : Env}

theorem Suffix.tail (h : Suffix f g r birth d id next n (i :: is) (defs :: ds) env)
    (hi : i.terminates = false) :
    Suffix f g r birth d id next (n + 1) is ds (env.bind i.dst defs) where
  straight := by
    have hstraight := h.straight
    simp only [isStraight, Bool.and_eq_true] at hstraight
    exact hstraight.2
  args_lt j hj := h.args_lt j (List.mem_cons_of_mem i hj)
  length_eq := by simpa using h.length_eq
  results_length p hp := h.results_length p (List.mem_cons_of_mem _ hp)
  stand p hp := h.stand p (List.mem_cons_of_mem _ hp)
  faithful := h.faithful.bind (h.stand (i, defs) List.mem_cons_self)
  out_eq := h.out_eq
  branch_eq k hk := by
    rw [h.branch_eq k (by omega), instrEdges, hi, List.filter_append]
    have hne : n ≠ k := by omega
    split
    · rw [filter_proper]
      simp [hne]
    · simp
  fall_eq := by
    rw [h.fall_eq, instrEdges, hi, List.filter_append]
    split
    · rw [filter_proper]
      simp
    · simp

/-- The edge of a branch is the only one of its position. -/
theorem Suffix.filter_branch (h : Suffix f g r birth d id next n (i :: is) (defs :: ds) env)
    (hi : i.isBranch) :
    is = [] ∧ (g.succs id).filter (fun e ↦ e.site = .branch ∧ e.instr = n) =
      Edge.proper { src := id, dst := d.destination i, site := .branch, instr := n } := by
  have hstraight := h.straight
  simp only [isStraight, Bool.and_eq_true, Bool.or_eq_true, hi, Bool.not_true, Bool.false_eq_true,
    false_or, List.isEmpty_iff] at hstraight
  obtain rfl := hstraight.1.2
  refine ⟨rfl, ?_⟩
  have hnone : (if i.terminates then [] else instrEdges d id next (n + 1) []).filter
      (fun e ↦ e.site = .branch ∧ e.instr = n) = [] := by
    split
    · rfl
    · rw [instrEdges, filter_proper]
      simp
  rw [h.branch_eq n (Nat.le_refl n), instrEdges, if_pos hi, List.filter_append, hnone,
    List.append_nil, filter_proper]
  simp

theorem Suffix.filter_fall (h : Suffix f g r birth d id next n [] ds env) :
    (g.succs id).filter (fun e ↦ e.site = .fallthrough) =
      Edge.proper { src := id, dst := next, site := .fallthrough } := by
  rw [h.fall_eq, instrEdges, filter_proper]
  simp

/-- The rest of a converted basic block, behind `count` merges. -/
def rest (f : Function) (g : Graph) (r : Renaming) (id : BlockId) (count n : Nat) (env : Env)
    (is : List (Instr × List Var)) : List Instr :=
  (env.rewrite is).mapIdx fun k i ↦
    { i with
      copies := i.copies ++ branchCopies f r
        ((Conversion.fedEdges g).filter fun e ↦ e.src = id) count (k + n + count) }

theorem rest_cons (hcopies : i.copies = []) (count : Nat) (is : List (Instr × List Var)) :
    rest f g r id count n env ((i, defs) :: is) =
      env.instr i defs (branchCopies f r
          ((Conversion.fedEdges g).filter fun e ↦ e.src = id) count (n + count))
        :: rest f g r id count (n + 1) (env.bind i.dst defs) is := by
  unfold rest
  rw [Env.rewrite, List.mapIdx_cons]
  simp only [hcopies, List.nil_append, Nat.zero_add, Env.instr]
  congr 2
  funext k j
  rw [show k + 1 + n + count = k + (n + 1) + count by omega]

/-- The rest of a basic block and of its conversion lead to related states. -/
theorem Converted.rest_matches (h : Converted f ts f' g r birth) (hid : id ∈ g.order)
    (hsuffix : Suffix f g r birth d id next n is ds env) (count : Nat)
    (hs : Agree m f r.vars birth env s s') :
    (conversion m f g r birth).Matches d next
      (Run.andThen (runInstrs m is) (fun s ↦ (s, .fall)) s)
      (Run.andThen (runInstrs m (rest f g r id count n env (is.zip ds)))
        (fun s' ↦ (s'.assign (copiesAt f r
          ((Conversion.fedEdges g).filter fun e ↦ e.src = id) .fallthrough), .fall)) s') := by
  have hnodup := h.describes.order_nodup
  induction is generalizing n ds env s s' with
  | nil =>
    have hout : outEnv r id = env := hsuffix.out_eq
    refine .inr ⟨rfl, ?_⟩
    set e : Edge := { src := id, dst := next, site := .fallthrough }
    have hfilter := hsuffix.filter_fall
    exact h.arrive (e := e) hid (hout ▸ hs) (fun hdst ↦ (only_edge hfilter hdst).1)
      fun hdst hmem ↦ copiesAt_fedEdges hnodup hmem (only_edge hfilter hdst).2
  | cons i is ih =>
    obtain _ | ⟨defs, ds⟩ := ds
    · cases hsuffix.length_eq
    have hstraight := hsuffix.straight
    simp only [isStraight, Bool.and_eq_true, decide_eq_true_eq, List.isEmpty_iff] at hstraight
    obtain ⟨⟨⟨hphi, hcopies⟩, -⟩, -⟩ := hstraight
    rw [List.zip_cons_cons, rest_cons hcopies]
    simp only [runInstrs, Run.andThen_assoc]
    set cs := branchCopies f r ((Conversion.fedEdges g).filter fun e ↦ e.src = id) count (n + count)
      with hcs
    have hfollows := hs.follows h.done.named hsuffix.faithful hphi
      (hsuffix.args_lt i List.mem_cons_self)
      (hsuffix.results_length (i, defs) List.mem_cons_self)
      (hsuffix.stand (i, defs) List.mem_cons_self) cs
    -- the edge of a branch makes its assignments where the branch is taken
    have hbranch (hi : i.isBranch) (hdst : i.dst = []) :
        (conversion m f g r birth).At (d.destination i) s (s'.assign cs) := by
      obtain ⟨rfl, hfilter⟩ := hsuffix.filter_branch hi
      have hdefs : defs = [] := by
        have hlength := hsuffix.results_length (i, defs) List.mem_cons_self
        rw [hdst] at hlength
        exact List.eq_nil_of_length_eq_zero hlength
      have hout : outEnv r id = env := by
        have hout := hsuffix.out_eq
        rwa [List.zip_cons_cons, Env.through_cons, hdst, hdefs] at hout
      set e : Edge := { src := id, dst := d.destination i, site := .branch, instr := n }
      exact h.arrive (e := e) hid (hout ▸ hs) (fun hdst ↦ (only_edge hfilter hdst).1)
        fun hdst hmem ↦ branchCopies_fedEdges hnodup hmem (only_edge hfilter hdst).2 count
    rcases hp : i.run m s with ⟨t, x⟩
    rcases hp' : (env.instr i defs cs).run m s' with ⟨t', x'⟩
    rw [hp, hp'] at hfollows
    obtain rfl : x' = x := hfollows.exit_eq
    simp only [Run.andThen, hp, hp']
    cases x' with
    | fall =>
      have hi : i.terminates = false := Ir.Instr.terminates_of_fall (m := m) (s := s) (by rw [hp])
      exact ih (hsuffix.tail hi) (hfollows.agree rfl)
    | exit target =>
      obtain ⟨⟨hi, hop, hdst⟩, htarget, hstate⟩ :=
        Ir.Instr.run_exit (m := m) (i := i) (s := s) (by rw [hp])
      obtain ⟨-, -, hstate'⟩ :=
        Ir.Instr.run_exit (m := m) (i := env.instr i defs cs) (s := s') (by rw [hp'])
      rw [hp, hcopies] at hstate
      rw [hp'] at hstate'
      dsimp only at hstate hstate'
      have hat := hbranch hi hdst
      rw [Targets.destination, if_neg hop, ← htarget] at hat
      rw [hstate, hstate']
      exact .inr ⟨rfl, hat⟩
    | next target =>
      obtain ⟨⟨hi, hop, hdst⟩, htarget, hstate⟩ :=
        Ir.Instr.run_next (m := m) (i := i) (s := s) (by rw [hp])
      obtain ⟨-, -, hstate'⟩ :=
        Ir.Instr.run_next (m := m) (i := env.instr i defs cs) (s := s') (by rw [hp'])
      rw [hp, hcopies] at hstate
      rw [hp'] at hstate'
      dsimp only at hstate hstate'
      have hat := hbranch hi hdst
      rw [Targets.destination, if_pos hop, ← htarget] at hat
      rw [hstate, hstate']
      exact .inr ⟨rfl, hat⟩
    | _ => exact .inr ⟨rfl, hfollows.same⟩

/-- Merges do nothing when they are run. -/
theorem runInstrs_append_of_phi {merges : List Instr} (h : ∀ i ∈ merges, i.op = .phi)
    (is : List Instr) : runInstrs m (merges ++ is) = runInstrs m is := by
  induction merges with
  | nil => rfl
  | cons i merges ih =>
    funext s
    have hi : i.op = .phi := h i List.mem_cons_self
    simp only [List.cons_append, runInstrs, Run.andThen, Ir.Instr.run, hi, if_true]
    rw [ih fun j hj ↦ h j (List.mem_cons_of_mem i hj)]

theorem length_mergeInstrs (f : Function) (g : Graph) (r : Renaming) (id : BlockId) :
    (Conversion.mergeInstrs g { function := f, names := r } id).length
      = (r.block id).merges.length := by
  simp [Conversion.mergeInstrs, Conversion.mergesOf, List.length_mergeSort]

theorem op_of_mem_mergeInstrs {f : Function} {g : Graph} {r : Renaming} {id : BlockId} {i : Instr}
    (hi : i ∈ Conversion.mergeInstrs g { function := f, names := r } id) : i.op = .phi := by
  obtain ⟨p, _, rfl⟩ := List.mem_map.1 hi
  rfl

variable {scope : List (BlockId × Ir.BlockKind)}

/-- A whole basic block of a shaped function. -/
theorem Converted.suffix (h : Converted f ts f' g r birth) (hid : id ∈ g.order)
    (ht : (Tree.basic id).Placed f g d next scope) :
    ∃ ds, (r.block id).defs = some ds ∧ Suffix f g r birth d id next 0 (f.blockAt id).instrs ds
      (Renaming.headEnv f g r id) := by
  obtain ⟨ds, hds, hout⟩ := outEnv_of_basic (h.done.settled id hid) ht.stored.kind_eq
  have hresults := h.done.named.blockResults hds
  have hsuccs : g.succs id = instrEdges d id next 0 (f.blockAt id).instrs := ht.succs_eq
  refine ⟨ds, hds, ht.straight, fun i hi ↦ (ht.instr_vars hi).2, hresults.length_eq, ?_,
    hresults.stand, h.done.named.headEnv_faithful h.shaped.params_le g id, hout,
    fun k _ ↦ by rw [hsuccs], by rw [hsuccs]⟩
  intro p hp
  obtain ⟨n, hn, rfl⟩ := List.mem_iff_getElem.1 hp
  rw [List.getElem_zip]
  exact (hresults.results n _ _ (List.getElem?_eq_getElem _) (List.getElem?_eq_getElem _)).length_eq

theorem Converted.basic_matches (h : Converted f ts f' g r birth) (hid : id ∈ g.order)
    (ht : (Tree.basic id).Placed f g d next scope)
    (hs : Agree m f r.vars birth (Renaming.headEnv f g r id) s s') :
    (conversion m f g r birth).Matches d next ((f.blockAt id).run m s)
      ((f'.blockAt id).run m s') := by
  obtain ⟨ds, hds, hsuffix⟩ := h.suffix hid ht
  have hkind : (f.blockAt id).kind = .basic := ht.stored.kind_eq
  have hfree : (f.blockAt id).exitCopies = [] := by
    have hshaped := ht.shaped
    simp only [Tree.isShaped, Ir.Block.isCopyFree, Bool.and_eq_true, List.isEmpty_iff] at hshaped
    exact hshaped.2.1.1
  have hmatches := h.rest_matches hid hsuffix (r.block id).merges.length hs
  have hinstrs : runInstrs m (f'.blockAt id).instrs =
      runInstrs m (rest f g r id (r.block id).merges.length 0 (Renaming.headEnv f g r id)
        ((f.blockAt id).instrs.zip ds)) := by
    rw [h.blockAt_eq ht.stored.block?_eq]
    simp only [Conversion.fedBy, Conversion.placed, Conversion.renamedIn, if_pos hid, renamed, hkind,
      headCount, if_true, hds, Option.getD_some]
    rw [List.mapIdx_append, length_mergeInstrs, runInstrs_append_of_phi]
    · rfl
    · intro i hi
      obtain ⟨n, hn, rfl⟩ := List.mem_iff_getElem.1 hi
      rw [List.length_mapIdx] at hn
      have hop := op_of_mem_mergeInstrs (List.getElem_mem hn)
      rw [List.getElem_mapIdx]
      exact hop
  have hexits : (f'.blockAt id).exitCopies =
      copiesAt f r ((Conversion.fedEdges g).filter fun e ↦ e.src = id) .fallthrough := by
    rw [h.blockAt_eq ht.stored.block?_eq]
    simp [Conversion.fedBy, Conversion.placed, hfree]
  unfold Ir.Block.run
  rw [hinstrs, hexits, hfree]
  exact hmatches

/-! ## Structured blocks -/

/-- Where control is at a block, it has reached it, and names and variables agree. -/
theorem conversion_at_iff (hid : id ≠ 0) : (conversion m f g r birth).At id s s' ↔
    id ∈ g.order ∧ Agree m f r.vars birth (Renaming.headEnv f g r id) s s' := by
  constructor
  · rintro ⟨_, hat⟩
    exact hat hid
  · rintro ⟨hmem, hs⟩
    exact ⟨hs.toSameWorld, fun _ ↦ ⟨hmem, hs⟩⟩

/-- Control that enters a construct other than a loop arrives at its first block. -/
theorem Converted.enter (h : Converted f ts f' g r birth) (hid : id ∈ g.order)
    (hkind : (f.blockAt id).kind ≠ .loop) {dst : BlockId}
    (he : { src := id, dst := dst, site := .enter } ∈ g.succs id)
    (hs : Agree m f r.vars birth (outEnv r id) s s') :
    (conversion m f g r birth).At dst s s' := by
  have hmem := (Flow.Graph.mem_succs.1 he).1
  rw [← State.assign_nil s']
  exact h.arrive (e := { src := id, dst := dst, site := .enter }) hid hs (fun _ ↦ hmem)
    fun _ hdst ↦ (h.copiesOf_enter hmem hdst rfl hkind).symm

/-- Assignments at a site other than a branch, where the block has none of its own. -/
theorem Converted.copies_eq (h : Converted f ts f' g r birth)
    (hid : f.block? id = some (f.blockAt id)) (hfree : (f.blockAt id).isCopyFree) :
    (f'.blockAt id).aroundCopies =
        copiesAt f r ((Conversion.fedEdges g).filter fun e ↦ e.src = id) .around
      ∧ (f'.blockAt id).entryCopies =
        copiesAt f r ((Conversion.fedEdges g).filter fun e ↦ e.src = id) .enter := by
  simp only [Ir.Block.isCopyFree, Bool.and_eq_true, List.isEmpty_iff] at hfree
  rw [h.blockAt_eq hid]
  simp [Conversion.fedBy, Conversion.placed, hfree.1.2, hfree.2]

theorem Converted.cond_eq (h : Converted f ts f' g r birth) (hmem : id ∈ g.order)
    (hid : f.block? id = some (f.blockAt id))
    (hkind : (f.blockAt id).kind = .cond ∨ (f.blockAt id).kind = .branch) :
    (f'.blockAt id).cond = (Renaming.headEnv f g r id).rename (f.blockAt id).cond := by
  rw [h.blockAt_eq hid]
  simp only [Conversion.fedBy, Conversion.placed, Conversion.renamedIn, if_pos hmem, renamed]
  rcases hkind with hkind | hkind <;> rw [hkind]

theorem block_ne_zero {id : BlockId} {b : Block} (hid : f.block? id = some b) : id ≠ 0 :=
  Nat.pos_iff_ne_zero.1 (f.mem_range_of_block? hid).1

theorem first_ne_zero {body : Forest} (fall : BlockId) (hbody : Forest.Stored f body)
    (harranged : Forest.isArranged body) : Forest.first body fall ≠ 0 := by
  obtain ⟨id, rest, rfl⟩ := Forest.exists_basic_of_isArranged harranged
  exact block_ne_zero hbody.1.block?_eq

/-- What is known where control is at a construct. -/
theorem Converted.at_construct (h : Converted f ts f' g r birth)
    (hblock : f.block? id = some (f.blockAt id)) (hkind : (f.blockAt id).kind ≠ .basic)
    (hs : (conversion m f g r birth).At id s s') :
    id ∈ g.order ∧ Agree m f r.vars birth (Renaming.headEnv f g r id) s s'
      ∧ Agree m f r.vars birth (outEnv r id) s s' := by
  obtain ⟨hid, hagree⟩ := (conversion_at_iff (block_ne_zero hblock)).1 hs
  rw [outEnv_of_other (h.done.settled id hid) hkind]
  exact ⟨hid, hagree, hagree⟩

/-- Every block of a shaped function and what conversion makes of it lead to related states. -/
theorem Converted.simulates (h : Converted f ts f' g r birth) :
    (∀ t : Tree, ∀ d next scope, t.Placed f g d next scope →
        t.Simulates m (conversion m f g r birth) f f' d next) ∧
      ∀ ts : Forest, ∀ d fall scope, Forest.Placed f g ts d fall scope →
        Forest.Simulates m (conversion m f g r birth) f f' d fall ts := by
  have hnodup := h.describes.order_nodup
  refine Tree.induction ?basic ?cond ?branch ?loop ?breakable ?nil ?cons
  case basic =>
    intro id d next scope ht s s' hs
    obtain ⟨hid, hagree⟩ := (conversion_at_iff (block_ne_zero ht.stored.block?_eq)).1 hs
    exact h.basic_matches hid ht hagree
  case cond =>
    intro id body ih d next scope ht
    obtain ⟨hbody, harranged⟩ := ht.cond_body
    refine ⟨fun s s' hs ↦ ?_, ih d next _ hbody⟩
    have hblock := ht.stored.1.block?_eq
    have hkind := ht.stored.1.kind_eq
    have hfree : (f.blockAt id).isCopyFree := by
      have hshaped := ht.shaped
      simp only [Tree.isShaped, Bool.and_eq_true] at hshaped
      exact hshaped.1.1
    obtain ⟨hid, hagree, hout⟩ := h.at_construct hblock (by simp [hkind]) hs
    have hcond := f.lt_of_unknownVars ht.checked.1 _ (List.mem_singleton_self _)
    have hfirst := first_ne_zero next hbody.stored harranged
    have hsuccs : g.succs id =
        Edge.proper { src := id, dst := Forest.first body next, site := .enter }
          ++ Edge.proper { src := id, dst := next, site := .around } := by
      rw [ht.wired.1]
      obtain ⟨id', rest, rfl⟩ := Forest.exists_basic_of_isArranged harranged
      rfl
    refine ⟨?_, ?_, ?_⟩
    · rw [h.cond_eq hid hblock (.inl hkind), hagree.rename h.done.named hcond]
    · refine h.enter hid (by simp [hkind]) ?_ hout
      rw [hsuccs]
      simp [hfirst]
    · have hfilter : (g.succs id).filter (fun e ↦ e.site = .around) =
          Edge.proper { src := id, dst := next, site := .around } := by
        rw [hsuccs, List.filter_append, filter_proper, filter_proper]
        simp
      have hcopies := (h.copies_eq hblock hfree).1
      simp only [Ir.Block.isCopyFree, Bool.and_eq_true, List.isEmpty_iff] at hfree
      rw [hfree.1.2, State.assign_nil]
      exact h.arrive (e := { src := id, dst := next, site := .around }) hid hout
        (fun hdst ↦ (only_edge hfilter hdst).1)
        fun hdst hmem ↦ hcopies.trans (copiesAt_fedEdges hnodup hmem (only_edge hfilter hdst).2)
  case branch =>
    intro id body other ih ih' d next scope ht
    obtain ⟨hbody, harranged⟩ := ht.branch_body
    obtain ⟨hother, harranged'⟩ := ht.branch_other
    refine ⟨fun s s' hs ↦ ?_, ih d next _ hbody, ih' d next _ hother⟩
    have hblock := ht.stored.1.block?_eq
    have hkind := ht.stored.1.kind_eq
    obtain ⟨hid, hagree, hout⟩ := h.at_construct hblock (by simp [hkind]) hs
    have hcond := f.lt_of_unknownVars ht.checked.1 _ (List.mem_singleton_self _)
    have hfirst := first_ne_zero next hbody.stored harranged
    have hfirst' := first_ne_zero next hother.stored harranged'
    have hsuccs := ht.wired.1
    refine ⟨?_, ?_, ?_⟩
    · rw [h.cond_eq hid hblock (.inr hkind), hagree.rename h.done.named hcond]
    · refine h.enter hid (by simp [hkind]) ?_ hout
      rw [hsuccs]
      simp [Tree.ownEdges, hfirst]
    · refine h.enter hid (by simp [hkind]) ?_ hout
      rw [hsuccs]
      simp [Tree.ownEdges, hfirst']
  case loop =>
    intro id body ih d next scope ht
    obtain ⟨hbody, harranged⟩ := ht.loop_body
    refine ⟨fun s s' hs ↦ ?_, ih _ _ _ hbody⟩
    have hblock := ht.stored.1.block?_eq
    have hkind := ht.stored.1.kind_eq
    have hfree : (f.blockAt id).isCopyFree := by
      have hshaped := ht.shaped
      simp only [Tree.isShaped, Bool.and_eq_true] at hshaped
      exact hshaped.1.1
    obtain ⟨hid, -, hout⟩ := h.at_construct hblock (by simp [hkind]) hs
    have hfilter : (g.succs id).filter (fun e ↦ e.site = .enter) =
        Edge.proper { src := id, dst := Forest.first body id, site := .enter } := by
      rw [ht.wired.1, Tree.ownEdges, filter_proper]
      simp
    have hcopies := (h.copies_eq hblock hfree).2
    simp only [Ir.Block.isCopyFree, Bool.and_eq_true, List.isEmpty_iff] at hfree
    rw [hfree.2, State.assign_nil]
    exact h.arrive (e := { src := id, dst := Forest.first body id, site := .enter }) hid hout
      (fun hdst ↦ (only_edge hfilter hdst).1)
      fun hdst hmem ↦ hcopies.trans (copiesAt_fedEdges hnodup hmem (only_edge hfilter hdst).2)
  case breakable =>
    intro id body ih d next scope ht
    obtain ⟨hbody, harranged⟩ := ht.breakable_body
    refine ⟨fun s s' hs ↦ ?_, ih _ next _ hbody⟩
    have hblock := ht.stored.1.block?_eq
    have hkind := ht.stored.1.kind_eq
    obtain ⟨hid, -, hout⟩ := h.at_construct hblock (by simp [hkind]) hs
    have hfirst := first_ne_zero next hbody.stored harranged
    refine h.enter hid (by simp [hkind]) ?_ hout
    rw [ht.wired.1]
    simp [Tree.ownEdges, hfirst]
  case nil =>
    intro d fall scope _
    trivial
  case cons =>
    intro t ts ih ihs d fall scope hts
    exact ⟨ih d _ _ hts.head, ihs d fall _ hts.tail⟩

/-! ## Whole runs -/

/-- At the start only parameters have names, which are their own. -/
theorem Converted.headEnv_entry (h : Converted f ts f' g r birth) (v : Var) :
    Renaming.headEnv f g r g.entry v = if v < f.params.length then some v else none := by
  obtain ⟨id, rest, rfl⟩ := Forest.exists_basic_of_isArranged h.shaped.arranged
  have hpreds : g.preds g.entry = [] := by
    refine List.filter_eq_nil_iff.2 fun e he hdst ↦ ?_
    exact h.describes.dst_ne_entry h.shaped.toWellFormed he (of_decide_eq_true hdst)
  have hways : g.ways g.entry ≤ 1 := by simp [Graph.ways, hpreds]
  unfold Renaming.headEnv Renaming.incoming
  rw [h.done.fed _ hways, hpreds, if_pos rfl, List.filterMap_nil, List.append_nil]
  unfold arriving
  rw [List.filterMap_cons, Names.get?_paramNames, List.filterMap_nil]
  split <;> rename_i hv <;> split at hv <;> simp_all [chosen]

theorem Converted.agree_start (h : Converted f ts f' g r birth) (m : Machine V W)
    (params : List V) (world : W) :
    Agree m f r.vars birth (Renaming.headEnv f g r g.entry) (f.start m params world)
      (f'.start m params world) where
  world_eq := rfl
  trace_eq := rfl
  named v name hname := by
    rw [h.headEnv_entry] at hname
    split at hname <;> rename_i hv
    · cases hname
      have hlt : v < f.vars.size := Nat.lt_of_lt_of_le hv h.shaped.params_le
      unfold Function.start
      rw [h.frame]
      simp only [if_pos hv, h.done.named.vars_eq v hlt]
    · cases hname
  unnamed v hv hnone := by
    rw [h.headEnv_entry] at hnone
    split at hnone <;> rename_i hparam
    · cases hnone
    unfold Function.start
    rw [h.frame]
    refine ⟨if_neg hparam, fun n hn hbirth ↦ ?_⟩
    have hn' : ¬n < f.params.length := by
      intro hlt
      have hlt' : n < f.vars.size := Nat.lt_of_lt_of_le hlt h.shaped.params_le
      rw [h.done.named.original n hlt'] at hbirth
      exact hparam (hbirth ▸ hlt)
    simp only [if_neg hn', h.done.named.prims_eq n hn, hbirth]

/-- Conversion leaves the trees as they are. -/
theorem Converted.laidOut (h : Converted f ts f' g r birth) : f'.LaidOut ts where
  body_eq := by rw [h.frame, ← h.shaped.body_eq]
  stored := by
    refine Tree.stored_congr.2 ts (fun id _ b hb ↦ ?_) h.shaped.stored
    refine ⟨_, by rw [h.block?_eq, hb]; rfl, ?_⟩
    simp [Conversion.fedBy, Conversion.placed]
  nodup := h.shaped.nodup
  height_le := by
    rw [Function.treeDepth, h.size_eq]
    exact h.shaped.toWellFormed.height_le

/-- Both functions start in related states. -/
theorem Converted.at_start (h : Converted f ts f' g r birth) (m : Machine V W) (params : List V)
    (world : W) :
    (conversion m f g r birth).At (Forest.first ts 0) (f.start m params world)
      (f'.start m params world) := by
  have hentry : g.entry ∈ g.order := by
    refine h.describes.entry_mem ?_
    obtain ⟨id, rest, rfl⟩ := Forest.exists_basic_of_isArranged h.shaped.arranged
    simp
  have hstart := h.agree_start m params world
  rw [← h.describes.entry_eq]
  exact ⟨hstart.toSameWorld, fun _ ↦ ⟨hentry, hstart⟩⟩

theorem Converted.behavior_eq (h : Converted f ts f' g r birth) (m : Machine V W) (budget : Nat)
    (params : List V) (world : W) :
    f'.behavior m budget params world = f.behavior m budget params world := by
  have hmatches := (Tree.matches_of_simulates budget).2 ts {} 0
    (h.simulates.2 ts {} 0 [] (h.shaped.placed h.describes)) _ _ (h.at_start m params world)
  obtain ⟨hlenient, -⟩ | ⟨hexit, hlanded⟩ := hmatches
  · exact hlenient.elim
  have hsame : SameWorld _ _ := hlanded.stopped
  have hresult : f'.result = f.result := by rw [h.frame]
  unfold Function.behavior
  rw [h.shaped.trees_eq, h.laidOut.trees_eq]
  dsimp only
  unfold Function.outcome
  rw [← hexit, hsame.trace_eq, hsame.world_eq, hresult]

end

end

/-- Conversion preserves every run of a shaped function: whatever the machine does, whatever the
parameters and the world and however long loops may run, the converted function has the same
effects in the same order, leaves the same world and ends the same way. -/
theorem behavior_convert {f f' : Function} {g : Graph} (hf : f.isShaped)
    (h : convert f = .ok (f', g)) (m : Machine V W) (budget : Nat) (params : List V) (world : W) :
    f'.behavior m budget params world = f.behavior m budget params world := by
  obtain ⟨ts, r, birth, hconverted⟩ := converted_of_convert hf h
  exact hconverted.behavior_eq m budget params world

/-- Adds up the numbers from its parameter down to one, with an addition that is never used. -/
def countdown : Function where
  name := "countdown"
  params := [.i32]
  result := .i32
  vars := #[.i32, .i32, .i32, .i32, .i32]
  blocks := #[
    { instrs := [{ op := .const, dst := [1] }] },
    { kind := .loop, body := [3] },
    { instrs := [{ op := .add, dst := [1], args := [1, 0] }, { op := .const, dst := [2], imm := 1 },
        { op := .add, dst := [4], args := [1, 2] }, { op := .sub, dst := [0], args := [0, 2] },
        { op := .eqz, dst := [3], args := [0] }, { op := .exitIf, args := [3], target := 2 }] },
    { instrs := [{ op := .ret, args := [1] }] }]
  body := [1, 2, 4]

theorem exists_convert_countdown : ∃ f' g, convert countdown = .ok (f', g) := by
  have hok : (convert countdown).isOk := by cbv
  cases h : convert countdown with
  | error e =>
    rw [h] at hok
    cases hok
  | ok result => exact ⟨result.1, result.2, rfl⟩

/-- Counting down from five gives fifteen, before and after conversion. -/
theorem behavior_convert_countdown :
    countdown.isShaped ∧ ∃ f' g, convert countdown = .ok (f', g)
      ∧ f'.behavior counter 9 [5] () = countdown.behavior counter 9 [5] ()
      ∧ (f'.behavior counter 9 [5] ()).outcome = .returned [15] := by
  have hshaped : countdown.isShaped := by decide
  have hruns : (countdown.behavior counter 9 [5] ()).outcome = .returned [15] := by
    decide +kernel
  obtain ⟨f', g, h⟩ := exists_convert_countdown
  have hsame := behavior_convert hshaped h counter 9 [5] ()
  refine ⟨hshaped, f', g, h, hsame, ?_⟩
  rw [hsame, hruns]

end WasmBackend.SingleAssignment
