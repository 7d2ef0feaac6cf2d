import WasmBackend.Compilation
import WasmBackend.Proofs.DeadCode.Remaining
import WasmBackend.Proofs.Lowering.Units

/-!
# Units that code is generated for

Whatever program the phases before code generation are given, the unit they hand over consists of
valid functions in single-assignment form: lowering gives every function the shape that conversion
relies on, and pruning keeps what conversion establishes.
-/

namespace WasmBackend.Ir

/-- The blocks define every variable once and no parameter, and edges assign variables that merges
define, none of them twice at once. -/
structure SingleAssigned (params : Nat) (blocks : List Block) : Prop where
  defs_nodup : ((Function.definitions blocks).map Prod.fst).Nodup
  params_le : ∀ v ∈ (Function.definitions blocks).map Prod.fst, params ≤ v
  merged : ∀ v ∈ Function.edgeTargets blocks, (v, true) ∈ Function.definitions blocks
  groups_nodup : ∀ b ∈ blocks, ∀ cs ∈ b.copyGroups, (cs.map Copy.dst).Nodup

/-- The function is valid, and its block tree is in single-assignment form. -/
structure Function.Finished (f : Function) : Prop where
  valid : f.isValid
  assigned : ∃ blocks, f.walk = .ok blocks
    ∧ SingleAssigned f.params.length (blocks.map Prod.snd)

/-- Validation reports nothing about the unit, and all of its functions are finished. -/
structure CodeUnit.Finished (u : CodeUnit) : Prop where
  report_eq : u.violationReport = ""
  funcs : ∀ f ∈ u.funcs, f.Finished

section

variable {f : Function} {ts : Forest}

theorem Function.map_fst_definitions (blocks : List Block) :
    (Function.definitions blocks).map Prod.fst = blocks.flatMap Block.defs := by
  unfold definitions Block.defs
  simp only [List.map_flatMap, List.map_map, Function.comp_def, List.map_id']

theorem Function.mem_definitions_of_merged {blocks : List Block} {b : Block} (hb : b ∈ blocks)
    {v : Var} (hv : v ∈ b.merged) : (v, true) ∈ Function.definitions blocks := by
  simp only [Block.merged, List.mem_flatMap, List.mem_filter, decide_eq_true_eq] at hv
  obtain ⟨i, ⟨hi, hop⟩, hdst⟩ := hv
  refine List.mem_flatMap.2 ⟨b, hb, List.mem_flatMap.2 ⟨i, hi, List.mem_map.2 ⟨v, hdst, ?_⟩⟩⟩
  simp [hop]

/-- What edges assign is assigned in one of the groups of a block. -/
theorem Function.mem_edgeTargets {blocks : List Block} {v : Var} :
    v ∈ Function.edgeTargets blocks ↔ ∃ b ∈ blocks, ∃ cs ∈ b.copyGroups, ∃ c ∈ cs, c.dst = v := by
  simp only [edgeTargets, Block.copyGroups, List.mem_flatMap, List.mem_map, List.mem_append,
    List.mem_cons]
  constructor
  · rintro ⟨b, hb, c, ((hc | hc) | hc) | ⟨i, hi, hc⟩, rfl⟩
    · exact ⟨b, hb, _, .inl rfl, c, hc, rfl⟩
    · exact ⟨b, hb, _, .inr (.inl rfl), c, hc, rfl⟩
    · exact ⟨b, hb, _, .inr (.inr (.inl rfl)), c, hc, rfl⟩
    · exact ⟨b, hb, _, .inr (.inr (.inr ⟨i, hi, rfl⟩)), c, hc, rfl⟩
  · rintro ⟨b, hb, cs, rfl | rfl | rfl | ⟨i, hi, rfl⟩, c, hc, rfl⟩
    · exact ⟨b, hb, c, .inl (.inl (.inl hc)), rfl⟩
    · exact ⟨b, hb, c, .inl (.inl (.inr hc)), rfl⟩
    · exact ⟨b, hb, c, .inl (.inr hc), rfl⟩
    · exact ⟨b, hb, c, .inr ⟨i, hi, hc⟩, rfl⟩

/-- What holds block by block holds of the whole tree. -/
theorem Function.Assigned.singleAssigned (hf : f.LaidOut ts) (h : f.Assigned (Forest.ids ts)) :
    SingleAssigned f.params.length ((Forest.ids ts).map f.blockAt) := by
  have hdefs : ((Forest.ids ts).map f.blockAt).flatMap Block.defs =
      (Forest.ids ts).flatMap fun id ↦ (f.blockAt id).defs := by
    rw [List.flatMap_map]
  refine ⟨?_, ?_, fun v hv ↦ ?_, fun b hb ↦ ?_⟩
  · rw [map_fst_definitions, hdefs, List.nodup_flatMap]
    refine ⟨h.defs_nodup, hf.nodup.imp_of_mem fun hid hc hne v hv hv' ↦ ?_⟩
    exact hne (h.defs_apart _ hid _ hc v hv hv')
  · rw [map_fst_definitions, hdefs]
    intro v hv
    obtain ⟨id, hid, hv⟩ := List.mem_flatMap.1 hv
    exact h.params_le id hid v hv
  · obtain ⟨_, hb, cs, hcs, c, hc, rfl⟩ := Function.mem_edgeTargets.1 hv
    obtain ⟨id, hid, rfl⟩ := List.mem_map.1 hb
    obtain ⟨b, hb, hmerged⟩ := h.merged id hid cs hcs c hc
    exact Function.mem_definitions_of_merged (List.mem_map_of_mem hb) hmerged
  · obtain ⟨id, hid, rfl⟩ := List.mem_map.1 hb
    exact h.groups_nodup id hid

theorem Function.finished_of_assigned (hf : f.LaidOut ts) (hvalid : f.isValid)
    (h : f.Assigned (Forest.ids ts)) : f.Finished := by
  refine ⟨hvalid, _, hf.walk_eq, ?_⟩
  rw [List.map_map]
  exact h.singleAssigned hf

/-! ## The check of finished units -/

/-- Nothing keeps a finished function from being in single-assignment form. -/
theorem Function.Finished.assignmentFaults_eq (h : f.Finished) : f.assignmentFaults = .ok [] := by
  obtain ⟨blocks, hwalk, hassigned⟩ := h.assigned
  unfold assignmentFaults
  rw [hwalk]
  simp only [bind, Except.bind, pure, Except.pure, Except.ok.injEq, List.append_eq_nil_iff,
    List.map_eq_nil_iff, List.filter_eq_nil_iff, decide_eq_true_eq, not_lt, not_not]
  refine ⟨⟨hassigned.params_le, fun v _ ↦ ?_⟩, fun v hv ↦ ?_⟩
  · exact List.nodup_iff_count_le_one.1 hassigned.defs_nodup v
  · exact List.mem_map.2 ⟨(v, true), List.mem_filter.2 ⟨hassigned.merged v hv, rfl⟩, rfl⟩

/-- Nothing is wrong with a finished unit. -/
theorem CodeUnit.Finished.faults_eq {u : CodeUnit} (h : u.Finished) : u.faults = .ok [] := by
  have hfaults (fs : List Function) (hfs : ∀ f ∈ fs, f.Finished) :
      fs.mapM Function.assignmentFaults = .ok (fs.map fun _ ↦ []) := by
    induction fs with
    | nil => rfl
    | cons f fs ih =>
      rw [List.mapM_cons, (hfs f List.mem_cons_self).assignmentFaults_eq,
        ih fun g hg ↦ hfs g (List.mem_cons_of_mem f hg)]
      rfl
  have hflatten : (u.funcs.map fun _ ↦ ([] : List Text)).flatten = [] := by simp
  unfold faults
  rw [hfaults u.funcs h.funcs, h.report_eq]
  have hempty : ("" : Text).isEmpty := by decide
  simp only [bind, Except.bind, hflatten, List.append_nil, hempty, if_true, List.mergeSort_nil]
  rfl

theorem CodeUnit.finished_of_funcs {u : CodeUnit} (h : ∀ f ∈ u.funcs, f.Finished) : u.Finished where
  report_eq := by
    have hnone : (u.funcs.filterMap fun f ↦
        if f.isValid then none
        else some ("function " ++ f.name ++ ": "
          ++ Text.join "\n" (f.violations.map Violation.message))) = [] := by
      refine List.filterMap_eq_nil_iff.2 fun f hf ↦ if_pos (h f hf).valid
    unfold violationReport
    rw [hnone]
    rfl
  funcs := h

end

end WasmBackend.Ir

namespace WasmBackend.DeadCode

/-- Conversion and pruning finish a function of the shape that lowering gives functions. -/
theorem finished_of_prune {f f' p : Ir.Function} {g : Flow.Graph} {removed : Removed}
    (hf : f.isShaped) (hplain : f.isPlain) (hconvert : SingleAssignment.convert f = .ok (f', g))
    (hprune : prune f' (some g) = .ok (p, removed)) : p.Finished := by
  obtain ⟨ts, r, birth, hconverted⟩ := SingleAssignment.converted_of_convert hf hconvert
  obtain ⟨p', removed', drop, hprune', hpruned⟩ := pruned_of_converted hconverted hplain
  obtain ⟨rfl, rfl⟩ : p' = p ∧ removed' = removed := by
    rw [hprune] at hprune'
    cases hprune'
    exact ⟨rfl, rfl⟩
  exact Ir.Function.finished_of_assigned hpruned.sound.toLaidOut
    (hpruned.isValid hconverted hplain) (hpruned.assigned_of_converted hconverted hplain)

end WasmBackend.DeadCode

namespace WasmBackend.Compilation

open Stage (Ensures)

variable {α : Type} {s : Compilation}

/-- A phase gives what its run gives. -/
theorem ensures_phase {o : CompileOptions} {parent : Nat} {p : Phase} {run : Nat → M α}
    {post : α → Prop} (h : ∀ span t, Ensures (run span) t fun a _ ↦ post a) :
    Ensures (phase o parent p run) s fun a _ ↦ post a := by
  unfold phase
  split
  · trivial
  · simp only [Ensures, Stage.meets_bind, Stage.meets_get, Stage.meets_modify]
    unfold Stage.Meets
    split <;> rename_i heq
    · obtain ⟨hresult, -⟩ := Prod.mk.inj heq
      exact (h _ _).of_eq (Prod.ext hresult rfl)
    · trivial

/-- Lowering gives functions of the shape that conversion relies on. -/
theorem ensures_lower (plan : Plan) (store : TypeStore) (o : CompileOptions) (span : Nat) :
    Ensures (lower plan store o span) s fun unit _ ↦ ∀ f ∈ unit.funcs, Lowering.Lowered f := by
  have hrun : Ensures (Lowering.run plan o.entryExport span)
      { store := store, bag := s.bag, tracer := s.tracer }
      fun unit _ ↦ ∀ f ∈ unit.funcs, Lowering.Lowered f :=
    Stage.meets_adapt.2 (Lowering.ensures_lowerPlan plan o.entryExport span _)
  unfold lower
  simp only [Ensures, Stage.meets_bind, Stage.meets_get, Stage.meets_modify, Stage.meets_ofExcept]
  split <;> rename_i hunit
  · exact hrun.of_eq (Prod.ext hunit rfl)
  · trivial

/-- Optimising finishes a lowered function. -/
theorem ensures_optimize (parent : Nat) {f : Ir.Function} (hf : Lowering.Lowered f) :
    Ensures (optimize parent f) s fun result _ ↦ result.1.Finished := by
  unfold optimize
  simp only [Ensures, Stage.meets_bind, Stage.meets_get, Stage.meets_modify, Stage.meets_ofExcept]
  split <;> rename_i hconvert
  · split <;> rename_i hprune
    · have hfinished := DeadCode.finished_of_prune hf.shaped hf.plain hconvert hprune
      exact Stage.ensures_true.imp fun _ _ _ ↦ hfinished
    · trivial
  · trivial

theorem ensures_optimizeUnit {u : Ir.CodeUnit} (hu : ∀ f ∈ u.funcs, Lowering.Lowered f)
    (span : Nat) : Ensures (optimizeUnit u span) s fun result _ ↦ result.1.Finished := by
  unfold optimizeUnit
  rw [Ensures, Stage.meets_bind]
  refine (Stage.meets_mapM (fun _ results _ ↦ ∀ result ∈ results, result.1.Finished)
    (fun _ h ↦ absurd h List.not_mem_nil) ?_).imp fun results _ hresults ↦ ?_
  · intro done f rest results t hl hresults
    refine (ensures_optimize span (hu f (by simp [hl]))).imp fun result _ hresult ↦ ?_
    intro result' hmem
    rcases List.mem_append.1 hmem with hmem | hmem
    · exact hresults result' hmem
    · rw [List.mem_singleton.1 hmem]
      exact hresult
  · refine Ir.CodeUnit.finished_of_funcs fun f hf ↦ ?_
    obtain ⟨result, hresult, rfl⟩ := List.mem_map.1 hf
    exact hresults result hresult

/-- Every unit that code is generated for is finished: validation reports nothing about it, the
instructions of a function define every variable at most once and no parameter, and every
assignment on an edge goes to a variable that a merge defines, none twice at once. -/
theorem finished_of_prepare {p : Program} {o : CompileOptions} {parent : Nat} {s t : Compilation}
    {unit : Ir.CodeUnit} {removed : DeadCode.Removed}
    (h : (prepare p o parent).runFrom s = (.ok (.ok (unit, removed)), t)) :
    unit.Finished ∧ unit.faults = .ok [] := by
  have hprepare : Ensures (prepare p o parent) s fun result _ ↦
      ∀ u r, result = .ok (u, r) → u.Finished := by
    unfold prepare
    rw [Ensures, Stage.meets_bind]
    refine Stage.ensures_true.imp ?_
    rintro ⟨plan, layouts⟩ s₁ -
    rw [Stage.meets_bind]
    refine Stage.ensures_true.imp ?_
    rintro ⟨store, left⟩ s₂ -
    rw [Stage.meets_bind, Stage.meets_get]
    split
    · exact fun _ _ h ↦ by cases h
    · rw [Stage.meets_bind]
      refine (ensures_phase fun span t ↦ ensures_lower plan store o span).imp ?_
      intro lowered s₃ hlowered
      rw [Stage.meets_bind, Stage.meets_get]
      split
      · exact fun _ _ h ↦ by cases h
      · rw [Stage.meets_bind]
        refine (ensures_phase fun span t ↦ ensures_optimizeUnit hlowered span).imp ?_
        intro result s₄ hresult u r heq
        cases heq
        exact hresult
  have hfinished := hprepare.of_eq h unit removed rfl
  exact ⟨hfinished, hfinished.faults_eq⟩

/-- The number of merges in the functions of a unit. -/
def mergeCount (u : Ir.CodeUnit) : Nat :=
  (u.funcs.flatMap fun (f : Ir.Function) ↦ f.blocks.toList.flatMap Ir.Block.merged).length

/-- A program whose main statements clear a flag for as long as it is set. -/
def clearFlag : Program where
  types := #[{ kind := .prim, prim := .bool }]
  exprs := #[{ kind := .bool, type := 1 }, { kind := .loc, type := 1 }]
  stmts := #[{ kind := .bind, expr := 1 }, { kind := .loop, expr := 2, body := [1] }]
  main := [1, 2]
  mainLocals := [{ name := "b", type := 1, kind := .mutable }]

/-- The unit of the program has the merge that its loop needs. -/
theorem mergeCount_clearFlag : ((prepare clearFlag {} 0).runFrom {}).1.toOption.bind (fun result ↦
    result.toOption.map fun prepared ↦ mergeCount prepared.1) = some 1 := by
  decide +kernel

/-- The entry of the program is finished. -/
theorem finished_clearFlag : ∃ unit removed t,
    (prepare clearFlag {} 0).runFrom {} = (.ok (.ok (unit, removed)), t)
      ∧ mergeCount unit = 1 ∧ unit.Finished ∧ unit.faults = .ok [] := by
  obtain ⟨result, hresult, hmerges⟩ := Option.bind_eq_some_iff.1 mergeCount_clearFlag
  obtain ⟨⟨unit, removed⟩, hprepared, hcount⟩ := Option.map_eq_some_iff.1 hmerges
  obtain rfl : result = .ok (unit, removed) := by
    cases result <;> cases hprepared
    rfl
  have hrun : (prepare clearFlag {} 0).runFrom {} =
      (.ok (.ok (unit, removed)), ((prepare clearFlag {} 0).runFrom {}).2) := by
    refine Prod.ext ?_ rfl
    revert hresult
    cases ((prepare clearFlag {} 0).runFrom {}).1 with
    | error e => exact fun h ↦ by cases h
    | ok a => exact fun h ↦ congrArg Except.ok (Option.some.inj h)
  exact ⟨unit, removed, _, hrun, hcount, finished_of_prepare hrun⟩

end WasmBackend.Compilation
