import WasmBackend.Compilation
import WasmBackend.Proofs.Layout.LeftOver
import WasmBackend.Proofs.Lowering.ReportingCode
import WasmBackend.Proofs.Plan.Reporting

/-!
# What the diagnostics limit changes

Every phase only reports, so two compilations of one program under different limits agree for as
long as both go on.  Scheduling and layout report errors only, with which the build fails under any
limit.  Lowering may report warnings; a limit that turns some of them away fails a build that would
otherwise go on.
-/

namespace WasmBackend

open Stage

namespace Wasm.Emission

instance : HasBag Emission :=
  ⟨fun b s ↦ { s with bag := b }⟩

variable {P : Diagnostic → Prop}

theorem reports_typeIndex (t : FuncType) : Reports P (typeIndex t) :=
  reports_get (fun _ _ ↦ rfl) fun _ ↦ (reports_modify fun _ _ ↦ rfl).bind fun _ ↦ reports_pure _

theorem reports_bodyOf (u : Ir.CodeUnit) (memory : MemoryPlan) (functions : List (Text × ℕ))
    (parent : ℕ) (f : Ir.Function) : Reports P (bodyOf u memory functions parent f) := by
  refine (reports_modify fun _ _ ↦ rfl).bind fun _ ↦ (reports_ofExcept _).bind fun usage ↦ ?_
  refine reports_get (fun _ _ ↦ rfl) fun s ↦ (reports_modify fun _ _ ↦ rfl).bind fun _ ↦ ?_
  exact reports_ofExcept _

/-- Emission reports nothing, or it reports an error and gives no module. -/
theorem reports_run (u : Ir.CodeUnit) (limits : MemoryLimits) (parent : ℕ) :
    ReportsWith (fun r ds ↦ ds = [] ∨ (∃ d ∈ ds, d.IsError) ∧ r = .ok none)
      (run u limits parent) := by
  refine ReportsWith.ofExcept_bind (fun _ ↦ .inl rfl) fun plan _ ↦ ?_
  split
  · refine fun s ↦ ⟨[tooSmall plan.pages limits.normalized.min], .inr ⟨?_, rfl⟩, fun b ↦ rfl⟩
    exact ⟨_, List.mem_singleton_self _, Diagnostic.isError_error ..⟩
  · refine ReportsWith.of_silent ?_ fun _ ↦ .inl rfl
    refine (reports_mapM fun i _ ↦ reports_typeIndex _).bind fun importTypes ↦ ?_
    refine (reports_mapM fun f _ ↦ reports_typeIndex _).bind fun funcTypes ↦ ?_
    refine (reports_mapM fun f _ ↦ reports_bodyOf u plan _ parent f).bind fun bodies ↦ ?_
    refine (reports_ofExcept _).bind fun exports ↦ (reports_ofExcept _).bind fun elements ↦ ?_
    exact reports_get (fun _ _ ↦ rfl) fun s ↦ reports_pure _

end Wasm.Emission

namespace Layouts

/-- What keeps a type from being laid out is an error. -/
theorem ensures_circular_isError (t : ConcreteType) (l : Layouts) :
    Ensures (circular t) l fun d _ ↦ d.IsError := by
  unfold circular
  rw [Ensures, meets_bind]
  refine ensures_true.imp fun _ _ _ ↦ ?_
  exact Diagnostic.isError_error ..

theorem ensures_resolve_isError (l : Layouts) :
    Ensures resolve l fun left _ ↦ ∀ p ∈ left, p.2.IsError := by
  have leftOver (hs : List Handle) (l : Layouts) :
      Ensures (hs.filterMapM fun h ↦ do
        let t ← onStore (TypeStore.getType h)
        if t.resolved then return none
        return some (h, ← circular t)) l fun left _ ↦ ∀ p ∈ left, p.2.IsError := by
    induction hs generalizing l with
    | nil => exact nofun
    | cons h hs ih =>
      rw [List.filterMapM_cons, Ensures, meets_bind, meets_bind]
      refine ensures_true.imp fun t l₁ _ ↦ meets_ite.mpr ⟨fun _ ↦ ih l₁, fun _ ↦ ?_⟩
      rw [meets_bind]
      refine (ensures_circular_isError t l₁).imp fun d l₂ hd ↦ ?_
      rw [meets_pure]
      dsimp only
      rw [meets_bind]
      exact (ih l₂).imp fun left _ hleft ↦ List.forall_mem_cons.mpr ⟨hd, hleft⟩
  unfold resolve
  simp only [Ensures, meets_bind, meets_get]
  exact ensures_true.imp fun _ l₁ _ ↦ leftOver l₁.registered l₁

end Layouts

namespace Compilation

instance : HasBag Compilation :=
  ⟨fun b s ↦ { s with bag := b }⟩

variable {α : Type} {P : Diagnostic → Prop} (o : CompileOptions) (parent : ℕ)

/-! ## The phases -/

theorem reportsWith_phase {post : Except Failure α → List Diagnostic → Prop} (p : Phase)
    {run : ℕ → M α} (hcanceled : post (.error .canceled) [])
    (hrun : ∀ span, ReportsWith post (run span)) : ReportsWith post (phase o parent p run) := by
  unfold phase
  dsimp only
  split
  · exact fun s ↦ ⟨[], hcanceled, fun b ↦ rfl⟩
  · intro s
    let entered := s.tracer.enter .pass p.name parent
    obtain ⟨ds, hds, hx⟩ := hrun entered.2.id { s with tracer := entered.1 }
    refine ⟨ds, hds, fun b ↦ ?_⟩
    let leave (r : Except Failure α × Compilation) : Except Failure α × Compilation :=
      (r.1, { r.2 with
        phases := r.2.phases ++ [(p, !r.1.isOk)]
        tracer := r.2.tracer.leave entered.2 (if !r.1.isOk then "failed" else "") })
    show leave (run entered.2.id (withBag b { s with tracer := entered.1 })) = _
    rw [hx b]
    rfl

theorem reports_phase (p : Phase) {run : ℕ → M α} (hrun : ∀ span, Reports P (run span)) :
    Reports P (phase o parent p run) :=
  reportsWith_phase o parent p nofun hrun

theorem reports_schedule (p : Program) (span : ℕ) :
    Reports Diagnostic.IsError (schedule p o span) := by
  refine (Scheduler.reports_run o.entryExport span Scheduler.taskLimit).within
    (fun s ↦ Scheduler.ofProgram p s.bag s.tracer)
    (fun r t ↦ r.map fun plan ↦ (plan, t.layouts))
    (fun t s ↦ { s with bag := t.bag, tracer := t.tracer })
    (fun s ↦ ?_) (fun _ _ ↦ rfl) (fun _ _ _ ↦ rfl) (fun _ _ _ _ ↦ rfl) fun _ _ _ h ↦ h
  unfold schedule
  rw [bind_apply, get_apply]
  dsimp only
  rcases hrun : (Scheduler.run o.entryExport span).runFrom (Scheduler.ofProgram p s.bag s.tracer)
    with ⟨_ | _, _⟩
  all_goals
    rw [show Scheduler.run o.entryExport span Scheduler.taskLimit _ = _ from hrun]
    rfl

theorem reports_layOut (layouts : Layouts) : Reports Diagnostic.IsError (layOut layouts) := by
  rcases hresolve : Layouts.resolve.runFrom layouts with ⟨e | left, after⟩
  · refine reports_of_commutes fun b s ↦ ?_
    unfold layOut
    rw [hresolve]
    rfl
  · have hleft := (Layouts.ensures_resolve_isError layouts).of_eq hresolve
    refine fun s ↦ ⟨left.map Prod.snd, List.forall_mem_map.mpr hleft, fun b ↦ ?_⟩
    unfold layOut
    rw [hresolve]
    show (Except.ok _, withBag (left.foldl (fun b p ↦ b.add p.2) b) s) = _
    rw [Bag.addAll, List.foldl_map]
    rfl

theorem reports_lower (plan : Plan) (store : TypeStore) (span : ℕ) :
    Reports (fun _ ↦ True) (lower plan store o span) := by
  refine (Lowering.reports_run plan o.entryExport span).within
    (fun s ↦ { store := store, bag := s.bag, tracer := s.tracer })
    (fun r _ ↦ r) (fun t s ↦ { s with bag := t.bag, tracer := t.tracer })
    (fun s ↦ ?_) (fun _ _ ↦ rfl) (fun _ _ _ ↦ rfl) (fun _ _ _ _ ↦ rfl) fun _ _ _ h ↦ h
  rfl

theorem reports_optimizeUnit (u : Ir.CodeUnit) (span : ℕ) : Reports P (optimizeUnit u span) := by
  refine (reports_mapM fun f _ ↦ ?_).bind fun results ↦ reports_pure _
  refine reports_get (fun _ _ ↦ rfl) fun s ↦ (reports_modify fun _ _ ↦ rfl).bind fun _ ↦ ?_
  refine (reports_ofExcept _).bind fun converted ↦ (reports_ofExcept _).bind fun pruned ↦ ?_
  refine (reports_forM fun id _ ↦ ?_).bind fun _ ↦ ?_
  · exact (reports_some! _).bind fun b ↦ reports_modify fun _ _ ↦ rfl
  · exact (reports_modify fun _ _ ↦ rfl).bind fun _ ↦ reports_pure _

/-- Emission reports nothing, or it reports an error and gives no module. -/
theorem reports_emit (u : Ir.CodeUnit) (span : ℕ) :
    ReportsWith (fun r ds ↦ ds = [] ∨ (∃ d ∈ ds, d.IsError) ∧ r = .ok none) (emit u o span) := by
  refine (Wasm.Emission.reports_run u o.memory span).within
    (fun s ↦ { bag := s.bag, tracer := s.tracer }) (fun r _ ↦ r)
    (fun t s ↦ { s with bag := t.bag, tracer := t.tracer })
    (fun s ↦ ?_) (fun _ _ ↦ rfl) (fun _ _ _ ↦ rfl) (fun _ _ _ _ ↦ rfl) fun _ _ _ h ↦ h
  rfl

/-! ## The phases put together -/

/-- The phases that find out what to compile and lay out its types. -/
def survey (p : Program) (o : CompileOptions) (parent : ℕ) : M (Plan × TypeStore) := do
  let (plan, layouts) ← phase o parent .schedule (schedule p o)
  let (store, _) ← phase o parent .layout fun _ ↦ layOut layouts
  return (plan, store)

/-- The phases behind lowering. -/
def finish (o : CompileOptions) (parent : ℕ) (unit : Ir.CodeUnit) : M Compiled := do
  let (unit, removed) ← phase o parent .singleAssignment (optimizeUnit unit)
  let module ← phase o parent .codegen (emit unit o)
  if (← get).bag.hasErrors then return { unit := some unit, removed := removed }
  return { unit := some unit, module := module, removed := removed }

/-- Go on unless the build has failed. -/
def unlessFailed (stopped : Compiled) (x : M Compiled) : M Compiled := do
  if (← get).bag.hasErrors then return stopped
  x

theorem runPhases_eq (p : Program) :
    runPhases p o parent = (do
      let (plan, store) ← survey p o parent
      unlessFailed {} do
        let unit ← phase o parent .lower (lower plan store o)
        unlessFailed { unit := some unit } (finish o parent unit)) := by
  unfold runPhases prepare survey finish unlessFailed
  simp only [bind_assoc, pure_bind]
  congr 1
  funext r
  congr 1
  funext r'
  congr 1
  funext s
  split
  · rfl
  · rw [bind_assoc]
    congr 1
    funext unit
    rw [bind_assoc]
    congr 1
    funext s'
    split
    · rfl
    · rw [bind_assoc]
      rfl

theorem unlessFailed_apply {stopped : Compiled} {x : M Compiled} {b : Bag} {s : Compilation} :
    unlessFailed stopped x (withBag b s) =
      if b.hasErrors then (.ok stopped, withBag b s) else x (withBag b s) := by
  show (if b.hasErrors then pure stopped else x : M Compiled) (withBag b s) = _
  split
  · rfl
  · rfl

theorem reports_survey (p : Program) : Reports Diagnostic.IsError (survey p o parent) := by
  refine (reports_phase o parent .schedule fun span ↦ reports_schedule o p span).bind fun r ↦ ?_
  exact (reports_phase o parent .layout fun _ ↦ reports_layOut r.2).bind fun _ ↦ reports_pure _

/-- Behind lowering nothing is reported, or an error when there is no module. -/
theorem finish_cases (unit : Ir.CodeUnit) (s : Compilation) :
    ∃ (ds : List Diagnostic) (result : Except Failure (Option Wasm.Module)),
      (ds = [] ∨ (∃ d ∈ ds, d.IsError) ∧ result = .ok none) ∧
      ∀ b, b.hasErrors = false →
        (finish o parent unit (withBag b s)).1.map Compiled.module = result ∧
        (finish o parent unit (withBag b s)).2.bag = b.addAll ds := by
  obtain ⟨ds₁, hds₁, hoptimize⟩ :=
    reports_phase o parent .singleAssignment
      (fun span ↦ reports_optimizeUnit (P := fun _ ↦ False) unit span) s
  obtain rfl : ds₁ = [] := List.eq_nil_iff_forall_not_mem.mpr hds₁
  simp only [finish, bind_apply, hoptimize, Bag.addAll_nil]
  rcases phase o parent .singleAssignment (optimizeUnit unit) s with ⟨e | ⟨u, removed⟩, t⟩
  · exact ⟨[], .error e, .inl rfl, fun b _ ↦ ⟨rfl, rfl⟩⟩
  · obtain ⟨ds, hds, hemit⟩ :=
      reportsWith_phase o parent .codegen (.inl rfl) (fun span ↦ reports_emit o u span) t
    simp only [hemit]
    refine ⟨ds, _, hds, fun b hb ↦ ?_⟩
    rcases hrun : phase o parent .codegen (emit u o) t with ⟨e | module, t'⟩
    · exact ⟨rfl, rfl⟩
    · rw [hrun] at hds
      simp only [get_apply]
      split
      · rename_i herrors
        obtain rfl | ⟨-, hnone⟩ := hds
        · exact absurd hb (by rw [show b.hasErrors = true from herrors]; nofun)
        · exact ⟨hnone.symm, rfl⟩
      · exact ⟨rfl, rfl⟩

/-- Under every limit the phases give what they give without one, or they stop behind lowering
because the limit turned warnings away. -/
theorem exists_result (p : Program) (s : Compilation) :
    ∃ (ds : List Diagnostic) (result stopped : Except Failure (Option Wasm.Module)),
      (stopped = .ok none ∨ stopped = result ∧ ∃ e, result = .error e) ∧
      ∀ limit : ℤ,
        (runPhases p o parent (withBag (.ofLimit limit) s)).1.map Compiled.module =
          (if (∃ d ∈ ds, d.IsError) ∨ Bag.Keeps limit ds then result else stopped) ∧
        (limit = 0 →
          (runPhases p o parent (withBag (.ofLimit limit) s)).2.bag = (Bag.ofLimit 0).addAll ds) := by
  obtain ⟨ds₁, hds₁, hsurvey⟩ := reports_survey o parent p s
  simp only [runPhases_eq, bind_apply, hsurvey]
  rcases survey p o parent s with ⟨e | ⟨plan, store⟩, t⟩
  · refine ⟨ds₁, .error e, .error e, .inr ⟨rfl, e, rfl⟩, fun limit ↦ ⟨?_, fun h ↦ by rw [h]; rfl⟩⟩
    rw [ite_self]
    rfl
  simp only [unlessFailed_apply]
  by_cases herror₁ : ∃ d ∈ ds₁, d.IsError
  · refine ⟨ds₁, .ok none, .ok none, .inl rfl, fun limit ↦ ?_⟩
    have hstop : ((Bag.ofLimit limit).addAll ds₁).hasErrors = true :=
      Bag.hasErrors_addAll.mpr (.inl herror₁)
    rw [if_pos hstop, ite_self]
    exact ⟨rfl, fun h ↦ by rw [h]; rfl⟩
  -- scheduling and layout report errors only
  obtain rfl : ds₁ = [] :=
    List.eq_nil_iff_forall_not_mem.mpr fun d hd ↦ herror₁ ⟨d, hd, hds₁ d hd⟩
  have hempty (limit : ℤ) : (Bag.ofLimit limit).hasErrors = false := rfl
  obtain ⟨ds₂, -, hlower⟩ := reports_phase o parent .lower
    (fun span ↦ reports_lower o plan store span) t
  simp only [Bag.addAll_nil, hempty, Bool.false_eq_true, if_false, bind_apply, hlower]
  rcases phase o parent .lower (lower plan store o) t with ⟨e | unit, t'⟩
  · refine ⟨ds₂, .error e, .error e, .inr ⟨rfl, e, rfl⟩, fun limit ↦ ⟨?_, fun h ↦ by rw [h]; rfl⟩⟩
    rw [ite_self]
    rfl
  simp only [unlessFailed_apply]
  by_cases herror₂ : ∃ d ∈ ds₂, d.IsError
  · refine ⟨ds₂, .ok none, .ok none, .inl rfl, fun limit ↦ ?_⟩
    have hstop : ((Bag.ofLimit limit).addAll ds₂).hasErrors = true :=
      Bag.hasErrors_addAll.mpr (.inl herror₂)
    rw [if_pos hstop, ite_self]
    exact ⟨rfl, fun h ↦ by rw [h]; rfl⟩
  -- what lowering reported is not an error, so only the limit can end the build here
  obtain ⟨es, result, hes, hfinish⟩ := finish_cases o parent unit t'
  refine ⟨ds₂ ++ es, result, .ok none, .inl rfl, fun limit ↦ ?_⟩
  by_cases hkeeps : Bag.Keeps limit ds₂
  · have hgo : ((Bag.ofLimit limit).addAll ds₂).hasErrors = false := by
      rw [← Bool.not_eq_true, Bag.hasErrors_addAll]
      exact fun h ↦ h.elim herror₂ (absurd hkeeps)
    obtain ⟨hresult, hbag⟩ := hfinish _ hgo
    rw [if_neg (by rw [hgo]; exact Bool.false_ne_true), if_pos]
    · exact ⟨hresult, fun h ↦ by rw [hbag, h, Bag.addAll_append]⟩
    · obtain rfl | ⟨⟨d, hd, herror⟩, -⟩ := hes
      · exact .inr (by rwa [List.append_nil])
      · exact .inl ⟨d, List.mem_append_right ds₂ hd, herror⟩
  · have hstop : ((Bag.ofLimit limit).addAll ds₂).hasErrors = true :=
      Bag.hasErrors_addAll.mpr (.inr hkeeps)
    rw [if_pos hstop]
    refine ⟨?_, fun h ↦ absurd (h ▸ Bag.keeps_unlimited ds₂) hkeeps⟩
    split
    · rename_i hall
      obtain rfl | ⟨-, hnone⟩ := hes
      · rw [List.append_nil] at hall
        exact absurd hall fun h ↦ h.elim herror₂ hkeeps
      · rw [hnone]
        rfl
    · rfl

end Compilation

/-! ## Compilations under different limits -/

/-- The same options with another limit on diagnostics. -/
def CompileOptions.withLimit (o : CompileOptions) (limit : ℤ) : CompileOptions :=
  { o with maxDiagnostics := limit }

/-- The error or the module, if any, that a compilation ends with. -/
def moduleOutcome (p : Program) (o : CompileOptions) (tracer : Trace.Tracer) (parent : ℕ) :
    Except Failure (Option Wasm.Module) :=
  (compile p o tracer parent).1.map Compiled.module

/-- What a compilation without a limit reports. -/
def raised (p : Program) (o : CompileOptions) (tracer : Trace.Tracer) (parent : ℕ) :
    List Diagnostic :=
  (compile p (o.withLimit 0) tracer parent).2.bag.items

variable (p : Program) (o : CompileOptions) (tracer : Trace.Tracer) (parent : ℕ)

/-- A compilation ends under a limit as it ends without one, unless only warnings were reported and
the limit turned some of them away. -/
theorem exists_moduleOutcome : ∃ result stopped : Except Failure (Option Wasm.Module),
    (stopped = .ok none ∨ stopped = result ∧ ∃ e, result = .error e) ∧
    ∀ limit, moduleOutcome p (o.withLimit limit) tracer parent =
      if (∃ d ∈ raised p o tracer parent, d.IsError) ∨ Bag.Keeps limit (raised p o tracer parent)
      then result else stopped := by
  let named := if o.entryExport = "" then { o with entryExport := defaultEntryExport } else o
  let entered := tracer.enter .driver "compile" parent
  have hrun (limit : ℤ) : moduleOutcome p (o.withLimit limit) tracer parent =
      (Compilation.runPhases p named entered.2.id
        (withBag (.ofLimit limit) { tracer := entered.1 })).1.map Compiled.module ∧
      (compile p (o.withLimit limit) tracer parent).2.bag =
        (Compilation.runPhases p named entered.2.id
          (withBag (.ofLimit limit) { tracer := entered.1 })).2.bag := by
    unfold moduleOutcome compile CompileOptions.withLimit named
    dsimp only
    split
    · exact ⟨rfl, rfl⟩
    · exact ⟨rfl, rfl⟩
  obtain ⟨ds, result, stopped, hstopped, hphases⟩ :=
    Compilation.exists_result named entered.2.id p { tracer := entered.1 }
  have hraised : raised p o tracer parent = ds := by
    rw [raised, (hrun 0).2, (hphases 0).2 rfl, Bag.addAll_of_keeps (Bag.keeps_unlimited ds)]
  refine ⟨result, stopped, hstopped, fun limit ↦ ?_⟩
  rw [hraised, (hrun limit).1, (hphases limit).1]

/-- **The diagnostics limit only matters where it turns warnings away.**  Two limits lead to the
same end if an error was reported, if both keep everything, or if neither does.  Where only warnings
were reported, a limit that turns some away leads to no module, unless every limit leads to the same
failure. -/
theorem moduleOutcome_withLimit :
    (∀ m n : ℤ, ((∃ d ∈ raised p o tracer parent, d.IsError) ∨
        (Bag.Keeps m (raised p o tracer parent) ↔ Bag.Keeps n (raised p o tracer parent))) →
      moduleOutcome p (o.withLimit m) tracer parent =
        moduleOutcome p (o.withLimit n) tracer parent) ∧
    ∀ n : ℤ, (∀ d ∈ raised p o tracer parent, ¬d.IsError) →
      ¬Bag.Keeps n (raised p o tracer parent) →
      moduleOutcome p (o.withLimit n) tracer parent = .ok none ∨
        ∃ e, ∀ m, moduleOutcome p (o.withLimit m) tracer parent = .error e := by
  obtain ⟨result, stopped, hstopped, houtcome⟩ := exists_moduleOutcome p o tracer parent
  simp only [houtcome]
  constructor
  · intro m n h
    obtain herror | hiff := h
    · rw [if_pos (.inl herror), if_pos (.inl herror)]
    · simp only [hiff]
  · intro n hwarnings hdropped
    have hstop : ¬((∃ d ∈ raised p o tracer parent, d.IsError) ∨
        Bag.Keeps n (raised p o tracer parent)) :=
      fun h ↦ h.elim (fun ⟨d, hd, herror⟩ ↦ hwarnings d hd herror) hdropped
    rw [if_neg hstop]
    obtain hnone | ⟨hsame, e, he⟩ := hstopped
    · exact .inl hnone
    · exact .inr ⟨e, fun m ↦ by rw [hsame, ite_self, he]⟩

/-- A program of two literals, each a Greek question mark, whose composed form is a semicolon. -/
def questionMarks : Program where
  types := #[{ kind := .prim, prim := .u8 }, { kind := .pointer, elem := 1 }]
  exprs := #[{ kind := .string, str := "\u037e", type := 2 },
    { kind := .string, str := "\u037e", type := 2 }]
  stmts := #[{ expr := 1 }, { expr := 2 }]
  main := [1, 2]

/-- Without a limit the program has a module, and each of its literals is warned about. -/
theorem unlimited_questionMarks :
    (moduleOutcome questionMarks (CompileOptions.withLimit {} 0) {} 0).map Option.isSome =
        .ok true ∧
      (raised questionMarks {} {} 0).length = 2 ∧
        ∀ d ∈ raised questionMarks {} {} 0, ¬d.IsError := by
  decide +kernel

/-- Room for two diagnostics is as good as no limit, room for one ends in no module. -/
theorem moduleOutcome_questionMarks :
    moduleOutcome questionMarks (CompileOptions.withLimit {} 2) {} 0 =
        moduleOutcome questionMarks (CompileOptions.withLimit {} 0) {} 0 ∧
      (moduleOutcome questionMarks (CompileOptions.withLimit {} 1) {} 0 = .ok none ∨
        ∃ e, ∀ m, moduleOutcome questionMarks (CompileOptions.withLimit {} m) {} 0 = .error e) := by
  obtain ⟨hsame, hcut⟩ := moduleOutcome_withLimit questionMarks {} {} 0
  obtain ⟨-, hlength, hwarnings⟩ := unlimited_questionMarks
  constructor
  · exact hsame 2 0 (.inr (by simp [Bag.Keeps, hlength]))
  · exact hcut 1 hwarnings (by simp [Bag.Keeps, hlength])

/-- The limit is not about diagnostics alone: room for one of the two takes the module away. -/
theorem module_depends_on_limit : ¬∀ m n : ℤ,
    moduleOutcome questionMarks (CompileOptions.withLimit {} m) {} 0 =
      moduleOutcome questionMarks (CompileOptions.withLimit {} n) {} 0 := by
  intro h
  obtain ⟨_, stopped, hstopped, houtcome⟩ := exists_moduleOutcome questionMarks {} {} 0
  obtain ⟨hmodule, hlength, hwarnings⟩ := unlimited_questionMarks
  have hcut : moduleOutcome questionMarks (CompileOptions.withLimit {} 1) {} 0 = stopped := by
    rw [houtcome, if_neg]
    rintro (⟨d, hd, herror⟩ | hkeeps)
    · exact hwarnings d hd herror
    · simp [Bag.Keeps, hlength] at hkeeps
  rw [h 0 1, hcut] at hmodule
  obtain rfl | ⟨hsame, e, he⟩ := hstopped
  · cases hmodule
  · rw [hsame, he] at hmodule
    cases hmodule

end WasmBackend
