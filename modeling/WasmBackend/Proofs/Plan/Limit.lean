import WasmBackend.Proofs.Plan.Scheduling

/-!
# How far scheduling goes

Every task is looked at once, so after `n` looks there are `n` tasks besides those that wait.  The
limit on looks therefore stops a run only when that many tasks have been found, all of them needed;
a program that needs fewer tasks gets the same plan under every limit above their number.
-/

namespace WasmBackend.Scheduler

open Stage (Ensures)

variable {s t : Scheduler} {n : ℕ}

/-- All but the waiting tasks have been followed, and there are `n` of them. -/
structure Looked (n : ℕ) (s : Scheduler) : Prop where
  explored : s.Explored
  size : s.tasks.size = n + s.work.length

/-! ## One look -/

theorem ensures_step_looked (h : Looked n s) (parent : ℕ) :
    Ensures (step parent) s fun more s' ↦
      Looked (n + more.toNat) s' ∧ (more = false → s'.work = []) := by
  refine (ensures_step h.explored parent).imp ?_
  rintro more s' ⟨he, -, hdone, hcounted⟩
  have hsize := h.size
  refine ⟨⟨he, ?_⟩, hdone⟩
  omega

theorem drain_succ (parent fuel : ℕ) (s : Scheduler) :
    drain parent (fuel + 1) s =
      match step parent s with
      | (.ok true, t) => drain parent fuel t
      | (.ok false, t) => (.ok ⟨⟩, t)
      | (.error e, t) => (.error e, t) := by
  show (step parent >>= fun more ↦ if more then drain parent fuel else pure ⟨⟩) s = _
  rw [Stage.bind_apply]
  rcases step parent s with ⟨_ | _ | _, t⟩ <;> rfl

/-! ## The whole loop -/

/-- When the work list has been drained, there are as many tasks as there were looks. -/
theorem ensures_drain_size (h : Looked n s) (parent fuel : ℕ) :
    Ensures (drain parent fuel) s fun _ t ↦ n ≤ t.tasks.size ∧ t.tasks.size < n + fuel := by
  induction fuel generalizing n s with
  | zero => trivial
  | succ fuel ih =>
    unfold drain
    rw [Ensures, Stage.meets_bind]
    refine (ensures_step_looked h parent).imp ?_
    rintro more t ⟨ht, hdone⟩
    cases more with
    | false =>
      have hsize : t.tasks.size = n := by
        rw [ht.size, hdone rfl]
        rfl
      show n ≤ t.tasks.size ∧ t.tasks.size < n + (fuel + 1)
      omega
    | true =>
      refine (ih ht).imp ?_
      rintro _ u ⟨hle, hlt⟩
      rw [Bool.toNat_true] at hle hlt
      omega

/-- Either more looks change nothing, or the loop goes on after all of them. -/
theorem drain_eq_or_goes_on (h : Looked n s) (parent fuel : ℕ) :
    (∀ k, drain parent (fuel + k) s = drain parent fuel s) ∨
      ∃ t, Looked (n + fuel) t ∧ ∀ k, drain parent (fuel + k) s = drain parent k t := by
  induction fuel generalizing n s with
  | zero => exact .inr ⟨s, h, fun k ↦ by rw [Nat.zero_add]⟩
  | succ fuel ih =>
    have hlooked := ensures_step_looked h parent
    rcases hstep : step parent s with ⟨e | more, t⟩
    · have hsucc (j : ℕ) : drain parent (j + 1) s = (.error e, t) := by
        rw [drain_succ, hstep]
      exact .inl fun k ↦ by rw [Nat.add_right_comm, hsucc, hsucc]
    cases more with
    | false =>
      have hsucc (j : ℕ) : drain parent (j + 1) s = (.ok ⟨⟩, t) := by
        rw [drain_succ, hstep]
      exact .inl fun k ↦ by rw [Nat.add_right_comm, hsucc, hsucc]
    | true =>
      have hsucc (j : ℕ) : drain parent (j + 1) s = drain parent j t := by
        rw [drain_succ, hstep]
      have ht : Looked (n + 1) t := (hlooked.of_eq hstep).1
      obtain hsame | ⟨u, hu, hgoes⟩ := ih ht
      · exact .inl fun k ↦ by rw [Nat.add_right_comm, hsucc, hsucc, hsame]
      · refine .inr ⟨u, ?_, fun k ↦ by rw [Nat.add_right_comm, hsucc, hgoes]⟩
        rwa [Nat.add_assoc, Nat.add_comm 1] at hu

/-! ## Runs under different limits -/

theorem looked_of_start {p : Program} {bag : Bag} {tracer : Trace.Tracer} {entryExport : Text}
    (hstart : start entryExport (ofProgram p bag tracer) = (.ok ⟨⟩, s)) : Looked 0 s := by
  obtain ⟨hf, he⟩ := (ensures_start p bag tracer entryExport).of_eq hstart
  have hcounted : s.tasks.size + 0 = 0 + s.work.length := hf.counted
  exact ⟨he, hcounted⟩

/-- The plan once the work list is drained. -/
def planned : Except Failure PUnit × Scheduler → Except Failure Plan × Scheduler
  | (.ok _, s) => (.ok s.found, s)
  | (.error e, s) => (.error e, s)

theorem planned_eq_ok {r : Except Failure PUnit × Scheduler} {plan : Plan} :
    planned r = (.ok plan, s) ↔ r = (.ok ⟨⟩, s) ∧ s.found = plan := by
  rcases r with ⟨e | _, t⟩
  · simp [planned]
  constructor
  · rintro ⟨⟩
    exact ⟨rfl, rfl⟩
  · rintro ⟨⟨⟩, rfl⟩
    rfl

section Runs

variable {p : Program} {bag : Bag} {tracer : Trace.Tracer} {entryExport : Text} {parent limit : ℕ}

/-- A run either fails before its first look, whatever the limit, or drains the work list that it
starts with. -/
theorem run_cases (p : Program) (bag : Bag) (tracer : Trace.Tracer) (entryExport : Text)
    (parent : ℕ) :
    (∃ e s, ∀ limit, (run entryExport parent limit).runFrom (ofProgram p bag tracer) =
        (.error e, s)) ∨
      ∃ s, Looked 0 s ∧ ∀ limit, (run entryExport parent limit).runFrom (ofProgram p bag tracer) =
        planned (drain parent limit s) := by
  have hrun (limit : ℕ) := congrFun (run_eq entryExport parent limit) (ofProgram p bag tracer)
  simp only [Stage.bind_apply, Stage.get_apply] at hrun
  rcases hstart : start (if entryExport = "" then defaultEntryExport else entryExport)
      (ofProgram p bag tracer) with ⟨e | _, s⟩
  · refine .inl ⟨e, s, fun limit ↦ ?_⟩
    rw [Stage.runFrom, hrun, hstart]
  · refine .inr ⟨s, looked_of_start hstart, fun limit ↦ ?_⟩
    rw [Stage.runFrom, hrun, hstart]
    dsimp only
    rcases drain parent limit s with ⟨_ | _, t⟩ <;> rfl

/-- **The limit of a run that ends has no part in its plan**: under another limit the run ends with
the same plan exactly when the limit is above the number of its tasks. -/
theorem run_eq_ok_iff {plan : Plan}
    (hrun : (run entryExport parent limit).runFrom (ofProgram p bag tracer) = (.ok plan, s))
    (limit' : ℕ) :
    (run entryExport parent limit').runFrom (ofProgram p bag tracer) = (.ok plan, s) ↔
      plan.tasks.length < limit' := by
  obtain ⟨e, t, hfails⟩ | ⟨s₀, hs₀, hdrains⟩ := run_cases p bag tracer entryExport parent
  · cases (hfails limit).symm.trans hrun
  rw [hdrains, planned_eq_ok] at hrun ⊢
  obtain ⟨hdrain, rfl⟩ := hrun
  have hlength : s.found.tasks.length = s.tasks.size := Array.length_toList
  rw [hlength, and_iff_left rfl]
  constructor
  · intro hdrain'
    have hsize := (ensures_drain_size hs₀ parent limit').of_eq hdrain'
    omega
  · intro hlt
    by_cases hle : limit ≤ limit'
    · obtain ⟨k, rfl⟩ := Nat.exists_eq_add_of_le hle
      obtain hsame | ⟨t, -, hgoes⟩ := drain_eq_or_goes_on hs₀ parent limit
      · rw [hsame, hdrain]
      · cases (hgoes 0).symm.trans hdrain
    · obtain ⟨k, rfl⟩ := Nat.exists_eq_add_of_le (Nat.le_of_not_le hle)
      obtain hsame | ⟨t, ht, hgoes⟩ := drain_eq_or_goes_on hs₀ parent limit'
      · rw [← hsame, hdrain]
      · have hsize := (ensures_drain_size ht parent k).of_eq ((hgoes k).symm.trans hdrain)
        omega

theorem Sound.nodup_identities (hs : s.Sound) : (s.tasks.toList.map Task.identity).Nodup := by
  rw [List.Nodup, List.pairwise_map, List.pairwise_iff_getElem]
  intro i j hi hj hij heq
  have get {k : ℕ} (hk : k < s.tasks.toList.length) : s.tasks[k]? = some s.tasks.toList[k] := by
    rw [← Array.getElem?_toList, List.getElem?_eq_getElem hk]
  exact hij.ne (hs.unique i j _ _ (get hi) (get hj) heq)

/-- **Scheduling ends unless more tasks are needed than the limit allows**: either every larger
limit gives the same, or the run is cut off with at least as many tasks as the limit, all different
and all needed. -/
theorem run_eq_or_cut_off (p : Program) (bag : Bag) (tracer : Trace.Tracer) (entryExport : Text)
    (parent limit : ℕ) :
    (∀ k, (run entryExport parent (limit + k)).runFrom (ofProgram p bag tracer) =
        (run entryExport parent limit).runFrom (ofProgram p bag tracer)) ∨
      ∃ s, (run entryExport parent limit).runFrom (ofProgram p bag tracer) =
          (.error .exhausted, s) ∧ limit ≤ s.tasks.size ∧
        (s.tasks.toList.map Task.identity).Nodup ∧
        ∀ t ∈ s.tasks, s.store.Reached s.store.Mentions t.identity := by
  obtain ⟨e, s, hfails⟩ | ⟨s₀, hs₀, hdrains⟩ := run_cases p bag tracer entryExport parent
  · exact .inl fun k ↦ (hfails (limit + k)).trans (hfails limit).symm
  obtain hsame | ⟨s, hs, hgoes⟩ := drain_eq_or_goes_on hs₀ parent limit
  · refine .inl fun k ↦ ?_
    rw [hdrains, hdrains, hsame]
  · have hsize := hs.size
    have hsound := hs.explored.sound
    refine .inr ⟨s, ?_, by omega, hsound.nodup_identities, fun t ht ↦ ?_⟩
    · rw [hdrains]
      exact congrArg planned (hgoes 0)
    · obtain ⟨i, hi⟩ := Array.mem_iff_getElem?.1 ht
      exact hsound.reached i t hi

end Runs

end WasmBackend.Scheduler
