import WasmBackend.Proofs.Diagnostic.Bags
import WasmBackend.Proofs.Stage

/-!
# Computations that only report

A computation over a state with a bag only reports when the bag has no part in what it does: from
states that differ in their bags it gives the same result and leaves states that differ in their
bags, to which it added the same diagnostics.  There is one rule for every way computations are put
together; a computation may look at its state wherever it goes on the same whatever the bag is.
-/

namespace WasmBackend

/-- States with a bag that can be replaced. -/
class HasBag (σ : Type) where
  withBag : Bag → σ → σ

export HasBag (withBag)

namespace Stage

variable {ε σ τ α β : Type} [HasBag σ] {P : Diagnostic → Prop}

/-- The computation only reports; `post` says how its result and what it reports belong together. -/
def ReportsWith (post : Except ε α → List Diagnostic → Prop) (x : ExceptT ε (StateM σ) α) : Prop :=
  ∀ s, ∃ ds, post (x s).1 ds ∧ ∀ b, x (withBag b s) = ((x s).1, withBag (b.addAll ds) (x s).2)

/-- The computation only reports, and what it reports satisfies `P`. -/
abbrev Reports (P : Diagnostic → Prop) (x : ExceptT ε (StateM σ) α) : Prop :=
  ReportsWith (fun _ ds ↦ ∀ d ∈ ds, P d) x

variable {x : ExceptT ε (StateM σ) α} {post post' : Except ε α → List Diagnostic → Prop}

theorem ReportsWith.mono (h : ReportsWith post x) (himp : ∀ r ds, post r ds → post' r ds) :
    ReportsWith post' x := by
  intro s
  obtain ⟨ds, hpost, hx⟩ := h s
  exact ⟨ds, himp _ _ hpost, hx⟩

/-- A computation for which the bag is as good as not there. -/
theorem reports_of_commutes (h : ∀ b s, x (withBag b s) = ((x s).1, withBag b (x s).2)) :
    Reports P x :=
  fun s ↦ ⟨[], nofun, fun b ↦ h b s⟩

/-- A computation that reports nothing. -/
theorem ReportsWith.of_silent (h : Reports (fun _ ↦ False) x) (hpost : ∀ r, post r []) :
    ReportsWith post x :=
  h.mono fun r _ hds ↦ List.eq_nil_iff_forall_not_mem.mpr hds ▸ hpost r

/-! ## One rule for every way to put computations together -/

theorem reports_pure (a : α) : Reports P (pure a : ExceptT ε (StateM σ) α) :=
  reports_of_commutes fun _ _ ↦ rfl

theorem reports_throw (e : ε) : Reports P (throw e : ExceptT ε (StateM σ) α) :=
  reports_of_commutes fun _ _ ↦ rfl

theorem reports_ofExcept (y : Except Failure α) : Reports P (ofExcept y : Stage σ α) :=
  reports_of_commutes fun _ _ ↦ rfl

theorem reports_internal (message : Text) : Reports P (internal message : Stage σ α) :=
  reports_throw _

theorem reports_some! (y : Option α) : Reports P (some! y : Stage σ α) := by
  cases y with
  | some a => exact reports_pure a
  | none => exact reports_throw _

theorem Reports.bind {f : α → ExceptT ε (StateM σ) β} (hx : Reports P x)
    (hf : ∀ a, Reports P (f a)) : Reports P (x >>= f) := by
  intro s
  obtain ⟨ds, hds, hx⟩ := hx s
  simp only [bind_apply, hx]
  rcases x s with ⟨e | a, t⟩
  · exact ⟨ds, hds, fun _ ↦ rfl⟩
  · obtain ⟨es, hes, hf⟩ := hf a t
    refine ⟨ds ++ es, fun d hd ↦ (List.mem_append.mp hd).elim (hds d) (hes d), fun b ↦ ?_⟩
    rw [Bag.addAll_append]
    exact hf (b.addAll ds)

theorem reports_map {f : α → β} (hx : Reports P x) : Reports P (f <$> x) := by
  rw [map_eq_pure_bind]
  exact hx.bind fun a ↦ reports_pure (f a)

theorem reports_discard (hx : Reports P x) : Reports P (discard x) :=
  reports_map hx

/-- A look at the state, where what follows does not depend on the bag. -/
theorem reports_get {f : σ → ExceptT ε (StateM σ) β} (hbag : ∀ b s, f (withBag b s) = f s)
    (hf : ∀ s, Reports P (f s)) : Reports P (get >>= f) := by
  intro s
  obtain ⟨ds, hds, hf⟩ := hf s s
  refine ⟨ds, hds, fun b ↦ ?_⟩
  rw [bind_apply, get_apply, bind_apply, get_apply]
  simp only [hbag]
  exact hf b

theorem reports_modify {g : σ → σ} (hg : ∀ b s, g (withBag b s) = withBag b (g s)) :
    Reports P (modify g : ExceptT ε (StateM σ) PUnit) := by
  refine reports_of_commutes fun b s ↦ ?_
  show (Except.ok PUnit.unit, g (withBag b s)) = _
  rw [hg]
  rfl

theorem reports_add {g : σ → σ} {d : Diagnostic} (hd : P d)
    (hg : ∀ b s, g (withBag b s) = withBag (b.add d) (g s)) :
    Reports P (modify g : ExceptT ε (StateM σ) PUnit) := by
  refine fun s ↦ ⟨[d], List.forall_mem_singleton.mpr hd, fun b ↦ ?_⟩
  show (Except.ok PUnit.unit, g (withBag b s)) = _
  rw [hg]
  rfl

/-- A computation on a part of the state that the bag does not belong to. -/
theorem reports_zoom {view : σ → τ} {update : τ → σ → σ} {y : Stage τ α}
    (hview : ∀ b s, view (withBag b s) = view s)
    (hupdate : ∀ b t s, update t (withBag b s) = withBag b (update t s)) :
    Reports P (zoom view update y) := by
  refine reports_of_commutes fun b s ↦ ?_
  show ((y (view (withBag b s))).1, update (y (view (withBag b s))).2 (withBag b s)) = _
  rw [hview, hupdate]
  rfl

theorem reports_adapt {ε' : Type} {f : ε → ε'} (hx : Reports P x) :
    Reports P (ExceptT.adapt f x) := by
  intro s
  obtain ⟨ds, hds, hx⟩ := hx s
  refine ⟨ds, hds, fun b ↦ ?_⟩
  show (Except.mapError f (x (withBag b s)).1, (x (withBag b s)).2) = _
  rw [hx]
  rfl

theorem ReportsWith.ofExcept_bind {y : Except Failure α} {f : α → Stage σ β}
    {post : Except Failure β → List Diagnostic → Prop} (hy : ∀ e, post (.error e) [])
    (hf : ∀ a, y = .ok a → ReportsWith post (f a)) : ReportsWith post (ofExcept y >>= f) := by
  cases y with
  | error e => exact fun _ ↦ ⟨[], hy e, fun _ ↦ rfl⟩
  | ok a => exact hf a rfl

/-- A computation that runs another one, on a state with the same bag. -/
theorem ReportsWith.within {δ : Type} [HasBag τ] {y : ExceptT ε (StateM τ) δ}
    {posty : Except ε δ → List Diagnostic → Prop} (hy : ReportsWith posty y) (start : σ → τ)
    (result : Except ε δ → τ → Except ε α) (update : τ → σ → σ)
    (hx : ∀ s, x s = (result (y (start s)).1 (y (start s)).2, update (y (start s)).2 s))
    (hstart : ∀ b s, start (withBag b s) = withBag b (start s))
    (hresult : ∀ r b t, result r (withBag b t) = result r t)
    (hupdate : ∀ b c s t, update (withBag b t) (withBag c s) = withBag b (update t s))
    (hpost : ∀ r t ds, posty r ds → post (result r t) ds) : ReportsWith post x := by
  intro s
  obtain ⟨ds, hds, hy⟩ := hy (start s)
  refine ⟨ds, ?_, fun b ↦ ?_⟩
  · rw [hx]
    exact hpost _ _ ds hds
  · rw [hx, hx, hstart, hy, hresult, hupdate]

/-! ## Lists -/

theorem reports_mapM {f : α → ExceptT ε (StateM σ) β} {l : List α}
    (h : ∀ a ∈ l, Reports P (f a)) : Reports P (l.mapM f) := by
  induction l with
  | nil => exact reports_pure []
  | cons a l ih =>
    rw [List.mapM_cons]
    refine (h a List.mem_cons_self).bind fun b ↦ ?_
    exact (ih fun c hc ↦ h c (List.mem_cons_of_mem a hc)).bind fun bs ↦ reports_pure (b :: bs)

theorem reports_forIn {f : α → β → ExceptT ε (StateM σ) (ForInStep β)} {l : List α} {b : β}
    (h : ∀ a ∈ l, ∀ b, Reports P (f a b)) : Reports P (forIn l b f) := by
  induction l generalizing b with
  | nil => exact reports_pure b
  | cons a l ih =>
    rw [List.forIn_cons]
    refine (h a List.mem_cons_self b).bind fun r ↦ ?_
    cases r with
    | done b => exact reports_pure b
    | yield b => exact ih fun c hc ↦ h c (List.mem_cons_of_mem a hc)

theorem reports_forM {f : α → ExceptT ε (StateM σ) PUnit} {l : List α}
    (h : ∀ a ∈ l, Reports P (f a)) : Reports P (l.forM f) := by
  induction l with
  | nil => exact reports_pure _
  | cons a l ih =>
    exact (h a List.mem_cons_self).bind fun _ ↦ ih fun c hc ↦ h c (List.mem_cons_of_mem a hc)

end Stage

end WasmBackend
