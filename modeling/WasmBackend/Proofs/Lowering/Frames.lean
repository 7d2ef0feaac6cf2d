import WasmBackend.Proofs.Lowering.Statements

/-!
# The variables of a frame

When a function is opened, its receiver, its parameters and its other locals get rows of variables
of their own: no variable stands in two rows, or twice in one.
-/

namespace WasmBackend.Lowering

open Ir (Var)
open Stage (Ensures)

variable {α β : Type} {frame : Frame} {n : Nat} {s s' : Lowering} {receiver row : List Var}
  {rows : Array (List Var)}

/-! ## Steps that open no block -/

/-- The step touches no block, and where at least `n` variables exist its result satisfies `post`,
which is told how many variables exist by then. -/
def Beside (frame : Frame) (n : Nat) (x : M α) (post : α → Nat → Prop) : Prop :=
  ∀ s : Lowering, n ≤ s.vars.size → Ensures (x frame) s fun a s' ↦ s.Aside s' ∧ post a s'.vars.size

theorem Quiet.beside {x : M α} (h : Quiet x) : Beside frame n x fun _ _ ↦ True :=
  fun s _ ↦ (h frame s).imp fun _ _ hs ↦ ⟨hs, trivial⟩

theorem beside_pure {a : α} {post : α → Nat → Prop} (h : ∀ m, n ≤ m → post a m) :
    Beside frame n (pure a) post :=
  fun s hn ↦ ⟨Aside.refl s, h _ hn⟩

theorem Beside.bind {x : M α} {f : α → M β} {post : α → Nat → Prop} {post' : β → Nat → Prop}
    (hx : Beside frame n x post)
    (hf : ∀ a m, n ≤ m → post a m → Beside frame m (f a) post') :
    Beside frame n (x >>= f) post' := by
  intro s hn
  show Ensures (x frame >>= fun a ↦ f a frame) s _
  rw [Ensures, Stage.meets_bind]
  refine (hx s hn).imp ?_
  rintro a s₁ ⟨hs₁, ha⟩
  refine (hf a _ (Nat.le_trans hn hs₁.vars_le) ha s₁ (Nat.le_refl _)).imp ?_
  rintro b s₂ ⟨hs₂, hb⟩
  exact ⟨hs₁.trans hs₂, hb⟩

/-- The variables of all rows exist. -/
def RowsBelow (n : Nat) (rows : Array (List Var)) : Prop :=
  ∀ row ∈ rows, VarsBelow n row

theorem RowsBelow.mono {m : Nat} (h : RowsBelow n rows) (hm : n ≤ m) :
    RowsBelow m rows :=
  fun row hrow ↦ (h row hrow).mono hm

theorem RowsBelow.set (h : RowsBelow n rows) (i : Nat)
    (hrow : VarsBelow n row) : RowsBelow n (rows.set! i row) := by
  intro other hother
  rw [Array.set!_eq_setIfInBounds] at hother
  cases Array.mem_or_eq_of_mem_setIfInBounds hother with
  | inl hold => exact h other hold
  | inr heq => exact heq ▸ hrow

theorem varsBelow_varsFrom {start count : Nat} (h : start + count ≤ n) :
    VarsBelow n (varsFrom start count) :=
  fun _ hv ↦ Nat.lt_of_lt_of_le (List.mem_range'_1.1 hv).2 h

/-! ## Rows -/

/-- The rows of the receiver and of the locals have no variable twice and none in common. -/
structure RowsApart (receiver : List Var) (rows : Array (List Var)) : Prop where
  nodup_receiver : receiver.Nodup
  nodup : ∀ (i : Nat) (row : List Var), rows[i]? = some row → row.Nodup
  apart_receiver : ∀ (i : Nat) (row : List Var), rows[i]? = some row → row.Disjoint receiver
  apart : ∀ (i j : Nat) (row row' : List Var), i ≠ j → rows[i]? = some row →
    rows[j]? = some row' → row.Disjoint row'

theorem rowsApart_of_nodup (h : (receiver :: rows.toList).flatten.Nodup) :
    RowsApart receiver rows := by
  obtain ⟨hnodup, hapart⟩ := List.nodup_flatten.1 h
  obtain ⟨hreceiver, hrows⟩ := List.pairwise_cons.1 hapart
  have hmem {i : Nat} {row : List Var} (h : rows[i]? = some row) : row ∈ rows.toList :=
    Array.mem_toList_iff.2 (Array.mem_of_getElem? h)
  exact {
    nodup_receiver := hnodup receiver List.mem_cons_self
    nodup := fun i row h ↦ hnodup row (List.mem_cons_of_mem _ (hmem h))
    apart_receiver := fun i row h ↦ (hreceiver row (hmem h)).symm
    apart := by
      intro i j row row' hne hi hj
      rw [← Array.getElem?_toList] at hi hj
      obtain ⟨hi', rfl⟩ := List.getElem?_eq_some_iff.1 hi
      obtain ⟨hj', rfl⟩ := List.getElem?_eq_some_iff.1 hj
      obtain hlt | hlt := Nat.lt_or_gt_of_ne hne
      · exact List.pairwise_iff_getElem.1 hrows i j hi' hj' hlt
      · exact (List.pairwise_iff_getElem.1 hrows j i hj' hi' hlt).symm }

theorem getElem?_set! (rows : Array (List Var)) (i j : Nat) (row : List Var) {other : List Var}
    (h : (rows.set! i row)[j]? = some other) :
    (i = j ∧ other = row) ∨ (i ≠ j ∧ rows[j]? = some other) := by
  rw [Array.set!_eq_setIfInBounds, Array.getElem?_setIfInBounds] at h
  split at h
  · rename_i heq
    split at h
    · exact .inl ⟨heq, (Option.some.inj h).symm⟩
    · cases h
  · exact .inr ⟨‹_›, h⟩

/-- A row may be replaced by one of new variables. -/
theorem RowsApart.set (h : RowsApart receiver rows) (i : Nat) (hnodup : row.Nodup)
    (hself : row.Disjoint receiver)
    (hrows : ∀ (j : Nat) (other : List Var), rows[j]? = some other → row.Disjoint other) :
    RowsApart receiver (rows.set! i row) where
  nodup_receiver := h.nodup_receiver
  nodup j other hother := by
    obtain ⟨-, rfl⟩ | ⟨-, hold⟩ := getElem?_set! rows i j row hother
    · exact hnodup
    · exact h.nodup j other hold
  apart_receiver j other hother := by
    obtain ⟨-, rfl⟩ | ⟨-, hold⟩ := getElem?_set! rows i j row hother
    · exact hself
    · exact h.apart_receiver j other hold
  apart j k other other' hne hother hother' := by
    obtain ⟨hj, heq⟩ | ⟨-, hold⟩ := getElem?_set! rows i j row hother <;>
      obtain ⟨hk, heq'⟩ | ⟨-, hold'⟩ := getElem?_set! rows i k row hother'
    · exact absurd (hj.symm.trans hk) hne
    · exact heq ▸ hrows k other' hold'
    · exact heq' ▸ (hrows j other hold).symm
    · exact h.apart j k other other' hne hold hold'

/-- The rows are apart, and their variables are below `n`. -/
structure RowsReady (receiver : List Var) (n : Nat) (rows : Array (List Var)) : Prop
    extends RowsApart receiver rows where
  below : RowsBelow n rows
  receiver_below : VarsBelow n receiver

theorem RowsReady.mono {m : Nat} (h : RowsReady receiver n rows) (hm : n ≤ m) :
    RowsReady receiver m rows :=
  { h with below := h.below.mono hm, receiver_below := h.receiver_below.mono hm }

/-- A row of variables from `n` on may stand for one that was there. -/
theorem RowsReady.set {m : Nat} (h : RowsReady receiver n rows) (i : Nat) (hnodup : row.Nodup)
    (hnew : ∀ v ∈ row, n ≤ v) (hm : n ≤ m) (hrow : VarsBelow m row) :
    RowsReady receiver m (rows.set! i row) where
  toRowsApart := h.toRowsApart.set i hnodup
    (fun v hv hv' ↦ Nat.not_le_of_lt (h.receiver_below v hv') (hnew v hv))
    fun _ other hother v hv hv' ↦
      Nat.not_le_of_lt (h.below other (Array.mem_of_getElem? hother) v hv') (hnew v hv)
  below := (h.below.mono hm).set i hrow
  receiver_below := h.receiver_below.mono hm

theorem rowsReady_paramVars (params : List LocalId) {sizes : List Nat} {start : Nat}
    (h : RowsReady receiver start rows) :
    RowsReady receiver (start + sizes.sum) (paramVars params sizes start rows) := by
  fun_induction paramVars with
  | case1 start rows p ps k ks ih =>
    have hset := h.set p.toNat (show (varsFrom start k).Nodup from List.nodup_range')
      (fun v hv ↦ (List.mem_range'_1.1 hv).1) (Nat.le_add_right _ k)
      (varsBelow_varsFrom (Nat.le_refl _))
    rw [List.sum_cons, ← Nat.add_assoc]
    exact ih hset
  | case2 start rows => exact h.mono (Nat.le_add_right _ _)

theorem rowsReady_replicate (hself : VarsBelow n receiver) (hnodup : receiver.Nodup) (count : Nat) :
    RowsReady receiver n (Array.replicate count []) := by
  have hempty {i : Nat} {row : List Var}
      (hrow : (Array.replicate count ([] : List Var))[i]? = some row) : row = [] :=
    (Array.mem_replicate.1 (Array.mem_of_getElem? hrow)).2
  refine ⟨⟨hnodup, ?_, ?_, ?_⟩, ?_, hself⟩
  · intro i row hrow
    rw [hempty hrow]
    exact List.nodup_nil
  · intro i row hrow
    rw [hempty hrow]
    exact List.disjoint_nil_left receiver
  · intro i j row row' _ hrow _
    rw [hempty hrow]
    exact List.disjoint_nil_left row'
  · intro row hrow
    rw [(Array.mem_replicate.1 hrow).2]
    exact varsBelow_nil

/-- New variables are the next ones. -/
theorem newVars_apply (ps : List Prim) (frame : Frame) (s : Lowering) :
    newVars ps frame s
      = (.ok (List.range' s.vars.size ps.length), { s with vars := s.vars ++ ps.toArray }) := by
  unfold newVars
  induction ps generalizing s with
  | nil => simp [List.mapM_nil]; rfl
  | cons p ps ih =>
    rw [List.mapM_cons]
    show (newVar p frame >>= fun v ↦ ps.mapM newVar frame >>= fun vs ↦ pure (v :: vs)) s = _
    rw [Stage.bind_apply]
    show (ps.mapM newVar frame >>= fun vs ↦ pure (s.vars.size :: vs))
      { s with vars := s.vars.push p } = _
    rw [Stage.bind_apply, ih]
    simp [List.range'_succ]
    rfl

theorem beside_newRow (ps : List Prim) :
    Beside frame n (newVars ps) fun vs m ↦ VarsBelow m vs ∧ vs.Nodup ∧ ∀ v ∈ vs, n ≤ v := by
  intro s hn
  refine ((ensures_newVars ps frame s).and (Stage.ensures_iff.2 ?_)).imp fun vs s' h ↦
    ⟨h.1.1, h.1.2, h.2⟩
  intro vs t hx
  rw [newVars_apply] at hx
  cases hx
  exact ⟨List.nodup_range', fun v hv ↦ Nat.le_trans hn (List.mem_range'_1.1 hv).1⟩

theorem beside_declareLocals (kind : LocalKind) (locals : List Local)
    (h : RowsReady receiver n rows) :
    Beside frame n (declareLocals kind locals rows) fun rows' m ↦ RowsReady receiver m rows' := by
  unfold declareLocals
  generalize locals.zipIdx = pairs
  induction pairs generalizing n rows with
  | nil => exact beside_pure fun m hm ↦ h.mono hm
  | cons q pairs ih =>
    rw [List.foldlM_cons]
    suffices hfirst : Beside frame n (do
        if q.1.kind = kind then
          let slots ← slotsOf (← resolve q.1.type)
          return rows.set! q.2 (← newVars slots)
        else return rows) fun rows' m ↦ RowsReady receiver m rows' from
      hfirst.bind fun rows' m _ hrows ↦ ih hrows
    split
    · refine (quiet_resolve q.1.type).beside.bind fun type i hi _ ↦ ?_
      refine (quiet_slotsOf type).beside.bind fun slots _ hj _ ↦ ?_
      refine (beside_newRow slots).bind fun row k hk ⟨hrow, hnodup, hnew⟩ ↦
        beside_pure fun m hm ↦ ?_
      exact ((h.mono (Nat.le_trans hi hj)).set q.2 hnodup hnew hk hrow).mono hm
    · exact beside_pure fun m hm ↦ h.mono hm

/-- Behind the variables of the receiver stand those of the parameters, then new ones. -/
theorem beside_frameVars {count : Nat} {params : List (List Prim)}
    (h : count + (params.map List.length).sum ≤ n) :
    Beside frame n (frameVars count params) fun rows m ↦ RowsReady (varsFrom 0 count) m rows := by
  refine quiet_frameLocals.beside.bind fun locals m hm _ ↦ ?_
  have hreceiver : VarsBelow count (varsFrom 0 count) :=
    varsBelow_varsFrom (Nat.le_of_eq (Nat.zero_add count))
  have hrows : RowsReady (varsFrom 0 count) (count + (params.map List.length).sum) _ :=
    rowsReady_paramVars ((frame.function.map FunctionData.params).getD [])
      (rowsReady_replicate hreceiver List.nodup_range' locals.length)
  exact (beside_declareLocals .fixed locals (hrows.mono (Nat.le_trans h hm))).bind
    fun rows k _ hrows ↦ beside_declareLocals .mutable locals hrows

end WasmBackend.Lowering
