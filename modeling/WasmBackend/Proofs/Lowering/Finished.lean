import WasmBackend.Proofs.Validity

/-!
# Finished trees

Trees are finished when they are stored in the arena, nothing is wrong with them and they have the
shape that lowering gives trees.  They stay finished while other blocks change and variables are
added, and finished trees that stand side by side are finished together.
-/

namespace WasmBackend.Ir

/-- A finished tree inside the constructs of `scope`. -/
structure Tree.Finished (f : Function) (scope : List (BlockId × BlockKind)) (t : Tree) : Prop where
  stored : t.Stored f
  checked : t.Checked f scope
  shaped : t.isShaped f

/-- Finished trees inside the constructs of `scope`. -/
structure Forest.Finished (f : Function) (scope : List (BlockId × BlockKind)) (ts : Forest) :
    Prop where
  stored : Forest.Stored f ts
  checked : Forest.Checked f scope ts
  shaped : Forest.isShaped f ts

/-- The second function has the first one's blocks of these numbers and at least its variables. -/
structure Function.Holds (f f' : Function) (ids : List BlockId) : Prop where
  size_le : f.vars.size ≤ f'.vars.size
  block?_eq : ∀ id ∈ ids, f'.block? id = f.block? id

section

variable {f f' : Function} {scope : List (BlockId × BlockKind)} {ids ids' : List BlockId}

theorem Function.Holds.mono (h : f.Holds f' ids) (hids : ids' ⊆ ids) : f.Holds f' ids' :=
  ⟨h.size_le, fun id hid ↦ h.block?_eq id (hids hid)⟩

theorem Function.Holds.blockAt_eq (h : f.Holds f' ids) {id : BlockId} (hid : id ∈ ids) :
    f'.blockAt id = f.blockAt id := by
  unfold blockAt
  rw [h.block?_eq id hid]

theorem Function.Holds.node (h : f.Holds f' ids) {id : BlockId} (hid : id ∈ ids)
    {kind : BlockKind} {body otherwise : List BlockId} (hnode : f.Node id kind body otherwise) :
    f'.Node id kind body otherwise := by
  refine ⟨?_, ?_, ?_, ?_⟩
  · rw [h.block?_eq id hid, h.blockAt_eq hid, hnode.block?_eq]
  all_goals rw [h.blockAt_eq hid]
  · exact hnode.kind_eq
  · exact hnode.body_eq
  · exact hnode.otherwise_eq

theorem Function.Holds.unknownVars (h : f.Holds f' ids) {b : BlockId} {vs : List Var}
    (hvs : f.unknownVars b vs = []) : f'.unknownVars b vs = [] := by
  rw [unknownVars_eq_nil] at *
  intro v hv
  exact Nat.lt_of_lt_of_le (hvs v hv) h.size_le

theorem Function.Holds.unknownCopyVars (h : f.Holds f' ids) {b : BlockId} {cs : List Copy}
    (hcs : f.unknownCopyVars b cs = []) : f'.unknownCopyVars b cs = [] :=
  h.unknownVars hcs

theorem Function.Holds.instrViolations (h : f.Holds f' ids) {b : BlockId} {is : List Instr}
    (his : is.flatMap (f.instrViolations b scope) = []) :
    is.flatMap (f'.instrViolations b scope) = [] := by
  rw [List.flatMap_eq_nil_iff] at *
  intro i hi
  have hold := his i hi
  simp only [Function.instrViolations, List.append_eq_nil_iff] at hold ⊢
  exact ⟨⟨⟨h.unknownVars hold.1.1.1, h.unknownVars hold.1.1.2⟩, h.unknownCopyVars hold.1.2⟩,
    hold.2⟩

/-- Finished trees stay finished. -/
theorem Tree.finished_of_holds :
    (∀ t : Tree, ∀ scope, f.Holds f' t.ids → t.Finished f scope → t.Finished f' scope) ∧
      ∀ ts : Forest, ∀ scope, f.Holds f' (Forest.ids ts) → Forest.Finished f scope ts →
        Forest.Finished f' scope ts := by
  refine Tree.induction ?basic ?cond ?branch ?loop ?breakable ?nil ?cons
  case basic =>
    intro id scope h ht
    have hid : id ∈ (Tree.basic id).ids := List.mem_cons_self
    refine ⟨h.node hid ht.stored, ?_, ?_⟩
    · rw [Tree.Checked, h.blockAt_eq hid]
      exact ⟨h.instrViolations ht.checked.1, h.unknownCopyVars ht.checked.2⟩
    · rw [Tree.isShaped, h.blockAt_eq hid]
      exact ht.shaped
  case cond =>
    intro id body ih scope h ht
    have hid : id ∈ (Tree.cond id body).ids := List.mem_cons_self
    have hshaped := ht.shaped
    simp only [Tree.isShaped, Bool.and_eq_true] at hshaped
    have hbody := ih _ (h.mono (List.subset_cons_self ..))
      ⟨ht.stored.2, ht.checked.2.2, hshaped.2⟩
    refine ⟨⟨h.node hid ht.stored.1, hbody.stored⟩, ⟨?_, ?_, hbody.checked⟩, ?_⟩
    · rw [h.blockAt_eq hid]
      exact h.unknownVars ht.checked.1
    · rw [h.blockAt_eq hid]
      exact h.unknownCopyVars ht.checked.2.1
    · simp only [Tree.isShaped, Bool.and_eq_true, h.blockAt_eq hid]
      exact ⟨hshaped.1, hbody.shaped⟩
  case branch =>
    intro id body other ih ih' scope h ht
    have hid : id ∈ (Tree.branch id body other).ids := List.mem_cons_self
    have hshaped := ht.shaped
    simp only [Tree.isShaped, Bool.and_eq_true] at hshaped
    have hbody := ih _ (h.mono fun x hx ↦ List.mem_cons_of_mem _ (List.mem_append_left _ hx))
      ⟨ht.stored.2.1, ht.checked.2.2.1, hshaped.1.2.2⟩
    have hother := ih' _ (h.mono fun x hx ↦ List.mem_cons_of_mem _ (List.mem_append_right _ hx))
      ⟨ht.stored.2.2, ht.checked.2.2.2, hshaped.2.2⟩
    refine ⟨⟨h.node hid ht.stored.1, hbody.stored, hother.stored⟩,
      ⟨?_, ?_, hbody.checked, hother.checked⟩, ?_⟩
    · rw [h.blockAt_eq hid]
      exact h.unknownVars ht.checked.1
    · rw [h.blockAt_eq hid]
      exact h.unknownCopyVars ht.checked.2.1
    · simp only [Tree.isShaped, Bool.and_eq_true, h.blockAt_eq hid]
      exact ⟨⟨hshaped.1.1, hshaped.1.2.1, hbody.shaped⟩, hshaped.2.1, hother.shaped⟩
  case loop | breakable =>
    intro id body ih scope h ht
    have hid : id ∈ id :: Forest.ids body := List.mem_cons_self
    have hshaped := ht.shaped
    simp only [Tree.isShaped, Bool.and_eq_true] at hshaped
    have hbody := ih _ (h.mono (List.subset_cons_self ..)) ⟨ht.stored.2, ht.checked.2, hshaped.2⟩
    refine ⟨⟨h.node hid ht.stored.1, hbody.stored⟩, ⟨?_, hbody.checked⟩, ?_⟩
    · rw [h.blockAt_eq hid]
      exact h.unknownCopyVars ht.checked.1
    · simp only [Tree.isShaped, Bool.and_eq_true, h.blockAt_eq hid]
      exact ⟨hshaped.1, hbody.shaped⟩
  case nil =>
    intro scope _ _
    exact ⟨trivial, trivial, rfl⟩
  case cons =>
    intro t ts ih ihs scope h hts
    have hshaped := hts.shaped
    simp only [Forest.isShaped, Bool.and_eq_true] at hshaped
    have ht := ih scope (h.mono fun x hx ↦ List.mem_append_left _ hx)
      ⟨hts.stored.1, hts.checked.1, hshaped.1⟩
    have hrest := ihs scope (h.mono fun x hx ↦ List.mem_append_right _ hx)
      ⟨hts.stored.2, hts.checked.2, hshaped.2⟩
    refine ⟨⟨ht.stored, hrest.stored⟩, ⟨ht.checked, hrest.checked⟩, ?_⟩
    simp only [Forest.isShaped, Bool.and_eq_true]
    exact ⟨ht.shaped, hrest.shaped⟩

theorem Forest.Finished.of_holds {ts : Forest} (hts : Forest.Finished f scope ts)
    (h : f.Holds f' (Forest.ids ts)) : Forest.Finished f' scope ts :=
  Tree.finished_of_holds.2 ts scope h hts

/-! ## Trees side by side -/

theorem Forest.finished_cons {t : Tree} {ts : Forest} :
    Forest.Finished f scope (t :: ts) ↔ t.Finished f scope ∧ Forest.Finished f scope ts := by
  constructor
  · intro h
    have hshaped := h.shaped
    simp only [Forest.isShaped, Bool.and_eq_true] at hshaped
    exact ⟨⟨h.stored.1, h.checked.1, hshaped.1⟩, ⟨h.stored.2, h.checked.2, hshaped.2⟩⟩
  · rintro ⟨ht, hts⟩
    refine ⟨⟨ht.stored, hts.stored⟩, ⟨ht.checked, hts.checked⟩, ?_⟩
    simp only [Forest.isShaped, Bool.and_eq_true]
    exact ⟨ht.shaped, hts.shaped⟩

theorem Forest.finished_nil : Forest.Finished f scope [] :=
  ⟨trivial, trivial, rfl⟩

theorem Forest.finished_append {ts us : Forest} :
    Forest.Finished f scope (ts ++ us) ↔
      Forest.Finished f scope ts ∧ Forest.Finished f scope us := by
  induction ts with
  | nil => simp [finished_nil]
  | cons t ts ih => rw [List.cons_append, finished_cons, finished_cons, ih, and_assoc]

@[simp]
theorem Forest.ids_append (ts us : Forest) :
    Forest.ids (ts ++ us) = Forest.ids ts ++ Forest.ids us := by
  induction ts with
  | nil => rfl
  | cons t ts ih => rw [List.cons_append, Forest.ids, ih, Forest.ids, List.append_assoc]

@[simp]
theorem Forest.ids_singleton (t : Tree) : Forest.ids [t] = t.ids :=
  List.append_nil _

@[simp]
theorem Forest.roots_append (ts us : Forest) :
    Forest.roots (ts ++ us) = Forest.roots ts ++ Forest.roots us :=
  List.map_append

/-- Trees that end with a basic block go together with whatever is put behind them. -/
theorem Forest.isArranged_append {ts us : Forest} {id : BlockId}
    (hts : Forest.isArranged (ts ++ [.basic id])) (hlast : us.getLast?.any fun t ↦ !t.isStructured)
    (hus : (us.zip us.tail).all fun p ↦ !(p.1.isStructured && p.2.isStructured)) :
    Forest.isArranged (ts ++ [.basic id] ++ us) := by
  have hpairs : ∀ ts : Forest,
      ((ts ++ [Tree.basic id]).zip (ts ++ [Tree.basic id]).tail).all
        (fun p ↦ !(p.1.isStructured && p.2.isStructured)) →
      ((ts ++ [Tree.basic id] ++ us).zip (ts ++ [Tree.basic id] ++ us).tail).all
        fun p ↦ !(p.1.isStructured && p.2.isStructured) := by
    intro ts
    induction ts with
    | nil =>
      intro _
      cases us with
      | nil => rfl
      | cons u us =>
        simp only [List.nil_append, List.cons_append, List.tail_cons, List.zip_cons_cons,
          List.all_cons, Tree.isStructured, Bool.false_and, Bool.not_false, Bool.true_and]
        exact hus
    | cons t ts ih =>
      intro h
      cases ts with
      | nil =>
        simp only [List.cons_append, List.nil_append, List.tail_cons, List.zip_cons_cons,
          List.all_cons, Bool.and_eq_true] at h ih ⊢
        exact ⟨h.1, ih (by simp)⟩
      | cons t' ts =>
        simp only [List.cons_append, List.tail_cons, List.zip_cons_cons, List.all_cons,
          Bool.and_eq_true] at h ih ⊢
        exact ⟨h.1, ih h.2⟩
  unfold isArranged at *
  simp only [Bool.and_eq_true] at hts ⊢
  refine ⟨⟨?_, ?_⟩, hpairs ts hts.2⟩
  · cases ts with
    | nil => rfl
    | cons t ts => exact hts.1.1
  · cases us with
    | nil => simpa using hts.1.2
    | cons u us =>
      rw [List.getLast?_append, List.getLast?_cons, Option.some_or]
      rwa [List.getLast?_cons] at hlast

end

end WasmBackend.Ir
