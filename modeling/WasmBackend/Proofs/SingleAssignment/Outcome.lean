import WasmBackend.Proofs.Flow.Joins
import WasmBackend.Proofs.SingleAssignment.Convergence

/-!
# What conversion may end with

Conversion gives up when the rounds for names do not end in time, and it refuses a function in which
control joins at the head of an arm that is not the body of a loop: there is no place for the
assignments of such an edge.  In a function of the shape that lowering gives functions only one edge
goes to such a head, so nothing is merged there and nothing has to be assigned.
-/

namespace WasmBackend.SingleAssignment

open Ir (BlockId Forest Function Var)
open WasmBackend.Flow (Graph Edge)
open Stage (Succeeds)

namespace Renaming

/-- Where rounds return, settling ends with names or because it took too many. -/
theorem settle_ok_or_error {f : Function} {g : Graph} {s : ℕ → Renaming} {changed : ℕ → Bool}
    (hround : ∀ n, round f g (s n) = (.ok (changed n), s (n + 1))) (limit n : ℕ) :
    (∃ m, settle f g limit (s n) = (.ok (), s m)) ∨
      ∃ m, settle f g limit (s n)
        = (.error (.internal (f.name ++ ": renaming did not converge")), s m) := by
  induction limit generalizing n with
  | zero => exact .inr ⟨n, rfl⟩
  | succ limit ih =>
    rw [settle, Stage.bind_apply, hround]
    cases changed n with
    | true => exact ih (n + 1)
    | false => exact .inl ⟨n + 1, rfl⟩

end Renaming

/-! ## Renaming blocks returns -/

theorem copiesOf_eq_nil {f : Function} {r : Renaming} {e : Edge}
    (h : (r.block e.dst).merges = []) : copiesOf f r e = [] := by
  have hnone : Conversion.mergesOf { function := f, names := r } e.dst = [] := by
    unfold Conversion.mergesOf
    rw [h, List.mergeSort_nil]
  unfold copiesOf Conversion.edgeCopies
  dsimp only
  rw [hnone]
  rfl

namespace Conversion

variable {f : Function} {g : Graph} {r : Renaming} {birth : Var → Birth} {s : Conversion}

theorem renameBlock_succeeds (hdone : Renaming.Done f g r birth)
    (hparams : f.params.length ≤ f.vars.size) {ids : List BlockId}
    (h : Keeps f r (renamedIn f g r ids) s) {id : BlockId} (hid : id ∉ ids)
    (hvisible : Renaming.Visible f g id) (hsettled : Renaming.Settled f g r id) :
    Succeeds (renameBlock g id) s fun _ s' ↦ Keeps f r (renamedIn f g r (ids ++ [id])) s' := by
  suffices hreturns : Succeeds (renameBlock g id) s fun _ _ ↦ True from
    (hreturns.and (renameBlock_ensures hdone hparams h hid hvisible hsettled)).imp fun _ _ h ↦ h.2
  obtain rfl := h.names_eq
  have hblock? : s.function.block? id = some (f.blockAt id) := by
    rw [h.block?_eq, hvisible.block?_eq, Option.map_some, renamedIn, if_neg hid]
  have hname : s.function.name = f.name := by rw [h.frame]
  have hparams' : s.function.params = f.params := by rw [h.frame]
  unfold renameBlock onNames updateBlock
  simp only [Stage.meets_bind, Stage.meets_get, Stage.meets_ofExcept,
    Function.block_of_block? hblock?, Stage.meets_zoom,
    Renaming.headNames_congr hname hparams']
  refine (Renaming.succeeds_headNames hdone.named hvisible.id_le hparams hsettled).imp ?_
  rintro names _ ⟨rfl, -, -⟩
  split <;> rename_i hkind
  · obtain ⟨_, o, _, _, hpassed, -⟩ := hsettled.out
    obtain ⟨ds, hds, -, -⟩ := hpassed.basic hkind
    unfold Renaming.defNames
    simp only [Stage.meets_bind, Stage.meets_get, hds, Stage.meets_pure, Stage.meets_zoom,
      Stage.meets_modify]
  all_goals trivial

/-! ## Placing assignments returns -/

/-- There is a place for the assignments of the edge. -/
structure Placeable (f : Function) (r : Renaming) (e : Edge) : Prop where
  block?_eq : f.block? e.src = some (f.blockAt e.src)
  enter : e.site = .enter → copiesOf f r e ≠ [] → (f.blockAt e.src).kind = .loop

theorem placeCopies_succeeds {es : List Edge} (h : Keeps f r (fedBy f g r es) s)
    (hloops : EntersLoops f r es) {e : Edge} (he : Placeable f r e)
    (hcopies : copiesOf f r e ≠ []) :
    Succeeds (placeCopies e (copiesOf f r e)) s fun _ s' ↦
      Keeps f r (fedBy f g r (es ++ [e])) s' ∧ EntersLoops f r (es ++ [e]) := by
  suffices hreturns : Succeeds (placeCopies e (copiesOf f r e)) s fun _ _ ↦ True from
    (hreturns.and (placeCopies_ensures h hloops e)).imp fun _ _ h ↦ h.2
  have hblock : s.function.block e.src = .ok (fedBy f g r es e.src (f.blockAt e.src)) :=
    Function.block_of_block? (by rw [h.block?_eq, he.block?_eq, Option.map_some])
  unfold placeCopies updateBlock
  simp only [Stage.meets_bind, Stage.meets_get, hblock, Stage.meets_ofExcept]
  cases hsite : e.site with
  | fallthrough | branch | around => exact Stage.meets_modify.2 trivial
  | enter =>
    dsimp only
    rw [fedBy_kind, if_neg (not_not.2 (he.enter hsite hcopies))]
    exact Stage.meets_modify.2 trivial

/-- All blocks are renamed and all assignments placed when there is a place for each. -/
theorem renameAll_succeeds (hdone : Renaming.Done f g r birth)
    (hparams : f.params.length ≤ f.vars.size) (hnodup : g.order.Nodup)
    (hvisible : ∀ id ∈ g.order, Renaming.Visible f g id)
    (hplace : ∀ e ∈ g.edges, Placeable f r e) :
    Succeeds (renameAll g) { function := f, names := r } fun _ _ ↦ True :=
  (renameAll_meets hnodup
    (fun _ _ hs id hmem hid ↦
      renameBlock_succeeds hdone hparams hs hid (hvisible id hmem) (hdone.settled id hmem))
    fun _ _ ht hloops e he hcopies ↦ placeCopies_succeeds ht hloops (hplace e he) hcopies).imp
      fun _ _ _ ↦ trivial

end Conversion

/-- Nothing is assigned on the way into an arm that is not the body of a loop. -/
theorem placeable_of_mem_edges {f : Function} {ts : Forest} {g : Graph} {r : Renaming}
    {birth : Var → Birth} (hf : f.Shaped ts) (hg : g.Describes f ts)
    (hdone : Renaming.Done f g r birth) {e : Edge} (he : e ∈ g.edges) :
    Conversion.Placeable f r e where
  block?_eq := by
    rw [hg.edges_eq] at he
    exact Ir.Tree.block?_of_mem_ids.2 ts hf.stored _ ((Ir.Tree.edges_src f).2 ts {} 0 e he)
  enter hsite hcopies := by
    by_contra hkind
    exact hcopies (copiesOf_eq_nil (hdone.fed _ (hf.ways_le_one_of_enter hg he ⟨hsite, hkind⟩)))

/-- **A function of the shape that lowering gives functions is converted**, unless the rounds for
names do not end in time; control never joins where there is no place for assignments. -/
theorem convert_ok_or_error {f : Function} (hf : f.isShaped) :
    (∃ result, convert f = .ok result) ∨
      convert f = .error (.internal (f.name ++ ": renaming did not converge")) := by
  obtain ⟨ts, hshaped⟩ := Function.shaped_of_isShaped hf
  obtain ⟨g, hgraph⟩ := Flow.Graph.exists_ofFunction hshaped.toWellFormed
  have hdescribes := Flow.Graph.describes_of_ofFunction hshaped.toWellFormed hgraph
  have hbody : f.body.isEmpty = false := by
    obtain ⟨id, rest, rfl⟩ := Forest.exists_basic_of_isArranged hshaped.arranged
    rw [hshaped.body_eq]
    rfl
  have hvalid : f.isValid := by
    simp only [Function.isShaped, Bool.and_eq_true] at hf
    exact hf.1.1
  obtain ⟨s, changed, hstart, hround, -⟩ :=
    Renaming.exists_quiet (Renaming.readable_of_mem_order hvalid hgraph)
  unfold convert
  simp only [hgraph, hbody, bind, Except.bind, pure, Except.pure, Bool.false_eq_true, if_false]
  rw [← hstart]
  obtain ⟨m, hsettle⟩ | ⟨m, hsettle⟩ := Renaming.settle_ok_or_error hround Renaming.roundLimit 0
  · left
    have hrun : (Renaming.settle f g Renaming.roundLimit).runFrom (s 0) = (.ok (), s m) := hsettle
    obtain ⟨birth, hdone⟩ := Renaming.done_of_settle hshaped hdescribes (hstart ▸ hrun)
    obtain ⟨_, t, hrename, -⟩ := Stage.succeeds_iff.1 (Conversion.renameAll_succeeds hdone
      hshaped.params_le hdescribes.order_nodup
      (fun _ ↦ Renaming.visible_of_mem_order hshaped hdescribes)
      fun _ ↦ placeable_of_mem_edges hshaped hdescribes hdone)
    have hrename' : (Conversion.renameAll g).runFrom { function := f, names := s m } = (.ok _, t) :=
      hrename
    rw [hrun, hrename']
    exact ⟨_, rfl⟩
  · right
    have hrun : (Renaming.settle f g Renaming.roundLimit).runFrom (s 0)
      = (.error (.internal (f.name ++ ": renaming did not converge")), s m) := hsettle
    rw [hrun]

end WasmBackend.SingleAssignment
