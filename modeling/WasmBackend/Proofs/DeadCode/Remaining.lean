import WasmBackend.Ir.Invariant
import WasmBackend.Proofs.DeadCode.Preservation
import WasmBackend.Proofs.Validity

/-!
# What pruning leaves

Pruning leaves a valid function in single-assignment form.  Every block that control can reach
stays in the tree, because the blocks around it can be reached as well; so the merges that edges
assign are still there when the other blocks are gone.  Branches that are left stand inside the same
constructs as before.
-/

namespace WasmBackend.Ir

open WasmBackend.Flow (Edge)

/-! ## Blocks that stay -/

section

variable {f p : Function} {drop : BlockId → Bool} {kept : List BlockId}

/-- The first block of a list stays with the list, if it stays. -/
theorem Forest.first_kept {ts : Forest} {fall : BlockId}
    (hts : Forest.ids (Forest.without drop ts) ⊆ kept) (hfall : drop fall = false → fall ∈ kept)
    (hfirst : drop (Forest.first ts fall) = false) : Forest.first ts fall ∈ kept := by
  cases ts with
  | nil => exact hfall hfirst
  | cons t rest =>
    have hkeep : drop t.id = false := hfirst
    refine hts ?_
    rw [Forest.without_cons, hkeep, if_neg Bool.false_ne_true]
    refine List.mem_append_left _ ?_
    rw [Forest.first, ← t.id_without drop]
    exact Tree.id_mem_ids _

/-- The edges of a block that stays lead to blocks that stay in the tree, unless they are dropped
themselves. -/
theorem Tree.edges_kept (f : Function) (drop : BlockId → Bool) (kept : List BlockId) :
    (∀ t : Tree, ∀ d next, t.ids.Nodup → (t.without drop).ids ⊆ kept →
        d.All (fun x ↦ drop x = false → x ∈ kept) → (drop next = false → next ∈ kept) →
        ∀ e ∈ t.edges f d next, e.src ∈ (t.without drop).ids → drop e.dst = false →
          e.dst ∈ kept) ∧
      ∀ ts : Forest, ∀ d fall, (Forest.ids ts).Nodup →
        Forest.ids (Forest.without drop ts) ⊆ kept →
        d.All (fun x ↦ drop x = false → x ∈ kept) → (drop fall = false → fall ∈ kept) →
        ∀ e ∈ Forest.edges f d fall ts, e.src ∈ Forest.ids (Forest.without drop ts) →
          drop e.dst = false → e.dst ∈ kept := by
  -- the source of an edge inside a construct is not the construct itself
  have inside {id : BlockId} {ids ids' : List BlockId} {x : BlockId} (hnodup : (id :: ids').Nodup)
      (hx : x ∈ ids') (hsrc : x ∈ id :: ids) : x ∈ ids := by
    refine (List.mem_cons.1 hsrc).resolve_left ?_
    rintro rfl
    exact (List.nodup_cons.1 hnodup).1 hx
  refine Tree.induction ?basic ?cond ?branch ?loop ?breakable ?nil ?cons
  case basic =>
    intro id d next _ _ hd hnext e he _
    exact instrEdges_dst hd hnext he
  case cond =>
    intro id body ih d next hnodup hsub hd hnext e he hsrc hdst
    have hbody : Forest.ids (Forest.without drop body) ⊆ kept :=
      fun x hx ↦ hsub (List.mem_cons_of_mem id hx)
    rcases List.mem_append.1 he with he | he
    · rcases List.mem_append.1 he with he | he
      · cases body with
        | nil => cases he
        | cons t rest =>
          rw [(Edge.mem_proper.1 he).1] at hdst ⊢
          have hfirst : drop (Forest.first (t :: rest) next) = false := hdst
          exact Forest.first_kept hbody hnext hfirst
      · rw [(Edge.mem_proper.1 he).1] at hdst ⊢
        exact hnext hdst
    · exact ih d next (List.nodup_cons.1 hnodup).2 hbody hd hnext e he
        (inside hnodup ((Tree.edges_src f).2 body d next e he) hsrc) hdst
  case branch =>
    intro id body other ih ih' d next hnodup hsub hd hnext e he hsrc hdst
    obtain ⟨hbodies, hothers, hdisjoint⟩ := List.nodup_append.1 (List.nodup_cons.1 hnodup).2
    have hbody : Forest.ids (Forest.without drop body) ⊆ kept :=
      fun x hx ↦ hsub (List.mem_cons_of_mem id (List.mem_append_left _ hx))
    have hother : Forest.ids (Forest.without drop other) ⊆ kept :=
      fun x hx ↦ hsub (List.mem_cons_of_mem id (List.mem_append_right _ hx))
    rcases List.mem_append.1 he with he | he
    · rcases List.mem_append.1 he with he | he <;> rw [(Edge.mem_proper.1 he).1] at hdst ⊢
      · exact Forest.first_kept hbody hnext hdst
      · exact Forest.first_kept hother hnext hdst
    · rcases List.mem_append.1 he with he | he
      · have hmem := (Tree.edges_src f).2 body d next e he
        refine ih d next hbodies hbody hd hnext e he ?_ hdst
        refine (List.mem_append.1 (inside hnodup (List.mem_append_left _ hmem) hsrc)).resolve_right ?_
        intro hwrong
        exact hdisjoint e.src hmem e.src (((Tree.ids_without drop).2 other).subset hwrong) rfl
      · have hmem := (Tree.edges_src f).2 other d next e he
        refine ih' d next hothers hother hd hnext e he ?_ hdst
        refine (List.mem_append.1 (inside hnodup (List.mem_append_right _ hmem) hsrc)).resolve_left ?_
        intro hwrong
        exact hdisjoint e.src (((Tree.ids_without drop).2 body).subset hwrong) e.src hmem rfl
  case loop =>
    intro id body ih d next hnodup hsub hd hnext e he hsrc hdst
    have hbody : Forest.ids (Forest.without drop body) ⊆ kept :=
      fun x hx ↦ hsub (List.mem_cons_of_mem id hx)
    have hhead : drop (Forest.first body id) = false → Forest.first body id ∈ kept :=
      Forest.first_kept hbody fun _ ↦ hsub List.mem_cons_self
    rcases List.mem_append.1 he with he | he
    · rw [(Edge.mem_proper.1 he).1] at hdst ⊢
      exact hhead hdst
    · exact ih _ _ (List.nodup_cons.1 hnodup).2 hbody (hd.loop hnext hhead) hhead e he
        (inside hnodup ((Tree.edges_src f).2 body _ _ e he) hsrc) hdst
  case breakable =>
    intro id body ih d next hnodup hsub hd hnext e he hsrc hdst
    have hbody : Forest.ids (Forest.without drop body) ⊆ kept :=
      fun x hx ↦ hsub (List.mem_cons_of_mem id hx)
    rcases List.mem_append.1 he with he | he
    · rw [(Edge.mem_proper.1 he).1] at hdst ⊢
      exact Forest.first_kept hbody hnext hdst
    · exact ih _ _ (List.nodup_cons.1 hnodup).2 hbody (hd.breakable hnext) hnext e he
        (inside hnodup ((Tree.edges_src f).2 body _ _ e he) hsrc) hdst
  case nil =>
    intro d fall _ _ _ _ e he
    cases he
  case cons =>
    intro t ts ih ihs d fall hnodup hsub hd hfall e he hsrc hdst
    obtain ⟨htree, hforest, hdisjoint⟩ := List.nodup_append.1 hnodup
    have hwithout := (Tree.ids_without drop).2 ts
    rw [Forest.without_cons] at hsub hsrc
    rcases List.mem_append.1 he with he | he
    · have hmem := (Tree.edges_src f).1 t d _ e he
      have hts : e.src ∉ Forest.ids (Forest.without drop ts) := fun hwrong ↦
        hdisjoint e.src hmem e.src (hwithout.subset hwrong) rfl
      split at hsrc <;> rename_i ht
      · exact absurd hsrc hts
      · rw [if_neg ht] at hsub
        refine ih d _ htree (fun x hx ↦ hsub (List.mem_append_left _ hx)) hd ?_ e he
          ((List.mem_append.1 hsrc).resolve_right hts) hdst
        exact Forest.first_kept (fun x hx ↦ hsub (List.mem_append_right _ hx)) hfall
    · have hmem := (Tree.edges_src f).2 ts d fall e he
      have hrest : Forest.ids (Forest.without drop ts) ⊆ kept ∧
          e.src ∈ Forest.ids (Forest.without drop ts) := by
        split at hsub <;> rename_i ht
        · rw [if_pos ht] at hsrc
          exact ⟨hsub, hsrc⟩
        · rw [if_neg ht] at hsrc
          refine ⟨fun x hx ↦ hsub (List.mem_append_right _ hx),
            (List.mem_append.1 hsrc).resolve_left fun hwrong ↦ ?_⟩
          exact hdisjoint e.src (((Tree.ids_without drop).1 t).subset hwrong) e.src hmem rfl
      exact ihs d fall hforest hrest.1 hd hfall e he hrest.2 hdst

/-- The blocks that control can reach stay when the others are dropped. -/
theorem Function.WellFormed.reachable_kept {g : Flow.Graph} {ts : Forest} (hf : f.WellFormed ts)
    (hg : g.Describes f ts) :
    g.order ⊆ Forest.ids (Forest.without (fun id ↦ !g.isReachable id) ts) := by
  set drop : BlockId → Bool := fun id ↦ !g.isReachable id with hdrop
  have hkeeps (x : BlockId) : drop x = false ↔ x ∈ g.order := by simp [hdrop, Flow.Graph.isReachable]
  have hzero : drop 0 = false → 0 ∈ Forest.ids (Forest.without drop ts) := by
    intro h
    have hblock := Tree.block?_of_mem_ids.2 ts hf.stored 0 (hg.order_subset 0 ((hkeeps 0).1 h))
    exact absurd (f.mem_range_of_block? hblock).1 (Nat.lt_irrefl 0)
  intro b hb
  refine hg.order_least (· ∈ Forest.ids (Forest.without drop ts)) ?_ (fun e he hsrc ↦ ?_) b hb
  · rw [hg.entry_eq]
    refine Forest.first_kept (fun _ hx ↦ hx) hzero ((hkeeps _).2 ?_)
    rw [← hg.entry_eq]
    refine hg.entry_mem ?_
    rintro rfl
    exact absurd (hg.order_subset b hb) List.not_mem_nil
  · have hreached := (hkeeps e.src).1 ((Tree.keeps_without drop).2 ts e.src hsrc)
    have hdst := hg.order_closed e.src hreached e (Flow.Graph.mem_succs.2 ⟨he, rfl⟩)
    rw [hg.edges_eq] at he
    exact (Tree.edges_kept f drop _).2 ts {} 0 hf.nodup (fun _ hx ↦ hx)
      ⟨fun _ ↦ hzero, fun _ ↦ hzero⟩ hzero e he hsrc ((hkeeps e.dst).2 hdst)

/-! ## Validity -/

theorem Instr.Aimed.congr {scope : List (BlockId × BlockKind)} {i j : Instr} (h : i.Aimed scope)
    (hop : j.op = i.op) (htarget : j.target = i.target) : j.Aimed scope := by
  unfold Instr.Aimed Instr.isBranch Function.branchViolations at *
  rwa [hop, htarget]

/-- What a block holds mentions only variables that exist, and its branches are branches of the
block in another function. -/
structure Function.Inherits (f p : Function) (id : BlockId) : Prop where
  within : (p.blockAt id).Within p.vars.size
  branches : ∀ i ∈ (p.blockAt id).instrs, i.isBranch →
    ∃ j ∈ (f.blockAt id).instrs, j.op = i.op ∧ j.target = i.target

/-- Blocks that stay where they are keep passing. -/
theorem Tree.checked_without (f p : Function) (drop : BlockId → Bool) :
    (∀ t : Tree, ∀ scope, t.Checked f scope → (t.without drop).Stored p →
        (∀ id ∈ (t.without drop).ids, Function.Inherits f p id) →
        (t.without drop).Checked p scope) ∧
      ∀ ts : Forest, ∀ scope, Forest.Checked f scope ts → Forest.Stored p (Forest.without drop ts) →
        (∀ id ∈ Forest.ids (Forest.without drop ts), Function.Inherits f p id) →
        Forest.Checked p scope (Forest.without drop ts) := by
  have cond {id : BlockId} (h : Function.Inherits f p id)
      (hkind : (p.blockAt id).kind = .cond ∨ (p.blockAt id).kind = .branch) :
      p.unknownVars id [(p.blockAt id).cond] = []
        ∧ p.unknownCopyVars id (p.blockAt id).aroundCopies = [] := by
    rw [Function.unknownVars_eq_nil, Function.unknownCopyVars_eq_nil]
    exact ⟨fun v hv ↦ List.mem_singleton.1 hv ▸ h.within.cond hkind, h.within.arounds⟩
  refine Tree.induction ?basic ?cond ?branch ?loop ?breakable ?nil ?cons
  case basic =>
    intro id scope hchecked _ hids
    have h := hids id (List.mem_singleton_self id)
    refine ⟨List.flatMap_eq_nil_iff.2 fun i hi ↦ ?_,
      Function.unknownCopyVars_eq_nil.2 h.within.exits⟩
    refine Function.instrViolations_eq_nil.2 ⟨h.within.instrs i hi, fun hbranch ↦ ?_⟩
    obtain ⟨j, hj, hop, htarget⟩ := h.branches i hi hbranch
    have haimed := (Function.instrViolations_eq_nil.1
      (List.flatMap_eq_nil_iff.1 hchecked.1 j hj)).2
    exact haimed.congr hop.symm htarget.symm hbranch
  case cond =>
    intro id body ih scope hchecked hstored hids
    have h := cond (hids id List.mem_cons_self) (.inl hstored.1.kind_eq)
    exact ⟨h.1, h.2, ih _ hchecked.2.2 hstored.2 fun x hx ↦ hids x (List.mem_cons_of_mem id hx)⟩
  case branch =>
    intro id body other ih ih' scope hchecked hstored hids
    have h := cond (hids id List.mem_cons_self) (.inr hstored.1.kind_eq)
    refine ⟨h.1, h.2, ih _ hchecked.2.2.1 hstored.2.1 fun x hx ↦ ?_,
      ih' _ hchecked.2.2.2 hstored.2.2 fun x hx ↦ ?_⟩
    · exact hids x (List.mem_cons_of_mem id (List.mem_append_left _ hx))
    · exact hids x (List.mem_cons_of_mem id (List.mem_append_right _ hx))
  case loop | breakable =>
    intro id body ih scope hchecked hstored hids
    have h := (hids id List.mem_cons_self).within.entries
    exact ⟨Function.unknownCopyVars_eq_nil.2 h,
      ih _ hchecked.2 hstored.2 fun x hx ↦ hids x (List.mem_cons_of_mem id hx)⟩
  case nil =>
    intro scope _ _ _
    trivial
  case cons =>
    intro t ts ih ihs scope hchecked hstored hids
    rw [Forest.without_cons] at hstored hids ⊢
    split at hstored <;> rename_i ht
    · rw [if_pos ht] at hids ⊢
      exact ihs scope hchecked.2 hstored hids
    · rw [if_neg ht] at hids ⊢
      exact ⟨ih scope hchecked.1 hstored.1 fun x hx ↦ hids x (List.mem_append_left _ hx),
        ihs scope hchecked.2 hstored.2 fun x hx ↦ hids x (List.mem_append_right _ hx)⟩

end

end WasmBackend.Ir

namespace WasmBackend.DeadCode

open Ir (BlockId Forest Function Tree Var)
open SingleAssignment (Birth Converted Renaming)
open WasmBackend.Flow (Graph)

section

variable {f f' p : Function} {ts : Forest} {g : Graph} {r : Renaming} {birth : Var → Birth}
  {drop : BlockId → Bool}

theorem Pruned.mem_order (hp : Pruned f' ts (fun id ↦ !g.isReachable id) drop p) {id : BlockId}
    (hid : id ∈ Forest.ids (Forest.without drop ts)) : id ∈ g.order := by
  have hkeep := (Tree.keeps_without drop).2 ts id hid
  by_contra hunreached
  have hdrop := hp.kept id (by simpa [Graph.isReachable] using hunreached)
  rw [hkeep] at hdrop
  cases hdrop

/-- What pruning leaves of a converted block stands for the block of the function itself. -/
theorem Pruned.inherits (hp : Pruned f' ts (fun id ↦ !g.isReachable id) drop p)
    (h : Converted f ts f' g r birth) (hplain : f.isPlain) {id : BlockId}
    (hid : id ∈ Forest.ids (Forest.without drop ts)) : Function.Inherits f p id where
  within := hp.sound.within id hid
  branches i hi hbranch := by
    obtain ⟨i', hi', cs, -, rfl⟩ := (hp.trim id).instrs.exists_of_mem hi
    rcases h.exists_of_mem_instrs hplain (hp.mem_order hid) hi' with hphi | hsome
    · rw [Ir.Instr.isBranch, hphi] at hbranch
      cases hbranch
    · exact hsome

/-- Pruning a converted function leaves it valid. -/
theorem Pruned.isValid (hp : Pruned f' ts (fun id ↦ !g.isReachable id) drop p)
    (h : Converted f ts f' g r birth) (hplain : f.isPlain) : p.isValid := by
  have hchecked : Forest.Checked p [] (Forest.without drop ts) := by
    apply (Tree.checked_without f p drop).2 ts [] h.shaped.checked hp.sound.stored
    intro id hid
    exact hp.inherits h hplain hid
  exact Function.isValid_of_wellFormed
    ⟨hp.sound.body_eq, hp.sound.stored, hp.sound.nodup, hchecked⟩

/-- Pruning a converted function leaves it in single-assignment form. -/
theorem Pruned.assigned_of_converted (hp : Pruned f' ts (fun id ↦ !g.isReachable id) drop p)
    (h : Converted f ts f' g r birth) (hplain : f.isPlain) :
    p.Assigned (Forest.ids (Forest.without drop ts)) := by
  refine hp.assigned ((h.assigned hplain).of_mem_iff fun id ↦ ⟨fun hid ↦ ?_, fun hid ↦ ?_⟩)
  · have hkeep := (Tree.keeps_without _).2 ts id hid
    simpa [Graph.isReachable] using hkeep
  · exact h.shaped.reachable_kept h.describes hid

end

end WasmBackend.DeadCode
