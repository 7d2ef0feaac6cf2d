import WasmBackend.Plan.Schedule
import WasmBackend.Proofs.Flow.Control
import WasmBackend.Proofs.Lowering.SingleResults
import WasmBackend.Proofs.SingleAssignment.Outcome
import WasmBackend.Samples

/-!
# The shape of lowered units

While a function is lowered, a stack of lists of blocks and a current block say where code goes;
statements and expressions open and close lists as they nest.  What they leave behind is put
together here: every list of blocks is arranged, branches end their blocks, instructions define one
variable at most, and conversion to single assignment finds a place for everything it assigns.

`Function.isShaped` checks a function along its trees.  What it says of the trees is said first of
the lists of blocks as they are stored: the body of the function and the arms of every block that
stands in it.
-/

namespace WasmBackend.Ir

variable {f : Function}

/-- The list of blocks starts and ends with a basic block, and no two structured blocks stand side
by side in it. -/
structure Function.Arranged (f : Function) (ids : List BlockId) : Prop where
  ne_nil : ids ≠ []
  head : ∀ id ∈ ids.head?, (f.blockAt id).kind = .basic
  last : ∀ id ∈ ids.getLast?, (f.blockAt id).kind = .basic
  apart : ids.IsChain fun a b ↦ (f.blockAt a).kind = .basic ∨ (f.blockAt b).kind = .basic

/-- The lists of trees that control enters from a structured block. -/
def Tree.arms : Tree → List Forest
  | .basic _ => []
  | .cond _ body | .loop _ body | .breakable _ body => [body]
  | .branch _ body other => [body, other]

theorem Tree.Stored.arms_eq {t : Tree} (h : t.Stored f) :
    (f.blockAt t.id).arms = t.arms.map Forest.roots := by
  cases t with
  | basic id => exact Function.Node.arms_eq h
  | cond id body | loop id body | breakable id body | branch id body other =>
    exact Function.Node.arms_eq h.1

/-- A tree is a basic block exactly when its root is stored as one. -/
theorem Tree.Stored.kind_eq_basic {t : Tree} (h : t.Stored f) (ht : t.isStructured = false) :
    (f.blockAt t.id).kind = .basic := by
  cases t with
  | basic id => exact Function.Node.kind_eq h
  | _ => cases ht

theorem Tree.mem_arms {t : Tree} (hstored : t.Stored f) (hshaped : t.isShaped f) {body : Forest}
    (hbody : body ∈ t.arms) :
    Forest.Stored f body ∧ Forest.isArranged body ∧ Forest.isShaped f body := by
  cases t with
  | basic id => cases hbody
  | cond id body | loop id body | breakable id body =>
    rw [List.mem_singleton.1 hbody]
    simp only [Tree.isShaped, Bool.and_eq_true] at hshaped
    exact ⟨hstored.2, hshaped.1.2, hshaped.2⟩
  | branch id body other =>
    simp only [Tree.isShaped, Bool.and_eq_true] at hshaped
    obtain rfl | hbody := List.mem_cons.1 hbody
    · exact ⟨hstored.2.1, hshaped.1.2⟩
    · rw [List.mem_singleton.1 hbody]
      exact ⟨hstored.2.2, hshaped.2⟩

/-- The instructions of a shaped tree that is stored as a basic block are straight. -/
theorem Tree.isStraight_of_kind {t : Tree} (hstored : t.Stored f) (hshaped : t.isShaped f)
    (hkind : (f.blockAt t.id).kind = .basic) : isStraight (f.blockAt t.id).instrs := by
  cases t with
  | basic id =>
    rw [Tree.isShaped, Bool.and_eq_true] at hshaped
    exact hshaped.1
  | cond id body | loop id body | breakable id body | branch id body other =>
    have hkind' := Function.Node.kind_eq hstored.1
    rw [Tree.id] at hkind
    rw [hkind] at hkind'
    cases hkind'

theorem Forest.stored_of_mem {ts : Forest} (h : Forest.Stored f ts) {t : Tree} (ht : t ∈ ts) :
    t.Stored f := by
  induction ts with
  | nil => cases ht
  | cons u us ih =>
    obtain rfl | ht := List.mem_cons.1 ht
    · exact h.1
    · exact ih h.2 ht

theorem Forest.isShaped_of_mem {ts : Forest} (h : Forest.isShaped f ts) {t : Tree} (ht : t ∈ ts) :
    t.isShaped f := by
  induction ts with
  | nil => cases ht
  | cons u us ih =>
    rw [Forest.isShaped, Bool.and_eq_true] at h
    obtain rfl | ht := List.mem_cons.1 ht
    · exact h.1
    · exact ih h.2 ht

/-! ## Trees where blocks stand -/

/-- Whatever block stands in a shaped function, it is the root of a shaped tree. -/
theorem Function.Occurs.exists_tree {ts : Forest} {p : Point} (hp : f.Occurs p)
    (hf : f.Shaped ts) : ∃ t : Tree, t.id = p.block ∧ t.Stored f ∧ t.isShaped f := by
  have among {us : Forest} (hstored : Forest.Stored f us) (hshaped : Forest.isShaped f us)
      {before rest : List BlockId} {id : BlockId}
      (hroots : Forest.roots us = before ++ id :: rest) :
      ∃ t : Tree, t.id = id ∧ t.Stored f ∧ t.isShaped f := by
    have hid : id ∈ Forest.roots us := hroots ▸ List.mem_append_right _ List.mem_cons_self
    obtain ⟨t, ht, hid⟩ := List.mem_map.1 hid
    exact ⟨t, hid, Forest.stored_of_mem hstored ht, Forest.isShaped_of_mem hshaped ht⟩
  induction hp with
  | body h => exact among hf.stored hf.shaped (hf.body_eq.symm.trans h)
  | @arm l levels before rest id _ harm ih =>
    obtain ⟨t, ht, hstored, hshaped⟩ := ih
    rw [← show t.id = l.id from ht, hstored.arms_eq] at harm
    obtain ⟨body, hbody, hroots⟩ := List.mem_map.1 harm
    obtain ⟨hstored', -, hshaped'⟩ := Tree.mem_arms hstored hshaped hbody
    exact among hstored' hshaped' hroots

/-! ## Lists as they are stored -/

theorem isChain_of_all_zip_tail {α : Type} {R : α → α → Bool} {l : List α}
    (h : (l.zip l.tail).all fun p ↦ R p.1 p.2) : l.IsChain fun a b ↦ R a b := by
  induction l with
  | nil => exact .nil
  | cons a l ih =>
    cases l with
    | nil => exact .singleton a
    | cons b l =>
      rw [List.tail_cons, List.zip_cons_cons, List.all_cons, Bool.and_eq_true] at h
      exact .cons_cons h.1 (ih h.2)

/-- The roots of arranged trees are an arranged list of blocks. -/
theorem Forest.arranged_roots {ts : Forest} (hstored : Forest.Stored f ts)
    (h : Forest.isArranged ts) : f.Arranged (Forest.roots ts) := by
  have hbasic (t : Tree) (ht : t ∈ ts) (hplain : t.isStructured = false) :
      (f.blockAt t.id).kind = .basic :=
    (Forest.stored_of_mem hstored ht).kind_eq_basic hplain
  simp only [Forest.isArranged, Bool.and_eq_true, Option.any_eq_true, Bool.not_eq_true'] at h
  obtain ⟨⟨⟨first, hfirst, hfirst'⟩, last, hlast, hlast'⟩, hapart⟩ := h
  refine ⟨?_, ?_, ?_, ?_⟩
  · rintro hnil
    rw [List.map_eq_nil_iff.1 hnil] at hfirst
    cases hfirst
  · intro id hid
    rw [Forest.roots, List.head?_map, hfirst] at hid
    cases hid
    exact hbasic first (List.mem_of_head? hfirst) hfirst'
  · intro id hid
    rw [Forest.roots, List.getLast?_map, hlast] at hid
    cases hid
    exact hbasic last (List.mem_of_getLast? hlast) hlast'
  · have hchain : ts.IsChain fun t u ↦ !(t.isStructured && u.isStructured) :=
      isChain_of_all_zip_tail hapart
    refine List.isChain_map_of_isChain Tree.id (fun _ _ h ↦ h) (hchain.imp_of_mem_imp ?_)
    intro t u ht hu htu
    rw [Bool.not_eq_true', Bool.and_eq_false_iff] at htu
    exact htu.imp (hbasic t ht) (hbasic u hu)

/-- Nothing stands behind a branch in straight instructions. -/
theorem eq_nil_of_isStraight {before after : List Instr} {i : Instr}
    (h : isStraight (before ++ i :: after)) (hi : i.isBranch) : after = [] := by
  induction before with
  | nil =>
    simp only [List.nil_append, isStraight, Bool.and_eq_true, Bool.or_eq_true, hi] at h
    simpa using h.1.2
  | cons j before ih =>
    simp only [List.cons_append, isStraight, Bool.and_eq_true] at h
    exact ih h.2

end WasmBackend.Ir

namespace WasmBackend

open Ir (BlockId Function Instr)
open WasmBackend.Flow (Graph)

/-- Texts that go on differently behind the same start are different. -/
theorem Text.append_ne_append {a b c : Text} (h : ¬c.bytes <+: b.bytes) (rest : Text) :
    a ++ b ≠ a ++ c ++ rest := by
  intro heq
  have hbytes := congrArg Text.bytes heq
  simp only [Text.bytes_append, List.append_assoc, List.append_cancel_left_eq] at hbytes
  exact h ⟨rest.bytes, hbytes.symm⟩

namespace Ir

/-- What every function of a lowered unit is like. -/
structure Function.WellShaped (f : Function) : Prop where
  valid : f.isValid
  body : f.Arranged f.body
  arms : ∀ p, f.Occurs p → ∀ arm ∈ (f.blockAt p.block).arms, f.Arranged arm
  branch_last : ∀ p, f.Occurs p → ∀ before i after,
    (f.blockAt p.block).instrs = before ++ i :: after → i.isBranch → after = []
  single_results : ∀ b ∈ f.blocks, ∀ i ∈ b.instrs, i.dst.length ≤ 1
  converted : (∃ result, SingleAssignment.convert f = .ok result) ∨
    SingleAssignment.convert f = .error (.internal (f.name ++ ": renaming did not converge"))
  no_join_at_head : ∀ rest : Text,
    SingleAssignment.convert f ≠ .error (.internal (f.name ++ ": join at the head of " ++ rest))
  joins : ∃ g, Graph.ofFunction f = .ok g ∧ ∀ b, 1 < g.ways b → (f.blockAt b).kind = .basic

end Ir

namespace Lowering

open Ir (Forest Tree)

/-- A lowered function with single results is well shaped. -/
theorem Lowered.wellShaped {f : Function} (h : Lowered f) (hsingle : f.HasSingleResults) :
    f.WellShaped := by
  obtain ⟨ts, hshaped⟩ := Function.shaped_of_isShaped h.shaped
  obtain ⟨g, hgraph⟩ := Graph.exists_ofFunction hshaped.toWellFormed
  have hdescribes := Graph.describes_of_ofFunction hshaped.toWellFormed hgraph
  have hconvert := SingleAssignment.convert_ok_or_error h.shaped
  refine {
    valid := Ir.Function.isValid_of_wellFormed hshaped.toWellFormed
    body := hshaped.body_eq ▸ Forest.arranged_roots hshaped.stored hshaped.arranged
    arms := fun p hp arm harm ↦ ?_
    branch_last := fun p hp before i after hinstrs hi ↦ ?_
    single_results := hsingle
    converted := hconvert
    no_join_at_head := fun rest ↦ ?_
    joins := ⟨g, hgraph, fun b hb ↦ ?_⟩ }
  · obtain ⟨t, ht, hstored, htree⟩ := hp.exists_tree hshaped
    rw [← ht, hstored.arms_eq] at harm
    obtain ⟨body, hbody, rfl⟩ := List.mem_map.1 harm
    obtain ⟨hstored', harranged, -⟩ := Tree.mem_arms hstored htree hbody
    exact Forest.arranged_roots hstored' harranged
  · -- only basic blocks hold instructions, and those of a basic block are straight
    by_cases hkind : (f.blockAt p.block).kind = .basic
    · obtain ⟨t, ht, hstored, htree⟩ := hp.exists_tree hshaped
      rw [← ht] at hinstrs hkind
      have hstraight := Tree.isStraight_of_kind hstored htree hkind
      rw [hinstrs] at hstraight
      exact Ir.eq_nil_of_isStraight hstraight hi
    · rw [Function.instrs_of_isPlain h.plain hkind] at hinstrs
      exact absurd hinstrs.symm (by simp)
  · obtain ⟨result, hok⟩ | herror := hconvert
    · rw [hok]
      exact nofun
    · rw [herror]
      intro heq
      have hmessage := Failure.internal.inj (Except.error.inj heq)
      exact Text.append_ne_append (by decide) rest hmessage
  · by_contra hkind
    exact Nat.not_le_of_lt hb (hshaped.ways_le_one hdescribes hkind)

/-- **Lowering makes well-shaped functions**, from whatever state it starts and whatever it
reports. -/
theorem wellShaped_of_run {plan : Plan} {entryExport : Text} {parent : ℕ} {s s' : Lowering}
    {unit : Ir.CodeUnit} (h : (run plan entryExport parent).runFrom s = (.ok unit, s')) :
    ∀ f ∈ unit.funcs, f.WellShaped := by
  have hunit : Stage.Ensures (run plan entryExport parent) s fun unit _ ↦
      ∀ f ∈ unit.funcs, f.WellShaped := by
    unfold run
    rw [Stage.Ensures, Stage.meets_adapt]
    refine ((ensures_lowerPlan plan entryExport parent s).and
      (ensures_lowerPlan_hasSingleResults plan entryExport parent s)).imp ?_
    rintro unit t ⟨hlowered, hsingle⟩ f hf
    exact (hlowered f hf).wellShaped (hsingle f hf)
  exact hunit.of_eq h

/-- The functions of a program with a logical operator, conditionals and branches are well
shaped. -/
theorem wellShaped_of_run_logic : ∃ plan σ unit s,
    (Scheduler.run "" 0).runFrom (Scheduler.ofProgram Samples.logic) = (.ok plan, σ)
      ∧ (run plan "" 0).runFrom { store := (Layouts.resolve.runFrom σ.layouts).2.store }
        = (.ok unit, s)
      ∧ (unit.funcs.map fun f ↦ f.blocks.toList.map Ir.Block.kind) =
        [[.basic], [.basic, .breakable, .basic, .basic, .basic, .basic],
          [.basic, .cond, .basic, .basic, .basic, .branch, .basic, .basic, .basic, .basic, .basic]]
      ∧ ∀ f ∈ unit.funcs, f.WellShaped := by
  have of_toOption {α : Type} {x : Except Failure α} {a : α} (hx : x.toOption = some a) :
      x = .ok a := by
    cases x with
    | error e => cases hx
    | ok b => exact congrArg Except.ok (Option.some.inj hx)
  obtain ⟨scheduled, hscheduled⟩ : ∃ r, (Scheduler.run "" 0).runFrom
      (Scheduler.ofProgram Samples.logic) = r := ⟨_, rfl⟩
  have hunits : (scheduled.1.toOption.bind fun plan ↦
      ((run plan "" 0).runFrom { store := (Layouts.resolve.runFrom scheduled.2.layouts).2.store }
        ).1.toOption.map fun unit ↦ unit.funcs.map fun f ↦ f.blocks.toList.map Ir.Block.kind) =
      some [[.basic], [.basic, .breakable, .basic, .basic, .basic, .basic],
        [.basic, .cond, .basic, .basic, .basic, .branch, .basic, .basic, .basic, .basic,
          .basic]] := by
    subst hscheduled
    decide +kernel
  obtain ⟨plan, hplan, hmap⟩ := Option.bind_eq_some_iff.1 hunits
  obtain ⟨unit, hunit, hkinds⟩ := Option.map_eq_some_iff.1 hmap
  have hrun : (run plan "" 0).runFrom
      { store := (Layouts.resolve.runFrom scheduled.2.layouts).2.store } = (.ok unit, _) :=
    Prod.ext (of_toOption hunit) rfl
  exact ⟨plan, scheduled.2, unit, _, hscheduled.trans (Prod.ext (of_toOption hplan) rfl), hrun,
    hkinds, wellShaped_of_run hrun⟩

end Lowering

end WasmBackend
