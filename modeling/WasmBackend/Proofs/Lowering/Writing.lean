import WasmBackend.Lowering.Unit
import WasmBackend.Proofs.Lowering.Finished
import WasmBackend.Proofs.Stage

/-!
# Writing blocks

While a function is lowered, the innermost list of blocks is a row of finished trees that ends with
the basic block that takes new instructions.  A step of lowering goes on writing: it adds
instructions to that block or trees behind it, and leaves every block outside the row as it is.
`Writes` says so of a step, with what is known about its result once the variables that exist by
then are counted; there is one rule for every way steps are put together.
-/

namespace WasmBackend

open Ir (Block BlockId BlockKind Forest Instr Tree Var)
open Stage (Ensures Meets)

/-- The constructs around a block, innermost first. -/
abbrev Scope := List (BlockId × BlockKind)

namespace Lowering

/-- The function as far as it is lowered. -/
def draft (s : Lowering) : Ir.Function :=
  { name := "", vars := s.vars, blocks := s.blocks }

/-- Only basic blocks hold instructions. -/
def Plain (s : Lowering) : Prop :=
  ∀ b ∈ s.blocks, b.kind = .basic ∨ b.instrs = []

/-- The row `us` is written inside the constructs of `σ`, up to the current block. -/
structure Written (σ : Scope) (us : Forest) (s : Lowering) : Prop where
  nesting : s.nesting.head? = some (Forest.roots us).reverse
  finished : Forest.Finished s.draft σ us
  nodup : (Forest.ids us).Nodup
  arranged : Forest.isArranged us
  last : ∃ before, us = before ++ [.basic s.current]
  plain : s.Plain
  loops : ∀ l ∈ s.loops, σ.find? (fun p ↦ p.1 = l) = some (l, .loop)
  scope : ∀ p ∈ σ, p.1 ≤ s.blocks.size

/-- The row is written and the current block takes more instructions: it has no branch yet. -/
structure Writing (σ : Scope) (us : Forest) (s : Lowering) : Prop extends Written σ us s where
  unbranched : ∀ i ∈ (s.draft.blockAt s.current).instrs, i.isBranch = false

/-- The second state has more written than the first, in the same row. -/
structure Continues (us : Forest) (s : Lowering) (us' : Forest) (s' : Lowering) : Prop where
  vars_le : s.vars.size ≤ s'.vars.size
  size_le : s.blocks.size ≤ s'.blocks.size
  kept : ∀ id ≤ s.blocks.size, id ∉ Forest.ids us → s'.draft.block? id = s.draft.block? id
  fresh : ∀ id ∈ Forest.ids us', id ∈ Forest.ids us ∨ s.blocks.size < id
  nesting : s'.nesting.tail = s.nesting.tail
  loops : s'.loops = s.loops
  funcs : s'.unit.funcs = s.unit.funcs

/-- A step that touches no block. -/
structure Aside (s s' : Lowering) : Prop where
  vars : s.vars.toList <+: s'.vars.toList
  blocks : s'.blocks = s.blocks
  nesting : s'.nesting = s.nesting
  current : s'.current = s.current
  loops : s'.loops = s.loops
  funcs : s'.unit.funcs = s.unit.funcs

section

variable {σ : Scope} {us us' us'' : Forest} {s s' s'' : Lowering}

theorem Continues.refl (us : Forest) (s : Lowering) : Continues us s us s where
  vars_le := Nat.le_refl _
  size_le := Nat.le_refl _
  kept _ _ _ := rfl
  fresh _ h := .inl h
  nesting := rfl
  loops := rfl
  funcs := rfl

theorem Continues.trans (h : Continues us s us' s') (h' : Continues us' s' us'' s'') :
    Continues us s us'' s'' where
  vars_le := Nat.le_trans h.vars_le h'.vars_le
  size_le := Nat.le_trans h.size_le h'.size_le
  kept id hid hmem := by
    have hmem' : id ∉ Forest.ids us' := by
      intro hid'
      cases h.fresh id hid' with
      | inl hold => exact hmem hold
      | inr hnew => exact absurd hid (Nat.not_le_of_lt hnew)
    calc s''.draft.block? id
      _ = s'.draft.block? id := h'.kept id (Nat.le_trans hid h.size_le) hmem'
      _ = s.draft.block? id := h.kept id hid hmem
  fresh id hid := by
    cases h'.fresh id hid with
    | inl hmem => exact h.fresh id hmem
    | inr hnew => exact .inr (Nat.lt_of_le_of_lt h.size_le hnew)
  nesting := h'.nesting.trans h.nesting
  loops := h'.loops.trans h.loops
  funcs := h'.funcs.trans h.funcs

theorem Aside.vars_le (h : s.Aside s') : s.vars.size ≤ s'.vars.size := by
  simpa using h.vars.length_le

theorem Aside.refl (s : Lowering) : s.Aside s :=
  ⟨List.prefix_refl _, rfl, rfl, rfl, rfl, rfl⟩

theorem Aside.trans (h : s.Aside s') (h' : s'.Aside s'') : s.Aside s'' where
  vars := h.vars.trans h'.vars
  blocks := h'.blocks.trans h.blocks
  nesting := h'.nesting.trans h.nesting
  current := h'.current.trans h.current
  loops := h'.loops.trans h.loops
  funcs := h'.funcs.trans h.funcs

theorem Aside.block?_eq (h : s.Aside s') (id : BlockId) :
    s'.draft.block? id = s.draft.block? id := by
  unfold draft Ir.Function.block?
  rw [h.blocks]

theorem Aside.continues (h : s.Aside s') (us : Forest) : Continues us s us s' where
  vars_le := h.vars_le
  size_le := by rw [h.blocks]
  kept id _ _ := h.block?_eq id
  fresh _ hid := .inl hid
  nesting := by rw [h.nesting]
  loops := h.loops
  funcs := h.funcs

theorem Written.aside (hw : Written σ us s) (h : s.Aside s') : Written σ us s' where
  nesting := by rw [h.nesting, hw.nesting]
  finished := hw.finished.of_holds ⟨h.vars_le, fun id _ ↦ h.block?_eq id⟩
  nodup := hw.nodup
  arranged := hw.arranged
  last := by rw [h.current]; exact hw.last
  plain := by unfold Plain; rw [h.blocks]; exact hw.plain
  loops := by rw [h.loops]; exact hw.loops
  scope := by rw [h.blocks]; exact hw.scope

theorem Writing.aside (hw : Writing σ us s) (h : s.Aside s') : Writing σ us s' where
  toWritten := hw.toWritten.aside h
  unbranched := by
    unfold Ir.Function.blockAt
    rw [h.current, h.block?_eq]
    exact hw.unbranched

/-! ## Instructions -/

/-- Whether an instruction may be put at the end of the current block, where `n` variables exist. -/
structure Placeable (σ : Scope) (n : Nat) (i : Instr) : Prop where
  within : i.Within n
  aimed : i.Aimed σ
  not_phi : i.op ≠ .phi
  no_copies : i.copies = []

theorem isStraight_append {is : List Instr} {i : Instr} (his : Ir.isStraight is)
    (hbranch : ∀ j ∈ is, j.isBranch = false) (hphi : i.op ≠ .phi) (hcopies : i.copies = []) :
    Ir.isStraight (is ++ [i]) := by
  induction is with
  | nil => simp [Ir.isStraight, hphi, hcopies]
  | cons j is ih =>
    simp only [Ir.isStraight, List.cons_append, Bool.and_eq_true] at his ⊢
    have hrest := ih his.2 fun k hk ↦ hbranch k (List.mem_cons_of_mem j hk)
    exact ⟨⟨his.1.1, by simp [hbranch j List.mem_cons_self]⟩, hrest⟩

/-- The state behind an instruction that is put at the end of the current block. -/
def append (s : Lowering) (i : Instr) : Lowering :=
  { s with
    blocks := s.blocks.modify (s.current - 1) fun b => { b with instrs := b.instrs ++ [i] } }

theorem Written.current_ne_zero (hw : Written σ us s) : s.current ≠ 0 := by
  obtain ⟨before, hus⟩ := hw.last
  have hmem : s.current ∈ Forest.ids us := by simp [hus, Tree.ids]
  have hblock := Tree.block?_of_mem_ids.2 us hw.finished.stored s.current hmem
  exact Nat.pos_iff_ne_zero.1 (Ir.Function.mem_range_of_block? hblock).1

theorem Written.draft_append (hw : Written σ us s) (i : Instr) :
    (s.append i).draft =
      s.draft.updateBlock s.current fun b => { b with instrs := b.instrs ++ [i] } := by
  unfold Ir.Function.updateBlock
  rw [if_neg hw.current_ne_zero]
  rfl

theorem Written.mem_ids_le (hw : Written σ us s) {id : BlockId} (hid : id ∈ Forest.ids us) :
    id ≤ s.blocks.size := by
  have hblock := Tree.block?_of_mem_ids.2 us hw.finished.stored id hid
  exact (Ir.Function.mem_range_of_block? hblock).2

/-- An instruction at the end of the current block keeps the row written. -/
theorem Writing.append (hw : Writing σ us s) {i : Instr} (hi : Placeable σ s.vars.size i) :
    Written σ us (s.append i)
      ∧ (i.isBranch = false → ∀ j ∈ ((s.append i).draft.blockAt s.current).instrs,
          j.isBranch = false) := by
  have hdraft := hw.draft_append i
  obtain ⟨before, hus⟩ := hw.last
  have hmem : s.current ∈ Forest.ids us := by simp [hus, Tree.ids]
  have hfinished := hw.finished
  rw [hus, Forest.finished_append, Forest.finished_cons] at hfinished
  obtain ⟨hbefore, hcurrent, -⟩ := hfinished
  have hnode : s.draft.Node s.current .basic [] [] := hcurrent.stored
  have hblock : (s.append i).draft.block? s.current = some
      { s.draft.blockAt s.current with
        instrs := (s.draft.blockAt s.current).instrs ++ [i] } := by
    rw [hdraft, Ir.Function.block?_updateBlock, if_pos rfl, hnode.block?_eq, Option.map_some]
  have hblockAt : (s.append i).draft.blockAt s.current =
      { s.draft.blockAt s.current with
        instrs := (s.draft.blockAt s.current).instrs ++ [i] } := by
    rw [Ir.Function.blockAt, hblock, Option.getD_some]
  have hholds : s.draft.Holds (s.append i).draft (Forest.ids before) := by
    refine ⟨Nat.le_refl _, fun id hid ↦ ?_⟩
    have hne : id ≠ s.current := by
      have hnodup := hw.nodup
      rw [hus, Forest.ids_append] at hnodup
      intro heq
      exact (List.nodup_append.1 hnodup).2.2 id hid s.current (by simp [Tree.ids]) heq
    rw [hdraft, Ir.Function.block?_updateBlock, if_neg hne]
  have hlast : (Tree.basic s.current).Finished (s.append i).draft σ := by
    have hchecked := hcurrent.checked
    have hshaped := hcurrent.shaped
    simp only [Tree.Checked, Tree.isShaped, Bool.and_eq_true] at hchecked hshaped
    refine ⟨⟨by rw [hblock, hblockAt], ?_, ?_, ?_⟩, ?_, ?_⟩
    · rw [hblockAt]
      exact hnode.kind_eq
    · rw [hblockAt]
      exact hnode.body_eq
    · rw [hblockAt]
      exact hnode.otherwise_eq
    · rw [Tree.Checked, hblockAt, List.flatMap_append, List.append_eq_nil_iff]
      refine ⟨⟨hchecked.1, ?_⟩, hchecked.2⟩
      rw [List.flatMap_singleton]
      exact Ir.Function.instrViolations_eq_nil.2 ⟨hi.within, hi.aimed⟩
    · rw [Tree.isShaped, hblockAt, Bool.and_eq_true]
      exact ⟨isStraight_append hshaped.1 hw.unbranched hi.not_phi hi.no_copies, hshaped.2⟩
  refine ⟨?_, fun hbranch j hj ↦ ?_⟩
  · refine ⟨hw.nesting, ?_, hw.nodup, hw.arranged, hw.last, ?_, hw.loops, ?_⟩
    · rw [hus, Forest.finished_append, Forest.finished_cons]
      exact ⟨hbefore.of_holds hholds, hlast, Forest.finished_nil⟩
    · intro b hb
      obtain ⟨k, hk, rfl⟩ := Array.mem_iff_getElem.1 hb
      have hsize : k < s.blocks.size := by simpa [Lowering.append] using hk
      have hold := hw.plain _ (Array.getElem_mem hsize)
      simp only [Lowering.append, Array.getElem_modify]
      by_cases hcur : s.current - 1 = k
      · left
        have hkind : (s.draft.blockAt s.current).kind = .basic := hnode.kind_eq
        have hget : s.draft.block? s.current = some s.blocks[k] := by
          unfold Ir.Function.block?
          rw [if_neg hw.current_ne_zero, hcur]
          exact Array.getElem?_eq_getElem hsize
        rw [Ir.Function.blockAt, hget, Option.getD_some] at hkind
        rw [if_pos hcur]
        exact hkind
      · rw [if_neg hcur]
        exact hold
    · simpa [Lowering.append] using hw.scope
  · rw [hblockAt] at hj
    rcases List.mem_append.1 hj with hj | hj
    · exact hw.unbranched j hj
    · rw [List.mem_singleton.1 hj]
      exact hbranch

theorem Written.continues_append (hw : Written σ us s) (i : Instr) :
    Continues us s us (s.append i) where
  vars_le := Nat.le_refl _
  size_le := by simp [Lowering.append]
  kept id _ hmem := by
    have hne : id ≠ s.current := by
      obtain ⟨before, hus⟩ := hw.last
      intro heq
      exact hmem (by simp [hus, heq, Tree.ids])
    rw [hw.draft_append, Ir.Function.block?_updateBlock, if_neg hne]
  fresh _ hid := .inl hid
  nesting := rfl
  loops := rfl
  funcs := rfl

/-! ## New blocks -/

/-- The state behind a new block. -/
def pushBlock (s : Lowering) (kind : BlockKind) : Lowering :=
  { s with
    blocks := s.blocks.push { kind := kind }
    nesting :=
      match s.nesting with
      | ids :: outer => ((s.blocks.size + 1) :: ids) :: outer
      | [] => [[s.blocks.size + 1]] }

/-- The state behind a new basic block that takes the next instructions. -/
def pushBasic (s : Lowering) : Lowering :=
  { s.pushBlock .basic with current := s.blocks.size + 1 }

theorem block?_pushBlock (s : Lowering) (kind : BlockKind) (id : Nat) :
    (s.pushBlock kind).draft.block? id =
      if id = s.blocks.size + 1 then some { kind := kind } else s.draft.block? id := by
  unfold pushBlock draft Ir.Function.block?
  dsimp only
  by_cases hid : id = 0
  · rw [if_pos hid, if_pos hid, if_neg (by omega)]
  · rw [if_neg hid, if_neg hid, Array.getElem?_push]
    by_cases heq : id = s.blocks.size + 1
    · rw [if_pos heq, if_pos (by omega)]
    · rw [if_neg heq, if_neg (by omega)]

theorem Plain.pushBlock (h : s.Plain) (kind : BlockKind) : (s.pushBlock kind).Plain := by
  intro b hb
  rcases Array.mem_push.1 hb with hb | rfl
  · exact h b hb
  · exact .inr rfl

/-- A new empty basic block is finished. -/
theorem finished_pushBasic (σ : Scope) (s : Lowering) :
    Forest.Finished s.pushBasic.draft σ [.basic (s.blocks.size + 1)] := by
  have hblock : s.pushBasic.draft.block? (s.blocks.size + 1) = some {} := by
    have hpush := block?_pushBlock s .basic (s.blocks.size + 1)
    rw [if_pos rfl] at hpush
    exact hpush
  have hblockAt : s.pushBasic.draft.blockAt (s.blocks.size + 1) = {} := by
    rw [Ir.Function.blockAt, hblock, Option.getD_some]
  refine Forest.finished_cons.2 ⟨⟨⟨?_, ?_, ?_, ?_⟩, ⟨?_, ?_⟩, ?_⟩, Forest.finished_nil⟩
  · rw [hblock, hblockAt]
  · rw [hblockAt]
  · rw [hblockAt]
  · rw [hblockAt]
  · rw [hblockAt]
    rfl
  · rw [hblockAt]
    rfl
  · rw [Tree.isShaped, hblockAt]
    rfl

/-- What has been built behind the row `us`, up to a basic block that is still to come: trees in
blocks of their own. -/
structure Built (us : Forest) (s : Lowering) (ts : Forest) (s' : Lowering) : Prop where
  vars_le : s.vars.size ≤ s'.vars.size
  size_le : s.blocks.size ≤ s'.blocks.size
  kept : ∀ id ≤ s.blocks.size, s'.draft.block? id = s.draft.block? id
  fresh : ∀ id ∈ Forest.ids ts, s.blocks.size < id
  nodup : (Forest.ids ts).Nodup
  nesting : s'.nesting = (Forest.roots (us ++ ts)).reverse :: s.nesting.tail
  loops : s'.loops = s.loops
  funcs : s'.unit.funcs = s.unit.funcs
  plain : s'.Plain

theorem Written.built_nil (hw : Written σ us s) : Built us s [] s where
  vars_le := Nat.le_refl _
  size_le := Nat.le_refl _
  kept _ _ := rfl
  fresh _ hid := absurd hid List.not_mem_nil
  nodup := List.nodup_nil
  nesting := by
    obtain ⟨outer, houter⟩ := List.head?_eq_some_iff.1 hw.nesting
    rw [houter, List.append_nil, List.tail_cons]
  loops := rfl
  funcs := rfl
  plain := hw.plain

/-- A basic block behind finished trees continues the row. -/
theorem Written.close (hw : Written σ us s) {ts : Forest} (h : Built us s ts s')
    (hlength : ts.length ≤ 1) (hts : Forest.Finished s'.draft σ ts) :
    let us' := us ++ (ts ++ [.basic (s'.blocks.size + 1)])
    Writing σ us' s'.pushBasic ∧ Continues us s us' s'.pushBasic := by
  intro us'
  have hkept (id : Nat) (hid : id ≤ s'.blocks.size) :
      s'.pushBasic.draft.block? id = s'.draft.block? id := by
    have hpush := block?_pushBlock s' .basic id
    rw [if_neg (by omega)] at hpush
    exact hpush
  have hle (id : Nat) (hid : id ∈ Forest.ids ts) : id ≤ s'.blocks.size :=
    (Ir.Function.mem_range_of_block? (Tree.block?_of_mem_ids.2 ts hts.stored id hid)).2
  have hids : Forest.ids us' = Forest.ids us ++ (Forest.ids ts ++ [s'.blocks.size + 1]) := by
    simp [us', Tree.ids]
  have hsize : s'.pushBasic.blocks.size = s'.blocks.size + 1 := by
    simp [pushBasic, pushBlock]
  obtain ⟨before, hus⟩ := hw.last
  constructor
  · refine ⟨⟨?_, ?_, ?_, ?_, ⟨us ++ ts, by simp [us', pushBasic]⟩, ?_, ?_, ?_⟩, ?_⟩
    · simp [us', pushBasic, pushBlock, h.nesting, Forest.roots, Tree.id]
    · refine Forest.finished_append.2 ⟨hw.finished.of_holds ⟨h.vars_le, fun id hid ↦ ?_⟩,
        Forest.finished_append.2 ⟨hts.of_holds ⟨Nat.le_refl _, fun id hid ↦ ?_⟩,
          finished_pushBasic σ s'⟩⟩
      · have hid' := hw.mem_ids_le hid
        rw [hkept id (Nat.le_trans hid' h.size_le), h.kept id hid']
      · exact hkept id (hle id hid)
    · rw [hids, List.nodup_append]
      refine ⟨hw.nodup, ?_, fun x hx y hy heq ↦ ?_⟩
      · rw [List.nodup_append]
        refine ⟨h.nodup, by simp, fun x hx y hy ↦ ?_⟩
        rw [List.mem_singleton.1 hy]
        exact Nat.ne_of_lt (Nat.lt_succ_of_le (hle x hx))
      · have hx' := hw.mem_ids_le hx
        rcases List.mem_append.1 hy with hy | hy
        · exact absurd heq (Nat.ne_of_lt (Nat.lt_of_le_of_lt hx' (h.fresh y hy)))
        · rw [List.mem_singleton.1 hy] at heq
          exact absurd heq (Nat.ne_of_lt (Nat.lt_succ_of_le (Nat.le_trans hx' h.size_le)))
    · have harranged := hw.arranged
      rw [hus] at harranged
      simp only [us', hus]
      refine Forest.isArranged_append harranged (by simp [Tree.isStructured]) ?_
      cases ts with
      | nil => rfl
      | cons t rest =>
        cases rest with
        | nil => simp [Tree.isStructured]
        | cons t' rest => simp at hlength
    · exact h.plain.pushBlock .basic
    · intro l hl
      exact hw.loops l (by rw [← h.loops]; exact hl)
    · intro p hp
      rw [hsize]
      exact Nat.le_succ_of_le (Nat.le_trans (hw.scope p hp) h.size_le)
    · have hblock : s'.pushBasic.draft.block? (s'.blocks.size + 1) = some {} := by
        have hpush := block?_pushBlock s' .basic (s'.blocks.size + 1)
        rw [if_pos rfl] at hpush
        exact hpush
      intro i hi
      have hcurrent : s'.pushBasic.current = s'.blocks.size + 1 := rfl
      rw [hcurrent, Ir.Function.blockAt, hblock, Option.getD_some] at hi
      cases hi
  · refine ⟨h.vars_le, ?_, ?_, ?_, ?_, h.loops, h.funcs⟩
    · rw [hsize]
      exact Nat.le_succ_of_le h.size_le
    · intro id hid _
      rw [hkept id (Nat.le_trans hid h.size_le), h.kept id hid]
    · intro id hid
      rw [hids, List.mem_append, List.mem_append] at hid
      obtain hid | hid | hid := hid
      · exact .inl hid
      · exact .inr (h.fresh id hid)
      · rw [List.mem_singleton.1 hid]
        exact .inr (Nat.lt_succ_of_le h.size_le)
    · simp [pushBasic, pushBlock, h.nesting]

end

end Lowering

end WasmBackend
