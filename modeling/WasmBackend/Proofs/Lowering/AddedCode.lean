import WasmBackend.Proofs.Lowering.OwnCode
import WasmBackend.Proofs.Lowering.Statements

/-!
# The code of a step

What a step of lowering has added lies between two states: instructions behind those of the block
that was current, and trees behind the row.  `runAdded` runs it.  The code of two steps is the code
of the first, then that of the second, although the second may go on in a block that the first has
opened; and since what expressions add is tame, their code is confined to variables of its own.
-/

namespace WasmBackend

open Ir (Block BlockId BlockKind Forest Instr Machine Run State Tree Var runInstrs)
open Stage (Ensures)

/-- Stored trees are determined by their roots. -/
theorem Ir.Forest.eq_of_roots {f : Ir.Function} {ts us : Forest} (hts : Forest.Stored f ts)
    (hus : Forest.Stored f us) (hroots : Forest.roots ts = Forest.roots us) : ts = us := by
  set depth := max (Forest.height ts) (Forest.height us)
  have hread := f.treesFrom_of_stored.2 ts depth (le_max_left _ _) hts
  have hread' := f.treesFrom_of_stored.2 us depth (le_max_right _ _) hus
  rw [hroots, hread'] at hread
  exact (Option.some.inj hread).symm

/-- Stored trees in which no block occurs twice are not too high to be read. -/
theorem Ir.Forest.height_le_of_nodup {f : Ir.Function} {ts : Forest} (hts : Forest.Stored f ts)
    (hnodup : (Forest.ids ts).Nodup) : Forest.height ts ≤ f.treeDepth + 1 := by
  have hlength := Ir.Function.length_le_of_nodup hnodup fun id hid ↦
    f.mem_range_of_block? (Tree.block?_of_mem_ids.2 ts hts id hid)
  have hheight := Tree.height_le_length.2 ts
  unfold Ir.Function.treeDepth
  omega

namespace Lowering

variable {V W : Type} {α : Type} {m : Machine V W} {budget : Nat} {σ : Scope} {frame : Frame}
  {n b : Nat} {us us' us'' : Forest} {s s' s'' : Lowering}

/-- The innermost list of blocks, in order. -/
def row (s : Lowering) : List BlockId :=
  (s.nesting.headD []).reverse

/-- The instructions that were put behind those of the block that was current. -/
def addedInstrs (s s' : Lowering) : List Instr :=
  (s'.draft.blockAt s.current).instrs.drop (s.draft.blockAt s.current).instrs.length

/-- The trees that were put behind the row. -/
def addedTrees (s s' : Lowering) : Option Forest :=
  s'.draft.treesFrom (s'.draft.treeDepth + 1) (s'.row.drop s.row.length)

/-- Run the code that was added between two states. -/
def runAdded (m : Machine V W) (budget : Nat) (s s' : Lowering) : Run V W :=
  Run.andThen (runInstrs m (addedInstrs s s'))
    (match addedTrees s s' with
    | some ts => Forest.run m s'.draft budget ts
    | none => fun st ↦ (st, .trap .malformed))

/-- Between the states these instructions and these trees were added. -/
structure Added (s s' : Lowering) (is : List Instr) (ts : Forest) : Prop where
  instrs : (s'.draft.blockAt s.current).instrs = (s.draft.blockAt s.current).instrs ++ is
  row : s'.row = s.row ++ Forest.roots ts
  stored : Forest.Stored s'.draft ts
  nodup : (Forest.ids ts).Nodup

theorem Added.run_eq {is : List Instr} {ts : Forest} (h : Added s s' is ts) :
    runAdded m budget s s'
      = Run.andThen (runInstrs m is) (Forest.run m s'.draft budget ts) := by
  have hinstrs : addedInstrs s s' = is := by
    unfold addedInstrs
    rw [h.instrs, List.drop_left]
  have htrees : addedTrees s s' = some ts := by
    unfold addedTrees
    rw [h.row, List.drop_left]
    exact Ir.Function.treesFrom_of_stored _ |>.2 ts _
      (Forest.height_le_of_nodup h.stored h.nodup) h.stored
  unfold runAdded
  rw [hinstrs, htrees]

/-! ## Going on -/

/-- Two steps that do the same in a state go on in the same way. -/
theorem bind_congr_apply {β : Type} {x y : M α} (h : x frame s = y frame s) (f : α → M β) :
    (x >>= f) frame s = (y >>= f) frame s := by
  show (x frame >>= fun a ↦ f a frame) s = (y frame >>= fun a ↦ f a frame) s
  rw [Stage.bind_apply, Stage.bind_apply, h]

theorem exists_of_bind {β : Type} {x : M α} {f : α → M β} {c : β}
    (h : (x >>= f) frame s = (.ok c, s')) :
    ∃ a t, x frame s = (.ok a, t) ∧ f a frame t = (.ok c, s') := by
  change (x frame >>= fun a ↦ f a frame) s = _ at h
  rw [Stage.bind_apply] at h
  rcases hx : x frame s with ⟨_ | a, t⟩
  · rw [hx] at h
    cases h
  · rw [hx] at h
    exact ⟨a, t, rfl, h⟩

theorem eq_of_first {vs : List Var} {v : Var} (h : first vs frame s = (.ok v, s')) :
    s = s' ∧ ∃ rest, vs = v :: rest := by
  cases vs with
  | nil => cases h
  | cons w rest =>
    cases h
    exact ⟨rfl, rest, rfl⟩

theorem eq_of_primOf {v : Var} {p : Prim} (h : primOf v frame s = (.ok p, s')) :
    s = s' ∧ s.vars[v]? = some p := by
  obtain ⟨_, _, hget, h⟩ := exists_of_bind h
  cases hget
  cases hv : s.vars[v]? with
  | none =>
    rw [hv] at h
    cases h
  | some q =>
    rw [hv] at h
    cases h
    exact ⟨rfl, rfl⟩

/-- A step goes on writing the row, and what it adds is tame. -/
structure Progress (σ : Scope) (frame : Frame) (n b : Nat) (us : Forest) (s : Lowering)
    (us' : Forest) (s' : Lowering) : Prop where
  before : Writing σ us s
  after : Writing σ us' s'
  continues : Continues us s us' s'
  enlarged : Enlarged frame n b s s'

/-- Steps that go on writing and add tame code make progress. -/
theorem exists_progress {x : M α} {post : α → Nat → Prop} {post' : α → Prop} {a : α}
    (hw : Writing σ us s) (hn : n ≤ s.vars.size) (hb : b ≤ s.blocks.size)
    (hwrites : Writes σ frame s.vars.size x post) (henlarges : Enlarges frame n b x post')
    (hx : x frame s = (.ok a, s')) :
    ∃ us', Progress σ frame n b us s us' s' ∧ post a s'.vars.size ∧ post' a := by
  obtain ⟨us', hw', hc, hpost⟩ := (hwrites us s hw (Nat.le_refl _)).of_eq hx
  obtain ⟨he, hpost'⟩ := (henlarges s hw.hasCurrent hn hb).of_eq hx
  exact ⟨us', ⟨hw, hw', hc, he⟩, hpost, hpost'⟩

theorem Written.row_eq (h : Written σ us s) : s.row = Forest.roots us := by
  obtain ⟨outer, houter⟩ := List.head?_eq_some_iff.1 h.nesting
  rw [row, houter, List.headD_cons, List.reverse_reverse]

theorem Written.finished_current (h : Written σ us s) :
    (Tree.basic s.current).Finished s.draft σ := by
  obtain ⟨before, hus⟩ := h.last
  have hfinished := h.finished
  rw [hus, Forest.finished_append, Forest.finished_cons] at hfinished
  exact hfinished.2.1

theorem Written.node_current (h : Written σ us s) : s.draft.Node s.current .basic [] [] :=
  h.finished_current.stored

theorem Written.exitCopies_current (h : Written σ us s) :
    (s.draft.blockAt s.current).exitCopies = [] := by
  have hshaped := h.finished_current.shaped
  simp only [Tree.isShaped, Ir.Block.isCopyFree, Bool.and_eq_true, List.isEmpty_iff] at hshaped
  exact hshaped.2.1.1

/-- What the code of a step consists of. -/
structure Progress.Code (us : Forest) (s : Lowering) (us' : Forest) (s' : Lowering)
    (is : List Instr) (ts : Forest) : Prop where
  added : Added s s' is ts
  append : us' = us ++ ts
  fresh : ∀ id ∈ Forest.ids ts, s.blocks.size < id
  last : ts = [] ∧ s'.current = s.current ∨ ∃ front, ts = front ++ [.basic s'.current]

/-- The trees that were there before are still there. -/
theorem Progress.stored (h : Progress σ frame n b us s us' s') : Forest.Stored s'.draft us := by
  refine Tree.stored_congr.2 us (fun id hid c hc ↦ ?_) h.before.finished.stored
  obtain ⟨is, -, hblock⟩ := h.enlarged.block?_of_le (h.before.mem_ids_le hid)
  refine ⟨Block.and c is, ?_, rfl, rfl, rfl⟩
  rw [hblock, hc]
  rfl

theorem Progress.exists_code (h : Progress σ frame n b us s us' s') :
    ∃ is ts, Progress.Code us s us' s' is ts ∧ ∀ i ∈ is, Tame frame n b i := by
  obtain ⟨is, his, hblock⟩ := h.enlarged.grown
  obtain ⟨ids, hids⟩ := h.enlarged.nesting
  have hinstrs : (s'.draft.blockAt s.current).instrs
      = (s.draft.blockAt s.current).instrs ++ is := by
    have hcurrent := h.before.node_current.block?_eq
    rw [hcurrent, Option.map_some] at hblock
    conv_lhs => rw [Ir.Function.blockAt, hblock, Option.getD_some]
    rfl
  have hrow : s'.row = s.row ++ ids.reverse := by
    rw [row, row, hids, List.reverse_append]
  -- the row splits where it ended before
  have hroots : Forest.roots us' = Forest.roots us ++ ids.reverse := by
    rw [← h.after.row_eq, ← h.before.row_eq, hrow]
  obtain ⟨front, ts, hsplit, hfront, hts⟩ := List.map_eq_append_iff.1 hroots
  have hstored := h.after.finished.stored
  rw [hsplit] at hstored
  have hstored' : Forest.Stored s'.draft front ∧ Forest.Stored s'.draft ts := by
    have hfinished := h.after.finished
    rw [hsplit, Forest.finished_append] at hfinished
    exact ⟨hfinished.1.stored, hfinished.2.stored⟩
  have heq : front = us := Forest.eq_of_roots hstored'.1 h.stored hfront
  subst heq
  have hnodup := h.after.nodup
  rw [hsplit, Forest.ids_append, List.nodup_append] at hnodup
  refine ⟨is, ts, ⟨⟨hinstrs, ?_, hstored'.2, hnodup.2.1⟩, hsplit, fun id hid ↦ ?_, ?_⟩, his⟩
  · rw [hrow, ← hts]
    rfl
  · have hmem : id ∈ Forest.ids us' := by
      rw [hsplit, Forest.ids_append]
      exact List.mem_append_right _ hid
    refine (h.continues.fresh id hmem).resolve_left fun hold ↦ ?_
    exact hnodup.2.2 id hold id hid rfl
  · obtain ⟨before, hlast⟩ := h.before.last
    obtain ⟨before', hlast'⟩ := h.after.last
    rw [hsplit] at hlast'
    obtain rfl | ⟨front', t, rfl⟩ := List.eq_nil_or_concat' ts
    · rw [List.append_nil, hlast] at hlast'
      refine .inl ⟨rfl, ?_⟩
      have hend := (List.append_inj' hlast' rfl).2
      injection hend with hend
      injection hend with hend
      exact hend.symm
    · rw [← List.append_assoc] at hlast'
      exact .inr ⟨front', by rw [(List.append_inj' hlast' rfl).2]⟩

/-! ## Two steps -/

/-- The block that takes instructions keeps those it has. -/
theorem Progress.blockAt_of_ne (h : Progress σ frame n b us s us' s') {id : Nat}
    (hid : id ≤ s.blocks.size) (hne : id ≠ s.current) :
    s'.draft.blockAt id = s.draft.blockAt id := by
  unfold Ir.Function.blockAt
  rw [h.enlarged.kept id hid hne]

theorem Progress.exitCopies_current (h : Progress σ frame n b us s us' s') :
    (s'.draft.blockAt s.current).exitCopies = (s.draft.blockAt s.current).exitCopies := by
  obtain ⟨is, -, hblock⟩ := h.enlarged.grown
  conv_lhs => rw [Ir.Function.blockAt, hblock, h.before.node_current.block?_eq]
  rfl

/-- The code of two steps is that of the first, then that of the second. -/
theorem Progress.run_trans {frame' : Frame} {n' b' : Nat} (h : Progress σ frame n b us s us' s')
    (h' : Progress σ frame' n' b' us' s' us'' s'') :
    runAdded m budget s s''
      = Run.andThen (runAdded m budget s s') (runAdded m budget s' s'') := by
  obtain ⟨is, ts, hcode, -⟩ := h.exists_code
  obtain ⟨is', ts', hcode', -⟩ := h'.exists_code
  have hnodup : (Forest.ids (ts ++ ts')).Nodup := by
    have hall := h'.after.nodup
    rw [hcode'.append, hcode.append, List.append_assoc, Forest.ids_append] at hall
    exact (List.nodup_append.1 hall).2.1
  rw [hcode.added.run_eq, hcode'.added.run_eq]
  obtain ⟨rfl, hcurrent⟩ | ⟨front, rfl⟩ := hcode.last
  · -- no block was opened yet
    have hadded : Added s s'' (is ++ is') ts' := by
      refine ⟨?_, ?_, hcode'.added.stored, hcode'.added.nodup⟩
      · rw [← hcurrent, hcode'.added.instrs, hcurrent, hcode.added.instrs, List.append_assoc]
      · rw [hcode'.added.row, hcode.added.row]
        simp [Forest.roots]
    rw [hadded.run_eq, Ir.runInstrs_append, Run.andThen_assoc, Run.andThen_assoc]
    rfl
  · -- the second step starts in a block that the first has opened
    have hopened : s.blocks.size < s'.current := hcode.fresh _ (by simp [Tree.ids])
    have hold : s.current ≤ s.blocks.size := h.before.hasCurrent.le
    have hstored : Forest.Stored s''.draft (front ++ [.basic s'.current] ++ ts') := by
      have hfinished := h'.after.finished
      rw [hcode'.append, hcode.append, List.append_assoc, Forest.finished_append] at hfinished
      exact hfinished.2.stored
    have hadded : Added s s'' is (front ++ [.basic s'.current] ++ ts') := by
      refine ⟨?_, ?_, hstored, hnodup⟩
      · rw [h'.blockAt_of_ne (Nat.le_trans hold h.enlarged.size_le)
          (Nat.ne_of_lt (Nat.lt_of_le_of_lt hold hopened))]
        exact hcode.added.instrs
      · rw [hcode'.added.row, hcode.added.row, Forest.roots_append (front ++ _), List.append_assoc]
    have hfront : Forest.run m s''.draft budget front = Forest.run m s'.draft budget front := by
      refine (Tree.run_congr budget).2 front fun id hid ↦ h'.blockAt_of_ne ?_ ?_
      · have hmem : id ∈ Forest.ids us' := by
          rw [hcode.append]
          simp [hid]
        exact h.after.mem_ids_le hmem
      · have hdistinct := hcode.added.nodup
        rw [Forest.ids_append, List.nodup_append] at hdistinct
        exact hdistinct.2.2 id hid s'.current (by simp [Tree.ids])
    have hlast : Tree.run m s''.draft budget (.basic s'.current)
        = Run.andThen (Tree.run m s'.draft budget (.basic s'.current)) (runInstrs m is') := by
      have hexits := h'.before.exitCopies_current
      rw [Tree.run_basic, Tree.run_basic, Ir.Block.run_eq_runInstrs hexits,
        Ir.Block.run_eq_runInstrs (h'.exitCopies_current.trans hexits), hcode'.added.instrs,
        Ir.runInstrs_append]
    rw [hadded.run_eq, Forest.run_append, Forest.run_append, Forest.run_append,
      Forest.run_singleton, Forest.run_singleton, hfront, hlast]
    simp only [Run.andThen_assoc]

theorem Progress.trans (h : Progress σ frame n b us s us' s')
    (h' : Progress σ frame n b us' s' us'' s'') : Progress σ frame n b us s us'' s'' where
  before := h.before
  after := h'.after
  continues := h.continues.trans h'.continues
  enlarged := h.enlarged.trans h.before.hasCurrent h'.enlarged

theorem Progress.mono {n' b' : Nat} (h : Progress σ frame n b us s us' s') (hn : n' ≤ n)
    (hb : b' ≤ b) : Progress σ frame n' b' us s us' s' :=
  { h with enlarged := h.enlarged.mono hn hb }

/-! ## Breakable blocks -/

/-- A step that touches no block adds nothing. -/
theorem Aside.runAdded_eq (h : s.Aside s') :
    runAdded m budget s s'' = runAdded m budget s' s'' := by
  have hinstrs : addedInstrs s s'' = addedInstrs s' s'' := by
    unfold addedInstrs Ir.Function.blockAt
    rw [h.current, h.block?_eq]
  have htrees : addedTrees s s'' = addedTrees s' s'' := by
    unfold addedTrees row
    rw [h.nesting]
  unfold runAdded
  rw [hinstrs, htrees]

/-- The whole of a row that began with an empty block is what was added to it. -/
theorem Progress.run_row (h : Progress σ frame n b [.basic s.current] s us' s')
    (hempty : (s.draft.blockAt s.current).instrs = []) :
    Forest.run m s'.draft budget us' = runAdded m budget s s' := by
  obtain ⟨is, ts, hcode, -⟩ := h.exists_code
  have hexits := h.exitCopies_current.trans h.before.exitCopies_current
  rw [hcode.added.run_eq, hcode.append, Forest.run_append, Forest.run_singleton, Tree.run_basic,
    Ir.Block.run_eq_runInstrs hexits, hcode.added.instrs, hempty, List.nil_append]

theorem blockAt_enter (s : Lowering) (kind : BlockKind) :
    (s.enter kind).draft.blockAt (s.enter kind).current = {} := by
  rw [Ir.Function.blockAt, block?_enter, current_enter, if_pos rfl, Option.getD_some]

/-- Inside a breakable block a row is written. -/
theorem Writing.enter (hw : Writing σ us s) :
    Writing ((s.blocks.size + 1, .breakable) :: σ) [.basic (s.enter .breakable).current]
      (s.enter .breakable) :=
  (Ready.inside hw.toWritten (Nat.le_refl _) .breakable s.loops fun _ hl ↦ .inl hl).writing_nested

theorem run_empty (f : Ir.Function) {id : BlockId} (h : f.block? id = some {}) :
    Tree.run m f budget (.basic id) = Run.skip := by
  have hblock : f.blockAt id = {} := by rw [Ir.Function.blockAt, h, Option.getD_some]
  rw [Tree.run_basic, hblock]
  exact Ir.Block.run_eq_runInstrs rfl

section

variable {σ' : Scope} {s₁ : Lowering} {us₁ : Forest}

/-- The blocks that were written inside a breakable block are new, and stay as they are. -/
theorem Progress.kept_leaveBreakable
    (h : Progress σ' frame n b [.basic (s.enter .breakable).current] (s.enter .breakable) us₁ s₁)
    {id : Nat} (hid : id ∈ Forest.ids us₁) : (s.blocks.size + 2 ≤ id ∧ id ≤ s₁.blocks.size) ∧
      (leaveBreakable s s₁).draft.block? id = s₁.draft.block? id := by
  have hrange : s.blocks.size + 2 ≤ id ∧ id ≤ s₁.blocks.size := by
    refine ⟨?_, h.after.mem_ids_le hid⟩
    obtain hold | hfresh := h.continues.fresh id hid
    · rw [Forest.ids_singleton, Tree.ids, List.mem_singleton] at hold
      rw [hold, current_enter]
    · rw [size_enter] at hfresh
      exact Nat.le_of_lt hfresh
  refine ⟨hrange, ?_⟩
  rw [block?_leaveBreakable, if_neg (by omega), if_neg (by omega)]

theorem Progress.added_breakable (hw : Writing σ us s)
    (h : Progress ((s.blocks.size + 1, .breakable) :: σ) frame n b
      [.basic (s.enter .breakable).current] (s.enter .breakable) us₁ s₁) :
    Added s (leaveBreakable s s₁) []
      [.breakable (s.blocks.size + 1) us₁, .basic (s₁.blocks.size + 1)] := by
  have hsize := size_enter s .breakable
  have hcurrent := current_enter s .breakable
  have hle : s.blocks.size + 2 ≤ s₁.blocks.size := hsize ▸ h.enlarged.size_le
  refine ⟨?_, ?_, ⟨⟨?_, ?_⟩, ?_, trivial⟩, ?_⟩
  · -- the block that was current is as it was
    have hblock := h.enlarged.block?_leaveBreakable s.current hw.hasCurrent.le
    rw [Ir.Function.blockAt, hblock, List.append_nil]
    rfl
  · have houter := h.enlarged.outer
    unfold row leaveBreakable pushBasic pushBlock
    simp only [houter]
    unfold enter pushBasic pushBlock
    cases s.nesting <;> simp [Forest.roots, Tree.id]
  · have hblock : (leaveBreakable s s₁).draft.block? (s.blocks.size + 1)
        = some { kind := .breakable, body := Forest.roots us₁ } := by
      rw [block?_leaveBreakable, if_neg (by omega), if_pos rfl,
        h.enlarged.kept _ (by rw [hsize]; omega) (by rw [hcurrent]; omega), block?_enter,
        if_neg (by omega), if_pos rfl, ← h.after.row_eq]
      rfl
    exact (node_of_block? hblock).1
  · refine Tree.stored_congr.2 us₁ (fun id hid c hc ↦ ?_) h.after.finished.stored
    exact ⟨c, (h.kept_leaveBreakable hid).2.trans hc, rfl, rfl, rfl⟩
  · have hblock : (leaveBreakable s s₁).draft.block? (s₁.blocks.size + 1) = some {} := by
      rw [block?_leaveBreakable, if_pos rfl]
    exact (node_of_block? hblock).1
  · have hnodup := h.after.nodup
    simp only [Forest.ids, Tree.ids, List.append_nil]
    refine List.nodup_append.2 ⟨List.nodup_cons.2 ⟨fun hmem ↦ ?_, hnodup⟩,
      List.nodup_singleton _, ?_⟩
    · have := (h.kept_leaveBreakable hmem).1
      omega
    · intro (id : Nat) hid id' hid'
      rw [List.mem_singleton.1 hid']
      refine Nat.ne_of_lt ?_
      obtain rfl | hmem := List.mem_cons.1 hid
      · exact Nat.lt_of_succ_lt (Nat.lt_succ_of_le hle)
      · exact Nat.lt_succ_of_le (h.kept_leaveBreakable hmem).1.2

/-- The code of a breakable block is what was added inside it. -/
theorem Progress.run_breakable (hw : Writing σ us s)
    (h : Progress ((s.blocks.size + 1, .breakable) :: σ) frame n b
      [.basic (s.enter .breakable).current] (s.enter .breakable) us₁ s₁) :
    runAdded m budget s (leaveBreakable s s₁)
      = Ir.runBreakable (s.blocks.size + 1) (runAdded m budget (s.enter .breakable) s₁) := by
  have hadded := h.added_breakable hw
  have hbody : Forest.run m (leaveBreakable s s₁).draft budget us₁
      = runAdded m budget (s.enter .breakable) s₁ := by
    rw [← h.run_row (by rw [blockAt_enter])]
    refine (Tree.run_congr budget).2 us₁ fun id hid ↦ ?_
    rw [Ir.Function.blockAt, (h.kept_leaveBreakable hid).2]
    rfl
  have hlast : (leaveBreakable s s₁).draft.block? (s₁.blocks.size + 1) = some {} := by
    rw [block?_leaveBreakable, if_pos rfl]
  rw [hadded.run_eq, Forest.run_cons, Tree.run_breakable, Forest.run_singleton, run_empty _ hlast,
    hbody]
  exact Run.andThen_skip _

end

theorem row_pushBasic (s : Lowering) : s.pushBasic.row = s.row ++ [s.blocks.size + 1] := by
  unfold row pushBasic pushBlock
  cases s.nesting <;> simp

/-- A branch ends the current block, and the next one is empty. -/
theorem run_branch (hw : Writing σ us s) (i : Instr) :
    runAdded m budget s (s.append i).pushBasic = i.run m := by
  have hadded : Added s (s.append i).pushBasic [i] [.basic ((s.append i).blocks.size + 1)] := by
    refine ⟨?_, row_pushBasic (s.append i), (finished_pushBasic σ (s.append i)).stored,
      List.nodup_singleton _⟩
    have hne : s.current ≠ (s.append i).blocks.size + 1 :=
      Nat.ne_of_lt (Nat.lt_succ_of_le (hw.hasCurrent.append i).le)
    rw [Ir.Function.blockAt, block?_pushBasic, if_neg hne, block?_append hw.hasCurrent, if_pos rfl,
      hw.node_current.block?_eq]
    rfl
  have hlast : (s.append i).pushBasic.draft.block? ((s.append i).blocks.size + 1) = some {} := by
    rw [block?_pushBasic, if_pos rfl]
  rw [hadded.run_eq, Forest.run_singleton, run_empty _ hlast]
  exact (Run.andThen_skip _).trans (Run.andThen_skip _)

/-! ## What the code can see and change -/

/-- Tame code that was added in one go is confined: it reads the variables of the frame and its own,
changes only its own, and falls through or stops. -/
theorem Progress.confined (h : Progress σ frame n b us s us' s') (hb : s.blocks.size ≤ b) :
    Run.Confined (frame.Sees n) (n ≤ ·) (fun _ ↦ False) (runAdded m budget s s') := by
  obtain ⟨is, ts, hcode, his⟩ := h.exists_code
  have hfinished := h.after.finished
  rw [hcode.append, Forest.finished_append] at hfinished
  -- a branch would leave a construct around the row, and those are older
  have hleaves (t : BlockId) (ht : b < t ∧ ∃ kind, (t, kind) ∈ σ) : False := by
    obtain ⟨hnew, kind, hmem⟩ := ht
    exact Nat.lt_irrefl _ (Nat.lt_of_lt_of_le hnew (Nat.le_trans (h.before.scope _ hmem) hb))
  have htrees : Run.Confined (frame.Sees n) (n ≤ ·) (fun _ ↦ False)
      (Forest.run m s'.draft budget ts) := by
    refine Run.Confined.mono ((Tree.confined_run budget).2 ts σ hfinished.2.stored
      hfinished.2.checked fun id hid ↦ ?_) (fun _ hv ↦ hv) hleaves
    have hblock := Tree.block?_of_mem_ids.2 ts hfinished.2.stored id hid
    exact (h.enlarged.fresh id _ (hcode.fresh id hid) hblock).confined
  have hinstrs : Run.Confined (V := V) (W := W) (frame.Sees n) (n ≤ ·) (fun _ ↦ False)
      (runInstrs m is) := by
    obtain ⟨front, hlast⟩ := h.before.last
    have hcurrent := hfinished.1
    rw [hlast, Forest.finished_append, Forest.finished_cons] at hcurrent
    have hviolations := List.flatMap_eq_nil_iff.1 hcurrent.2.1.checked.1
    refine Run.Confined.mono (Ir.runInstrs_confined fun i hi ↦ (his i hi).toConfined.aimed ?_)
      (fun _ hv ↦ hv) hleaves
    refine (Ir.Function.instrViolations_eq_nil.1 (hviolations i ?_)).2
    rw [hcode.added.instrs]
    exact List.mem_append_right _ hi
  rw [hcode.added.run_eq]
  exact hinstrs.andThen htrees

end Lowering

end WasmBackend
