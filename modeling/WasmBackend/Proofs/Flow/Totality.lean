import WasmBackend.Proofs.Flow.Reachability
import WasmBackend.Proofs.Trimmed

/-!
# Wiring a valid function returns

Wiring stops with a failure only where a block is missing or an edge leads to one.  The blocks of
well-formed trees are there, and so are all targets that wiring gets to know, so it returns; and
the lists of blocks that control does not look at make no difference to it.
-/

namespace WasmBackend.Flow.Wiring

open Ir
open Stage (Succeeds)

/-- The targets that wiring knows are blocks of the function, or none. -/
structure Bounded (f : Function) (w : Wiring) : Prop where
  exits : ∀ x, (w.exits.lookup x).getD 0 ≤ f.blocks.size
  heads : ∀ x, (w.heads.lookup x).getD 0 ≤ f.blocks.size

section

variable {f : Function} {w : Wiring}

theorem Bounded.destination_le (h : w.Bounded f) (i : Instr) :
    w.destination i ≤ f.blocks.size := by
  unfold destination
  split
  · exact h.heads i.target
  · exact h.exits i.target

theorem getD_lookup_cons_le {l : List (BlockId × BlockId)} {id y n : BlockId} (hy : y ≤ n)
    (hl : ∀ x, (l.lookup x).getD 0 ≤ n) (x : BlockId) :
    (((id, y) :: l).lookup x).getD 0 ≤ n := by
  rw [List.lookup_cons]
  split
  · exact hy
  · exact hl x

theorem connect_succeeds {e : Edge} (he : e.dst ≤ f.blocks.size) (h : w.Bounded f) :
    Succeeds (connect f e) w fun _ w' ↦ w'.Bounded f := by
  unfold connect
  split
  · exact h
  · rw [if_neg (Nat.not_lt.2 he)]
    exact ⟨h.exits, h.heads⟩

theorem wireInstrs_succeeds {id next : BlockId} (hnext : next ≤ f.blocks.size) (n : Nat)
    (is : List Instr) (h : w.Bounded f) :
    Succeeds (wireInstrs f id next n is) w fun _ w' ↦ w'.Bounded f := by
  induction is generalizing n w with
  | nil => exact connect_succeeds hnext h
  | cons i rest ih =>
    have hrest {w' : Wiring} (h' : w'.Bounded f) :
        Succeeds (if i.terminates then pure () else wireInstrs f id next (n + 1) rest) w'
          fun _ w'' ↦ w''.Bounded f := by
      split
      · exact h'
      · exact ih (n + 1) h'
    unfold wireInstrs
    by_cases hi : i.isBranch
    · simp only [hi, if_true, Succeeds, Stage.meets_bind, Stage.meets_get]
      exact (connect_succeeds (h.destination_le i) h).imp fun _ _ h' ↦ hrest h'
    · simp only [hi]
      exact hrest h

theorem first_le {ts : Forest} {fall : BlockId} (hts : Forest.Stored f ts)
    (hfall : fall ≤ f.blocks.size) : Forest.first ts fall ≤ f.blocks.size := by
  cases ts with
  | nil => exact hfall
  | cons t ts => exact (f.mem_range_of_block? hts.1.block?_id).2

/-- Wiring trees that are stored in the arena returns. -/
theorem wireBlocks_succeeds (f : Function) :
    (∀ t : Tree, ∀ depth next w, t.height ≤ depth → t.Stored f → next ≤ f.blocks.size →
        w.Bounded f →
        Succeeds (wireBlock f (wireBlocks f depth) t.id (f.blockAt t.id) next) w
          fun _ w' ↦ w'.Bounded f) ∧
      ∀ ts : Forest, ∀ depth fall w, Forest.height ts ≤ depth → Forest.Stored f ts →
        fall ≤ f.blocks.size → w.Bounded f →
        Succeeds (wireBlocks f depth (Forest.roots ts) fall) w fun _ w' ↦ w'.Bounded f := by
  refine Tree.induction ?basic ?cond ?branch ?loop ?breakable ?nil ?cons
  case basic =>
    intro id depth next w _ h hnext hw
    simp only [wireBlock, Tree.id, h.kind_eq]
    exact wireInstrs_succeeds hnext 0 _ hw
  case cond =>
    intro id body ih depth next w hd h hnext hw
    have hrest {w' : Wiring} (hw' : w'.Bounded f) :
        Succeeds
          (do
            connect f { src := id, dst := next, site := .around }
            wireBlocks f depth (Forest.roots body) next) w' fun _ w'' ↦ w''.Bounded f := by
      rw [Succeeds, Stage.meets_bind]
      exact (connect_succeeds hnext hw').imp fun _ w'' hw'' ↦ ih depth next w'' hd h.2 hnext hw''
    simp only [wireBlock, Tree.id, h.1.kind_eq, h.1.body_eq]
    cases body with
    | nil => exact hrest hw
    | cons t ts =>
      simp only [Forest.roots, List.map_cons, List.head?_cons, Succeeds, Stage.meets_bind]
      exact (connect_succeeds (f.mem_range_of_block? h.2.1.block?_id).2 hw).imp
        fun _ w' hw' ↦ Stage.meets_bind.1 (hrest hw')
  case branch =>
    intro id body other ih ih' depth next w hd h hnext hw
    simp only [wireBlock, Tree.id, h.1.kind_eq, h.1.body_eq, h.1.otherwise_eq,
      ← Forest.first_eq, Succeeds, Stage.meets_bind]
    refine (connect_succeeds (first_le h.2.1 hnext) hw).imp fun _ w₁ hw₁ ↦ ?_
    refine (connect_succeeds (first_le h.2.2 hnext) hw₁).imp fun _ w₂ hw₂ ↦ ?_
    refine (ih depth next w₂ (Nat.max_le.1 hd).1 h.2.1 hnext hw₂).imp fun _ w₃ hw₃ ↦ ?_
    exact ih' depth next w₃ (Nat.max_le.1 hd).2 h.2.2 hnext hw₃
  case loop =>
    intro id body ih depth next w hd h hnext hw
    have hhead := first_le h.2 (f.mem_range_of_block? h.1.block?_eq).2
    simp only [wireBlock, Tree.id, h.1.kind_eq, h.1.body_eq, ← Forest.first_eq, Succeeds,
      Stage.meets_bind, Stage.meets_modify]
    have hw' : Bounded f
        { w with
          exits := (id, next) :: w.exits
          heads := (id, Forest.first body id) :: w.heads } :=
      ⟨getD_lookup_cons_le hnext hw.exits, getD_lookup_cons_le hhead hw.heads⟩
    exact (connect_succeeds hhead hw').imp fun _ w'' hw'' ↦ ih depth _ w'' hd h.2 hhead hw''
  case breakable =>
    intro id body ih depth next w hd h hnext hw
    simp only [wireBlock, Tree.id, h.1.kind_eq, h.1.body_eq, ← Forest.first_eq, Succeeds,
      Stage.meets_bind, Stage.meets_modify]
    have hw' : Bounded f { w with exits := (id, next) :: w.exits } :=
      ⟨getD_lookup_cons_le hnext hw.exits, hw.heads⟩
    exact (connect_succeeds (first_le h.2 hnext) hw').imp
      fun _ w'' hw'' ↦ ih depth next w'' hd h.2 hnext hw''
  case nil =>
    intro depth fall w hd _ _ hw
    obtain ⟨depth, rfl⟩ := Nat.exists_eq_add_one_of_ne_zero (Nat.pos_iff_ne_zero.1 hd)
    exact hw
  case cons =>
    intro t ts ih ihs depth fall w hd h hfall hw
    simp only [Forest.height] at hd
    obtain ⟨depth, rfl⟩ := Nat.exists_eq_add_one_of_ne_zero (n := depth) (by omega)
    have hfirst := ih depth (Forest.first ts fall) w (by omega) h.1 (first_le h.2 hfall) hw
    rw [wireBlocks, zip_roots_cons]
    simp only [List.forM_eq_forM, List.forM_cons, Succeeds, Stage.meets_bind,
      Stage.meets_ofExcept, h.1.block_id]
    exact hfirst.imp fun _ w' hw' ↦ ihs (depth + 1) fall w' (by omega) h.2 hfall hw'

end

/-! ## The lists that wiring does not look at -/

section

variable (f : Function)

theorem connect_trimmed : connect f.trimmed = connect f := by
  funext e
  unfold connect
  rw [Function.size_blocks_trimmed]

theorem wireInstrs_trimmed (id next : BlockId) (n : Nat) (is : List Instr) :
    wireInstrs f.trimmed id next n is = wireInstrs f id next n is := by
  induction is generalizing n with
  | nil => rw [wireInstrs, wireInstrs, connect_trimmed]
  | cons i rest ih => rw [wireInstrs, wireInstrs, connect_trimmed, ih]

theorem wireBlock_trimmed (wire : List BlockId → BlockId → M Unit) (id : BlockId) (b : Block)
    (next : BlockId) :
    wireBlock f.trimmed wire id b.trimmed next = wireBlock f wire id b next := by
  unfold wireBlock
  rw [Block.kind_trimmed, Block.body_trimmed, Block.instrs_trimmed, connect_trimmed,
    wireInstrs_trimmed]
  cases hkind : b.kind <;> simp [hkind]

theorem wireBlocks_trimmed (depth : Nat) : wireBlocks f.trimmed depth = wireBlocks f depth := by
  induction depth with
  | zero => rfl
  | succ depth ih =>
    funext ids fall
    rw [wireBlocks, wireBlocks]
    congr 1
    funext p
    obtain ⟨id, next⟩ := p
    have hblock : f.trimmed.block id = (f.block id).map Block.trimmed := by
      unfold Function.block
      rw [Function.block?_trimmed]
      cases f.block? id <;> rfl
    simp only [hblock, ih]
    cases f.block id with
    | error e => rfl
    | ok b => exact wireBlock_trimmed f _ id b next

end

end WasmBackend.Flow.Wiring

namespace WasmBackend.Flow.Graph

open Ir (BlockId Forest Function)

theorem ofFunction_trimmed (f : Function) : ofFunction f.trimmed = ofFunction f := by
  unfold ofFunction
  rw [Wiring.wireBlocks_trimmed, Function.body_trimmed, Function.treeDepth, Function.treeDepth,
    Function.size_blocks_trimmed]

/-- Wiring well-formed trees gives a graph. -/
theorem exists_ofFunction {f : Function} {ts : Forest} (hf : f.WellFormed ts) :
    ∃ g, ofFunction f = .ok g := by
  have hwire := (Wiring.wireBlocks_succeeds f).2 ts (f.treeDepth + 1) 0 {}
    (Nat.le_succ_of_le hf.height_le) hf.stored (Nat.zero_le _) ⟨by simp, by simp⟩
  rw [← hf.body_eq] at hwire
  obtain ⟨_, w, hrun, -⟩ := Stage.succeeds_iff.1 hwire
  have hrun' : (Wiring.wireBlocks f (f.treeDepth + 1) f.body 0).runFrom {} = (.ok _, w) := hrun
  unfold ofFunction
  rw [hrun']
  cases f.body.head? <;> exact ⟨_, rfl⟩

end WasmBackend.Flow.Graph
