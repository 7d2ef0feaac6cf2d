import WasmBackend.Proofs.Tree

/-!
# The shape of lowered functions

Lowering makes only functions of a certain shape: every list of blocks starts and ends with a basic
block, structured blocks never stand side by side, a branch ends its block, and there are no merges
and no assignments on edges yet.  `Function.isShaped` checks this together with validity.
-/

namespace WasmBackend.Ir

/-- Whether a list of blocks starts and ends with a basic block and has no two structured blocks
side by side. -/
def Forest.isArranged (ts : Forest) : Bool :=
  (ts.head?.any fun t ↦ !t.isStructured) && (ts.getLast?.any fun t ↦ !t.isStructured)
    && (ts.zip ts.tail).all fun p ↦ !(p.1.isStructured && p.2.isStructured)

/-- Whether the instructions have no branch before the last one, and neither merges nor
assignments. -/
def isStraight : List Instr → Bool
  | [] => true
  | i :: rest =>
    i.op ≠ .phi && i.copies.isEmpty && (!i.isBranch || rest.isEmpty) && isStraight rest

/-- Whether there are no assignments on the edges that leave a block. -/
def Block.isCopyFree (b : Block) : Bool :=
  b.exitCopies.isEmpty && b.aroundCopies.isEmpty && b.entryCopies.isEmpty

mutual

/-- Whether a tree has the shape that lowering gives it. -/
def Tree.isShaped (f : Function) : Tree → Bool
  | .basic id => isStraight (f.blockAt id).instrs && (f.blockAt id).isCopyFree
  | .cond id body | .loop id body | .breakable id body =>
    (f.blockAt id).isCopyFree && Forest.isArranged body && Forest.isShaped f body
  | .branch id body other =>
    (f.blockAt id).isCopyFree && (Forest.isArranged body && Forest.isShaped f body)
      && (Forest.isArranged other && Forest.isShaped f other)

/-- Whether every tree of a forest has the shape that lowering gives it. -/
def Forest.isShaped (f : Function) : Forest → Bool
  | [] => true
  | t :: ts => t.isShaped f && Forest.isShaped f ts

end

section Equations

variable (f : Function) (id : BlockId) (t : Tree) (body other ts : Forest)

theorem Tree.isShaped_basic : (Tree.basic id).isShaped f =
    (isStraight (f.blockAt id).instrs && (f.blockAt id).isCopyFree) :=
  rfl

theorem Tree.isShaped_cond : (Tree.cond id body).isShaped f =
    ((f.blockAt id).isCopyFree && Forest.isArranged body && Forest.isShaped f body) :=
  rfl

theorem Tree.isShaped_branch : (Tree.branch id body other).isShaped f =
    ((f.blockAt id).isCopyFree && (Forest.isArranged body && Forest.isShaped f body)
      && (Forest.isArranged other && Forest.isShaped f other)) :=
  rfl

theorem Tree.isShaped_loop : (Tree.loop id body).isShaped f =
    ((f.blockAt id).isCopyFree && Forest.isArranged body && Forest.isShaped f body) :=
  rfl

theorem Tree.isShaped_breakable : (Tree.breakable id body).isShaped f =
    ((f.blockAt id).isCopyFree && Forest.isArranged body && Forest.isShaped f body) :=
  rfl

theorem Forest.isShaped_cons :
    Forest.isShaped f (t :: ts) = (t.isShaped f && Forest.isShaped f ts) :=
  rfl

end Equations

/-- Whether a function has the shape that lowering gives it: it is valid, its first variables are
the parameters, and its trees are shaped. -/
def Function.isShaped (f : Function) : Bool :=
  f.isValid && f.params.length ≤ f.vars.size
    && f.trees?.any fun ts ↦ Forest.isArranged ts && Forest.isShaped f ts

/-- Whether only basic blocks hold instructions. -/
def Function.isPlain (f : Function) : Bool :=
  f.blocks.toList.all fun b ↦ b.kind = .basic || b.instrs.isEmpty

/-- What a shaped function is made of. -/
structure Function.Shaped (f : Function) (ts : Forest) : Prop extends f.WellFormed ts where
  trees_eq : f.trees? = some ts
  params_le : f.params.length ≤ f.vars.size
  arranged : Forest.isArranged ts
  shaped : Forest.isShaped f ts

theorem Function.shaped_of_isShaped {f : Function} (h : f.isShaped) : ∃ ts, f.Shaped ts := by
  simp only [isShaped, Bool.and_eq_true, decide_eq_true_eq, Option.any_eq_true] at h
  obtain ⟨⟨hvalid, hparams⟩, ts, hts, harranged, hshaped⟩ := h
  exact ⟨ts, wellFormed_of_isValid hts hvalid, hts, hparams, harranged, hshaped⟩

/-- A list of blocks that starts with a basic block. -/
theorem Forest.exists_basic_of_isArranged {ts : Forest} (h : Forest.isArranged ts) :
    ∃ id rest, ts = .basic id :: rest := by
  cases ts with
  | nil => simp [isArranged] at h
  | cons t rest =>
    cases t with
    | basic id => exact ⟨id, rest, rfl⟩
    | _ => simp [isArranged, Tree.isStructured] at h

theorem Function.instrs_of_isPlain {f : Function} (h : f.isPlain) {id : BlockId}
    (hkind : (f.blockAt id).kind ≠ .basic) : (f.blockAt id).instrs = [] := by
  unfold blockAt at hkind ⊢
  cases hb : f.block? id with
  | none => rfl
  | some b =>
    rw [hb] at hkind
    have hplain := List.all_eq_true.1 h b (Array.mem_toList_iff.2 (mem_blocks_of_block? hb))
    simpa [show b.kind ≠ .basic from hkind] using hplain

/-! ## Variables that exist -/

/-- The variables of an instruction are among the first `n`. -/
structure Instr.Within (n : Nat) (i : Instr) : Prop where
  dst : ∀ v ∈ i.dst, v < n
  args : ∀ v ∈ i.args, v < n
  copies : ∀ c ∈ i.copies, c.dst < n ∧ c.src < n

/-- The variables of a block are among the first `n`. -/
structure Block.Within (n : Nat) (b : Block) : Prop where
  cond : b.kind = .cond ∨ b.kind = .branch → b.cond < n
  instrs : ∀ i ∈ b.instrs, i.Within n
  exits : ∀ c ∈ b.exitCopies, c.dst < n ∧ c.src < n
  arounds : ∀ c ∈ b.aroundCopies, c.dst < n ∧ c.src < n
  entries : ∀ c ∈ b.entryCopies, c.dst < n ∧ c.src < n

end WasmBackend.Ir
