import WasmBackend.DeadCode
import WasmBackend.Proofs.Shape
import WasmBackend.Proofs.Simulation
import WasmBackend.Proofs.Stage

/-!
# Dropping blocks

Blocks are dropped from the lists they stand in, with everything inside them; what the remaining
blocks hold stays as it is.  `Forest.without` says which trees remain.
-/

namespace WasmBackend.Ir

mutual

/-- A tree without the blocks inside it that are dropped. -/
def Tree.without (drop : BlockId → Bool) : Tree → Tree
  | .basic id => .basic id
  | .cond id body => .cond id (Forest.without drop body)
  | .branch id body other => .branch id (Forest.without drop body) (Forest.without drop other)
  | .loop id body => .loop id (Forest.without drop body)
  | .breakable id body => .breakable id (Forest.without drop body)

/-- A forest without the blocks that are dropped. -/
def Forest.without (drop : BlockId → Bool) : Forest → Forest
  | [] => []
  | t :: ts =>
    if drop t.id then Forest.without drop ts else t.without drop :: Forest.without drop ts

end

section

variable (drop : BlockId → Bool)

attribute [local simp] Tree.without

theorem Forest.without_cons (t : Tree) (ts : Forest) :
    Forest.without drop (t :: ts) =
      if drop t.id then Forest.without drop ts else t.without drop :: Forest.without drop ts :=
  rfl

@[simp]
theorem Tree.id_without (t : Tree) : (t.without drop).id = t.id := by
  cases t <;> rfl

/-- The blocks that remain stand in the same order. -/
theorem Tree.ids_without :
    (∀ t : Tree, (t.without drop).ids.Sublist t.ids) ∧
      ∀ ts : Forest, (Forest.ids (Forest.without drop ts)).Sublist (Forest.ids ts) := by
  refine Tree.induction ?basic ?cond ?branch ?loop ?breakable ?nil ?cons
  case basic =>
    intro id
    exact List.Sublist.refl _
  case cond | loop | breakable =>
    intro id body ih
    exact ih.cons_cons id
  case branch =>
    intro id body other ih ih'
    exact (ih.append ih').cons_cons id
  case nil => exact List.Sublist.refl _
  case cons =>
    intro t ts ih ihs
    rw [Forest.without_cons]
    split
    · exact ihs.trans (List.sublist_append_right _ _)
    · exact ih.append ihs

/-- Dropping twice is dropping what either drops. -/
theorem Tree.without_without (drop' : BlockId → Bool) :
    (∀ t : Tree, (t.without drop).without drop' = t.without fun id ↦ drop id || drop' id) ∧
      ∀ ts : Forest, Forest.without drop' (Forest.without drop ts)
        = Forest.without (fun id ↦ drop id || drop' id) ts := by
  refine Tree.induction ?basic ?cond ?branch ?loop ?breakable ?nil ?cons
  case basic =>
    intro id
    rfl
  case cond | loop | breakable =>
    intro id body ih
    simp [ih]
  case branch =>
    intro id body other ih ih'
    simp [ih, ih']
  case nil => rfl
  case cons =>
    intro t ts ih ihs
    rw [Forest.without_cons, Forest.without_cons]
    cases hdrop : drop t.id with
    | true => simpa using ihs
    | false =>
      simp only [Bool.false_eq_true, if_false, Bool.false_or]
      rw [Forest.without_cons, Tree.id_without, ih, ihs]

theorem Tree.height_without :
    (∀ t : Tree, (t.without drop).height ≤ t.height) ∧
      ∀ ts : Forest, Forest.height (Forest.without drop ts) ≤ Forest.height ts := by
  refine Tree.induction ?basic ?cond ?branch ?loop ?breakable ?nil ?cons
  case basic =>
    intro id
    exact Nat.le_refl _
  case cond | loop | breakable =>
    intro id body ih
    exact ih
  case branch =>
    intro id body other ih ih'
    exact max_le_max ih ih'
  case nil => exact Nat.le_refl _
  case cons =>
    intro t ts ih ihs
    rw [Forest.without_cons]
    split
    · exact ihs.trans (le_max_right _ _)
    · exact max_le_max (Nat.succ_le_succ ih) ihs

/-- None of the blocks that remain is to be dropped, a tree itself aside. -/
theorem Tree.keeps_without :
    (∀ t : Tree, ∀ id ∈ (t.without drop).ids, id = t.id ∨ drop id = false) ∧
      ∀ ts : Forest, ∀ id ∈ Forest.ids (Forest.without drop ts), drop id = false := by
  refine Tree.induction ?basic ?cond ?branch ?loop ?breakable ?nil ?cons
  case basic =>
    intro id x hx
    exact .inl (List.mem_singleton.1 hx)
  case cond | loop | breakable =>
    intro id body ih x hx
    rcases List.mem_cons.1 hx with rfl | hx
    · exact .inl rfl
    · exact .inr (ih x hx)
  case branch =>
    intro id body other ih ih' x hx
    rcases List.mem_cons.1 hx with rfl | hx
    · exact .inl rfl
    · rcases List.mem_append.1 hx with hx | hx
      · exact .inr (ih x hx)
      · exact .inr (ih' x hx)
  case nil =>
    intro x hx
    cases hx
  case cons =>
    intro t ts ih ihs x hx
    rw [Forest.without_cons] at hx
    split at hx <;> rename_i ht
    · exact ihs x hx
    · rcases List.mem_append.1 hx with hx | hx
      · rcases ih x hx with rfl | hx
        · exact Bool.eq_false_iff.2 ht
        · exact hx
      · exact ihs x hx

end

/-- Dropping nothing leaves everything. -/
theorem Tree.without_none :
    (∀ t : Tree, t.without (fun _ ↦ false) = t) ∧
      ∀ ts : Forest, Forest.without (fun _ ↦ false) ts = ts := by
  refine Tree.induction ?basic ?cond ?branch ?loop ?breakable ?nil ?cons
  case basic =>
    intro id
    rfl
  case cond | loop | breakable =>
    intro id body ih
    rw [Tree.without, ih]
  case branch =>
    intro id body other ih ih'
    rw [Tree.without, ih, ih']
  case nil => rfl
  case cons =>
    intro t ts ih ihs
    rw [Forest.without_cons, if_neg Bool.false_ne_true, ih, ihs]

/-- Where only basic blocks are dropped, no other block goes with them. -/
theorem Tree.mem_ids_without {f : Function} {drop : BlockId → Bool}
    (hdrop : ∀ id, drop id → (f.blockAt id).kind = .basic) :
    (∀ t : Tree, t.Stored f → ∀ id ∈ t.ids, drop id = false → id ∈ (t.without drop).ids) ∧
      ∀ ts : Forest, Forest.Stored f ts → ∀ id ∈ Forest.ids ts, drop id = false →
        id ∈ Forest.ids (Forest.without drop ts) := by
  refine Tree.induction ?basic ?cond ?branch ?loop ?breakable ?nil ?cons
  case basic =>
    intro id _ x hx _
    exact hx
  case cond | loop | breakable =>
    intro id body ih hstored x hx hkeep
    rcases List.mem_cons.1 hx with rfl | hx
    · exact List.mem_cons_self
    · exact List.mem_cons_of_mem id (ih hstored.2 x hx hkeep)
  case branch =>
    intro id body other ih ih' hstored x hx hkeep
    rcases List.mem_cons.1 hx with rfl | hx
    · exact List.mem_cons_self
    · refine List.mem_cons_of_mem id (List.mem_append.2 ?_)
      exact (List.mem_append.1 hx).imp (fun hx ↦ ih hstored.2.1 x hx hkeep)
        fun hx ↦ ih' hstored.2.2 x hx hkeep
  case nil =>
    intro _ x hx _
    exact hx
  case cons =>
    intro t ts ih ihs hstored x hx hkeep
    rw [Forest.without_cons]
    split <;> rename_i ht
    · -- what is dropped is a basic block, so there is nothing else inside
      refine (List.mem_append.1 hx).elim (fun hx ↦ ?_) fun hx ↦ ihs hstored.2 x hx hkeep
      have hkind := hdrop t.id ht
      have htree := hstored.1
      cases t with
      | basic id =>
        rw [List.mem_singleton.1 hx] at hkeep
        exact absurd ht (Bool.eq_false_iff.1 hkeep)
      | cond id body | loop id body | breakable id body | branch id body other =>
        rw [Tree.id, Function.Node.kind_eq htree.1] at hkind
        cases hkind
    · refine List.mem_append.2 ((List.mem_append.1 hx).imp (fun hx ↦ ?_) fun hx ↦ ?_)
      · exact ih hstored.1 x hx hkeep
      · exact ihs hstored.2 x hx hkeep

/-! ## Functions with the same code -/

/-- Two functions differ only in which blocks stand in the lists. -/
structure SameCode (f f' : Function) : Prop where
  frame : f' = { f with blocks := f'.blocks, body := f'.body }
  size_eq : f'.blocks.size = f.blocks.size
  block?_eq : ∀ c, ∃ body otherwise, f'.block? c =
    (f.block? c).map fun b ↦ { b with body := body, otherwise := otherwise }

namespace SameCode

variable {f f' f'' : Function}

theorem refl (f : Function) : SameCode f f where
  frame := rfl
  size_eq := rfl
  block?_eq c := by
    cases hb : f.block? c with
    | none => exact ⟨[], [], rfl⟩
    | some b => exact ⟨b.body, b.otherwise, rfl⟩

theorem trans (h : SameCode f f') (h' : SameCode f' f'') : SameCode f f'' where
  frame := by rw [h'.frame, h.frame]
  size_eq := h'.size_eq.trans h.size_eq
  block?_eq c := by
    obtain ⟨body, otherwise, hb⟩ := h.block?_eq c
    obtain ⟨body', otherwise', hb'⟩ := h'.block?_eq c
    refine ⟨body', otherwise', ?_⟩
    rw [hb', hb, Option.map_map]
    rfl

theorem of_updateBlock (f : Function) (id : BlockId) {change : Block → Block}
    (hchange : ∀ b, f.block? id = some b → ∃ body otherwise,
      change b = { b with body := body, otherwise := otherwise }) :
    SameCode f (f.updateBlock id change) where
  frame := by
    unfold Function.updateBlock
    split <;> rfl
  size_eq := by
    unfold Function.updateBlock
    split
    · rfl
    · simp
  block?_eq c := by
    rw [Function.block?_updateBlock]
    cases hb : f.block? c with
    | none => exact ⟨[], [], by split <;> rfl⟩
    | some b =>
      split <;> rename_i hc
      · obtain ⟨body, otherwise, hchange⟩ := hchange b (hc ▸ hb)
        exact ⟨body, otherwise, by simp [hchange]⟩
      · exact ⟨b.body, b.otherwise, rfl⟩

theorem blockAt_eq (h : SameCode f f') (c : BlockId) : ∃ body otherwise,
    f'.blockAt c = { f.blockAt c with body := body, otherwise := otherwise } := by
  obtain ⟨body, otherwise, hb⟩ := h.block?_eq c
  unfold Function.blockAt
  cases hc : f.block? c with
  | none => exact ⟨[], [], by rw [hb, hc]; rfl⟩
  | some b => exact ⟨body, otherwise, by rw [hb, hc]; rfl⟩

theorem isEmpty_eq (h : SameCode f f') (c : BlockId) :
    (f'.blockAt c).isEmpty = (f.blockAt c).isEmpty := by
  obtain ⟨body, otherwise, hb⟩ := h.blockAt_eq c
  rw [hb]
  rfl

theorem within (h : SameCode f f') {n : Nat} {c : BlockId} (hc : (f.blockAt c).Within n) :
    (f'.blockAt c).Within n := by
  obtain ⟨body, otherwise, hb⟩ := h.blockAt_eq c
  rw [hb]
  exact ⟨hc.cond, hc.instrs, hc.exits, hc.arounds, hc.entries⟩

/-- The same trees run the same way in both. -/
theorem run_eq {V W : Type} (h : SameCode f f') (m : Machine V W) (budget : Nat) :
    (∀ t : Tree, t.run m f' budget = t.run m f budget) ∧
      ∀ ts : Forest, Forest.run m f' budget ts = Forest.run m f budget ts := by
  refine Tree.induction ?basic ?cond ?branch ?loop ?breakable ?nil ?cons
  case basic =>
    intro id
    obtain ⟨_, _, hb⟩ := h.blockAt_eq id
    rw [Tree.run_basic, Tree.run_basic, hb]
    rfl
  case cond =>
    intro id body ih
    obtain ⟨_, _, hb⟩ := h.blockAt_eq id
    rw [Tree.run_cond, Tree.run_cond, hb, ih]
    rfl
  case branch =>
    intro id body other ih ih'
    obtain ⟨_, _, hb⟩ := h.blockAt_eq id
    rw [Tree.run_branch, Tree.run_branch, hb, ih, ih']
    rfl
  case loop =>
    intro id body ih
    obtain ⟨_, _, hb⟩ := h.blockAt_eq id
    rw [Tree.run_loop, Tree.run_loop, hb, ih]
  case breakable =>
    intro id body ih
    rw [Tree.run_breakable, Tree.run_breakable, ih]
  case nil => rfl
  case cons =>
    intro t ts ih ihs
    rw [Forest.run_cons, Forest.run_cons, ih, ihs]

theorem start_eq {V W : Type} (h : SameCode f f') (m : Machine V W) (params : List V) (world : W) :
    f'.start m params world = f.start m params world := by
  unfold Function.start
  rw [h.frame]

end SameCode

/-! ## Blocks that make no difference -/

section

variable {V W : Type} {m : Machine V W} {drop : BlockId → Bool}

theorem Block.run_of_isEmpty {b : Block} (h : b.isEmpty) (s : State V W) :
    b.run m s = (s, .fall) := by
  simp only [Block.isEmpty, Bool.and_eq_true, List.isEmpty_iff] at h
  unfold Block.run
  rw [h.1.2, h.2]
  rfl

/-- Blocks with nothing to do can be dropped. -/
theorem Tree.run_without_of_isEmpty {f : Function} (budget : Nat)
    (hdrop : ∀ id, drop id → (f.blockAt id).isEmpty) :
    (∀ t : Tree, t.Stored f → (t.without drop).run m f budget = t.run m f budget) ∧
      ∀ ts : Forest, Forest.Stored f ts →
        Forest.run m f budget (Forest.without drop ts) = Forest.run m f budget ts := by
  refine Tree.induction ?basic ?cond ?branch ?loop ?breakable ?nil ?cons
  case basic =>
    intro id _
    rfl
  case cond =>
    intro id body ih h
    rw [Tree.without, Tree.run_cond, Tree.run_cond, ih h.2]
  case branch =>
    intro id body other ih ih' h
    rw [Tree.without, Tree.run_branch, Tree.run_branch, ih h.2.1, ih' h.2.2]
  case loop =>
    intro id body ih h
    rw [Tree.without, Tree.run_loop, Tree.run_loop, ih h.2]
  case breakable =>
    intro id body ih h
    rw [Tree.without, Tree.run_breakable, Tree.run_breakable, ih h.2]
  case nil =>
    intro _
    rfl
  case cons =>
    intro t ts ih ihs h
    rw [Forest.without_cons]
    split <;> rename_i ht
    · have hempty := hdrop t.id ht
      have hbasic : t = .basic t.id := by
        have hkind : (f.blockAt t.id).kind = .basic := by
          simp only [Block.isEmpty, Bool.and_eq_true, decide_eq_true_eq] at hempty
          exact hempty.1.1
        cases t with
        | basic => rfl
        | _ => cases hkind.symm.trans h.1.1.kind_eq
      rw [ihs h.2, Forest.run_cons, hbasic, Tree.run_basic]
      funext s
      rw [Run.andThen, Block.run_of_isEmpty hempty]
    · rw [Forest.run_cons, Forest.run_cons, ih h.1, ihs h.2]

theorem repeatBody_congr {c : Correspondence V W} {d : Targets} {id next head : BlockId}
    {body₀ body body' : Run V W}
    (hmatch : ∀ s s', c.At head s s' →
      c.Matches (d.loop id next head) head (body₀ s) (body s'))
    (hlenient : ¬c.lenient) (hbody : ∀ s s', c.At head s s' → body' s' = body s')
    (budget : Nat) {s s' : State V W} (h : c.At head s s') :
    repeatBody id body' budget s' = repeatBody id body budget s' := by
  induction budget generalizing s s' with
  | zero => rfl
  | succ budget ih =>
    unfold repeatBody
    rw [hbody s s' h]
    obtain ⟨hl, -⟩ | ⟨hexit, hlanded⟩ := hmatch s s' h
    · exact absurd hl hlenient
    rcases hr : body s' with ⟨t', x⟩
    rw [hr] at hexit hlanded
    dsimp only at hexit hlanded ⊢
    rw [hexit] at hlanded
    cases x with
    | fall => exact ih hlanded
    | next target =>
      simp only [Correspondence.Landed, Targets.loop] at hlanded
      dsimp only
      split <;> rename_i htarget
      · rw [if_pos htarget] at hlanded
        exact ih hlanded
      · rfl
    | _ => rfl

/-- Blocks control never arrives at can be dropped. -/
theorem Tree.run_without_of_simulates {c : Correspondence V W} {f f' : Function}
    (hlenient : ¬c.lenient) (hdrop : ∀ b s s', c.At b s s' → b ≠ 0 → drop b = false)
    (budget : Nat) :
    (∀ t : Tree, ∀ d next, t.Simulates m c f f' d next → t.Stored f' → ∀ s s', c.At t.id s s' →
        (t.without drop).run m f' budget s' = t.run m f' budget s') ∧
      ∀ ts : Forest, ∀ d fall, Forest.Simulates m c f f' d fall ts → Forest.Stored f' ts →
        ∀ s s', c.At (Forest.first ts fall) s s' →
        Forest.run m f' budget (Forest.without drop ts) s' = Forest.run m f' budget ts s' := by
  refine Tree.induction ?basic ?cond ?branch ?loop ?breakable ?nil ?cons
  case basic =>
    intro id d next _ _ s s' _
    rfl
  case cond =>
    intro id body ih d next h hstored s s' hs
    obtain ⟨-, henter, -⟩ := h.1 s s' hs
    have hbody := ih d next h.2 hstored.2 s s' henter
    rw [Tree.without, Tree.run_cond, Tree.run_cond, Block.choose, Block.choose, hbody]
  case branch =>
    intro id body other ih ih' d next h hstored s s' hs
    obtain ⟨-, henter, henter'⟩ := h.1 s s' hs
    have hbody := ih d next h.2.1 hstored.2.1 s s' henter
    have hother := ih' d next h.2.2 hstored.2.2 s s' henter'
    rw [Tree.without, Tree.run_branch, Tree.run_branch, Block.choose, Block.choose, hbody, hother]
  case loop =>
    intro id body ih d next h hstored s s' hs
    have hfirst (s s' : State V W) (hs : c.At (Forest.first body id) s s') :
        c.At (Forest.first body (Forest.first body id)) s s' := by
      cases body with
      | nil => exact hs
      | cons _ _ => exact hs
    have hmatch (t t' : State V W) (ht : c.At (Forest.first body id) t t') :=
      (Tree.matches_of_simulates budget).2 body _ _ h.2 t t' (hfirst t t' ht)
    refine repeatBody_congr hmatch hlenient (fun t t' ht ↦ ?_) budget (h.1 s s' hs)
    exact ih _ _ h.2 hstored.2 t t' (hfirst t t' ht)
  case breakable =>
    intro id body ih d next h hstored s s' hs
    have hbody := ih _ next h.2 hstored.2 s s' (h.1 s s' hs)
    rw [Tree.without, Tree.run_breakable, Tree.run_breakable, runBreakable, runBreakable, hbody]
  case nil =>
    intro d fall _ _ s s' _
    rfl
  case cons =>
    intro t ts ih ihs d fall h hstored s s' hs
    have hid : t.id ≠ 0 :=
      Nat.pos_iff_ne_zero.1 (f'.mem_range_of_block? hstored.1.block?_id).1
    rw [Forest.without_cons, hdrop t.id s s' hs hid, if_neg Bool.false_ne_true, Forest.run_cons,
      Forest.run_cons, Run.andThen, Run.andThen, ih d _ h.1 hstored.1 s s' hs]
    obtain ⟨hl, -⟩ | ⟨hexit, hlanded⟩ :=
      (Tree.matches_of_simulates budget).1 t d _ h.1 s s' hs
    · exact absurd hl hlenient
    rcases hr : t.run m f' budget s' with ⟨t', x⟩
    rw [hr] at hexit hlanded
    dsimp only at hexit hlanded ⊢
    rw [hexit] at hlanded
    cases x with
    | fall => exact ihs d fall h.2 hstored.2 _ _ hlanded
    | _ => rfl

end

end WasmBackend.Ir

namespace WasmBackend.DeadCode.Pruning

open Ir (BlockId Block BlockKind Forest Function SameCode Tree)
open Stage (Succeeds)

/-- What dropping blocks from a part of the trees changes. -/
structure Dropped (ids : List BlockId) (f f' : Function) : Prop where
  same : SameCode f f'
  others : ∀ c ∉ ids, f'.block? c = f.block? c

theorem Dropped.refl (ids : List BlockId) (f : Function) : Dropped ids f f :=
  ⟨SameCode.refl f, fun _ _ ↦ rfl⟩

theorem Dropped.trans {ids ids' ids'' : List BlockId} {f f' f'' : Function}
    (h : Dropped ids f f') (h' : Dropped ids' f' f'') (hids : ids ⊆ ids'') (hids' : ids' ⊆ ids'') :
    Dropped ids'' f f'' where
  same := h.same.trans h'.same
  others c hc := by
    rw [h'.others c fun hmem ↦ hc (hids' hmem), h.others c fun hmem ↦ hc (hids hmem)]

/-- Trees outside the part from which blocks were dropped are still there. -/
theorem Dropped.stored {ids : List BlockId} {f f' : Function} (h : Dropped ids f f') {ts : Forest}
    (hts : ∀ id ∈ Forest.ids ts, id ∉ ids) (hstored : Forest.Stored f ts) :
    Forest.Stored f' ts := by
  refine Tree.stored_congr.2 ts (fun id hid b hb ↦ ?_) hstored
  exact ⟨b, by rw [h.others id (hts id hid), hb], rfl, rfl, rfl⟩

/-- What is done for one block of a list; the lists inside it are at most `depth` levels deep. -/
def dropBlock (drop : BlockId → M Bool) (depth : Nat) (id : BlockId) : M Bool := do
  if ← drop id then
    count { blocks := 1 }
    return false
  let body ← dropBlocks drop depth (← blockOf id).body
  setBlock id { ← blockOf id with body := body }
  let otherwise ← dropBlocks drop depth (← blockOf id).otherwise
  setBlock id { ← blockOf id with otherwise := otherwise }
  return true

theorem dropBlocks_succ (drop : BlockId → M Bool) (depth : Nat) (ids : List BlockId) :
    dropBlocks drop (depth + 1) ids = ids.filterM (dropBlock drop depth) := rfl

section

variable {drop : BlockId → M Bool} {q : BlockId → Bool} {f : Function} {depth : Nat}

/-- Blocks are dropped from the lists of a forest. -/
def DropsForest (drop : BlockId → M Bool) (q : BlockId → Bool) (f : Function) (depth : Nat)
    (ts : Forest) : Prop :=
  ∀ s, SameCode f s.function → Forest.Stored s.function ts →
    Succeeds (dropBlocks drop depth (Forest.roots ts)) s fun ids s' ↦
      ids = Forest.roots (Forest.without q ts) ∧ Forest.Stored s'.function (Forest.without q ts)
        ∧ Dropped (Forest.ids ts) s.function s'.function

theorem dropsForest_nil (hdepth : 0 < depth) : DropsForest drop q f depth [] := by
  intro s _ _
  cases depth with
  | zero => cases hdepth
  | succ depth => exact ⟨rfl, trivial, Dropped.refl _ _⟩

theorem meets_blockOf {s : Pruning} {id : BlockId} {b : Block} {err : Failure → Prop}
    {post : Block → Pruning → Prop} (hb : s.function.block? id = some b) :
    Stage.Meets (blockOf id) s err post ↔ post b s := by
  unfold blockOf
  rw [Stage.meets_bind, Stage.meets_get, Stage.meets_ofExcept, Function.block_of_block? hb]

theorem meets_setBlock {s : Pruning} {id : BlockId} {b : Block} {err : Failure → Prop}
    {post : PUnit → Pruning → Prop} :
    Stage.Meets (setBlock id b) s err post ↔
      post ⟨⟩ { s with function := s.function.updateBlock id fun _ ↦ b } := Iff.rfl

/-- Changing a list of a block changes nothing else. -/
theorem dropped_setBlock {g : Function} {id : BlockId} {b : Block} (hb : g.block? id = some b)
    (body otherwise : List BlockId) :
    Dropped [id] g (g.updateBlock id fun _ ↦ { b with body := body, otherwise := otherwise })
      ∧ (g.updateBlock id fun _ ↦ { b with body := body, otherwise := otherwise }).block? id
        = some { b with body := body, otherwise := otherwise } := by
  refine ⟨⟨SameCode.of_updateBlock g id fun b' hb' ↦ ⟨body, otherwise, ?_⟩, fun c hc ↦ ?_⟩, ?_⟩
  · cases hb.symm.trans hb'
    rfl
  · rw [Function.block?_updateBlock, if_neg (by simpa using hc)]
  · rw [Function.block?_updateBlock, if_pos rfl, hb]
    rfl

/-- A block loses from its lists what is dropped, or is dropped itself. -/
theorem dropBlock_succeeds
    (hdrop : ∀ id s b, SameCode f s.function → s.function.block? id = some b →
      Succeeds (drop id) s fun dropped s' ↦ dropped = q id ∧ s = s')
    {id : BlockId} {kind : BlockKind} {body other : Forest} (hbody : DropsForest drop q f depth body)
    (hother : DropsForest drop q f depth other)
    (hnodup : (id :: (Forest.ids body ++ Forest.ids other)).Nodup) {s : Pruning}
    (hs : SameCode f s.function)
    (hnode : s.function.Node id kind (Forest.roots body) (Forest.roots other))
    (hstored : Forest.Stored s.function body) (hstored' : Forest.Stored s.function other) :
    Succeeds (dropBlock drop depth id) s fun kept s' ↦ kept = !q id
      ∧ Dropped (id :: (Forest.ids body ++ Forest.ids other)) s.function s'.function
      ∧ (kept → s'.function.Node id kind (Forest.roots (Forest.without q body))
          (Forest.roots (Forest.without q other))
        ∧ Forest.Stored s'.function (Forest.without q body)
        ∧ Forest.Stored s'.function (Forest.without q other)) := by
  unfold dropBlock
  rw [Succeeds, Stage.meets_bind]
  refine (hdrop id s _ hs hnode.block?_eq).imp ?_
  rintro _ _ ⟨rfl, rfl⟩
  cases hq : q id with
  | true => exact ⟨rfl, Dropped.refl _ _, by simp⟩
  | false =>
    simp only [Bool.false_eq_true, if_false, Stage.meets_bind, meets_blockOf hnode.block?_eq,
      hnode.body_eq]
    rw [List.nodup_cons, List.mem_append, not_or, List.nodup_append] at hnodup
    obtain ⟨⟨hid, hid'⟩, -, -, hdisjoint⟩ := hnodup
    refine (hbody _ hs hstored).imp ?_
    rintro _ s₁ ⟨rfl, hstored₁, hdropped₁⟩
    have hblock₁ := (hdropped₁.others id hid).trans hnode.block?_eq
    set body' := Forest.roots (Forest.without q body) with hbody'
    obtain ⟨hdropped₂, hblock₂⟩ := dropped_setBlock hblock₁ body' (s.function.blockAt id).otherwise
    set b₂ : Block := { s.function.blockAt id with body := body' } with hb₂
    simp only [meets_blockOf hblock₁, meets_setBlock]
    rw [← hb₂, meets_blockOf hblock₂]
    have hsame₂ := hdropped₁.same.trans hdropped₂.same
    have hstored₂ : Forest.Stored (s₁.function.updateBlock id fun _ ↦ b₂) other := by
      refine hdropped₂.stored ?_ (hdropped₁.stored (fun c hc hc' ↦ hdisjoint c hc' c hc rfl) hstored')
      exact fun c hc hmem ↦ hid' (List.mem_singleton.1 hmem ▸ hc)
    have hother₂ : b₂.otherwise = Forest.roots other := hnode.otherwise_eq
    rw [hother₂]
    refine (hother _ (hs.trans hsame₂) hstored₂).imp ?_
    rintro _ s₃ ⟨rfl, hstored₃, hdropped₃⟩
    have hblock₃ := (hdropped₃.others id hid').trans hblock₂
    set other' := Forest.roots (Forest.without q other) with hother'
    obtain ⟨hdropped₄, hblock₄⟩ := dropped_setBlock hblock₃ b₂.body other'
    rw [meets_blockOf hblock₃]
    have hdropped₁₂ := hdropped₁.trans hdropped₂ (List.subset_append_left _ [id])
      (List.subset_append_right _ _)
    have hdropped₃₄ := hdropped₃.trans hdropped₄ (List.subset_append_left _ [id])
      (List.subset_append_right _ _)
    refine ⟨rfl, hdropped₁₂.trans hdropped₃₄ (by simp) (by simp), fun _ ↦ ⟨?_, ?_, ?_⟩⟩
    · have hkind : b₂.kind = kind := hnode.kind_eq
      rw [← hkind]
      exact Function.node_of_block? hblock₄
    · have hsub := (Tree.ids_without q).2 body
      refine hdropped₄.stored ?_ (hdropped₃.stored ?_ (hdropped₂.stored ?_ hstored₁))
      · exact fun c hc hmem ↦ hid (List.mem_singleton.1 hmem ▸ hsub.subset hc)
      · exact fun c hc hmem ↦ hdisjoint c (hsub.subset hc) c hmem rfl
      · exact fun c hc hmem ↦ hid (List.mem_singleton.1 hmem ▸ hsub.subset hc)
    · have hsub := (Tree.ids_without q).2 other
      refine hdropped₄.stored ?_ hstored₃
      exact fun c hc hmem ↦ hid' (List.mem_singleton.1 hmem ▸ hsub.subset hc)

/-- Dropping leaves the trees that remain, whatever the order in which blocks are looked at. -/
theorem dropsForest
    (hdrop : ∀ id s b, SameCode f s.function → s.function.block? id = some b →
      Succeeds (drop id) s fun dropped s' ↦ dropped = q id ∧ s = s') :
    (∀ t : Tree, ∀ depth, t.height < depth → t.ids.Nodup → ∀ s, SameCode f s.function →
        t.Stored s.function →
        Succeeds (dropBlock drop depth t.id) s fun kept s' ↦ kept = !q t.id
          ∧ Dropped t.ids s.function s'.function ∧ (kept → (t.without q).Stored s'.function)) ∧
      ∀ ts : Forest, ∀ depth, Forest.height ts < depth → (Forest.ids ts).Nodup →
        DropsForest drop q f depth ts := by
  refine Tree.induction ?basic ?cond ?branch ?loop ?breakable ?nil ?cons
  case basic =>
    intro id depth hdepth hnodup s hs hstored
    have hnil : DropsForest drop q f depth [] := dropsForest_nil (Nat.zero_lt_of_lt hdepth)
    refine (dropBlock_succeeds hdrop hnil hnil hnodup hs hstored trivial trivial).imp ?_
    rintro kept s' ⟨hkept, hdropped, hnode⟩
    exact ⟨hkept, hdropped, fun h ↦ (hnode h).1⟩
  case cond | loop | breakable =>
    intro id body ih depth hdepth hnodup s hs hstored
    have hnil : DropsForest drop q f depth [] := dropsForest_nil (Nat.zero_lt_of_lt hdepth)
    have hbody := ih depth hdepth (List.nodup_cons.1 hnodup).2
    have hnodup' : (id :: (Forest.ids body ++ Forest.ids [])).Nodup := by
      rw [Forest.ids, List.append_nil]
      exact hnodup
    refine (dropBlock_succeeds hdrop hbody hnil hnodup' hs hstored.1 hstored.2 trivial).imp ?_
    rintro kept s' ⟨hkept, hdropped, hnode⟩
    rw [Forest.ids, List.append_nil] at hdropped
    exact ⟨hkept, hdropped, fun h ↦ ⟨(hnode h).1, (hnode h).2.1⟩⟩
  case branch =>
    intro id body other ih ih' depth hdepth hnodup s hs hstored
    have hinner := List.nodup_append.1 (List.nodup_cons.1 hnodup).2
    have hbody := ih depth (Nat.lt_of_le_of_lt (le_max_left _ _) hdepth) hinner.1
    have hother := ih' depth (Nat.lt_of_le_of_lt (le_max_right _ _) hdepth) hinner.2.1
    exact dropBlock_succeeds hdrop hbody hother hnodup hs hstored.1 hstored.2.1 hstored.2.2
  case nil =>
    intro depth hdepth _
    exact dropsForest_nil (Nat.zero_lt_of_lt hdepth)
  case cons =>
    intro t ts ih ihs depth hdepth hnodup s hs hstored
    obtain _ | depth := depth
    · cases hdepth
    obtain ⟨hnodup₁, hnodup₂, hdisjoint⟩ := List.nodup_append.1 hnodup
    have hdepth₁ : t.height < depth :=
      Nat.lt_of_succ_lt_succ (Nat.lt_of_le_of_lt (le_max_left _ _) hdepth)
    have hdepth₂ : Forest.height ts < depth + 1 := Nat.lt_of_le_of_lt (le_max_right _ _) hdepth
    rw [dropBlocks_succ]
    simp only [Forest.roots, List.map_cons, Stage.filterM_cons, Stage.meets_bind, Stage.meets_map]
    refine (ih depth hdepth₁ hnodup₁ s hs hstored.1).imp ?_
    rintro _ s₁ ⟨rfl, hdropped₁, hkept⟩
    have hstored₂ : Forest.Stored s₁.function ts :=
      hdropped₁.stored (fun c hc hc' ↦ hdisjoint c hc' c hc rfl) hstored.2
    refine (ihs (depth + 1) hdepth₂ hnodup₂ s₁ (hs.trans hdropped₁.same) hstored₂).imp ?_
    rintro _ s₂ ⟨rfl, hstored', hdropped₂⟩
    have hdropped := hdropped₁.trans hdropped₂ (List.subset_append_left _ _)
      (List.subset_append_right _ _)
    rw [Forest.without_cons]
    cases hq : q t.id with
    | true => exact ⟨rfl, hstored', hdropped⟩
    | false =>
      refine ⟨by simp [Forest.roots], ⟨?_, hstored'⟩, hdropped⟩
      have hsub := (Tree.ids_without q).1 t
      have hsingle : Forest.Stored s₁.function [t.without q] := ⟨hkept (by rw [hq]; rfl), trivial⟩
      refine (hdropped₂.stored (fun c hc hc' ↦ ?_) hsingle).1
      rw [Forest.ids, Forest.ids, List.append_nil] at hc
      exact hdisjoint c (hsub.subset hc) c hc' rfl

/-- Dropping from the whole tree leaves a function with the trees that remain. -/
theorem dropFromTree_succeeds {s : Pruning} {ts : Forest} (hs : s.function.LaidOut ts)
    (hdrop : ∀ id s' b, SameCode s.function s'.function → s'.function.block? id = some b →
      Succeeds (drop id) s' fun dropped s'' ↦ dropped = q id ∧ s' = s'') :
    Succeeds (dropFromTree drop) s fun _ s' ↦
      SameCode s.function s'.function ∧ s'.function.LaidOut (Forest.without q ts) := by
  unfold dropFromTree
  simp only [Succeeds, Stage.meets_bind, Stage.meets_get, Stage.meets_modify]
  have hforest := (dropsForest hdrop).2 ts _ (Nat.lt_succ_of_le hs.height_le) hs.nodup s
    (SameCode.refl _) hs.stored
  rw [hs.body_eq]
  refine hforest.imp ?_
  rintro _ s' ⟨rfl, hstored, hdropped⟩
  refine ⟨⟨?_, hdropped.same.size_eq, hdropped.same.block?_eq⟩, rfl, ?_, ?_, ?_⟩
  · rw [hdropped.same.frame]
  · refine Tree.stored_congr.2 _ (fun id _ b hb ↦ ?_) hstored
    exact ⟨b, hb, rfl, rfl, rfl⟩
  · exact ((Tree.ids_without q).2 ts).nodup hs.nodup
  · refine ((Tree.height_without q).2 ts).trans (hs.height_le.trans_eq ?_)
    rw [Function.treeDepth, ← hdropped.same.size_eq]
    rfl

end

end WasmBackend.DeadCode.Pruning
