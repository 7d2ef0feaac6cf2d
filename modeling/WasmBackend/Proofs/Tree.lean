import Mathlib
import WasmBackend.Ir.Validate

/-!
# Block trees

Blocks live in an arena and name the blocks inside them by number.  A `Tree` is the shape of a
block with everything inside it; what the blocks hold stays in the arena.  `Function.trees?` reads
the trees of a function, and a function that passes validation has trees in which no block occurs
twice and every branch names a construct around it.
-/

namespace WasmBackend.Ir

/-- The shape of a block and of everything inside it. -/
inductive Tree where
  | basic (id : BlockId)
  | cond (id : BlockId) (body : List Tree)
  | branch (id : BlockId) (body other : List Tree)
  | loop (id : BlockId) (body : List Tree)
  | breakable (id : BlockId) (body : List Tree)
deriving Inhabited

/-- Blocks one behind the other. -/
abbrev Forest := List Tree

/-- What holds of single blocks when it holds of the lists inside them, and the other way round,
holds of all trees and all forests. -/
theorem Tree.induction {P : Tree → Prop} {Q : Forest → Prop} (basic : ∀ id, P (.basic id))
    (cond : ∀ id body, Q body → P (.cond id body))
    (branch : ∀ id body other, Q body → Q other → P (.branch id body other))
    (loop : ∀ id body, Q body → P (.loop id body))
    (breakable : ∀ id body, Q body → P (.breakable id body))
    (nil : Q []) (cons : ∀ t ts, P t → Q ts → Q (t :: ts)) : (∀ t, P t) ∧ ∀ ts, Q ts :=
  ⟨fun t ↦ Tree.rec basic cond branch loop breakable nil cons t,
    fun ts ↦ Tree.rec_1 basic cond branch loop breakable nil cons ts⟩

namespace Tree

/-- The block itself. -/
def id : Tree → BlockId
  | basic id | cond id _ | branch id _ _ | loop id _ | breakable id _ => id

/-- Whether there are blocks inside. -/
def isStructured : Tree → Bool
  | basic _ => false
  | _ => true

end Tree

mutual

/-- The blocks of a tree, in tree order. -/
def Tree.ids : Tree → List BlockId
  | .basic id => [id]
  | .cond id body | .loop id body | .breakable id body => id :: Forest.ids body
  | .branch id body other => id :: (Forest.ids body ++ Forest.ids other)

/-- The blocks of a forest, in tree order. -/
def Forest.ids : Forest → List BlockId
  | [] => []
  | t :: ts => t.ids ++ Forest.ids ts

end

mutual

/-- The number of lists on the longest way down inside a tree. -/
def Tree.height : Tree → Nat
  | .basic _ => 0
  | .cond _ body | .loop _ body | .breakable _ body => Forest.height body
  | .branch _ body other => max (Forest.height body) (Forest.height other)

/-- The number of lists on the longest way down, the list itself included. -/
def Forest.height : Forest → Nat
  | [] => 1
  | t :: ts => max (t.height + 1) (Forest.height ts)

end

/-- The blocks of the list itself. -/
def Forest.roots (ts : Forest) : List BlockId :=
  ts.map Tree.id

/-- The block control enters first, `fall` when there is none. -/
def Forest.first (ts : Forest) (fall : BlockId) : BlockId :=
  match ts with
  | [] => fall
  | t :: _ => t.id

theorem Forest.first_eq (ts : Forest) (fall : BlockId) :
    ts.first fall = (Forest.roots ts).headD fall := by
  cases ts <;> rfl

theorem Tree.height_le_length :
    (∀ t : Tree, t.height ≤ t.ids.length) ∧
      ∀ ts : Forest, Forest.height ts ≤ (Forest.ids ts).length + 1 := by
  refine Tree.induction ?_ ?_ ?_ ?_ ?_ ?_ ?_ <;> intros <;>
    simp only [Tree.height, Forest.height, Tree.ids, Forest.ids, List.length_cons,
      List.length_append, List.length_nil] <;> omega

theorem Forest.height_pos (ts : Forest) : 0 < Forest.height ts := by
  cases ts <;> simp only [Forest.height] <;> omega

theorem Tree.id_mem_ids (t : Tree) : t.id ∈ t.ids := by
  cases t <;> simp [Tree.ids, Tree.id]

namespace Function

/-- What a block holds; nothing for a block that does not exist. -/
def blockAt (f : Function) (id : BlockId) : Block :=
  (f.block? id).getD {}

/-- The tree of a block; `inner` reads the lists inside it. -/
def treeOf (f : Function) (inner : List BlockId → Option Forest) (id : BlockId) :
    Option Tree := do
  let b ← f.block? id
  match b.kind with
  | .basic => if b.body = [] ∧ b.otherwise = [] then some (.basic id) else none
  | .cond => if b.otherwise = [] then (inner b.body).map (.cond id) else none
  | .branch => return .branch id (← inner b.body) (← inner b.otherwise)
  | .loop => if b.otherwise = [] then (inner b.body).map (.loop id) else none
  | .breakable => if b.otherwise = [] then (inner b.body).map (.breakable id) else none
  | .unknown _ _ => none

/-- The trees of a list of blocks at most `depth` levels deep. -/
def treesFrom (f : Function) : Nat → List BlockId → Option Forest
  | 0, _ => none
  | depth + 1, ids => ids.mapM (f.treeOf (f.treesFrom depth))

/-- The trees of a function. -/
def trees? (f : Function) : Option Forest :=
  f.treesFrom (f.treeDepth + 1) f.body

/-- The block exists, with this kind and these blocks inside. -/
structure Node (f : Function) (id : BlockId) (kind : BlockKind) (body otherwise : List BlockId) :
    Prop where
  block?_eq : f.block? id = some (f.blockAt id)
  kind_eq : (f.blockAt id).kind = kind
  body_eq : (f.blockAt id).body = body
  otherwise_eq : (f.blockAt id).otherwise = otherwise

theorem block_of_block? {f : Function} {id : BlockId} {b : Block} (h : f.block? id = some b) :
    f.block id = .ok b := by
  rw [block, h]

end Function

mutual

/-- The arena of a function has the tree. -/
def Tree.Stored (f : Function) : Tree → Prop
  | .basic id => f.Node id .basic [] []
  | .cond id body => f.Node id .cond (Forest.roots body) [] ∧ Forest.Stored f body
  | .branch id body other =>
    f.Node id .branch (Forest.roots body) (Forest.roots other) ∧ Forest.Stored f body
      ∧ Forest.Stored f other
  | .loop id body => f.Node id .loop (Forest.roots body) [] ∧ Forest.Stored f body
  | .breakable id body => f.Node id .breakable (Forest.roots body) [] ∧ Forest.Stored f body

/-- The arena of a function has every tree of a forest. -/
def Forest.Stored (f : Function) : Forest → Prop
  | [] => True
  | t :: ts => t.Stored f ∧ Forest.Stored f ts

end

theorem Tree.Stored.block?_id {f : Function} {t : Tree} (h : t.Stored f) :
    f.block? t.id = some (f.blockAt t.id) := by
  cases t with
  | basic => exact Function.Node.block?_eq h
  | _ => exact Function.Node.block?_eq h.1

theorem Tree.Stored.block_id {f : Function} {t : Tree} (h : t.Stored f) :
    f.block t.id = .ok (f.blockAt t.id) :=
  Function.block_of_block? h.block?_id

/-! ## Reading trees from the arena -/

theorem Function.node_of_block? {f : Function} {id : BlockId} {b : Block}
    (h : f.block? id = some b) : f.Node id b.kind b.body b.otherwise := by
  have hb : f.blockAt id = b := by simp [Function.blockAt, h]
  exact ⟨by rw [hb, h], by rw [hb], by rw [hb], by rw [hb]⟩

theorem Function.stored_of_treeOf {f : Function} {inner : List BlockId → Option Forest} {n : Nat}
    (hinner : ∀ ids ts, inner ids = some ts →
      ids = Forest.roots ts ∧ Forest.Stored f ts ∧ Forest.height ts ≤ n)
    {id : BlockId} {t : Tree} (h : f.treeOf inner id = some t) :
    t.id = id ∧ t.Stored f ∧ t.height ≤ n := by
  simp only [treeOf, Option.bind_eq_bind, Option.bind_eq_some_iff] at h
  obtain ⟨b, hb, h⟩ := h
  have hnode := node_of_block? hb
  -- a construct with one list inside, whatever its kind
  have nest (make : BlockId → Forest → Tree) (hid : ∀ ts, (make id ts).id = id)
      (hstored : ∀ ts, (make id ts).Stored f ↔
        f.Node id b.kind (Forest.roots ts) [] ∧ Forest.Stored f ts)
      (hheight : ∀ ts, (make id ts).height = Forest.height ts)
      (h : (if b.otherwise = [] then (inner b.body).map (make id) else none) = some t) :
      t.id = id ∧ t.Stored f ∧ t.height ≤ n := by
    split at h
    · rename_i hempty
      obtain ⟨ts, hts, rfl⟩ := Option.map_eq_some_iff.1 h
      obtain ⟨hroots, hts, hn⟩ := hinner _ _ hts
      rw [hempty, hroots] at hnode
      exact ⟨hid ts, (hstored ts).2 ⟨hnode, hts⟩, by rw [hheight]; exact hn⟩
    · cases h
  split at h <;> rename_i hkind
  · split at h
    · rename_i hempty
      rw [hkind, hempty.1, hempty.2] at hnode
      cases h
      exact ⟨rfl, hnode, Nat.zero_le n⟩
    · cases h
  · exact nest .cond (fun _ ↦ rfl) (fun _ ↦ by rw [hkind]; rfl) (fun _ ↦ rfl) h
  · simp only [Option.bind_eq_some_iff] at h
    obtain ⟨ts, hts, us, hus, h⟩ := h
    cases h
    obtain ⟨hroots, hstored, hn⟩ := hinner _ _ hts
    obtain ⟨hroots', hstored', hn'⟩ := hinner _ _ hus
    rw [hkind, hroots, hroots'] at hnode
    exact ⟨rfl, ⟨hnode, hstored, hstored'⟩, Nat.max_le.2 ⟨hn, hn'⟩⟩
  · exact nest .loop (fun _ ↦ rfl) (fun _ ↦ by rw [hkind]; rfl) (fun _ ↦ rfl) h
  · exact nest .breakable (fun _ ↦ rfl) (fun _ ↦ by rw [hkind]; rfl) (fun _ ↦ rfl) h
  · cases h

/-- Trees that are read from the arena are stored there and not too high. -/
theorem Function.stored_of_treesFrom {f : Function} {depth : Nat} {ids : List BlockId}
    {ts : Forest} (h : f.treesFrom depth ids = some ts) :
    ids = Forest.roots ts ∧ Forest.Stored f ts ∧ Forest.height ts ≤ depth := by
  induction depth generalizing ids ts with
  | zero => cases h
  | succ depth ih =>
    rw [treesFrom] at h
    induction ids generalizing ts with
    | nil =>
      cases h
      exact ⟨rfl, trivial, by simp [Forest.height]⟩
    | cons id ids ihs =>
      simp only [List.mapM_cons, Option.pure_def, Option.bind_eq_bind,
        Option.bind_eq_some_iff] at h
      obtain ⟨t, ht, us, hus, h⟩ := h
      cases h
      obtain ⟨hid, hstored, hn⟩ := stored_of_treeOf (fun _ _ ↦ ih) ht
      obtain ⟨hids, hstored', hn'⟩ := ihs hus
      refine ⟨by simp [Forest.roots, hid, hids], ⟨hstored, hstored'⟩, ?_⟩
      simp only [Forest.height]
      omega

/-- Trees that are stored in the arena are read from it, given that they are not too high. -/
theorem Function.treesFrom_of_stored (f : Function) :
    (∀ t : Tree, ∀ depth, t.height ≤ depth → t.Stored f →
        f.treeOf (f.treesFrom depth) t.id = some t) ∧
      ∀ ts : Forest, ∀ depth, Forest.height ts ≤ depth → Forest.Stored f ts →
        f.treesFrom depth (Forest.roots ts) = some ts := by
  refine Tree.induction ?basic ?cond ?branch ?loop ?breakable ?nil ?cons
  case basic =>
    intro id depth _ h
    simp [treeOf, Tree.id, h.block?_eq, h.kind_eq, h.body_eq, h.otherwise_eq]
  case cond | loop | breakable =>
    intro id body ih depth hd h
    have hbody := ih depth hd h.2
    simp [treeOf, Tree.id, h.1.block?_eq, h.1.kind_eq, h.1.body_eq, h.1.otherwise_eq, hbody]
  case branch =>
    intro id body other ih ih' depth hd h
    have hbody := ih depth (Nat.max_le.1 hd).1 h.2.1
    have hother := ih' depth (Nat.max_le.1 hd).2 h.2.2
    simp [treeOf, Tree.id, h.1.block?_eq, h.1.kind_eq, h.1.body_eq, h.1.otherwise_eq, hbody,
      hother]
  case nil =>
    intro depth hd _
    obtain ⟨depth, rfl⟩ := Nat.exists_eq_add_one_of_ne_zero (Nat.pos_iff_ne_zero.1 hd)
    rfl
  case cons =>
    intro t ts ih ihs depth hd h
    simp only [Forest.height] at hd
    obtain ⟨depth, rfl⟩ := Nat.exists_eq_add_one_of_ne_zero (n := depth) (by omega)
    have ht := ih depth (by omega) h.1
    have hts := ihs (depth + 1) (by omega) h.2
    simp only [treesFrom, Forest.roots] at hts
    simp [treesFrom, Forest.roots, ht, hts]

/-! ## Validation -/

mutual

/-- Nothing is wrong with the blocks of a tree; `scope` lists the blocks around it, innermost
first. -/
def Tree.Checked (f : Function) (scope : List (BlockId × BlockKind)) : Tree → Prop
  | .basic id =>
    (f.blockAt id).instrs.flatMap (f.instrViolations id scope) = []
      ∧ f.unknownCopyVars id (f.blockAt id).exitCopies = []
  | .cond id body =>
    f.unknownVars id [(f.blockAt id).cond] = []
      ∧ f.unknownCopyVars id (f.blockAt id).aroundCopies = []
      ∧ Forest.Checked f ((id, .cond) :: scope) body
  | .branch id body other =>
    f.unknownVars id [(f.blockAt id).cond] = []
      ∧ f.unknownCopyVars id (f.blockAt id).aroundCopies = []
      ∧ Forest.Checked f ((id, .branch) :: scope) body
      ∧ Forest.Checked f ((id, .branch) :: scope) other
  | .loop id body =>
    f.unknownCopyVars id (f.blockAt id).entryCopies = []
      ∧ Forest.Checked f ((id, .loop) :: scope) body
  | .breakable id body =>
    f.unknownCopyVars id (f.blockAt id).entryCopies = []
      ∧ Forest.Checked f ((id, .breakable) :: scope) body

/-- Nothing is wrong with the blocks of a forest. -/
def Forest.Checked (f : Function) (scope : List (BlockId × BlockKind)) : Forest → Prop
  | [] => True
  | t :: ts => t.Checked f scope ∧ Forest.Checked f scope ts

end

/-- What checking a part of a function without finding anything tells about it. -/
structure Findings.Clean (r r' : Findings) (ids : List BlockId) (checked : Prop) : Prop where
  before : r.violations = []
  nodup : ids.Nodup
  unseen : ∀ id ∈ ids, id ∉ r.seen
  seen_iff : ∀ id, id ∈ r'.seen ↔ id ∈ ids ∨ id ∈ r.seen
  checked : checked

theorem Findings.Clean.append {r r' r'' : Findings} {ids ids' : List BlockId} {p p' : Prop}
    (h : Findings.Clean r r' ids p) (h' : Findings.Clean r' r'' ids' p') :
    Findings.Clean r r'' (ids ++ ids') (p ∧ p') where
  before := h.before
  nodup := by
    refine List.nodup_append.2 ⟨h.nodup, h'.nodup, ?_⟩
    rintro id hid _ hid' rfl
    exact h'.unseen id hid' ((h.seen_iff id).2 (.inl hid))
  unseen := by
    intro id hid hseen
    rcases List.mem_append.1 hid with hid | hid
    · exact h.unseen id hid hseen
    · exact h'.unseen id hid ((h.seen_iff id).2 (.inr hseen))
  seen_iff := by
    intro id
    rw [h'.seen_iff, h.seen_iff, List.mem_append]
    tauto
  checked := ⟨h.checked, h'.checked⟩

theorem Findings.Clean.imp {r r' : Findings} {ids : List BlockId} {p q : Prop}
    (h : Findings.Clean r r' ids p) (hpq : p → q) : Findings.Clean r r' ids q :=
  { h with checked := hpq h.checked }

/-- Meeting a block for the first time, with nothing wrong in the block itself. -/
theorem Findings.clean_enter {r : Findings} {id : BlockId} {vs : List Violation}
    (hseen : id ∉ r.seen) (h : r.violations ++ vs = []) :
    Findings.Clean r { seen := id :: r.seen, violations := r.violations ++ vs } [id] (vs = []) where
  before := (List.append_eq_nil_iff.1 h).1
  nodup := by simp
  unseen := by simpa using hseen
  seen_iff := by simp
  checked := (List.append_eq_nil_iff.1 h).2

@[simp]
theorem Function.checkBlocks_nil (f : Function) (depth : Nat) (scope : List (BlockId × BlockKind))
    (r : Findings) : f.checkBlocks depth scope r [] = r := by
  cases depth <;> rfl

/-- Validation that finds nothing has met every block of the trees once. -/
theorem Function.clean_of_checkBlocks (f : Function) :
    (∀ t : Tree, ∀ depth scope r, t.height ≤ depth → t.Stored f →
        (f.checkBlocks (depth + 1) scope r [t.id]).violations = [] →
        Findings.Clean r (f.checkBlocks (depth + 1) scope r [t.id]) t.ids (t.Checked f scope)) ∧
      ∀ ts : Forest, ∀ depth scope r, Forest.height ts ≤ depth → Forest.Stored f ts →
        (f.checkBlocks depth scope r (Forest.roots ts)).violations = [] →
        Findings.Clean r (f.checkBlocks depth scope r (Forest.roots ts)) (Forest.ids ts)
          (Forest.Checked f scope ts) := by
  refine Tree.induction ?basic ?cond ?branch ?loop ?breakable ?nil ?cons
  case basic =>
    intro id depth scope r _ h hv
    simp only [checkBlocks, Tree.id, List.foldl_cons, List.foldl_nil, h.block?_eq, h.kind_eq,
      h.body_eq, h.otherwise_eq, ne_eq, not_true_eq_false, or_self, if_false, List.nil_append,
      List.append_assoc] at hv ⊢
    split at hv
    · simp at hv
    · rename_i hseen
      rw [if_neg hseen]
      exact (Findings.clean_enter hseen hv).imp List.append_eq_nil_iff.1
  case cond =>
    intro id body ih depth scope r hd h hv
    simp only [checkBlocks, Tree.id, List.foldl_cons, List.foldl_nil, h.1.block?_eq, h.1.kind_eq,
      h.1.body_eq, h.1.otherwise_eq, checkBlocks_nil, List.append_assoc] at hv ⊢
    split at hv
    · simp at hv
    · rename_i hseen
      rw [if_neg hseen]
      have hbody := ih depth _ _ hd h.2 hv
      refine ((Findings.clean_enter hseen hbody.before).append hbody).imp ?_
      rintro ⟨hhere, hinside⟩
      exact ⟨(List.append_eq_nil_iff.1 hhere).1, (List.append_eq_nil_iff.1 hhere).2, hinside⟩
  case branch =>
    intro id body other ih ih' depth scope r hd h hv
    simp only [checkBlocks, Tree.id, List.foldl_cons, List.foldl_nil, h.1.block?_eq, h.1.kind_eq,
      h.1.body_eq, h.1.otherwise_eq, List.append_assoc] at hv ⊢
    split at hv
    · simp at hv
    · rename_i hseen
      rw [if_neg hseen]
      have hother := ih' depth _ _ (Nat.max_le.1 hd).2 h.2.2 hv
      have hbody := ih depth _ _ (Nat.max_le.1 hd).1 h.2.1 hother.before
      refine ((Findings.clean_enter hseen hbody.before).append (hbody.append hother)).imp ?_
      rintro ⟨hhere, hinside, hinside'⟩
      exact ⟨(List.append_eq_nil_iff.1 hhere).1, (List.append_eq_nil_iff.1 hhere).2, hinside,
        hinside'⟩
  case loop | breakable =>
    intro id body ih depth scope r hd h hv
    simp only [checkBlocks, Tree.id, List.foldl_cons, List.foldl_nil, h.1.block?_eq, h.1.kind_eq,
      h.1.body_eq] at hv ⊢
    split at hv
    · simp at hv
    · rename_i hseen
      rw [if_neg hseen]
      have hbody := ih depth _ _ hd h.2 hv
      exact (Findings.clean_enter hseen hbody.before).append hbody
  case nil =>
    intro depth scope r _ _ hv
    simp only [Forest.roots, List.map_nil, checkBlocks_nil] at hv ⊢
    exact ⟨hv, List.nodup_nil, by simp [Forest.ids], by simp [Forest.ids], trivial⟩
  case cons =>
    intro t ts ih ihs depth scope r hd h hv
    simp only [Forest.height] at hd
    obtain ⟨depth, rfl⟩ := Nat.exists_eq_add_one_of_ne_zero (n := depth) (by omega)
    have hsplit : f.checkBlocks (depth + 1) scope r (Forest.roots (t :: ts)) =
        f.checkBlocks (depth + 1) scope (f.checkBlocks (depth + 1) scope r [t.id])
          (Forest.roots ts) := rfl
    rw [hsplit] at hv ⊢
    have hrest := ihs (depth + 1) scope _ (by omega) h.2 hv
    exact (ih depth scope r (by omega) h.1 hrest.before).append hrest

/-- The trees of a valid function: no block occurs twice, and nothing is wrong with any. -/
structure Function.WellFormed (f : Function) (ts : Forest) : Prop where
  body_eq : f.body = Forest.roots ts
  stored : Forest.Stored f ts
  nodup : (Forest.ids ts).Nodup
  checked : Forest.Checked f [] ts

theorem Function.wellFormed_of_isValid {f : Function} {ts : Forest} (hts : f.trees? = some ts)
    (hvalid : f.isValid) : f.WellFormed ts := by
  obtain ⟨hroots, hstored, hheight⟩ := stored_of_treesFrom hts
  have hv : (f.checkBlocks (f.treeDepth + 1) [] {} (Forest.roots ts)).violations = [] := by
    rw [← hroots]
    simpa [isValid, violations] using hvalid
  have hclean := f.clean_of_checkBlocks.2 ts _ [] {} hheight hstored hv
  exact ⟨hroots, hstored, hclean.nodup, hclean.checked⟩

theorem Function.mem_range_of_block? {f : Function} {id : Nat} {b : Block}
    (h : f.block? id = some b) : 0 < id ∧ id ≤ f.blocks.size := by
  unfold block? at h
  split at h
  · cases h
  · rename_i hid
    have hlt := (Array.getElem?_eq_some_iff.1 h).1
    exact ⟨Nat.pos_of_ne_zero hid, by omega⟩

/-- There are no more different blocks than the arena has. -/
theorem Function.length_le_of_nodup {f : Function} {ids : List BlockId} (hnodup : ids.Nodup)
    (hids : ∀ id ∈ ids, 0 < id ∧ id ≤ f.blocks.size) : ids.length ≤ f.blocks.size := by
  have hsubset : ids ⊆ List.range' 1 f.blocks.size := by
    intro id hid
    obtain ⟨hpos, hle⟩ := hids id hid
    rw [List.mem_range'_1]
    exact ⟨hpos, Nat.lt_one_add_iff.2 hle⟩
  simpa using hnodup.length_le_of_subset hsubset

theorem Function.mem_blocks_of_block? {f : Function} {id : BlockId} {b : Block}
    (h : f.block? id = some b) : b ∈ f.blocks := by
  unfold block? at h
  split at h
  · cases h
  · exact Array.mem_of_getElem? h

/-- The blocks of stored trees exist. -/
theorem Tree.block?_of_mem_ids {f : Function} :
    (∀ t : Tree, t.Stored f → ∀ id ∈ t.ids, f.block? id = some (f.blockAt id)) ∧
      ∀ ts : Forest, Forest.Stored f ts → ∀ id ∈ Forest.ids ts,
        f.block? id = some (f.blockAt id) := by
  refine Tree.induction ?basic ?cond ?branch ?loop ?breakable ?nil ?cons
  case basic =>
    intro id h x hx
    rw [List.mem_singleton.1 hx]
    exact h.block?_eq
  case cond | loop | breakable =>
    intro id body ih h x hx
    rcases List.mem_cons.1 hx with rfl | hx
    · exact h.1.block?_eq
    · exact ih h.2 x hx
  case branch =>
    intro id body other ih ih' h x hx
    rcases List.mem_cons.1 hx with rfl | hx
    · exact h.1.block?_eq
    · rcases List.mem_append.1 hx with hx | hx
      · exact ih h.2.1 x hx
      · exact ih' h.2.2 x hx
  case nil =>
    intro _ x hx
    cases hx
  case cons =>
    intro t ts ih ihs h x hx
    rcases List.mem_append.1 hx with hx | hx
    · exact ih h.1 x hx
    · exact ihs h.2 x hx

/-- What changing a block does to the arena. -/
theorem Function.block?_updateBlock (f : Function) (id : BlockId) (change : Block → Block)
    (c : BlockId) :
    (f.updateBlock id change).block? c =
      if c = id then (f.block? c).map change else f.block? c := by
  unfold updateBlock block?
  by_cases hid : id = 0
  · rw [if_pos hid]
    split
    · simp
    · rename_i hc
      rw [if_neg fun heq ↦ hc (heq.trans hid)]
  · rw [if_neg hid]
    split
    · simp
    · rename_i hc
      rw [Array.getElem?_modify]
      split <;> rename_i hpos
      · rw [if_pos (Nat.sub_one_cancel (Nat.pos_of_ne_zero hc) (Nat.pos_of_ne_zero hid) hpos.symm)]
      · rw [if_neg fun heq ↦ hpos (by rw [heq])]

/-- Trees do not change with what is inside their blocks. -/
theorem Tree.stored_congr {f f' : Function} :
    (∀ t : Tree, (∀ id ∈ t.ids, ∀ b, f.block? id = some b → ∃ b', f'.block? id = some b'
        ∧ b'.kind = b.kind ∧ b'.body = b.body ∧ b'.otherwise = b.otherwise) →
        t.Stored f → t.Stored f') ∧
      ∀ ts : Forest, (∀ id ∈ Forest.ids ts, ∀ b, f.block? id = some b → ∃ b',
        f'.block? id = some b' ∧ b'.kind = b.kind ∧ b'.body = b.body
          ∧ b'.otherwise = b.otherwise) → Forest.Stored f ts → Forest.Stored f' ts := by
  have node {id : BlockId} {kind : BlockKind} {body otherwise : List BlockId}
      (h : ∀ b, f.block? id = some b → ∃ b', f'.block? id = some b' ∧ b'.kind = b.kind
        ∧ b'.body = b.body ∧ b'.otherwise = b.otherwise)
      (hnode : f.Node id kind body otherwise) : f'.Node id kind body otherwise := by
    obtain ⟨b', hb', hkind, hbody, hotherwise⟩ := h _ hnode.block?_eq
    rw [← hnode.kind_eq, ← hnode.body_eq, ← hnode.otherwise_eq, ← hkind, ← hbody, ← hotherwise]
    exact f'.node_of_block? hb'
  refine Tree.induction ?basic ?cond ?branch ?loop ?breakable ?nil ?cons
  case basic =>
    intro id h hs
    exact node (h id List.mem_cons_self) hs
  case cond | loop | breakable =>
    intro id body ih h hs
    exact ⟨node (h id List.mem_cons_self) hs.1,
      ih (fun x hx ↦ h x (List.mem_cons_of_mem id hx)) hs.2⟩
  case branch =>
    intro id body other ih ih' h hs
    have hinside (x : BlockId) (hx : x ∈ Forest.ids body ∨ x ∈ Forest.ids other) :=
      h x (List.mem_cons_of_mem id (List.mem_append.2 hx))
    exact ⟨node (h id List.mem_cons_self) hs.1, ih (fun x hx ↦ hinside x (.inl hx)) hs.2.1,
      ih' (fun x hx ↦ hinside x (.inr hx)) hs.2.2⟩
  case nil =>
    intro _ _
    trivial
  case cons =>
    intro t ts ih ihs h hs
    exact ⟨ih (fun x hx ↦ h x (List.mem_append_left _ hx)) hs.1,
      ihs (fun x hx ↦ h x (List.mem_append_right _ hx)) hs.2⟩

/-- Trees in which no block occurs twice are not higher than the bound for walks over them. -/
theorem Function.WellFormed.height_le {f : Function} {ts : Forest} (h : f.WellFormed ts) :
    Forest.height ts ≤ f.treeDepth := by
  have hlength := length_le_of_nodup h.nodup fun id hid ↦
    f.mem_range_of_block? (Tree.block?_of_mem_ids.2 ts h.stored id hid)
  have hheight := Tree.height_le_length.2 ts
  unfold treeDepth
  omega

/-! ## Trees of a function -/

/-- The function consists of these trees, in which no block occurs twice. -/
structure Function.LaidOut (f : Function) (ts : Forest) : Prop where
  body_eq : f.body = Forest.roots ts
  stored : Forest.Stored f ts
  nodup : (Forest.ids ts).Nodup
  height_le : Forest.height ts ≤ f.treeDepth

theorem Function.LaidOut.trees_eq {f : Function} {ts : Forest} (h : f.LaidOut ts) :
    f.trees? = some ts := by
  unfold trees?
  rw [h.body_eq]
  exact f.treesFrom_of_stored.2 ts _ (Nat.le_succ_of_le h.height_le) h.stored

theorem Function.WellFormed.laidOut {f : Function} {ts : Forest} (h : f.WellFormed ts) :
    f.LaidOut ts :=
  ⟨h.body_eq, h.stored, h.nodup, h.height_le⟩

theorem Function.walkFrom_nil {f : Function} {depth : Nat} (hdepth : 0 < depth) :
    f.walkFrom depth [] = .ok [] := by
  cases depth with
  | zero => cases hdepth
  | succ depth => rfl

/-- A walk meets a block, then what is inside it, then what is behind it. -/
theorem Function.walkFrom_cons {f : Function} {depth : Nat} {id : BlockId} {rest : List BlockId}
    {b : Block} {inner beside behind : List (BlockId × Block)} (hb : f.block? id = some b)
    (hinner : f.walkFrom depth b.body = .ok inner)
    (hbeside : f.walkFrom depth b.otherwise = .ok beside)
    (hbehind : f.walkFrom (depth + 1) rest = .ok behind) :
    f.walkFrom (depth + 1) (id :: rest) = .ok ((id, b) :: (inner ++ beside ++ behind)) := by
  rw [walkFrom] at hbehind ⊢
  rw [List.mapM_cons, block_of_block? hb]
  simp only [bind, Except.bind, hinner, hbeside] at hbehind ⊢
  revert hbehind
  rcases List.mapM _ rest with e | parts
  · intro hbehind
    cases hbehind
  · intro hbehind
    have hparts : parts.flatten = behind := Except.ok.inj hbehind
    rw [← hparts]
    rfl

/-- A walk meets the blocks of the trees in their order. -/
theorem Function.walkFrom_of_stored (f : Function) :
    (∀ t : Tree, ∀ depth, t.height < depth → t.Stored f → ∀ {rest behind},
        f.walkFrom (depth + 1) rest = .ok behind →
        f.walkFrom (depth + 1) (t.id :: rest)
          = .ok ((t.ids.map fun id ↦ (id, f.blockAt id)) ++ behind)) ∧
      ∀ ts : Forest, ∀ depth, Forest.height ts < depth → Forest.Stored f ts →
        f.walkFrom depth (Forest.roots ts)
          = .ok ((Forest.ids ts).map fun id ↦ (id, f.blockAt id)) := by
  refine Tree.induction ?basic ?cond ?branch ?loop ?breakable ?nil ?cons
  case basic =>
    intro id depth hdepth h rest behind hbehind
    have hnil : f.walkFrom depth [] = .ok [] := walkFrom_nil (Nat.zero_lt_of_lt hdepth)
    exact walkFrom_cons h.block?_eq (by rw [h.body_eq, hnil]) (by rw [h.otherwise_eq, hnil])
      hbehind
  case cond | loop | breakable =>
    intro id body ih depth hdepth h rest behind hbehind
    have hnil : f.walkFrom depth [] = .ok [] := walkFrom_nil (Nat.zero_lt_of_lt hdepth)
    have hwalk := walkFrom_cons h.1.block?_eq (by rw [h.1.body_eq, ih depth hdepth h.2])
      (by rw [h.1.otherwise_eq, hnil]) hbehind
    rwa [List.append_nil] at hwalk
  case branch =>
    intro id body other ih ih' depth hdepth h rest behind hbehind
    have hbody := ih depth (Nat.lt_of_le_of_lt (le_max_left _ _) hdepth) h.2.1
    have hother := ih' depth (Nat.lt_of_le_of_lt (le_max_right _ _) hdepth) h.2.2
    rw [Tree.ids, List.map_cons, List.map_append]
    exact walkFrom_cons h.1.block?_eq (by rw [h.1.body_eq, hbody])
      (by rw [h.1.otherwise_eq, hother]) hbehind
  case nil =>
    intro depth hdepth _
    exact walkFrom_nil (Nat.zero_lt_of_lt hdepth)
  case cons =>
    intro t ts ih ihs depth hdepth h
    obtain _ | depth := depth
    · cases hdepth
    have ht : t.height < depth :=
      Nat.lt_of_succ_lt_succ (Nat.lt_of_le_of_lt (le_max_left _ _) hdepth)
    rw [Forest.ids, List.map_append]
    exact ih depth ht h.1 (ihs (depth + 1) (Nat.lt_of_le_of_lt (le_max_right _ _) hdepth) h.2)

theorem Function.LaidOut.walk_eq {f : Function} {ts : Forest} (h : f.LaidOut ts) :
    f.walk = .ok ((Forest.ids ts).map fun id ↦ (id, f.blockAt id)) := by
  unfold walk
  rw [h.body_eq]
  exact f.walkFrom_of_stored.2 ts _ (Nat.lt_succ_of_le h.height_le) h.stored

end WasmBackend.Ir
