import WasmBackend.Proofs.Flow.Wiring

/-!
# Blocks that control can reach

The breadth-first order of a graph starts with the entry, has no block twice, and is closed under
the edges.  The list only grows by ends of edges, so it cannot be longer than the number of edges
allows, and the walk gets to its end.
-/

namespace WasmBackend.Flow.Graph

open Ir (BlockId Forest Function Instr)

@[simp]
theorem mem_succs {g : Graph} {b : BlockId} {e : Edge} : e ∈ g.succs b ↔ e ∈ g.edges ∧ e.src = b := by
  simp [succs]

@[simp]
theorem mem_preds {g : Graph} {b : BlockId} {e : Edge} : e ∈ g.preds b ↔ e ∈ g.edges ∧ e.dst = b := by
  simp [preds]

/-- The number of ways control has into a block: its edges, and the start of the function. -/
def ways (g : Graph) (b : BlockId) : Nat :=
  (if b = g.entry then 1 else 0) + (g.preds b).length

theorem mem_discover {found : List BlockId} {b x : BlockId} :
    x ∈ discover found b ↔ x ∈ found ∨ x = b := by
  unfold discover
  split
  · constructor
    · exact .inl
    · rintro (hx | rfl)
      · exact hx
      · assumption
  · simp

theorem mem_foldl_discover {bs found : List BlockId} {x : BlockId} :
    x ∈ bs.foldl discover found ↔ x ∈ found ∨ x ∈ bs := by
  induction bs generalizing found with
  | nil => simp
  | cons b bs ih => rw [List.foldl_cons, ih, mem_discover, List.mem_cons, or_assoc]

theorem nodup_foldl_discover {bs found : List BlockId} (h : found.Nodup) :
    (bs.foldl discover found).Nodup := by
  induction bs generalizing found with
  | nil => exact h
  | cons b bs ih =>
    refine ih ?_
    unfold discover
    split
    · exact h
    · rename_i hb
      rw [List.nodup_append]
      refine ⟨h, List.nodup_singleton b, ?_⟩
      rintro x hx _ hxb rfl
      exact hb (List.mem_singleton.1 hxb ▸ hx)

theorem prefix_foldl_discover (bs found : List BlockId) : found <+: bs.foldl discover found := by
  induction bs generalizing found with
  | nil => exact List.prefix_refl found
  | cons b bs ih =>
    refine List.IsPrefix.trans ?_ (ih (discover found b))
    unfold discover
    split
    · exact List.prefix_refl found
    · exact List.prefix_append found [b]

/-- What holds of the blocks found while those before position `i` have been looked at. -/
structure Frontier (g : Graph) (entry : BlockId) (i : Nat) (found : List BlockId) : Prop where
  entry_mem : entry ∈ found
  nodup : found.Nodup
  subset : found ⊆ entry :: g.edges.map Edge.dst
  seen_le : i ≤ found.length
  closed : ∀ j b, j < i → found[j]? = some b → ∀ e ∈ g.succs b, e.dst ∈ found

theorem Frontier.length_le {g : Graph} {entry : BlockId} {i : Nat} {found : List BlockId}
    (h : Frontier g entry i found) : found.length ≤ g.edges.length + 1 := by
  simpa using h.nodup.length_le_of_subset h.subset

theorem Frontier.step {g : Graph} {entry b : BlockId} {i : Nat} {found : List BlockId}
    (h : Frontier g entry i found) (hb : found[i]? = some b) :
    Frontier g entry (i + 1) (((g.succs b).map Edge.dst).foldl discover found) where
  entry_mem := mem_foldl_discover.2 (.inl h.entry_mem)
  nodup := nodup_foldl_discover h.nodup
  subset := by
    intro x hx
    rcases mem_foldl_discover.1 hx with hx | hx
    · exact h.subset hx
    · obtain ⟨e, he, rfl⟩ := List.mem_map.1 hx
      exact List.mem_cons_of_mem entry (List.mem_map_of_mem (mem_succs.1 he).1)
  seen_le := by
    have hi := (List.getElem?_eq_some_iff.1 hb).1
    have hprefix := (prefix_foldl_discover ((g.succs b).map Edge.dst) found).length_le
    omega
  closed := by
    intro j c hj hc e he
    have hi := (List.getElem?_eq_some_iff.1 hb).1
    obtain ⟨more, hmore⟩ := prefix_foldl_discover ((g.succs b).map Edge.dst) found
    rw [← hmore, List.getElem?_append_left (by omega)] at hc
    rw [mem_foldl_discover]
    rcases Nat.lt_succ_iff_lt_or_eq.1 hj with hj | rfl
    · exact .inl (h.closed j c hj hc e he)
    · rw [hb] at hc
      cases hc
      exact .inr (List.mem_map_of_mem he)

/-- The walk ends with every block found looked at. -/
theorem frontier_breadthFirst {g : Graph} {entry : BlockId} (fuel i : Nat) {found : List BlockId}
    (hfuel : g.edges.length + 2 ≤ fuel + i) (h : Frontier g entry i found) :
    Frontier g entry (g.breadthFirst fuel i found).length (g.breadthFirst fuel i found) := by
  induction fuel generalizing i found with
  | zero =>
    have hlength := h.length_le
    have hseen := h.seen_le
    omega
  | succ fuel ih =>
    unfold breadthFirst
    split
    · rename_i hnone
      have hle := List.getElem?_eq_none_iff.1 hnone
      rwa [Nat.le_antisymm hle h.seen_le]
    · rename_i b hb
      exact ih (i + 1) (by omega) (h.step hb)

/-- The walk finds only what edges lead to. -/
theorem forall_mem_breadthFirst {g : Graph} {P : BlockId → Prop}
    (hedges : ∀ e ∈ g.edges, P e.src → P e.dst) (fuel i : Nat) {found : List BlockId}
    (h : ∀ b ∈ found, P b) : ∀ b ∈ g.breadthFirst fuel i found, P b := by
  induction fuel generalizing i found with
  | zero => exact h
  | succ fuel ih =>
    unfold breadthFirst
    split
    · exact h
    · rename_i b hb
      refine ih (i + 1) fun x hx ↦ ?_
      rcases mem_foldl_discover.1 hx with hx | hx
      · exact h x hx
      · obtain ⟨e, he, rfl⟩ := List.mem_map.1 hx
        rw [mem_succs] at he
        exact hedges e he.1 (he.2 ▸ h b (List.mem_of_getElem? hb))

/-- What the graph of a function tells about its trees. -/
structure Describes (g : Graph) (f : Function) (ts : Forest) : Prop where
  edges_eq : g.edges = Forest.edges f {} 0 ts
  wired : Forest.Wired f g {} 0 ts
  entry_eq : g.entry = Forest.first ts 0
  entry_mem : ts ≠ [] → g.entry ∈ g.order
  order_nodup : g.order.Nodup
  order_subset : ∀ b ∈ g.order, b ∈ Forest.ids ts
  order_closed : ∀ b ∈ g.order, ∀ e ∈ g.succs b, e.dst ∈ g.order
  order_least : ∀ P : BlockId → Prop, P g.entry → (∀ e ∈ g.edges, P e.src → P e.dst) →
    ∀ b ∈ g.order, P b

/-- Every edge of a function ends in one of its blocks. -/
theorem dst_mem_ids {f : Function} {ts : Forest} {e : Edge} (he : e ∈ Forest.edges f {} 0 ts) :
    e.dst ∈ Forest.ids ts := by
  obtain ⟨hdst, hne⟩ := (Ir.Tree.edges_dst f fun b ↦ b = 0 ∨ b ∈ Forest.ids ts).2 ts {} 0
    ⟨fun _ ↦ .inl rfl, fun _ ↦ .inl rfl⟩ (.inl rfl) (fun _ ↦ .inr) e he
  exact hdst.resolve_left hne

/-- The edges that wiring a valid function finds. -/
theorem edges_of_wireBlocks {f : Function} {ts : Forest} (hf : f.WellFormed ts) {w : Wiring}
    (h : (Wiring.wireBlocks f (f.treeDepth + 1) f.body 0).runFrom {} = (.ok (), w)) :
    w.edges.reverse = Forest.edges f {} 0 ts := by
  have hheight := hf.height_le
  rw [hf.body_eq] at h
  have hextends := ((Wiring.wireBlocks_ensures f).2 ts (f.treeDepth + 1) {} [] 0 {} (by omega)
    hf.stored hf.checked hf.nodup (by simp) (by simp [Wiring.Agrees])).of_eq h
  rw [hextends.edges_eq, List.append_nil, List.reverse_reverse]

/-- Wiring a valid function gives a graph that describes it. -/
theorem describes_of_ofFunction {f : Function} {ts : Forest} {g : Graph} (hf : f.WellFormed ts)
    (h : ofFunction f = .ok g) : g.Describes f ts := by
  unfold ofFunction at h
  split at h
  rename_i result w hrun
  rcases result with _ | ⟨⟨⟩⟩
  · cases h
  have hedges := edges_of_wireBlocks hf hrun
  have hwired : ∀ g : Graph, g.edges = w.edges.reverse → Forest.Wired f g {} 0 ts := by
    intro g hg
    refine (Ir.Tree.wired_of_succs f g).2 ts {} 0 hf.nodup fun x _ ↦ ?_
    rw [succs, hg, hedges]
  cases ts with
  | nil =>
    simp only [hf.body_eq, Forest.roots, List.map_nil, List.head?_nil] at h
    cases h
    exact ⟨hedges, hwired _ rfl, rfl, by simp, List.nodup_nil, by simp, by simp, by simp⟩
  | cons t ts =>
    simp only [hf.body_eq, Forest.roots, List.map_cons, List.head?_cons] at h
    cases h
    set g₀ : Graph := { edges := w.edges.reverse } with hg₀
    have hstart : Frontier g₀ t.id 0 [t.id] :=
      ⟨by simp, List.nodup_singleton _, by simp, by simp, by simp⟩
    have hend := frontier_breadthFirst (g₀.edges.length + 2) 0 (by omega) hstart
    refine ⟨hedges, hwired _ rfl, rfl, fun _ ↦ hend.entry_mem, hend.nodup, ?_, ?_, ?_⟩
    · intro b hb
      rcases List.mem_cons.1 (hend.subset hb) with rfl | hb
      · exact List.mem_append_left _ t.id_mem_ids
      · obtain ⟨e, he, rfl⟩ := List.mem_map.1 hb
        rw [hg₀, hedges] at he
        exact dst_mem_ids he
    · intro b hb e he
      obtain ⟨j, hj, hjb⟩ := List.mem_iff_getElem.1 hb
      exact hend.closed j b hj (by rw [← hjb]; exact List.getElem?_eq_getElem hj) e he
    · intro P hentry hclosed
      refine forall_mem_breadthFirst (g := g₀) hclosed _ 0 fun b hb ↦ ?_
      rw [List.mem_singleton.1 hb]
      exact hentry

/-- No edge goes to the entry of a function that starts with a basic block. -/
theorem Describes.dst_ne_entry {g : Graph} {f : Function} {id : BlockId} {rest : Forest}
    (h : g.Describes f (.basic id :: rest)) (hf : f.WellFormed (.basic id :: rest)) {e : Edge}
    (he : e ∈ g.edges) : e.dst ≠ g.entry := by
  rw [h.entry_eq]
  have hne : id ≠ 0 :=
    Nat.pos_iff_ne_zero.1 (f.mem_range_of_block? (Ir.Function.Node.block?_eq hf.stored.1)).1
  have hnodup := hf.nodup
  rw [Forest.ids, Ir.Tree.ids, List.singleton_append, List.nodup_cons] at hnodup
  have hrest : ∀ x ∈ Forest.ids rest, x ≠ id := fun x hx heq ↦ hnodup.1 (heq ▸ hx)
  have hd : Ir.Targets.All {} fun b ↦ b ≠ id := ⟨fun _ ↦ hne.symm, fun _ ↦ hne.symm⟩
  rw [h.edges_eq, Forest.edges, List.mem_append] at he
  rcases he with he | he
  · exact Ir.instrEdges_dst (P := fun b ↦ b ≠ id) hd
      (Ir.Forest.first_of_all (P := fun b ↦ b ≠ id) hrest hne.symm) he
  · exact ((Ir.Tree.edges_dst f fun b ↦ b ≠ id).2 rest {} 0 hd hne.symm hrest e he).1

end WasmBackend.Flow.Graph
