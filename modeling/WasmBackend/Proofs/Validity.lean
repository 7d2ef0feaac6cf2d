import WasmBackend.Proofs.Shape

/-!
# What validation accepts

Validation finds nothing wrong with trees that are stored in the arena, in which no block occurs
twice and of which every single block passes.  With `Function.wellFormed_of_isValid` this makes
`WellFormed` exactly what validation checks.
-/

namespace WasmBackend.Ir

section

variable {f f' : Function} {scope : List (BlockId × BlockKind)}

theorem Function.unknownVars_eq_nil {b : BlockId} {vs : List Var} :
    f.unknownVars b vs = [] ↔ ∀ v ∈ vs, v < f.vars.size := by
  unfold unknownVars
  simp [List.filter_eq_nil_iff]

theorem Function.unknownCopyVars_eq_nil {b : BlockId} {cs : List Copy} :
    f.unknownCopyVars b cs = [] ↔ ∀ c ∈ cs, c.dst < f.vars.size ∧ c.src < f.vars.size := by
  unfold unknownCopyVars
  rw [unknownVars_eq_nil]
  simp only [List.mem_flatMap, List.mem_cons, List.not_mem_nil, or_false]
  constructor
  · intro h c hc
    exact ⟨h c.dst ⟨c, hc, .inl rfl⟩, h c.src ⟨c, hc, .inr rfl⟩⟩
  · intro h v hv
    obtain ⟨c, hc, rfl | rfl⟩ := hv
    · exact (h c hc).1
    · exact (h c hc).2

/-- A branch may be where it is: nothing is wrong with where it goes. -/
def Instr.Aimed (scope : List (BlockId × BlockKind)) (i : Instr) : Prop :=
  i.isBranch → ∀ b, Function.branchViolations b scope i = []

theorem Function.branchViolations_eq_nil {b c : BlockId} {i : Instr}
    (h : branchViolations b scope i = []) : branchViolations c scope i = [] := by
  unfold branchViolations at *
  split at h
  · cases h
  · simp only [List.append_eq_nil_iff, ite_eq_right_iff, List.cons_ne_nil, imp_false] at h ⊢
    exact h

theorem Function.instrViolations_eq_nil {b : BlockId} {i : Instr} :
    f.instrViolations b scope i = [] ↔ i.Within f.vars.size ∧ i.Aimed scope := by
  unfold instrViolations
  simp only [List.append_eq_nil_iff, unknownVars_eq_nil, unknownCopyVars_eq_nil,
    ite_eq_right_iff]
  constructor
  · intro h
    exact ⟨⟨h.1.1.1, h.1.1.2, h.1.2⟩, fun hi c ↦ branchViolations_eq_nil (h.2 hi)⟩
  · intro h
    exact ⟨⟨⟨h.1.dst, h.1.args⟩, h.1.copies⟩, fun hi ↦ h.2 hi b⟩

/-! ## Checking trees -/

/-- What checking a part of a function adds to the findings: the blocks of the part. -/
structure Findings.Passes (r r' : Findings) (ids : List BlockId) : Prop where
  clean : r'.violations = []
  seen_iff : ∀ id, id ∈ r'.seen ↔ id ∈ ids ∨ id ∈ r.seen

theorem Findings.Passes.trans {r r' r'' : Findings} {ids ids' : List BlockId}
    (h : Findings.Passes r r' ids) (h' : Findings.Passes r' r'' ids') :
    Findings.Passes r r'' (ids ++ ids') where
  clean := h'.clean
  seen_iff id := by
    rw [h'.seen_iff, h.seen_iff, List.mem_append]
    tauto

/-- Nothing is found in blocks that are stored, occur once and pass. -/
theorem Function.passes_checkBlocks (f : Function) :
    (∀ t : Tree, ∀ depth scope r, t.height ≤ depth → t.Stored f → t.Checked f scope →
        t.ids.Nodup → (∀ id ∈ t.ids, id ∉ r.seen) → r.violations = [] →
        Findings.Passes r (f.checkBlocks (depth + 1) scope r [t.id]) t.ids) ∧
      ∀ ts : Forest, ∀ depth scope r, Forest.height ts ≤ depth → Forest.Stored f ts →
        Forest.Checked f scope ts → (Forest.ids ts).Nodup →
        (∀ id ∈ Forest.ids ts, id ∉ r.seen) → r.violations = [] →
        Findings.Passes r (f.checkBlocks depth scope r (Forest.roots ts)) (Forest.ids ts) := by
  -- what is seen once the block itself has been entered
  have enter {r : Findings} {id : BlockId} {ids : List BlockId} {vs : List Violation}
      (hnodup : (id :: ids).Nodup) (hseen : ∀ x ∈ id :: ids, x ∉ r.seen)
      (hr : r.violations = []) (hvs : vs = []) :
      Findings.Passes r { seen := id :: r.seen, violations := r.violations ++ vs } [id]
        ∧ ∀ x ∈ ids, x ∉ id :: r.seen := by
    refine ⟨⟨by simp [hr, hvs], by simp⟩, fun x hx hmem ↦ ?_⟩
    rcases List.mem_cons.1 hmem with rfl | hmem
    · exact (List.nodup_cons.1 hnodup).1 hx
    · exact hseen x (List.mem_cons_of_mem id hx) hmem
  refine Tree.induction ?basic ?cond ?branch ?loop ?breakable ?nil ?cons
  case basic =>
    intro id depth scope r _ h hchecked hnodup hseen hr
    obtain ⟨hpass, -⟩ := enter hnodup hseen hr (List.append_eq_nil_iff.2 hchecked)
    simp only [checkBlocks, Tree.id, List.foldl_cons, List.foldl_nil, h.block?_eq, h.kind_eq,
      h.body_eq, h.otherwise_eq, ne_eq, not_true_eq_false, or_self, if_false, List.nil_append,
      List.append_assoc, if_neg (hseen id List.mem_cons_self)]
    exact hpass
  case cond =>
    intro id body ih depth scope r hd h hchecked hnodup hseen hr
    obtain ⟨hpass, hrest⟩ := enter hnodup hseen hr
      (List.append_eq_nil_iff.2 ⟨hchecked.1, hchecked.2.1⟩)
    simp only [checkBlocks, Tree.id, List.foldl_cons, List.foldl_nil, h.1.block?_eq, h.1.kind_eq,
      h.1.body_eq, h.1.otherwise_eq, checkBlocks_nil, List.append_assoc,
      if_neg (hseen id List.mem_cons_self)]
    exact hpass.trans (ih depth _ _ hd h.2 hchecked.2.2 (List.nodup_cons.1 hnodup).2 hrest
      hpass.clean)
  case branch =>
    intro id body other ih ih' depth scope r hd h hchecked hnodup hseen hr
    obtain ⟨hpass, hrest⟩ := enter hnodup hseen hr
      (List.append_eq_nil_iff.2 ⟨hchecked.1, hchecked.2.1⟩)
    obtain ⟨hbodies, hothers, hdisjoint⟩ := List.nodup_append.1 (List.nodup_cons.1 hnodup).2
    simp only [checkBlocks, Tree.id, List.foldl_cons, List.foldl_nil, h.1.block?_eq, h.1.kind_eq,
      h.1.body_eq, h.1.otherwise_eq, List.append_assoc, if_neg (hseen id List.mem_cons_self)]
    have hbody := ih depth ((id, .branch) :: scope) _ (Nat.max_le.1 hd).1 h.2.1 hchecked.2.2.1
      hbodies (fun x hx ↦ hrest x (List.mem_append_left _ hx)) hpass.clean
    refine hpass.trans (hbody.trans (ih' depth _ _ (Nat.max_le.1 hd).2 h.2.2 hchecked.2.2.2
      hothers (fun x hx hmem ↦ ?_) hbody.clean))
    rcases (hbody.seen_iff x).1 hmem with hmem | hmem
    · exact hdisjoint x hmem x hx rfl
    · exact hrest x (List.mem_append_right _ hx) hmem
  case loop | breakable =>
    intro id body ih depth scope r hd h hchecked hnodup hseen hr
    obtain ⟨hpass, hrest⟩ := enter hnodup hseen hr hchecked.1
    simp only [checkBlocks, Tree.id, List.foldl_cons, List.foldl_nil, h.1.block?_eq, h.1.kind_eq,
      h.1.body_eq, if_neg (hseen id List.mem_cons_self)]
    exact hpass.trans (ih depth _ _ hd h.2 hchecked.2 (List.nodup_cons.1 hnodup).2 hrest
      hpass.clean)
  case nil =>
    intro depth scope r _ _ _ _ _ hr
    simp only [Forest.roots, List.map_nil, checkBlocks_nil]
    exact ⟨hr, by simp [Forest.ids]⟩
  case cons =>
    intro t ts ih ihs depth scope r hd h hchecked hnodup hseen hr
    simp only [Forest.height] at hd
    obtain ⟨depth, rfl⟩ := Nat.exists_eq_add_one_of_ne_zero (n := depth) (by omega)
    obtain ⟨htree, hforest, hdisjoint⟩ := List.nodup_append.1 hnodup
    have hfirst := ih depth scope r (by omega) h.1 hchecked.1 htree
      (fun x hx ↦ hseen x (List.mem_append_left _ hx)) hr
    refine hfirst.trans (ihs (depth + 1) scope _ (by omega) h.2 hchecked.2 hforest
      (fun x hx hmem ↦ ?_) hfirst.clean)
    rcases (hfirst.seen_iff x).1 hmem with hmem | hmem
    · exact hdisjoint x hmem x hx rfl
    · exact hseen x (List.mem_append_right _ hx) hmem

/-- Validation finds nothing wrong with well-formed trees. -/
theorem Function.isValid_of_wellFormed {ts : Forest} (h : f.WellFormed ts) : f.isValid := by
  have hpasses := f.passes_checkBlocks.2 ts (f.treeDepth + 1) [] {}
    (Nat.le_succ_of_le h.height_le) h.stored h.checked h.nodup (by simp) rfl
  unfold isValid violations
  rw [h.body_eq, hpasses.clean]
  rfl

end

end WasmBackend.Ir
