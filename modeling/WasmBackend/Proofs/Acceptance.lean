import WasmBackend.Proofs.Validity

/-!
# What a valid function is made of

`Function.Accepts` says what validation demands of a list of blocks, with one rule for each group
of block kinds and no bound on the depth.  The rules follow the checker: an `if` may have a second
list of blocks, which is checked like the first, while that list of a loop or breakable block is
not looked at.  Validation meets every block once, and since the constructs around a block are
different blocks, its depth never runs out.
-/

namespace WasmBackend.Ir

/-- Both variables of an assignment are among the first `n`. -/
def Copy.Within (n : Nat) (c : Copy) : Prop :=
  c.dst < n ∧ c.src < n

namespace Function

/-- Validation accepts a list of blocks inside `scope`; the last argument lists the blocks that it
meets there, in tree order. -/
inductive Accepts (f : Function) : List (BlockId × BlockKind) → List BlockId → List BlockId → Prop
  | nil {scope : List (BlockId × BlockKind)} : Accepts f scope [] []
  | basic {scope : List (BlockId × BlockKind)} {id : BlockId} {rest met : List BlockId}
      (hnode : f.Node id .basic [] [])
      (hinstrs : ∀ i ∈ (f.blockAt id).instrs, i.Within f.vars.size ∧ i.Aimed scope)
      (hexits : ∀ c ∈ (f.blockAt id).exitCopies, c.Within f.vars.size)
      (hrest : Accepts f scope rest met) : Accepts f scope (id :: rest) (id :: met)
  | choice {scope : List (BlockId × BlockKind)} {id : BlockId} {kind : BlockKind}
      {body other rest inside beside met : List BlockId} (hkind : kind = .cond ∨ kind = .branch)
      (hnode : f.Node id kind body other) (hcond : (f.blockAt id).cond < f.vars.size)
      (harounds : ∀ c ∈ (f.blockAt id).aroundCopies, c.Within f.vars.size)
      (hbody : Accepts f ((id, kind) :: scope) body inside)
      (hother : Accepts f ((id, kind) :: scope) other beside)
      (hrest : Accepts f scope rest met) :
      Accepts f scope (id :: rest) (id :: (inside ++ beside ++ met))
  | frame {scope : List (BlockId × BlockKind)} {id : BlockId} {kind : BlockKind}
      {body other rest inside met : List BlockId} (hkind : kind = .loop ∨ kind = .breakable)
      (hnode : f.Node id kind body other)
      (hentries : ∀ c ∈ (f.blockAt id).entryCopies, c.Within f.vars.size)
      (hbody : Accepts f ((id, kind) :: scope) body inside) (hrest : Accepts f scope rest met) :
      Accepts f scope (id :: rest) (id :: (inside ++ met))

/-- The constructs around the blocks being checked are different blocks that have been met, and
`depth` is what they leave of the depth the check starts with. -/
structure Nested (f : Function) (depth : Nat) (scope : List (BlockId × BlockKind))
    (r : Findings) : Prop where
  nodup : (scope.map Prod.fst).Nodup
  exist : ∀ x ∈ scope.map Prod.fst, 0 < x ∧ x ≤ f.blocks.size
  seen : ∀ x ∈ scope.map Prod.fst, x ∈ r.seen
  depth_eq : scope.length + depth = f.blocks.size + 2

section

variable {f : Function} {depth : Nat} {scope : List (BlockId × BlockKind)} {r r' : Findings}
  {id : BlockId}

theorem Nested.mono (h : f.Nested depth scope r) (hseen : ∀ x ∈ r.seen, x ∈ r'.seen) :
    f.Nested depth scope r' :=
  { h with seen := fun x hx ↦ hseen x (h.seen x hx) }

/-- The depth has not run out. -/
theorem Nested.depth_pos (h : f.Nested depth scope r) : 0 < depth := by
  have hlength := length_le_of_nodup h.nodup h.exist
  rw [List.length_map] at hlength
  have hdepth := h.depth_eq
  omega

/-- Entering a block that is met for the first time. -/
theorem Nested.enter (h : f.Nested (depth + 1) scope r) {b : Block} (hb : f.block? id = some b)
    (hid : id ∉ r.seen) (kind : BlockKind) (vs : List Violation) :
    f.Nested depth ((id, kind) :: scope) { seen := id :: r.seen, violations := vs } where
  nodup := List.nodup_cons.2 ⟨fun hmem ↦ hid (h.seen id hmem), h.nodup⟩
  exist := by
    intro x hx
    rcases List.mem_cons.1 hx with rfl | hx
    · exact f.mem_range_of_block? hb
    · exact h.exist x hx
  seen := by
    intro x hx
    rcases List.mem_cons.1 hx with rfl | hx
    · exact List.mem_cons_self
    · exact List.mem_cons_of_mem id (h.seen x hx)
  depth_eq := by
    have hdepth := h.depth_eq
    simp only [List.length_cons]
    omega

theorem instrs_flatMap_eq_nil {is : List Instr} :
    is.flatMap (f.instrViolations id scope) = [] ↔
      ∀ i ∈ is, i.Within f.vars.size ∧ i.Aimed scope := by
  rw [List.flatMap_eq_nil_iff]
  exact forall₂_congr fun _ _ ↦ f.instrViolations_eq_nil

/-- Checking only adds to the blocks that have been met. -/
theorem mem_seen_checkBlocks (f : Function) {ids : List BlockId} {x : BlockId}
    (hx : x ∈ r.seen) : x ∈ (f.checkBlocks depth scope r ids).seen := by
  induction depth generalizing scope r ids with
  | zero => exact hx
  | succ depth ih =>
    rw [checkBlocks]
    induction ids generalizing r with
    | nil => exact hx
    | cons id ids ihs =>
      rw [List.foldl_cons]
      refine ihs ?_
      split
      · exact hx
      · split
        · exact hx
        · split
          · exact List.mem_cons_of_mem _ hx
          · exact ih (ih (List.mem_cons_of_mem _ hx))
          · exact ih (ih (List.mem_cons_of_mem _ hx))
          · exact ih (List.mem_cons_of_mem _ hx)
          · exact ih (List.mem_cons_of_mem _ hx)
          · exact List.mem_cons_of_mem _ hx

/-- What checking the lists inside a block has to show. -/
def Checkable (f : Function) (depth : Nat) : Prop :=
  ∀ scope r ids, f.Nested depth scope r → (f.checkBlocks depth scope r ids).violations = [] →
    ∃ met, Findings.Clean r (f.checkBlocks depth scope r ids) met (f.Accepts scope ids met)

/-- Checking one block, and the blocks inside it, without finding anything. -/
theorem clean_of_checkBlocks_singleton (hinside : f.Checkable depth)
    (hnested : f.Nested (depth + 1) scope r)
    (hv : (f.checkBlocks (depth + 1) scope r [id]).violations = []) :
    ∃ met, Findings.Clean r (f.checkBlocks (depth + 1) scope r [id]) met
      (∀ rest met', f.Accepts scope rest met' → f.Accepts scope (id :: rest) (met ++ met')) := by
  simp only [checkBlocks, List.foldl_cons, List.foldl_nil] at hv ⊢
  split at hv
  · simp at hv
  rename_i b hb
  have hnode := f.node_of_block? hb
  have hblock : f.blockAt id = b := by rw [blockAt, hb, Option.getD_some]
  by_cases hseen : id ∈ r.seen
  · simp [hseen] at hv
  simp only [if_neg hseen] at hv ⊢
  cases hkind : b.kind with
  | basic =>
    simp only [hkind, List.append_assoc] at hv ⊢
    refine ⟨[id], (Findings.clean_enter hseen hv).imp fun hhere rest met' hrest ↦ ?_⟩
    simp only [List.append_eq_nil_iff, ite_eq_right_iff, List.cons_ne_nil, imp_false, not_or,
      ne_eq, not_not] at hhere
    obtain ⟨⟨hbody, hother⟩, hinstrs, hexits⟩ := hhere
    rw [hkind, hbody, hother] at hnode
    rw [← hblock] at hinstrs hexits
    exact .basic hnode (instrs_flatMap_eq_nil.1 hinstrs) (f.unknownCopyVars_eq_nil.1 hexits) hrest
  | cond | branch =>
    -- violations pile up, so there are none after the first list when there are none in the end
    simp only [hkind, List.append_assoc] at hv ⊢
    rw [hkind] at hnode
    have hnested' := fun kind ↦ hnested.enter hb hseen kind
      (r.violations ++ (f.unknownVars id [b.cond] ++ f.unknownCopyVars id b.aroundCopies))
    obtain ⟨beside, hother⟩ :=
      hinside _ _ _ ((hnested' _).mono fun _ ↦ f.mem_seen_checkBlocks) hv
    obtain ⟨inside, hbody⟩ := hinside _ _ _ (hnested' _) hother.before
    refine ⟨[id] ++ (inside ++ beside),
      ((Findings.clean_enter hseen hbody.before).append (hbody.append hother)).imp ?_⟩
    rintro ⟨hhere, haccepts, haccepts'⟩ rest met' hrest
    obtain ⟨hcond, harounds⟩ := List.append_eq_nil_iff.1 hhere
    rw [← hblock] at hcond harounds
    show f.Accepts scope (id :: rest) (id :: (inside ++ beside ++ met'))
    exact .choice (by simp) hnode (f.unknownVars_eq_nil.1 hcond _ (by simp))
      (f.unknownCopyVars_eq_nil.1 harounds) haccepts haccepts' hrest
  | loop | breakable =>
    simp only [hkind] at hv ⊢
    rw [hkind] at hnode
    obtain ⟨inside, hbody⟩ := hinside _ _ _ (hnested.enter hb hseen _ _) hv
    refine ⟨[id] ++ inside, ((Findings.clean_enter hseen hbody.before).append hbody).imp ?_⟩
    rintro ⟨hentries, haccepts⟩ rest met' hrest
    rw [← hblock] at hentries
    exact .frame (by simp) hnode (f.unknownCopyVars_eq_nil.1 hentries) haccepts hrest
  | unknown c hc => simp [hkind] at hv

/-- The depth suffices for all lists inside the constructs that leave it. -/
theorem checkable (f : Function) (depth : Nat) : f.Checkable depth := by
  induction depth with
  | zero => exact fun _ _ _ hnested ↦ absurd hnested.depth_pos (lt_irrefl 0)
  | succ depth ih =>
    intro scope r ids hnested hv
    induction ids generalizing r with
    | nil => exact ⟨[], hv, List.nodup_nil, by simp, by simp [checkBlocks], .nil⟩
    | cons id ids ihs =>
      have hsplit : f.checkBlocks (depth + 1) scope r (id :: ids) =
          f.checkBlocks (depth + 1) scope (f.checkBlocks (depth + 1) scope r [id]) ids := rfl
      rw [hsplit] at hv ⊢
      obtain ⟨met', hrest⟩ := ihs _ (hnested.mono fun _ ↦ f.mem_seen_checkBlocks) hv
      obtain ⟨met, hfirst⟩ := clean_of_checkBlocks_singleton ih hnested hrest.before
      exact ⟨met ++ met', (hfirst.append hrest).imp fun h ↦ h.1 _ _ h.2⟩

/-- What validation accepts is accepted by the rules, and no block is met twice. -/
theorem accepts_of_isValid (h : f.isValid) : ∃ met, f.Accepts [] f.body met ∧ met.Nodup := by
  have hv : (f.checkBlocks (f.treeDepth + 1) [] {} f.body).violations = [] := by
    simpa [isValid, violations] using h
  have hnested : f.Nested (f.treeDepth + 1) [] {} :=
    ⟨List.nodup_nil, by simp, by simp, by simp [treeDepth]⟩
  obtain ⟨met, hclean⟩ := f.checkable _ _ _ _ hnested hv
  exact ⟨met, hclean.checked, hclean.nodup⟩

end

end Function

end WasmBackend.Ir
