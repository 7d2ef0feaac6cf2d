import WasmBackend.Proofs.Lookups
import WasmBackend.Proofs.SingleAssignment.Fixpoint

/-!
# One look at a block

A look at a block of a valid function always returns, whatever rounds came before it.  It changes
only what is known about that block, it keeps the merges and the names of results that are there,
and it passes on what arrives, as the merges decide it.  Nothing here asks where names come from,
and a function may have more parameters than variables: the parameters beyond are called what they
are wherever they arrive, so no merge of them is ever made.
-/

namespace WasmBackend.SingleAssignment

open Ir (BlockId Block BlockKind Function Instr Var)
open WasmBackend.Flow (Graph Edge)
open Stage (Succeeds)

/-- Only variables of the function have names, and parameters beyond them their own. -/
def Env.Regular (f : Function) (env : Env) : Prop :=
  ∀ v name, env v = some name → v < f.vars.size ∨ v < f.params.length ∧ name = v

/-- What holds of the names at a block at any time. -/
structure BlockNames.Regular (f : Function) (id : BlockId) (k : BlockNames) : Prop where
  merges_lt : ∀ p ∈ k.merges, p.1 < f.vars.size
  merges_nodup : (k.merges.map Prod.fst).Nodup
  out : ∀ o, k.out = some o → o.Trim ∧ Env.Regular f (Names.get? o)
  branches : ∀ p ∈ k.branches, Env.Regular f (Names.get? p.2)
  branches_eq : (f.blockAt id).kind ≠ .basic → k.branches = []

/-- What holds of names at any time. -/
structure Renaming.Regular (f : Function) (r : Renaming) : Prop where
  blocks_size : r.blocks.size = f.blocks.size + 1
  size_le : f.vars.size ≤ r.vars.size
  block : ∀ b, (r.block b).Regular f b

/-- A block that can be looked at: it exists, and so do the variables it defines. -/
structure Readable (f : Function) (id : BlockId) : Prop where
  block?_eq : f.block? id = some (f.blockAt id)
  id_le : id ≤ f.blocks.size
  dst_lt : (f.blockAt id).kind = .basic →
    ∀ i ∈ (f.blockAt id).instrs, ∀ v ∈ i.dst, v < f.vars.size

/-! ## Tables behind instructions -/

namespace Names

theorem Trim.define {n : Names} (h : n.Trim) (i : Instr) (defs : List Var) :
    (Renaming.define n i defs).Trim := by
  unfold Renaming.define
  generalize i.dst.zip defs = pairs
  induction pairs generalizing n with
  | nil => exact h
  | cons p pairs ih => exact ih (h.set p.1 p.2)

theorem Trim.through {n : Names} (h : n.Trim) (k : Nat) (is : List (Instr × List Var)) :
    (Renaming.through n k is).1.Trim := by
  induction is generalizing n k with
  | nil => exact h
  | cons p is ih => exact ih (h.define p.1 p.2) (k + 1)

/-- Behind an instruction a variable is called as before it, or as the instruction says. -/
theorem get?_define_or (i : Instr) (defs : List Var) (v : Var) :
    (∃ name, ∀ n, get? (Renaming.define n i defs) v = some name) ∨
      ∀ n, get? (Renaming.define n i defs) v = get? n v := by
  unfold Renaming.define
  generalize i.dst.zip defs = pairs
  induction pairs with
  | nil => exact .inr fun _ ↦ rfl
  | cons p pairs ih =>
    obtain ⟨name, hname⟩ | hkept := ih
    · exact .inl ⟨name, fun n ↦ hname _⟩
    · by_cases hv : v = p.1
      · exact .inl ⟨p.2, fun n ↦ by rw [List.foldl_cons, hkept, get?_set, if_pos hv]⟩
      · exact .inr fun n ↦ by rw [List.foldl_cons, hkept, get?_set, if_neg hv]

/-- At the end of instructions a variable is called as before them, or always the same. -/
theorem get?_through_or (k : Nat) (is : List (Instr × List Var)) (v : Var) :
    (∃ name, ∀ n, get? (Renaming.through n k is).1 v = some name) ∨
      ∀ n, get? (Renaming.through n k is).1 v = get? n v := by
  induction is generalizing k with
  | nil => exact .inr fun _ ↦ rfl
  | cons p is ih =>
    obtain ⟨name, hname⟩ | hkept := ih (k + 1)
    · exact .inl ⟨name, fun n ↦ hname _⟩
    · obtain ⟨name, hname⟩ | hkept' := get?_define_or p.1 p.2 v
      · exact .inl ⟨name, fun n ↦ (hkept _).trans (hname n)⟩
      · exact .inr fun n ↦ (hkept _).trans (hkept' n)

/-- So it is at every branch among them. -/
theorem get?_lookup_through_or (k j : Nat) (is : List (Instr × List Var)) (v : Var) :
    (∃ name?, ∀ n, ((Renaming.through n k is).2.lookup j).bind (get? · v) = name?) ∨
      ∀ n, ((Renaming.through n k is).2.lookup j).bind (get? · v) = get? n v := by
  induction is generalizing k with
  | nil => exact .inl ⟨none, fun _ ↦ rfl⟩
  | cons p is ih =>
    have hdefine := get?_define_or p.1 p.2 v
    simp only [Renaming.through]
    by_cases hbranch : p.1.isBranch ∧ j = k
    · simp only [hbranch.1, if_true, hbranch.2, List.lookup_cons_self, Option.bind_some]
      obtain ⟨name, hname⟩ | hkept := hdefine
      · exact .inl ⟨some name, hname⟩
      · exact .inr hkept
    · have hlookup (n : Names) :
          (if p.1.isBranch then (k, Renaming.define n p.1 p.2) ::
              (Renaming.through (Renaming.define n p.1 p.2) (k + 1) is).2
            else (Renaming.through (Renaming.define n p.1 p.2) (k + 1) is).2).lookup j =
            (Renaming.through (Renaming.define n p.1 p.2) (k + 1) is).2.lookup j := by
        split
        · rename_i hp
          have hj : (j == k) = false := beq_eq_false_iff_ne.2 fun hj ↦ hbranch ⟨hp, hj⟩
          rw [List.lookup_cons, hj]
        · rfl
      simp only [hlookup]
      obtain ⟨name?, hname⟩ | hkept := ih (k + 1)
      · exact .inl ⟨name?, fun n ↦ hname _⟩
      · obtain ⟨name, hname⟩ | hkept' := hdefine
        · exact .inl ⟨some name, fun n ↦ (hkept _).trans (hname n)⟩
        · exact .inr fun n ↦ (hkept _).trans (hkept' n)

end Names

section

variable {f : Function}

theorem Env.Regular.define {n : Names} (h : Env.Regular f (Names.get? n)) {i : Instr}
    (hi : ∀ v ∈ i.dst, v < f.vars.size) (defs : List Var) :
    Env.Regular f (Names.get? (Renaming.define n i defs)) := by
  unfold Renaming.define
  have hpairs : ∀ p ∈ i.dst.zip defs, p.1 < f.vars.size := fun p hp ↦ hi _ (List.of_mem_zip hp).1
  generalize i.dst.zip defs = pairs at hpairs
  induction pairs generalizing n with
  | nil => exact h
  | cons p pairs ih =>
    refine ih (fun v name hname ↦ ?_) fun q hq ↦ hpairs q (List.mem_cons_of_mem p hq)
    rw [Names.get?_set] at hname
    split at hname
    · rename_i hv
      exact .inl (hv ▸ hpairs p List.mem_cons_self)
    · exact h v name hname

theorem Env.Regular.through {n : Names} (h : Env.Regular f (Names.get? n)) (k : Nat)
    {is : List (Instr × List Var)} (his : ∀ p ∈ is, ∀ v ∈ p.1.dst, v < f.vars.size) :
    Env.Regular f (Names.get? (Renaming.through n k is).1) ∧
      ∀ p ∈ (Renaming.through n k is).2, Env.Regular f (Names.get? p.2) := by
  induction is generalizing n k with
  | nil => exact ⟨h, by simp [Renaming.through]⟩
  | cons p is ih =>
    have hdefine := h.define (his p List.mem_cons_self) p.2
    obtain ⟨hout, hbranches⟩ := ih hdefine (k + 1) fun q hq ↦ his q (List.mem_cons_of_mem p hq)
    refine ⟨hout, fun q hq ↦ ?_⟩
    simp only [Renaming.through] at hq
    split at hq
    · obtain rfl | hq := List.mem_cons.1 hq
      · exact hdefine
      · exact hbranches q hq
    · exact hbranches q hq

end

namespace Renaming

variable {f : Function} {g : Graph} {r r' : Renaming} {id : BlockId}

theorem block_of_blocks_eq (h : r'.blocks = r.blocks) (b : BlockId) : r'.block b = r.block b := by
  unfold block
  rw [h]

theorem Regular.lt_size (h : r.Regular f) (hid : id ≤ f.blocks.size) : id < r.blocks.size := by
  rw [h.blocks_size]
  exact Nat.lt_succ_of_le hid

theorem Regular.block_modify (h : r.Regular f) (hid : id ≤ f.blocks.size)
    (k : BlockNames → BlockNames) (b : BlockId) :
    Renaming.block { r with blocks := r.blocks.modify id k } b =
      if b = id then k (r.block id) else r.block b :=
  Renaming.block_modify r (h.lt_size hid) k b

theorem Regular.modify (h : r.Regular f) (hid : id ≤ f.blocks.size) {k : BlockNames → BlockNames}
    (hk : (k (r.block id)).Regular f id) :
    Renaming.Regular f { r with blocks := r.blocks.modify id k } where
  blocks_size := by simpa using h.blocks_size
  size_le := h.size_le
  block b := by
    rw [h.block_modify hid]
    split
    · rename_i hb
      exact hb ▸ hk
    · exact h.block b

theorem Regular.of_blocks (h : r.Regular f) (hblocks : r'.blocks = r.blocks)
    (hsize : r.vars.size ≤ r'.vars.size) : r'.Regular f where
  blocks_size := by rw [hblocks, h.blocks_size]
  size_le := h.size_le.trans hsize
  block b := by
    rw [block_of_blocks_eq hblocks]
    exact h.block b

theorem regular_ofFunction (f : Function) : (ofFunction f).Regular f where
  blocks_size := by simp [ofFunction]
  size_le := Nat.le_refl _
  block b := by
    rw [block_ofFunction]
    exact ⟨by simp, by simp, by simp, by simp, fun _ ↦ rfl⟩

/-- A new name for a variable of the function. -/
theorem fresh_succeeds (h : r.Regular f) {v : Var} (hv : v < f.vars.size) :
    Succeeds (fresh f v) r fun _ r' ↦ r'.blocks = r.blocks ∧ r.vars.size ≤ r'.vars.size := by
  have hlt : v < r.vars.size := hv.trans_le h.size_le
  have hprim : r.vars[v]? = some r.vars[v] :=
    Array.getElem?_eq_getElem hlt
  unfold fresh
  simp [Succeeds, Function.varPrim, hprim]

/-! ## The head of a block -/

theorem Regular.incoming (h : r.Regular f) (g : Graph) (b : BlockId) :
    ∀ n ∈ r.incoming f g b, Env.Regular f (Names.get? n) := by
  refine forall_mem_incoming (fun v name hname ↦ ?_) (fun c o ho ↦ ((h.block c).out o ho).2)
    fun c ↦ (h.block c).branches
  rw [Names.get?_paramNames] at hname
  split at hname
  · exact .inr ⟨‹_›, (Option.some.inj hname).symm⟩
  · cases hname

/-- Only names of a variable of the function can be different. -/
theorem Regular.lt_of_disputed (h : r.Regular f) {b : BlockId} {merges : List (Var × Var)} {v : Var}
    (hv : ¬Undisputed merges v (arriving (r.incoming f g b) v)) : v < f.vars.size := by
  by_contra hle
  have hself : ∀ n ∈ arriving (r.incoming f g b) v, n = v := by
    intro n hn
    obtain ⟨t, ht, hget⟩ := List.mem_filterMap.1 hn
    exact ((h.incoming g b t ht v n hget).resolve_left hle).2
  exact hv fun _ n hn n' hn' ↦ (hself n hn).trans (hself n' hn').symm

theorem headName_succeeds (h : r.Regular f) (hid : id ≤ f.blocks.size) (v : Var)
    (names : List Var) (hlt : ¬Undisputed (r.block id).merges v names → v < f.vars.size) :
    Succeeds (headName f id v names) r fun _ r' ↦ r'.Regular f := by
  refine meets_headName (fun _ ↦ h) fun hdisputed _ hnone ↦
    (fresh_succeeds h (hlt hdisputed)).imp ?_
  rintro merge t ⟨hblocks, hsize⟩
  have ht := h.of_blocks hblocks hsize
  have hk := ht.block id
  rw [← block_of_blocks_eq hblocks] at hnone
  refine ht.modify hid ⟨fun p hp ↦ ?_, nodup_append_singleton hk.merges_nodup hnone merge, hk.out,
    hk.branches, hk.branches_eq⟩
  obtain hp | hp := List.mem_append.1 hp
  · exact hk.merges_lt p hp
  · rw [List.mem_singleton.1 hp]
    exact hlt hdisputed

theorem headNames_succeeds (h : r.Regular f) (hid : id ≤ f.blocks.size) :
    Succeeds (headNames f g id) r fun names r' ↦ r'.Regular f ∧ HeadFound f g id r names r' := by
  have hreturns : Succeeds (headNames f g id) r fun _ r' ↦ r'.Regular f ∧ OnlyMerges id r r' := by
    unfold headNames
    rw [Succeeds, Stage.meets_bind, Stage.meets_get]
    refine Stage.meets_foldlM (fun _ _ t ↦ t.Regular f ∧ OnlyMerges id r t)
      ⟨h, OnlyMerges.refl id r⟩ ?_
    rintro done v rest names t - ⟨ht, honly⟩
    have hincoming := (sameFlow_of_onlyMerges honly).incoming_eq (f := f) g id
    rw [Stage.meets_bind]
    refine ((headName_succeeds ht hid v _ fun hdisputed ↦ ht.lt_of_disputed (g := g) (b := id)
      (hincoming ▸ hdisputed)).and (headName_ensures (ht.lt_size hid) v _)).imp ?_
    rintro (_ | name) t' ⟨ht', hfound⟩
    · exact ⟨ht', honly.trans hfound.only⟩
    · exact ⟨ht', honly.trans hfound.only⟩
  exact (hreturns.and (headNames_found f g (h.lt_size hid))).imp fun _ _ hr ↦ ⟨hr.1.1, hr.2⟩

/-- The names at a head are names of variables of the function, or of parameters. -/
theorem Regular.headEnv (h : r.Regular f) (g : Graph) (b : BlockId) :
    (headEnv f g r b).Regular f := by
  intro v name hname
  obtain hmerge | ⟨n, hn, hget⟩ := mem_of_headEnv_eq hname
  · exact .inl ((h.block b).merges_lt (v, name) hmerge)
  · exact h.incoming g b n hn v name hget

/-! ## The instructions of a block -/

theorem mapM_fresh_succeeds (h : r.Regular f) {vs : List Var} (hvs : ∀ v ∈ vs, v < f.vars.size) :
    Succeeds (vs.mapM (fresh f)) r fun _ r' ↦
      r'.blocks = r.blocks ∧ r.vars.size ≤ r'.vars.size := by
  refine Stage.meets_mapM (fun _ _ (t : Renaming) ↦ t.blocks = r.blocks
    ∧ r.vars.size ≤ t.vars.size) ⟨rfl, Nat.le_refl _⟩ ?_
  rintro done v rest names t hl ⟨hblocks, hsize⟩
  refine (fresh_succeeds (h.of_blocks hblocks hsize) (hvs v (by simp [hl]))).imp ?_
  rintro _ t' ⟨hblocks', hsize'⟩
  exact ⟨hblocks'.trans hblocks, hsize.trans hsize'⟩

theorem defNames_succeeds (h : r.Regular f) (hid : id ≤ f.blocks.size) {b : Block}
    (hb : ∀ i ∈ b.instrs, ∀ v ∈ i.dst, v < f.vars.size) :
    Succeeds (defNames f id b) r fun ds r' ↦ r'.Regular f ∧ (∀ c ≠ id, r'.block c = r.block c)
      ∧ r'.block id = { r.block id with defs := some ds }
      ∧ ∀ ds', (r.block id).defs = some ds' → ds = ds' := by
  unfold defNames
  rw [Succeeds, Stage.meets_bind, Stage.meets_get]
  split
  · rename_i ds hds
    exact ⟨h, fun _ _ ↦ rfl, by rw [← hds], fun ds' hds' ↦ Option.some.inj (hds.symm.trans hds')⟩
  · rename_i hnone
    rw [Stage.meets_bind]
    refine (Stage.meets_mapM (fun _ _ (t : Renaming) ↦ t.blocks = r.blocks
      ∧ r.vars.size ≤ t.vars.size) ⟨rfl, Nat.le_refl _⟩ ?_).imp ?_
    · rintro done i rest ds t hl ⟨hblocks, hsize⟩
      refine (mapM_fresh_succeeds (h.of_blocks hblocks hsize) (hb i (by simp [hl]))).imp ?_
      rintro _ t' ⟨hblocks', hsize'⟩
      exact ⟨hblocks'.trans hblocks, hsize.trans hsize'⟩
    · rintro ds t ⟨hblocks, hsize⟩
      have hsame := block_of_blocks_eq hblocks
      have ht := h.of_blocks hblocks hsize
      have hblock := ht.block_modify hid fun k ↦ { k with defs := some ds }
      simp only [update, Stage.meets_bind, Stage.meets_modify, Stage.meets_pure]
      have hk := ht.block id
      refine ⟨ht.modify hid ⟨hk.merges_lt, hk.merges_nodup, hk.out, hk.branches, hk.branches_eq⟩,
        fun c hc ↦ ?_, ?_, fun ds' hds' ↦ ?_⟩
      · rw [hblock, if_neg hc, hsame]
      · rw [hblock, if_pos rfl, hsame]
      · rw [hnone] at hds'
        cases hds'

/-- What goes on from the head of a block: through the instructions of a basic block under the
names of their results, and unchanged into or around any other block. -/
structure Carried (f : Function) (id : BlockId) (names : Names) (k : BlockNames) (out : Names) :
    Prop where
  basic : (f.blockAt id).kind = .basic → ∃ ds, k.defs = some ds
    ∧ through names 0 ((f.blockAt id).instrs.zip ds) = (out, k.branches)
  other : (f.blockAt id).kind ≠ .basic → out = names ∧ k.branches = []

theorem transfer_succeeds (h : r.Regular f) (hid : Readable f id) {names : Names}
    (htrim : names.Trim) (hnames : Env.Regular f (Names.get? names)) :
    Succeeds (transfer f id (f.blockAt id) names) r fun out r' ↦ r'.Regular f
      ∧ (∀ c ≠ id, r'.block c = r.block c) ∧ (r'.block id).merges = (r.block id).merges
      ∧ (r'.block id).out = (r.block id).out
      ∧ (∀ ds, (r.block id).defs = some ds → (r'.block id).defs = some ds)
      ∧ out.Trim ∧ Env.Regular f (Names.get? out) ∧ Carried f id names (r'.block id) out := by
  unfold transfer
  split
  · rename_i hkind
    exact ⟨h, fun _ _ ↦ rfl, rfl, rfl, fun _ hds ↦ hds, htrim, hnames,
      fun hbasic ↦ absurd hbasic hkind, fun _ ↦ ⟨rfl, (h.block id).branches_eq hkind⟩⟩
  · rename_i hkind
    rw [ne_eq, not_not] at hkind
    simp only [Stage.meets_bind]
    refine (defNames_succeeds h hid.id_le (hid.dst_lt hkind)).imp ?_
    rintro ds t ⟨hregular, hothers, hhere, hfirst⟩
    have hblock := hregular.block_modify hid.id_le
      fun k ↦ { k with branches := (through names 0 ((f.blockAt id).instrs.zip ds)).2 }
    have hdst : ∀ p ∈ (f.blockAt id).instrs.zip ds, ∀ v ∈ p.1.dst, v < f.vars.size :=
      fun p hp ↦ hid.dst_lt hkind p.1 (List.of_mem_zip hp).1
    obtain ⟨hout, hbranches⟩ := hnames.through 0 hdst
    have hk := hregular.block id
    simp only [update, Stage.meets_modify, Stage.meets_pure]
    refine ⟨hregular.modify hid.id_le ⟨hk.merges_lt, hk.merges_nodup, hk.out, hbranches,
      fun hother ↦ absurd hkind hother⟩, fun c hc ↦ ?_, ?_, ?_, fun ds' hds' ↦ ?_,
      htrim.through 0 _, hout, fun _ ↦ ⟨ds, ?_, ?_⟩, fun hother ↦ absurd hkind hother⟩
    · rw [hblock, if_neg hc, hothers c hc]
    · rw [hblock, if_pos rfl, hhere]
    · rw [hblock, if_pos rfl, hhere]
    · rw [hblock, if_pos rfl, hhere, hfirst ds' hds']
    · rw [hblock, if_pos rfl, hhere]
    · rw [hblock, if_pos rfl]

/-! ## The whole look -/

/-- What one look at a block does. -/
structure Look (f : Function) (g : Graph) (id : BlockId) (r : Renaming) (changed : Bool)
    (r' : Renaming) : Prop where
  regular : r'.Regular f
  others : ∀ c ≠ id, r'.block c = r.block c
  merges : (r.block id).merges <+: (r'.block id).merges
  defs : ∀ ds, (r.block id).defs = some ds → (r'.block id).defs = some ds
  undisputed : ∀ v, Undisputed (r'.block id).merges v (arriving (r.incoming f g id) v)
  carried : ∃ names out, (∀ v, Names.get? names v =
      chosen (r'.block id).merges v (arriving (r.incoming f g id) v))
    ∧ (r'.block id).out = some out ∧ Carried f id names (r'.block id) out
  changed_iff : changed = false ↔ (r'.block id).out = (r.block id).out

/-- A look at a block returns. -/
theorem visit_succeeds (h : r.Regular f) (hid : Readable f id) :
    Succeeds (visit f g id) r fun changed r' ↦ Look f g id r changed r' := by
  unfold visit
  simp only [Stage.meets_bind, Stage.meets_ofExcept, Function.block_of_block? hid.block?_eq]
  refine (headNames_succeeds h hid.id_le).imp ?_
  rintro names r₁ ⟨hregular₁, hhead⟩
  have hincoming : r₁.incoming f g id = r.incoming f g id :=
    (sameFlow_of_onlyMerges hhead.only).incoming_eq g id
  have hnames : Env.Regular f (Names.get? names) := by
    rw [hhead.get?_eq]
    exact hregular₁.headEnv g id
  have hundisputed := hhead.undisputed
  rw [hincoming] at hundisputed
  refine (transfer_succeeds hregular₁ hid hhead.trim hnames).imp ?_
  rintro out r₂ ⟨hregular, hothers, hmerges, hout, hdefs, htrim, hreg, hcarried⟩
  have hothers' (c : BlockId) (hc : c ≠ id) : r₂.block c = r.block c := by
    rw [hothers c hc, hhead.only.others c hc]
  have hdefs' (ds : List (List Var)) (hds : (r.block id).defs = some ds) :
      (r₂.block id).defs = some ds := hdefs ds (by rw [hhead.only.here]; exact hds)
  have hold : (r₂.block id).out = (r.block id).out := by rw [hout, hhead.only.here]
  have hprefix : (r.block id).merges <+: (r₂.block id).merges := hmerges ▸ hhead.merges
  have hget (v : Var) : Names.get? names v =
      chosen (r₂.block id).merges v (arriving (r.incoming f g id) v) := by
    rw [hhead.get?_eq, headEnv, hmerges, hincoming]
  rw [Stage.meets_get]
  split
  · rename_i hsame
    exact ⟨hregular, hothers', hprefix, hdefs', hmerges ▸ hundisputed,
      ⟨names, out, hget, hsame, hcarried⟩, iff_of_true rfl hold⟩
  · rename_i hdifferent
    have hblock := hregular.block_modify hid.id_le fun k ↦ { k with out := some out }
    have hhere := (hblock id).trans (if_pos rfl)
    have hk := hregular.block id
    simp only [update, Stage.meets_bind, Stage.meets_modify, Stage.meets_pure]
    refine ⟨hregular.modify hid.id_le ⟨hk.merges_lt, hk.merges_nodup, ?_, hk.branches,
      hk.branches_eq⟩, fun c hc ↦ by rw [hblock, if_neg hc, hothers' c hc], ?_, ?_, ?_,
      ⟨names, out, ?_, ?_, ?_⟩, ?_⟩
    · rintro _ ⟨⟩
      exact ⟨htrim, hreg⟩
    · rw [hhere]
      exact hprefix
    · rw [hhere]
      exact hdefs'
    · rw [hhere]
      exact hmerges ▸ hundisputed
    · rw [hhere]
      exact hget
    · rw [hhere]
    · rw [hhere]
      exact ⟨hcarried.basic, hcarried.other⟩
    · rw [hhere]
      refine iff_of_false (by simp) fun heq ↦ hdifferent ?_
      rw [hold, ← heq]

end Renaming

end WasmBackend.SingleAssignment
