import WasmBackend.Proofs.Flow.Joins
import WasmBackend.Proofs.SingleAssignment.Variables

/-!
# Definitions in a converted function

Every name is made once, and its birth says where.  So in the blocks control can reach no variable
is defined twice and no parameter is defined at all, and since only basic blocks have merges, what
edges assign are variables that merges at the head of their destination define.
-/

namespace WasmBackend.Ir

open WasmBackend.Flow (Edge Graph Site)

/-- The variables that the instructions of a block define. -/
def Block.defs (b : Block) : List Var :=
  b.instrs.flatMap Instr.dst

/-- The assignments of a block, in groups of those that happen at once. -/
def Block.copyGroups (b : Block) : List (List Copy) :=
  b.exitCopies :: b.aroundCopies :: b.entryCopies :: b.instrs.map Instr.copies

/-- The variables that the merges of a block define. -/
def Block.merged (b : Block) : List Var :=
  (b.instrs.filter fun i ↦ i.op = .phi).flatMap Instr.dst

/-- In these blocks every variable is defined once, parameters are not defined, and edges assign
variables that merges in these blocks define, none of them twice at once. -/
structure Function.Assigned (f : Function) (ids : List BlockId) : Prop where
  defs_nodup : ∀ id ∈ ids, (f.blockAt id).defs.Nodup
  defs_apart : ∀ id ∈ ids, ∀ c ∈ ids, ∀ v ∈ (f.blockAt id).defs, v ∈ (f.blockAt c).defs → id = c
  params_le : ∀ id ∈ ids, ∀ v ∈ (f.blockAt id).defs, f.params.length ≤ v
  groups_nodup : ∀ id ∈ ids, ∀ cs ∈ (f.blockAt id).copyGroups, (cs.map Copy.dst).Nodup
  merged : ∀ id ∈ ids, ∀ cs ∈ (f.blockAt id).copyGroups, ∀ c ∈ cs,
    ∃ b ∈ ids, c.dst ∈ (f.blockAt b).merged

theorem Function.Assigned.of_mem_iff {f : Function} {ids ids' : List BlockId} (h : f.Assigned ids)
    (hids : ∀ id, id ∈ ids' ↔ id ∈ ids) : f.Assigned ids' := by
  constructor <;> simp only [hids]
  · exact h.defs_nodup
  · exact h.defs_apart
  · exact h.params_le
  · exact h.groups_nodup
  · exact h.merged

theorem length_proper_le_one (e : Edge) : e.proper.length ≤ 1 := by
  unfold Edge.proper
  split <;> simp

/-- A basic block is left at a site other than a branch in one way. -/
theorem length_instrEdges_site (d : Targets) (id next : BlockId) (n : Nat) (is : List Instr)
    {site : Site} (hsite : site ≠ .branch) :
    ((instrEdges d id next n is).filter fun e ↦ e.site = site).length ≤ 1 := by
  induction is generalizing n with
  | nil => exact Nat.le_trans (List.length_filter_le _ _) (length_proper_le_one _)
  | cons i rest ih =>
    have hbranch : ((if i.isBranch then
        Edge.proper { src := id, dst := d.destination i, site := .branch, instr := n }
        else []).filter fun e ↦ e.site = site) = [] := by
      refine List.filter_eq_nil_iff.2 fun e he ↦ ?_
      split at he
      · simp [(Edge.mem_proper.1 he).1, hsite.symm]
      · cases he
    rw [instrEdges, List.filter_append, hbranch, List.nil_append]
    split
    · exact Nat.zero_le 1
    · exact ih (n + 1)

/-- Edges through branches know the position of their instruction. -/
theorem le_instr_of_mem_instrEdges {d : Targets} {id next : BlockId} {n : Nat} {is : List Instr}
    {e : Edge} (he : e ∈ instrEdges d id next n is) (hsite : e.site = .branch) :
    n ≤ e.instr := by
  induction is generalizing n with
  | nil =>
    rw [(Edge.mem_proper.1 he).1] at hsite
    cases hsite
  | cons i rest ih =>
    rcases List.mem_append.1 he with he | he <;> split at he
    · rw [(Edge.mem_proper.1 he).1]
    · cases he
    · cases he
    · exact Nat.le_of_succ_le (ih he)

/-- A basic block is left through the branch at a position in one way. -/
theorem length_instrEdges_branch (d : Targets) (id next : BlockId) (n : Nat) (is : List Instr)
    (k : Nat) :
    ((instrEdges d id next n is).filter fun e ↦ e.site = .branch ∧ e.instr = k).length ≤ 1 := by
  induction is generalizing n with
  | nil => exact Nat.le_trans (List.length_filter_le _ _) (length_proper_le_one _)
  | cons i rest ih =>
    rw [instrEdges, List.filter_append, List.length_append]
    by_cases hk : n = k
    · have hrest : ((if i.terminates then [] else instrEdges d id next (n + 1) rest).filter
          fun e ↦ e.site = .branch ∧ e.instr = k) = [] := by
        refine List.filter_eq_nil_iff.2 fun e he hsite ↦ ?_
        simp only [decide_eq_true_eq] at hsite
        split at he
        · cases he
        · have hle := le_instr_of_mem_instrEdges he hsite.1
          omega
      rw [hrest, List.length_nil, Nat.add_zero]
      refine Nat.le_trans (List.length_filter_le _ _) ?_
      split
      · exact length_proper_le_one _
      · exact Nat.zero_le 1
    · have hbranch : ((if i.isBranch then
          Edge.proper { src := id, dst := d.destination i, site := .branch, instr := n }
          else []).filter fun e ↦ e.site = .branch ∧ e.instr = k) = [] := by
        refine List.filter_eq_nil_iff.2 fun e he ↦ ?_
        split at he
        · simp [(Edge.mem_proper.1 he).1, hk]
        · cases he
      rw [hbranch, List.length_nil, Nat.zero_add]
      split
      · exact Nat.zero_le 1
      · exact ih (n + 1)

/-- Every block is left at a site in one way, but for a branch, which is entered on two sides. -/
theorem Tree.length_ownEdges_site {f : Function} {t : Tree} (ht : t.Stored f) (d : Targets)
    (next : BlockId) {site : Site} (hsite : site ≠ .branch)
    (hkind : (f.blockAt t.id).kind = .branch → site ≠ .enter) :
    ((t.ownEdges f d next).filter fun e ↦ e.site = site).length ≤ 1 := by
  have hone (e : Edge) : (e.proper.filter fun e ↦ e.site = site).length ≤ 1 :=
    Nat.le_trans (List.length_filter_le _ _) (length_proper_le_one e)
  have hnone (e : Edge) (he : e.site ≠ site) : (e.proper.filter fun e ↦ e.site = site) = [] := by
    refine List.filter_eq_nil_iff.2 fun e' he' ↦ ?_
    simpa [(Edge.mem_proper.1 he').1] using he
  cases t with
  | basic id => exact length_instrEdges_site d id next 0 _ hsite
  | cond id body =>
    cases body with
    | nil => exact hone _
    | cons t rest =>
      have hown : (Tree.cond id (t :: rest)).ownEdges f d next =
          Edge.proper { src := id, dst := t.id, site := .enter } ++
            Edge.proper { src := id, dst := next, site := .around } := rfl
      rw [hown, List.filter_append]
      by_cases haround : site = .around
      · rw [hnone { src := id, dst := t.id, site := .enter } (by simp [haround]),
          List.nil_append]
        exact hone _
      · rw [hnone { src := id, dst := next, site := .around } (Ne.symm haround),
          List.append_nil]
        exact hone _
  | branch id body other =>
    have henter : site ≠ .enter := hkind (Function.Node.kind_eq ht.1)
    rw [Tree.ownEdges, List.filter_append, hnone _ henter.symm, hnone _ henter.symm]
    exact Nat.zero_le 1
  | loop id body | breakable id body => exact hone _

end WasmBackend.Ir

namespace WasmBackend.SingleAssignment

open Ir (BlockId Block Copy Forest Function Instr Tree Var)
open WasmBackend.Flow (Graph Edge Site)

/-- The block a name is made in. -/
def Place.block? : Place → Option BlockId
  | .original => none
  | .result b _ _ | .head b => some b

section

variable {f f' : Function} {ts : Forest} {g : Graph} {r : Renaming} {birth : Var → Birth}
  {id : BlockId}

theorem flatMap_dst_rewrite (env : Env) (is : List (Instr × List Var)) :
    (env.rewrite is).flatMap Instr.dst = is.flatMap Prod.snd := by
  induction is generalizing env with
  | nil => rfl
  | cons p is ih => rw [Env.rewrite, List.flatMap_cons, List.flatMap_cons, ih]

theorem flatMap_dst_mergeInstrs (f : Function) (g : Graph) (r : Renaming) (id : BlockId) :
    (Conversion.mergeInstrs g { function := f, names := r } id).flatMap Instr.dst =
      (Conversion.mergesOf { function := f, names := r } id).map Prod.snd := by
  unfold Conversion.mergeInstrs
  induction Conversion.mergesOf { function := f, names := r } id with
  | nil => rfl
  | cons p merges ih => rw [List.map_cons, List.flatMap_cons, ih, List.map_cons]; rfl

theorem flatMap_dst_mapIdx (is : List Instr) (copies : Nat → Instr → List Copy) :
    (is.mapIdx fun k i ↦ { i with copies := copies k i }).flatMap Instr.dst = is.flatMap Instr.dst := by
  induction is generalizing copies with
  | nil => rfl
  | cons i is ih =>
    rw [List.mapIdx_cons, List.flatMap_cons, List.flatMap_cons]
    exact congrArg (i.dst ++ ·) (ih fun k ↦ copies (k + 1))

/-- Only basic blocks have merges. -/
theorem Converted.merges_eq_nil (h : Converted f ts f' g r birth)
    (hkind : (f.blockAt id).kind ≠ .basic) : (r.block id).merges = [] :=
  h.done.fed id (h.shaped.ways_le_one h.describes hkind)

theorem Converted.exists_placed (h : Converted f ts f' g r birth) (hid : id ∈ g.order) :
    ∃ (t : Tree) (d : Ir.Targets) (next : BlockId) (scope : List (BlockId × Ir.BlockKind)),
      t.id = id ∧ t.Placed f g d next scope := by
  obtain ⟨t, d, next, scope, rfl, ht⟩ := (Tree.exists_placed f g).2 ts {} 0 []
    (h.shaped.placed h.describes) id (h.describes.order_subset id hid)
  exact ⟨t, d, next, scope, rfl, ht⟩

/-- A reachable block of the converted function: the block under its new names, with the
assignments of the edges that leave it. -/
theorem Converted.blockAt_reachable (h : Converted f ts f' g r birth) (hid : id ∈ g.order) :
    f'.blockAt id = Conversion.placed f r ((Conversion.fedEdges g).filter fun e ↦ e.src = id)
      (headCount r id (f.blockAt id)) (renamed f g r id (f.blockAt id)) := by
  obtain ⟨t, d, next, scope, rfl, ht⟩ := h.exists_placed hid
  rw [h.blockAt_eq ht.stored.block?_id, Conversion.fedBy, Conversion.renamedIn, if_pos hid]

theorem renamed_instrs_of_structured (hplain : f.isPlain) (hkind : (f.blockAt id).kind ≠ .basic) :
    (renamed f g r id (f.blockAt id)).instrs = [] := by
  have hinstrs := Function.instrs_of_isPlain hplain hkind
  unfold renamed
  split <;> first | exact hinstrs | exact absurd ‹_› hkind

theorem flatMap_snd_zip (is : List Instr) (ds : List (List Var)) (h : ds.length = is.length) :
    (is.zip ds).flatMap Prod.snd = ds.flatten := by
  rw [List.flatMap_def, List.map_snd_zip (Nat.le_of_eq h)]

/-- What a block of a converted function defines: its merges, then the names of its results. -/
theorem Converted.defs_eq (h : Converted f ts f' g r birth) (hplain : f.isPlain)
    (hid : id ∈ g.order) : ∃ ds,
      (f'.blockAt id).defs =
        (Conversion.mergesOf { function := f, names := r } id).map Prod.snd ++ ds.flatten
      ∧ Renaming.BlockResults f r.vars birth id (f.blockAt id).instrs ds := by
  have hdefs : (f'.blockAt id).defs =
      (renamed f g r id (f.blockAt id)).instrs.flatMap Instr.dst := by
    rw [h.blockAt_reachable hid]
    exact flatMap_dst_mapIdx _ _
  by_cases hkind : (f.blockAt id).kind = .basic
  · obtain ⟨ds, hds, -⟩ := outEnv_of_basic (h.done.settled id hid) hkind
    have hresults := h.done.named.blockResults hds
    refine ⟨ds, ?_, hresults⟩
    rw [hdefs]
    simp only [renamed, hkind, hds, Option.getD_some]
    rw [List.flatMap_append, flatMap_dst_mergeInstrs, flatMap_dst_rewrite,
      flatMap_snd_zip _ _ hresults.length_eq]
  · have hinstrs := Function.instrs_of_isPlain hplain hkind
    refine ⟨[], ?_, by rw [hinstrs]; rfl, by simp⟩
    rw [hdefs, renamed_instrs_of_structured hplain hkind, Conversion.mergesOf,
      h.merges_eq_nil hkind]
    simp

theorem Renaming.BlockResults.exists_birth {is : List Instr} {ds : List (List Var)}
    (h : Renaming.BlockResults f r.vars birth id is ds) {n j : Nat} {names : List Var} {v : Var}
    (hn : ds[n]? = some names) (hj : names[j]? = some v) :
    (birth v).place = .result id n j ∧ f.vars.size ≤ v := by
  obtain ⟨hnlt, -⟩ := List.getElem?_eq_some_iff.1 hn
  have hi := List.getElem?_eq_getElem (h.length_eq ▸ hnlt)
  have hresult := h.results n _ names hi hn
  obtain ⟨hjlt, -⟩ := List.getElem?_eq_some_iff.1 hj
  have hw := List.getElem?_eq_getElem (hresult.length_eq ▸ hjlt)
  have hfresh := hresult.fresh j _ v hw hj
  exact ⟨by rw [hfresh.birth_eq], hfresh.le_name⟩

/-- The names of results are different from one another. -/
theorem Renaming.BlockResults.nodup {is : List Instr} {ds : List (List Var)}
    (h : Renaming.BlockResults f r.vars birth id is ds) : ds.flatten.Nodup := by
  rw [List.nodup_flatten]
  constructor
  · intro names hnames
    obtain ⟨n, hn⟩ := List.mem_iff_getElem?.1 hnames
    refine List.nodup_iff_getElem?_ne_getElem?.2 fun j k hjk hk heq ↦ ?_
    obtain ⟨v, hv⟩ : ∃ v, names[k]? = some v := ⟨_, List.getElem?_eq_getElem hk⟩
    have hj := (h.exists_birth hn (heq.trans hv)).1
    rw [(h.exists_birth hn hv).1] at hj
    cases hj
    exact Nat.lt_irrefl _ hjk
  · refine List.pairwise_iff_getElem.2 fun n m hn hm hnm v hv hv' ↦ ?_
    obtain ⟨j, hj⟩ := List.mem_iff_getElem?.1 hv
    obtain ⟨k, hk⟩ := List.mem_iff_getElem?.1 hv'
    have hfirst := (h.exists_birth (List.getElem?_eq_getElem hn) hj).1
    rw [(h.exists_birth (List.getElem?_eq_getElem hm) hk).1] at hfirst
    cases hfirst
    exact Nat.lt_irrefl _ hnm

/-- Every definition of a reachable block is a name made there. -/
theorem Converted.birth_of_mem_defs (h : Converted f ts f' g r birth) (hplain : f.isPlain)
    (hid : id ∈ g.order) {v : Var} (hv : v ∈ (f'.blockAt id).defs) :
    (birth v).place.block? = some id ∧ f.vars.size ≤ v := by
  obtain ⟨ds, hdefs, hresults⟩ := h.defs_eq hplain hid
  rw [hdefs] at hv
  rcases List.mem_append.1 hv with hv | hv
  · obtain ⟨p, hp, rfl⟩ := List.mem_map.1 hv
    rw [Conversion.mergesOf, List.mem_mergeSort] at hp
    have hfresh := (h.done.named.block id).merges_fresh p hp
    exact ⟨by rw [hfresh.birth_eq]; rfl, hfresh.le_name⟩
  · obtain ⟨names, hnames, hv⟩ := List.mem_flatten.1 hv
    obtain ⟨n, hn⟩ := List.mem_iff_getElem?.1 hnames
    obtain ⟨j, hj⟩ := List.mem_iff_getElem?.1 hv
    obtain ⟨hplace, hle⟩ := hresults.exists_birth hn hj
    exact ⟨by rw [hplace]; rfl, hle⟩

/-- The merges of a block have different names. -/
theorem nodup_mergesOf (h : r.Named f birth) (id : BlockId) :
    ((Conversion.mergesOf { function := f, names := r } id).map Prod.snd).Nodup := by
  have hperm := List.mergeSort_perm (r.block id).merges fun a b ↦ decide (a.1 ≤ b.1)
  refine (hperm.map Prod.snd).nodup_iff.2 (List.Nodup.of_map (fun n ↦ (birth n).var) ?_)
  rw [List.map_map]
  have hvars : (r.block id).merges.map ((fun n ↦ (birth n).var) ∘ Prod.snd) =
      (r.block id).merges.map Prod.fst :=
    List.map_congr_left fun p hp ↦ ((h.block id).merges_fresh p hp).standsFor.var_eq
  rw [hvars]
  exact (h.block id).merges_nodup

theorem Converted.nodup_defs (h : Converted f ts f' g r birth) (hplain : f.isPlain)
    (hid : id ∈ g.order) : (f'.blockAt id).defs.Nodup := by
  obtain ⟨ds, hdefs, hresults⟩ := h.defs_eq hplain hid
  rw [hdefs]
  refine List.nodup_append.2 ⟨nodup_mergesOf h.done.named id, hresults.nodup, ?_⟩
  intro v hv w hw heq
  subst heq
  obtain ⟨p, hp, rfl⟩ := List.mem_map.1 hv
  rw [Conversion.mergesOf, List.mem_mergeSort] at hp
  obtain ⟨names, hnames, hv⟩ := List.mem_flatten.1 hw
  obtain ⟨n, hn⟩ := List.mem_iff_getElem?.1 hnames
  obtain ⟨j, hj⟩ := List.mem_iff_getElem?.1 hv
  have hplace := (hresults.exists_birth hn hj).1
  rw [((h.done.named.block id).merges_fresh p hp).birth_eq] at hplace
  cases hplace

/-! ## What edges assign -/

/-- Among edges that leave one way at most one has its assignments placed. -/
theorem filter_fedEdges_of_length_le (hnodup : g.order.Nodup) {p : Edge → Bool}
    (hp : (g.edges.filter p).length ≤ 1) :
    (Conversion.fedEdges g).filter p = []
      ∨ ∃ e ∈ g.edges, p e ∧ e.dst ∈ g.order ∧ (Conversion.fedEdges g).filter p = [e] := by
  by_cases hnone : (Conversion.fedEdges g).filter p = []
  · exact .inl hnone
  · obtain ⟨e, he⟩ := List.exists_mem_of_ne_nil _ hnone
    obtain ⟨hfed, hpe⟩ := List.mem_filter.1 he
    obtain ⟨b, hb, hpred⟩ := List.mem_flatMap.1 hfed
    obtain ⟨hmem, rfl⟩ := Flow.Graph.mem_preds.1 hpred
    obtain ⟨e', hsingle⟩ : ∃ e', g.edges.filter p = [e'] :=
      List.length_eq_one_iff.1 (Nat.le_antisymm hp
        (List.length_pos_of_mem (List.mem_filter.2 ⟨hmem, hpe⟩)))
    have heq : e = e' := by
      rw [← List.mem_singleton, ← hsingle]
      exact List.mem_filter.2 ⟨hmem, hpe⟩
    rw [← heq] at hsingle
    exact .inr ⟨e, hmem, hpe, hb, filter_fedEdges hnodup hb hsingle⟩

/-- What an edge assigns are merges, in their order. -/
theorem map_dst_edgeCopies_sublist (s : Conversion) (e : Edge) (merges : List (Var × Var)) :
    ((s.edgeCopies e merges).map Copy.dst).Sublist (merges.map Prod.snd) := by
  unfold Conversion.edgeCopies
  induction merges with
  | nil => exact List.nil_sublist _
  | cons p merges ih =>
    rw [List.filterMap_cons]
    split
    · exact ih.cons p.2
    · rename_i c hc
      have hdst : c.dst = p.2 := by
        dsimp only at hc
        split at hc
        · split at hc
          · cases hc
          · cases hc
            rfl
        · cases hc
      rw [List.map_cons, List.map_cons, hdst]
      exact ih.cons_cons p.2

/-- An edge assigns no variable twice. -/
theorem nodup_copiesOf (h : r.Named f birth) (e : Edge) :
    ((copiesOf f r e).map Copy.dst).Nodup :=
  (map_dst_edgeCopies_sublist _ e _).nodup (nodup_mergesOf h e.dst)

/-- The merges of a reachable block are defined at its head. -/
theorem Converted.mem_merged (h : Converted f ts f' g r birth) (hid : id ∈ g.order) {p : Var × Var}
    (hp : p ∈ (r.block id).merges) : p.2 ∈ (f'.blockAt id).merged := by
  have hkind : (f.blockAt id).kind = .basic := by
    by_contra hkind
    rw [h.merges_eq_nil hkind] at hp
    cases hp
  obtain ⟨i, hi, hop, hdst⟩ : ∃ i ∈ Conversion.mergeInstrs g { function := f, names := r } id,
      i.op = .phi ∧ i.dst = [p.2] :=
    ⟨_, List.mem_map_of_mem (List.mem_mergeSort.2 hp), rfl, rfl⟩
  obtain ⟨n, hn, hget⟩ := List.mem_iff_getElem.1
    (List.mem_append_left ((Renaming.headEnv f g r id).rewrite
      ((f.blockAt id).instrs.zip ((r.block id).defs.getD []))) hi)
  rw [h.blockAt_reachable hid]
  simp only [Block.merged, Conversion.placed, renamed, hkind, List.mem_flatMap, List.mem_filter,
    List.mem_mapIdx]
  exact ⟨_, ⟨⟨n, hn, rfl⟩, by simpa [hget] using hop⟩, by simp [hget, hdst]⟩

theorem exists_of_mem_rewrite {env : Env} {is : List (Instr × List Var)} {i : Instr}
    (hi : i ∈ env.rewrite is) :
    ∃ p ∈ is, i.op = p.1.op ∧ i.target = p.1.target ∧ i.copies = p.1.copies := by
  induction is generalizing env with
  | nil => cases hi
  | cons p is ih =>
    rcases List.mem_cons.1 hi with rfl | hi
    · exact ⟨p, List.mem_cons_self, rfl, rfl, rfl⟩
    · obtain ⟨q, hq, hsame⟩ := ih hi
      exact ⟨q, List.mem_cons_of_mem p hq, hsame⟩

/-- Before its edges are fed, a renamed block assigns nothing, and its instructions are merges or
those of the block. -/
theorem exists_of_mem_renamed (hplain : f.isPlain) {t : Tree} {d : Ir.Targets} {next : BlockId}
    {scope : List (BlockId × Ir.BlockKind)} (ht : t.Placed f g d next scope) {i : Instr}
    (hi : i ∈ (renamed f g r t.id (f.blockAt t.id)).instrs) :
    i.copies = [] ∧ (i.op = .phi
      ∨ ∃ j ∈ (f.blockAt t.id).instrs, j.op = i.op ∧ j.target = i.target) := by
  by_cases hkind : (f.blockAt t.id).kind = .basic
  · rw [ht.kind_basic hkind] at ht
    simp only [renamed, hkind] at hi
    rcases List.mem_append.1 hi with hi | hi
    · obtain ⟨p, -, rfl⟩ := List.mem_map.1 hi
      exact ⟨rfl, .inl rfl⟩
    · obtain ⟨p, hp, hop, htarget, hcopies⟩ := exists_of_mem_rewrite hi
      have hmem := (List.of_mem_zip hp).1
      exact ⟨hcopies.trans (isStraight_copies ht.straight hmem),
        .inr ⟨p.1, hmem, hop.symm, htarget.symm⟩⟩
  · rw [renamed_instrs_of_structured hplain hkind] at hi
    cases hi

/-- Conversion adds merges and keeps the other instructions. -/
theorem Converted.exists_of_mem_instrs (h : Converted f ts f' g r birth) (hplain : f.isPlain)
    (hid : id ∈ g.order) {i : Instr} (hi : i ∈ (f'.blockAt id).instrs) :
    i.op = .phi ∨ ∃ j ∈ (f.blockAt id).instrs, j.op = i.op ∧ j.target = i.target := by
  obtain ⟨t, d, next, scope, rfl, ht⟩ := h.exists_placed hid
  rw [h.blockAt_reachable hid] at hi
  obtain ⟨n, hn, rfl⟩ := List.mem_mapIdx.1 hi
  exact (exists_of_mem_renamed hplain ht (List.getElem_mem hn)).2

/-- The assignments of a group belong to one edge, if there are any. -/
theorem Converted.group_eq (h : Converted f ts f' g r birth) (hplain : f.isPlain)
    (hid : id ∈ g.order) {cs : List Copy} (hcs : cs ∈ (f'.blockAt id).copyGroups) :
    cs = [] ∨ ∃ e ∈ g.edges, e.src ∈ g.order ∧ e.dst ∈ g.order ∧ cs = copiesOf f r e := by
  obtain ⟨t, d, next, scope, rfl, ht⟩ := h.exists_placed hid
  have hfree := ht.isCopyFree
  simp only [Ir.Block.isCopyFree, Bool.and_eq_true, List.isEmpty_iff] at hfree
  have hone {p : Edge → Bool} (hp : ((g.succs t.id).filter p).length ≤ 1) :
      (((Conversion.fedEdges g).filter fun e ↦ e.src = t.id).filter p).flatMap (copiesOf f r) = []
        ∨ ∃ e ∈ g.edges, e.src ∈ g.order ∧ e.dst ∈ g.order
          ∧ (((Conversion.fedEdges g).filter fun e ↦ e.src = t.id).filter p).flatMap (copiesOf f r)
            = copiesOf f r e := by
    unfold Flow.Graph.succs at hp
    rw [List.filter_filter] at hp ⊢
    rcases filter_fedEdges_of_length_le h.describes.order_nodup hp with
      hnone | ⟨e, he, hpe, hdst, hfed⟩
    · rw [hnone]
      exact .inl rfl
    · rw [hfed, List.flatMap_singleton]
      simp only [Bool.and_eq_true, decide_eq_true_eq] at hpe
      exact .inr ⟨e, he, hpe.2 ▸ hid, hdst, rfl⟩
  have hsite {site : Site} (hbranch : site ≠ .branch)
      (hkind : (f.blockAt t.id).kind = .branch → site ≠ .enter) :
      ((g.succs t.id).filter fun e ↦ e.site = site).length ≤ 1 := by
    rw [ht.succs_eq]
    exact Tree.length_ownEdges_site ht.stored d next hbranch hkind
  have hrenamed : (renamed f g r t.id (f.blockAt t.id)).exitCopies = []
      ∧ (renamed f g r t.id (f.blockAt t.id)).aroundCopies = []
      ∧ (renamed f g r t.id (f.blockAt t.id)).entryCopies = [] := by
    unfold renamed
    split <;> exact ⟨hfree.1.1, hfree.1.2, hfree.2⟩
  rw [h.blockAt_reachable hid] at hcs
  simp only [Block.copyGroups, Conversion.placed, hrenamed.1, hrenamed.2.1, hrenamed.2.2,
    List.nil_append, List.mem_cons, List.mem_map] at hcs
  rcases hcs with rfl | rfl | rfl | ⟨i, hi, rfl⟩
  · exact hone (hsite (by simp) (by simp))
  · exact hone (hsite (by simp) (by simp))
  · by_cases hkind : (f.blockAt t.id).kind = .branch
    · -- a branch is entered on two sides, and no assignments are made on the way in
      refine .inl (List.flatMap_eq_nil_iff.2 fun e he ↦ ?_)
      simp only [List.mem_filter, decide_eq_true_eq] at he
      obtain ⟨b, hb, hpred⟩ := List.mem_flatMap.1 he.1.1
      obtain ⟨hmem, rfl⟩ := Flow.Graph.mem_preds.1 hpred
      refine h.copiesOf_enter hmem hb he.2 ?_
      rw [he.1.2, hkind]
      simp
    · exact hone (hsite (by simp) fun hbranch ↦ absurd hbranch hkind)
  · obtain ⟨n, hn, rfl⟩ := List.mem_mapIdx.1 hi
    rw [(exists_of_mem_renamed hplain ht (List.getElem_mem hn)).1, List.nil_append]
    have hkind : (f.blockAt t.id).kind = .basic := by
      by_contra hkind
      simp [renamed_instrs_of_structured hplain hkind] at hn
    rw [ht.kind_basic hkind] at ht
    have hsuccs : g.succs t.id = Ir.instrEdges d t.id next 0 (f.blockAt t.id).instrs := ht.succs_eq
    have hbranch := Ir.length_instrEdges_branch d t.id next 0 (f.blockAt t.id).instrs
      (n - headCount r t.id (f.blockAt t.id))
    rw [← hsuccs] at hbranch
    refine hone (Nat.le_trans (List.Sublist.length_le (List.monotone_filter_right _ ?_)) hbranch)
    intro e he
    simp only [decide_eq_true_eq] at he ⊢
    exact ⟨he.1, by omega⟩

/-- In the blocks that control can reach, a converted function assigns as it should. -/
theorem Converted.assigned (h : Converted f ts f' g r birth) (hplain : f.isPlain) :
    f'.Assigned g.order where
  defs_nodup _ hid := h.nodup_defs hplain hid
  defs_apart id hid c hc v hv hv' := by
    have hplace := (h.birth_of_mem_defs hplain hid hv).1
    rw [(h.birth_of_mem_defs hplain hc hv').1] at hplace
    exact (Option.some.inj hplace).symm
  params_le id hid v hv := by
    have hparams : f'.params = f.params := by rw [h.frame]
    rw [hparams]
    exact Nat.le_trans h.shaped.params_le (h.birth_of_mem_defs hplain hid hv).2
  groups_nodup id hid cs hcs := by
    rcases h.group_eq hplain hid hcs with rfl | ⟨e, -, -, -, rfl⟩
    · exact List.nodup_nil
    · exact nodup_copiesOf h.done.named e
  merged id hid cs hcs c hc := by
    rcases h.group_eq hplain hid hcs with rfl | ⟨e, he, hsrc, hdst, rfl⟩
    · cases hc
    · obtain ⟨v, hmerge, -, -⟩ := (mem_copiesOf h.done he hsrc).1 hc
      exact ⟨e.dst, hdst, h.mem_merged hdst hmerge⟩

end

end WasmBackend.SingleAssignment
