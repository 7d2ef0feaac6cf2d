import WasmBackend.Proofs.Flow.Placement
import WasmBackend.Proofs.SingleAssignment.Heads

/-!
# Where the renaming settles

The names of a function are found when a round over its blocks passes on the same names as the
round before.  Then the state explains itself: `Settled` says that the names at the end of a block
are those at its head, as merges and incoming names decide them, taken through its instructions.
-/

namespace WasmBackend.SingleAssignment

open Ir (BlockId Block Forest Function Instr Targets Tree Var isStraight instrEdges)
open WasmBackend.Flow (Graph Edge)
open Stage (Ensures)

/-! ## Names for results -/

theorem ResultNames.nil {f : Function} {vars : Array Prim} {birth : Var → Birth} {b : BlockId}
    {k : Nat} : ResultNames f vars birth b k [] [] :=
  ⟨rfl, by simp⟩

theorem ResultNames.snoc {f : Function} {vars : Array Prim} {birth : Var → Birth} {b : BlockId}
    {k : Nat} {dst names : List Var} (h : ResultNames f vars birth b k dst names) {v name : Var}
    (hfresh : Fresh f vars birth v name (.result b k dst.length)) :
    ResultNames f vars birth b k (dst ++ [v]) (names ++ [name]) where
  length_eq := by simp [h.length_eq]
  fresh j w n hw hn := by
    rcases Nat.lt_trichotomy j dst.length with hj | hj | hj
    · rw [List.getElem?_append_left hj] at hw
      rw [List.getElem?_append_left (h.length_eq ▸ hj)] at hn
      exact h.fresh j w n hw hn
    · subst hj
      rw [List.getElem?_concat_length] at hw
      rw [← h.length_eq, List.getElem?_concat_length] at hn
      cases hw
      cases hn
      exact hfresh
    · rw [List.getElem?_eq_none (by rw [List.length_append]; exact hj)] at hw
      cases hw

namespace Renaming

variable {f : Function} {g : Graph} {r r' : Renaming} {birth birth' : Var → Birth} {id : BlockId}

/-- Naming the results of one instruction. -/
theorem mapM_fresh_ensures (h : r.Named f birth) (b : BlockId) (k : Nat) (dst : List Var)
    (hdst : ∀ v ∈ dst, v < f.vars.size) :
    Ensures (dst.mapM (fresh f)) r fun names r' ↦
      ∃ birth', r'.Named f birth' ∧ Grows r.vars r'.vars birth birth' ∧ r'.blocks = r.blocks
        ∧ ResultNames f r'.vars birth' b k dst names := by
  refine Stage.meets_mapM (fun done names (t : Renaming) ↦ ∃ birth', t.Named f birth'
    ∧ Grows r.vars t.vars birth birth' ∧ t.blocks = r.blocks
    ∧ ResultNames f t.vars birth' b k done names)
    ⟨birth, h, Grows.refl _ _, rfl, ResultNames.nil⟩ ?_
  rintro done v rest names t hl ⟨birth', hnamed, hgrows, hblocks, hresults⟩
  have hv : v < f.vars.size := hdst v (by simp [hl])
  refine (fresh_ensures f v t).imp ?_
  rintro _ _ ⟨rfl, p, hp, rfl⟩
  obtain ⟨hnamed', hgrows', hfresh⟩ := hnamed.push hv hp (.result b k done.length)
  exact ⟨_, hnamed', hgrows.trans hgrows', hblocks, (hresults.grow hgrows').snoc hfresh⟩

/-- Names for the results of all instructions of a block. -/
structure BlockResults (f : Function) (vars : Array Prim) (birth : Var → Birth) (b : BlockId)
    (is : List Instr) (ds : List (List Var)) : Prop where
  length_eq : ds.length = is.length
  results : ∀ (n : Nat) (i : Instr) (names : List Var), is[n]? = some i → ds[n]? = some names →
    ResultNames f vars birth b n i.dst names

theorem BlockResults.grow {vars vars' : Array Prim} {b : BlockId} {is : List Instr}
    {ds : List (List Var)} (h : BlockResults f vars birth b is ds)
    (hg : Grows vars vars' birth birth') : BlockResults f vars' birth' b is ds :=
  ⟨h.length_eq, fun n i names hi hn ↦ (h.results n i names hi hn).grow hg⟩

theorem BlockResults.snoc {vars : Array Prim} {b : BlockId} {is : List Instr}
    {ds : List (List Var)} (h : BlockResults f vars birth b is ds) {i : Instr} {names : List Var}
    (hi : ResultNames f vars birth b is.length i.dst names) :
    BlockResults f vars birth b (is ++ [i]) (ds ++ [names]) where
  length_eq := by simp [h.length_eq]
  results n j ns hj hns := by
    rcases Nat.lt_trichotomy n is.length with hn | hn | hn
    · rw [List.getElem?_append_left hn] at hj
      rw [List.getElem?_append_left (h.length_eq ▸ hn)] at hns
      exact h.results n j ns hj hns
    · subst hn
      rw [List.getElem?_concat_length] at hj
      rw [← h.length_eq, List.getElem?_concat_length] at hns
      cases hj
      cases hns
      exact hi
    · rw [List.getElem?_eq_none (by rw [List.length_append]; exact hn)] at hj
      cases hj

/-- Naming the results of a block, which is done on the first look only. -/
theorem defNames_ensures (h : r.Named f birth) (hid : id ≤ f.blocks.size)
    (hdst : ∀ i ∈ (f.blockAt id).instrs, ∀ v ∈ i.dst, v < f.vars.size) :
    Ensures (defNames f id (f.blockAt id)) r fun ds r' ↦
      ∃ birth', r'.Named f birth' ∧ Grows r.vars r'.vars birth birth'
        ∧ (∀ c ≠ id, r'.block c = r.block c)
        ∧ r'.block id = { r.block id with defs := some ds }
        ∧ (∀ ds', (r.block id).defs = some ds' → r' = r) := by
  unfold defNames
  rw [Ensures, Stage.meets_bind, Stage.meets_get]
  split
  · rename_i ds hds
    exact ⟨birth, h, Grows.refl _ _, fun _ _ ↦ rfl, by rw [← hds], fun _ _ ↦ rfl⟩
  · rename_i hnone
    rw [Stage.meets_bind]
    refine (Stage.meets_mapM (fun done ds (t : Renaming) ↦ ∃ birth', t.Named f birth'
        ∧ Grows r.vars t.vars birth birth' ∧ t.blocks = r.blocks
        ∧ BlockResults f t.vars birth' id done ds)
      ⟨birth, h, Grows.refl _ _, rfl, rfl, by simp⟩ ?_).imp ?_
    · rintro done i rest ds t hl ⟨birth', hnamed, hgrows, hblocks, hresults⟩
      have hi : ∀ v ∈ i.dst, v < f.vars.size := hdst i (by simp [hl])
      refine (mapM_fresh_ensures hnamed id done.length i.dst hi).imp ?_
      rintro names t' ⟨birth'', hnamed', hgrows', hblocks', hnames⟩
      exact ⟨birth'', hnamed', hgrows.trans hgrows', hblocks'.trans hblocks,
        (hresults.grow hgrows').snoc hnames⟩
    · rintro ds t ⟨birth', hnamed, hgrows, hblocks, hresults⟩
      have hsame (c : BlockId) : t.block c = r.block c := by rw [block, hblocks, block]
      have hblock := block_modify t (hnamed.lt_size hid)
        fun k ↦ { k with defs := some ds }
      simp only [update, Stage.meets_bind, Stage.meets_modify, Stage.meets_pure]
      have hk := hnamed.block id
      refine ⟨birth', hnamed.modify hid ⟨?_, ?_, hk.merges_fresh, hk.merges_nodup,
        hk.out_faithful, hk.branches_faithful⟩, hgrows, fun c hc ↦ ?_, ?_, ?_⟩
      · rintro _ ⟨⟩
        exact hresults.length_eq
      · rintro _ ⟨⟩
        exact hresults.results
      · rw [hblock, if_neg hc, hsame]
      · rw [hblock, if_pos rfl, hsame]
      · intro ds' hds'
        rw [hnone] at hds'
        cases hds'

theorem BlockResults.stand {vars : Array Prim} {b : BlockId} {is : List Instr}
    {ds : List (List Var)} (h : BlockResults f vars birth b is ds) :
    ResultsStand f vars birth (is.zip ds) := by
  intro p hp q hq
  obtain ⟨n, hn, hnp⟩ := List.mem_iff_getElem.1 hp
  obtain ⟨j, hj, hjq⟩ := List.mem_iff_getElem.1 hq
  rw [List.getElem_zip] at hnp
  subst hnp
  rw [List.getElem_zip] at hjq
  subst hjq
  exact ((h.results n _ _ (List.getElem?_eq_getElem _) (List.getElem?_eq_getElem _)).fresh j _ _
    (List.getElem?_eq_getElem _) (List.getElem?_eq_getElem _)).standsFor

theorem Named.blockResults (h : r.Named f birth) {ds : List (List Var)}
    (hds : (r.block id).defs = some ds) :
    BlockResults f r.vars birth id (f.blockAt id).instrs ds :=
  ⟨(h.block id).defs_length ds hds, (h.block id).defs_named ds hds⟩

/-! ## One look at a block -/

/-- What looking at a block relies on. -/
structure Visible (f : Function) (g : Graph) (id : BlockId) : Prop where
  block?_eq : f.block? id = some (f.blockAt id)
  id_le : id ≤ f.blocks.size
  dst_lt : (f.blockAt id).kind = .basic →
    ∀ i ∈ (f.blockAt id).instrs, ∀ v ∈ i.dst, v < f.vars.size
  branch : ∀ e ∈ g.edges, e.src = id → e.site = .branch →
    (f.blockAt id).kind = .basic ∧ isStraight (f.blockAt id).instrs
      ∧ ∃ d next, e ∈ instrEdges d id next 0 (f.blockAt id).instrs

/-- What a look at a block finds at its end. -/
structure Passed (f : Function) (id : BlockId) (names : Names) (k : BlockNames) (out : Names) :
    Prop where
  basic : (f.blockAt id).kind = .basic → ∃ ds, k.defs = some ds
    ∧ ds.length = (f.blockAt id).instrs.length
    ∧ Renaming.through names 0 ((f.blockAt id).instrs.zip ds) = (out, k.branches)
  other : (f.blockAt id).kind ≠ .basic → out = names

theorem transfer_ensures (h : r.Named f birth) (hid : Visible f g id) {names : Names}
    (hnames : Env.Faithful f r.vars birth (Names.get? names)) :
    Ensures (transfer f id (f.blockAt id) names) r fun out r' ↦
      ∃ birth', r'.Named f birth' ∧ Grows r.vars r'.vars birth birth'
        ∧ (∀ c ≠ id, r'.block c = r.block c)
        ∧ (r'.block id).merges = (r.block id).merges
        ∧ (r'.block id).out = (r.block id).out
        ∧ Env.Faithful f r'.vars birth' (Names.get? out)
        ∧ Passed f id names (r'.block id) out := by
  unfold transfer
  split
  · rename_i hkind
    exact ⟨birth, h, Grows.refl _ _, fun _ _ ↦ rfl, rfl, rfl, hnames,
      fun hbasic ↦ absurd hbasic hkind, fun _ ↦ rfl⟩
  · rename_i hkind
    rw [ne_eq, not_not] at hkind
    simp only [Stage.meets_bind]
    refine (defNames_ensures h hid.id_le (hid.dst_lt hkind)).imp ?_
    rintro ds t ⟨birth', hnamed, hgrows, hothers, hhere, -⟩
    have hds : (t.block id).defs = some ds := by rw [hhere]
    have hresults := hnamed.blockResults hds
    have hfaithful := hnames.grow hgrows
    have hblock := block_modify t (hnamed.lt_size hid.id_le)
      fun k ↦ { k with branches := (through names 0 ((f.blockAt id).instrs.zip ds)).2 }
    have hk := hnamed.block id
    simp only [update, Stage.meets_modify, Stage.meets_pure]
    refine ⟨birth', hnamed.modify hid.id_le ⟨hk.defs_length, hk.defs_named, hk.merges_fresh,
      hk.merges_nodup, hk.out_faithful, faithful_branches hfaithful 0 hresults.stand⟩, hgrows,
      fun c hc ↦ ?_, ?_, ?_, ?_, fun _ ↦ ⟨ds, ?_, hresults.length_eq, ?_⟩,
      fun hother ↦ absurd hkind hother⟩
    · rw [hblock, if_neg hc, hothers c hc]
    · rw [hblock, if_pos rfl, hhere]
    · rw [hblock, if_pos rfl, hhere]
    · rw [Names.get?_through]
      exact hfaithful.through hresults.stand
    · rw [hblock, if_pos rfl, hhere]
    · rw [hblock, if_pos rfl]

/-- Where branches only end blocks, the names at a branch are those at the end. -/
theorem lookup_branches_of_straight {d : Targets} {b next : BlockId} {k : Nat} {is : List Instr}
    {ds : List (List Var)} (hstraight : isStraight is) (hlength : ds.length = is.length) {e : Edge}
    (he : e ∈ instrEdges d b next k is) (hsite : e.site = .branch) (names : Names) :
    (through names k (is.zip ds)).2.lookup e.instr = some (through names k (is.zip ds)).1 := by
  induction is generalizing k ds names with
  | nil =>
    rw [(Edge.mem_proper.1 he).1] at hsite
    cases hsite
  | cons i rest ih =>
    obtain _ | ⟨defs, ds⟩ := ds
    · cases hlength
    · simp only [isStraight, Bool.and_eq_true, Bool.or_eq_true, Bool.not_eq_true',
        List.isEmpty_iff] at hstraight
      obtain ⟨⟨_, hbranch⟩, hrest⟩ := hstraight
      rw [instrEdges, List.mem_append] at he
      simp only [List.zip_cons_cons, through]
      cases hi : i.isBranch with
      | true =>
        have hnil : rest = [] := hbranch.resolve_left (by simp [hi])
        subst hnil
        rw [if_pos hi] at he
        rcases he with he | he
        · rw [(Edge.mem_proper.1 he).1]
          simp [through]
        · split at he
          · cases he
          · rw [(Edge.mem_proper.1 he).1] at hsite
            cases hsite
      | false =>
        rw [if_neg (by simp [hi])] at he
        rcases he with he | he
        · cases he
        · split at he
          · cases he
          · exact ih hrest (by simpa using hlength) he _

/-- Along every edge goes what is known at the end of its source. -/
def Consistent (g : Graph) (r : Renaming) : Prop :=
  ∀ e ∈ g.edges, r.along e = (r.block e.src).out

/-- Merges are only where control has several ways in. -/
def MergesFed (g : Graph) (r : Renaming) : Prop :=
  ∀ b, g.ways b ≤ 1 → (r.block b).merges = []

/-- The names at the end of a block are those at its head, taken through its instructions. -/
structure Settled (f : Function) (g : Graph) (r : Renaming) (id : BlockId) : Prop where
  undisputed : ∀ v, Undisputed (r.block id).merges v (arriving (r.incoming f g id) v)
  out : ∃ names o, Names.get? names = headEnv f g r id ∧ (r.block id).out = some o
    ∧ Passed f id names (r.block id) o ∧ names.Trim

theorem incoming_eq_of_consistent (h : Consistent g r) (h' : Consistent g r')
    (hout : ∀ b, (r'.block b).out = (r.block b).out) (b : BlockId) :
    r'.incoming f g b = r.incoming f g b := by
  unfold incoming
  congr 1
  refine List.filterMap_congr fun e he ↦ ?_
  have hmem := (List.mem_filter.1 he).1
  rw [h e hmem, h' e hmem, hout]

theorem Settled.of_same (h : Settled f g r id) (hblock : r'.block id = r.block id)
    (hincoming : r'.incoming f g id = r.incoming f g id) : Settled f g r' id := by
  have henv : headEnv f g r' id = headEnv f g r id := by
    unfold headEnv
    rw [hblock, hincoming]
  obtain ⟨names, o, hnames, hout, hpassed, htrim⟩ := h.out
  refine ⟨by rw [hblock, hincoming]; exact h.undisputed, names, o, by rw [henv, hnames], ?_, ?_,
    htrim⟩
  · rw [hblock, hout]
  · rwa [hblock]

/-- What one look at a block does. -/
structure Visit (f : Function) (g : Graph) (id : BlockId) (r : Renaming) (birth : Var → Birth)
    (changed : Bool) (r' : Renaming) (birth' : Var → Birth) : Prop where
  named : r'.Named f birth'
  grows : Grows r.vars r'.vars birth birth'
  others : ∀ c ≠ id, r'.block c = r.block c
  consistent : Consistent g r'
  fed : MergesFed g r → MergesFed g r'
  out_eq : changed = false → (r'.block id).out = (r.block id).out
  settled : changed = false → Settled f g r' id

theorem visit_ensures (h : r.Named f birth) (hc : Consistent g r) (hid : Visible f g id)
    (hparams : f.params.length ≤ f.vars.size) :
    Ensures (visit f g id) r fun changed r' ↦ ∃ birth', Visit f g id r birth changed r' birth' := by
  unfold visit
  simp only [Stage.meets_bind, Stage.meets_ofExcept, Function.block_of_block? hid.block?_eq]
  refine (headNames_ensures h hid.id_le hparams).imp ?_
  rintro names r₁ ⟨birth₁, hhead⟩
  have hnames : Env.Faithful f r₁.vars birth₁ (Names.get? names) := by
    rw [hhead.get?_eq]
    exact hhead.named.headEnv_faithful hparams g id
  refine (transfer_ensures hhead.named hid hnames).imp ?_
  rintro out r₂ ⟨birth₂, hnamed, hgrows, hothers, hmerges, hout, hfaithful, hpassed⟩
  have hothers' (c : BlockId) (hc : c ≠ id) : r₂.block c = r.block c := by
    rw [hothers c hc, hhead.only.others c hc]
  -- whatever the end of the block is now, along its edges goes that
  have hconsistent {r' : Renaming} (hsame : ∀ c ≠ id, r'.block c = r.block c)
      (hbranches : (r'.block id).branches = (r₂.block id).branches)
      (hend : (r'.block id).out = some out) : Consistent g r' := by
    intro e he
    by_cases hsrc : e.src = id
    · unfold along
      split
      · rename_i hsite
        obtain ⟨hkind, hstraight, d, next, hedge⟩ := hid.branch e he hsrc hsite
        obtain ⟨ds, _, hlength, hthrough⟩ := hpassed.basic hkind
        have hlookup := lookup_branches_of_straight hstraight hlength hedge hsite names
        rw [hthrough] at hlookup
        rw [hsrc, hbranches, hend, hlookup]
      · rfl
    · have halong : r'.along e = r.along e := by
        unfold along
        rw [hsame _ hsrc]
      rw [halong, hsame _ hsrc, hc e he]
  have hold : (r₂.block id).out = (r.block id).out := by
    rw [hout, hhead.only.here]
  have hfed {r' : Renaming} (hsame : ∀ c ≠ id, r'.block c = r.block c)
      (hmerges' : (r'.block id).merges = (r₂.block id).merges) (hr : MergesFed g r) :
      MergesFed g r' := by
    intro b hb
    by_cases hbid : b = id
    · subst hbid
      rw [hmerges', hmerges, hhead.stable fun v ↦ undisputed_of_ways_le_one hb _ v, hr b hb]
    · rw [hsame b hbid, hr b hb]
  rw [Stage.meets_get]
  split
  · rename_i hsame
    have hconsistent' := hconsistent hothers' rfl hsame
    have hincoming : r₂.incoming f g id = r₁.incoming f g id := by
      rw [(sameFlow_of_onlyMerges hhead.only).incoming_eq g id]
      refine incoming_eq_of_consistent hc hconsistent' (fun b ↦ ?_) id
      by_cases hb : b = id
      · rw [hb, hold]
      · rw [hothers' b hb]
    refine ⟨birth₂, hnamed, hhead.grows.trans hgrows, hothers', hconsistent',
      hfed hothers' rfl, fun _ ↦ hold, fun _ ↦ ⟨?_, names, out, ?_, hsame, hpassed, hhead.trim⟩⟩
    · rw [hmerges, hincoming]
      exact hhead.undisputed
    · rw [hhead.get?_eq]
      unfold headEnv
      rw [hmerges, hincoming]
  · have hblock := block_modify r₂ (hnamed.lt_size hid.id_le)
      fun k ↦ { k with out := some out }
    have hsame (c : BlockId) (hc : c ≠ id) :
        ({ r₂ with blocks := r₂.blocks.modify id fun k ↦ { k with out := some out } } :
          Renaming).block c = r.block c := by
      rw [hblock, if_neg hc, hothers' c hc]
    have hk := hnamed.block id
    simp only [update, Stage.meets_bind, Stage.meets_modify, Stage.meets_pure]
    refine ⟨birth₂, hnamed.modify hid.id_le ⟨hk.defs_length, hk.defs_named, hk.merges_fresh,
      hk.merges_nodup, ?_, hk.branches_faithful⟩, hhead.grows.trans hgrows, hsame,
      hconsistent hsame ?_ ?_, hfed hsame ?_, fun htrue ↦ ?_, fun htrue ↦ ?_⟩
    · rintro _ ⟨⟩
      exact hfaithful
    · rw [hblock, if_pos rfl]
    · rw [hblock, if_pos rfl]
    · rw [hblock, if_pos rfl]
    · cases htrue
    · cases htrue

/-! ## Rounds -/

/-- What one round over the blocks does. -/
structure Round (f : Function) (g : Graph) (order : List BlockId) (r : Renaming)
    (birth : Var → Birth) (changed : Bool) (r' : Renaming) (birth' : Var → Birth) : Prop where
  named : r'.Named f birth'
  grows : Grows r.vars r'.vars birth birth'
  consistent : Consistent g r'
  fed : MergesFed g r → MergesFed g r'
  settled : changed = false → ∀ id ∈ order, Settled f g r' id

theorem Round.step {order : List BlockId} {t : Renaming} {birth'' : Var → Birth}
    {changed changed' : Bool} (h : Round f g order r birth changed t birth') (hid : id ∉ order)
    (hvisit : Visit f g id t birth' changed' r' birth'') :
    Round f g (order ++ [id]) r birth (changed' || changed) r' birth'' where
  named := hvisit.named
  grows := h.grows.trans hvisit.grows
  consistent := hvisit.consistent
  fed hr := hvisit.fed (h.fed hr)
  settled hunchanged b hb := by
    rw [Bool.or_eq_false_iff] at hunchanged
    rcases List.mem_append.1 hb with hb | hb
    · have hne : b ≠ id := fun heq ↦ hid (heq ▸ hb)
      refine (h.settled hunchanged.2 b hb).of_same (hvisit.others b hne) ?_
      refine incoming_eq_of_consistent h.consistent hvisit.consistent (fun c ↦ ?_) b
      by_cases hc : c = id
      · rw [hc, hvisit.out_eq hunchanged.1]
      · rw [hvisit.others c hc]
    · rw [List.mem_singleton.1 hb]
      exact hvisit.settled hunchanged.1

theorem round_ensures (h : r.Named f birth) (hc : Consistent g r)
    (hparams : f.params.length ≤ f.vars.size) (hnodup : g.order.Nodup)
    (hvisible : ∀ id ∈ g.order, Visible f g id) :
    Ensures (round f g) r fun changed r' ↦
      ∃ birth', Round f g g.order r birth changed r' birth' := by
  unfold round
  refine Stage.meets_foldlM (fun order changed (t : Renaming) ↦
    ∃ birth', Round f g order r birth changed t birth')
    ⟨birth, h, Grows.refl _ _, hc, fun hr ↦ hr, by simp⟩ ?_
  rintro done id rest changed t hl ⟨birth', hround⟩
  have hid : id ∉ done := by
    rw [hl] at hnodup
    exact fun hid ↦ (List.nodup_append.1 hnodup).2.2 id hid id List.mem_cons_self rfl
  simp only [Stage.meets_bind, Stage.meets_pure]
  refine (visit_ensures hround.named hround.consistent (hvisible id (by simp [hl])) hparams).imp ?_
  rintro changed' t' ⟨birth'', hvisit⟩
  exact ⟨birth'', hround.step hid hvisit⟩

/-- The renaming of a function is done: births explain its names, and every block is settled. -/
structure Done (f : Function) (g : Graph) (r : Renaming) (birth : Var → Birth) : Prop where
  named : r.Named f birth
  consistent : Consistent g r
  fed : MergesFed g r
  settled : ∀ id ∈ g.order, Settled f g r id

theorem settle_ensures (limit : Nat) (h : r.Named f birth) (hc : Consistent g r)
    (hfed : MergesFed g r) (hparams : f.params.length ≤ f.vars.size) (hnodup : g.order.Nodup)
    (hvisible : ∀ id ∈ g.order, Visible f g id) :
    Ensures (settle f g limit) r fun _ r' ↦ ∃ birth', Done f g r' birth' := by
  induction limit generalizing r birth with
  | zero => trivial
  | succ limit ih =>
    unfold settle
    rw [Ensures, Stage.meets_bind]
    refine (round_ensures h hc hparams hnodup hvisible).imp ?_
    rintro (_ | _) t ⟨birth', hround⟩
    · exact ⟨birth', hround.named, hround.consistent, hround.fed hfed, hround.settled rfl⟩
    · exact ih hround.named hround.consistent (hround.fed hfed)

/-! ## The start -/

theorem block_ofFunction (f : Function) (b : BlockId) : (ofFunction f).block b = {} := by
  unfold ofFunction block
  rw [Array.getD_eq_getD_getElem?, Array.getElem?_replicate]
  split <;> rfl

theorem named_ofFunction (f : Function) :
    (ofFunction f).Named f fun v ↦ ⟨v, .original⟩ where
  blocks_size := by simp [ofFunction]
  size_le := Nat.le_refl _
  vars_eq _ _ := rfl
  original _ _ := rfl
  prims_eq _ _ := rfl
  block b := by
    rw [block_ofFunction]
    exact ⟨by simp, by simp, by simp, by simp, by simp, by simp⟩

theorem consistent_ofFunction (f : Function) (g : Graph) : Consistent g (ofFunction f) := by
  intro e _
  unfold along
  rw [block_ofFunction]
  split <;> rfl

theorem visible_of_placed {t : Tree} {d : Targets} {next : BlockId}
    {scope : List (BlockId × Ir.BlockKind)} (h : t.Placed f g d next scope) :
    Visible f g t.id where
  block?_eq := h.stored.block?_id
  id_le := (f.mem_range_of_block? h.stored.block?_id).2
  dst_lt hkind i hi v hv := by
    rw [h.kind_basic hkind] at h
    exact (h.instr_vars hi).1 v hv
  branch e he hsrc hsite := by
    have hmem : e ∈ g.succs t.id := List.mem_filter.2 ⟨he, by simpa using hsrc⟩
    have hbasic := h.basic_of_branch hmem hsite
    have hedge := h.succs_eq
    rw [hbasic] at h hedge
    refine ⟨h.stored.kind_eq, h.straight, d, next, ?_⟩
    rw [hbasic, hedge] at hmem
    exact hmem

/-- Every reachable block of a shaped function can be looked at. -/
theorem visible_of_mem_order {ts : Forest} (hf : f.Shaped ts) (hg : g.Describes f ts)
    {id : BlockId} (hid : id ∈ g.order) : Visible f g id := by
  obtain ⟨t, d, next, scope, rfl, ht⟩ := (Tree.exists_placed f g).2 ts {} 0 []
    (hf.placed hg) id (hg.order_subset id hid)
  exact visible_of_placed ht

/-- Settling a shaped function finds all its names. -/
theorem done_of_settle {ts : Forest} (hf : f.Shaped ts) (hg : g.Describes f ts) {limit : Nat}
    {names : Renaming} (h : (settle f g limit).runFrom (ofFunction f) = (.ok (), names)) :
    ∃ birth, Done f g names birth := by
  exact (settle_ensures limit (named_ofFunction f) (consistent_ofFunction f g)
    (fun b _ ↦ by rw [block_ofFunction]) hf.params_le
    hg.order_nodup fun _ ↦ visible_of_mem_order hf hg).of_eq h

end Renaming

end WasmBackend.SingleAssignment
