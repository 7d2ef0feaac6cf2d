import WasmBackend.Proofs.Flow.Reachability
import WasmBackend.Proofs.SingleAssignment.Names
import WasmBackend.Proofs.Stage

/-!
# Names at the heads of blocks

Where names of one variable arrive, one of them or the merge of them is the name at the head.  The
merges of a block only grow, so what a table holds in the end is decided by the merges that are
there in the end: `chosen`.  Looking at a head a second time, with the same names arriving, changes
nothing.
-/

namespace WasmBackend.SingleAssignment

open Ir (BlockId Block Function Instr Var)
open WasmBackend.Flow (Graph Edge)
open Stage (Ensures Meets)

/-! ## Single steps -/

namespace Renaming

variable {f : Function} {r r' : Renaming} {birth birth' : Var → Birth} {id : BlockId}

theorem block_modify (r : Renaming) {b : BlockId} (hb : b < r.blocks.size) (g : BlockNames → BlockNames)
    (c : BlockId) :
    ({ r with blocks := r.blocks.modify b g } : Renaming).block c =
      if c = b then g (r.block b) else r.block c := by
  simp only [block, Array.getD_eq_getD_getElem?, Array.getElem?_modify]
  split <;> rename_i hc
  · subst hc
    simp [hb]
  · rw [if_neg (Ne.symm hc)]

theorem fresh_ensures (f : Function) (v : Var) (r : Renaming) :
    Ensures (fresh f v) r fun name r' ↦
      name = r.vars.size ∧ ∃ p, r.vars[v]? = some p ∧ r' = { r with vars := r.vars.push p } := by
  unfold fresh
  simp only [Stage.meets_bind, Stage.meets_get, Stage.meets_ofExcept, Stage.meets_set,
    Stage.meets_pure, Function.varPrim]
  split
  · rename_i p hp
    split at hp
    · cases hp
      simp [*]
    · cases hp
  · trivial

/-- A new name is born where it is made. -/
theorem Named.push (h : r.Named f birth) {v : Var} (hv : v < f.vars.size) {p : Prim}
    (hp : r.vars[v]? = some p) (place : Place) :
    let birth' := Function.update birth r.vars.size ⟨v, place⟩
    Renaming.Named f birth' { r with vars := r.vars.push p }
      ∧ Grows r.vars (r.vars.push p) birth birth'
      ∧ Fresh f (r.vars.push p) birth' v r.vars.size place := by
  intro birth'
  have hg : Grows r.vars (r.vars.push p) birth birth' := grows_push r.vars p birth _
  have hprim : (r.vars.push p)[r.vars.size]? = f.vars[v]? := by
    rw [Array.getElem?_push, if_pos rfl, ← h.vars_eq v hv, hp]
  refine ⟨⟨h.blocks_size, Nat.le_trans h.size_le hg.size_le, fun w hw ↦ ?_, fun w hw ↦ ?_,
    fun n hn ↦ ?_, fun b ↦ (h.block b).grow hg⟩, hg, hv, h.size_le, by simp, by simp [birth'],
    hprim⟩
  · rw [hg.vars_eq w (Nat.lt_of_lt_of_le hw h.size_le), h.vars_eq w hw]
  · rw [hg.birth_eq w (Nat.lt_of_lt_of_le hw h.size_le), h.original w hw]
  · rw [Array.size_push] at hn
    rcases Nat.lt_succ_iff_lt_or_eq.1 hn with hn | rfl
    · rw [hg.vars_eq n hn, hg.birth_eq n hn, h.prims_eq n hn]
    · rw [hprim, show birth' r.vars.size = ⟨v, place⟩ from Function.update_self ..]

theorem Named.lt_size (h : r.Named f birth) (hid : id ≤ f.blocks.size) : id < r.blocks.size := by
  rw [h.blocks_size]
  exact Nat.lt_succ_of_le hid

theorem Named.modify (h : r.Named f birth) (hid : id ≤ f.blocks.size) {g : BlockNames → BlockNames}
    (hg : (g (r.block id)).Named f r.vars birth id) :
    Renaming.Named f birth { r with blocks := r.blocks.modify id g } where
  blocks_size := by simpa using h.blocks_size
  size_le := h.size_le
  vars_eq := h.vars_eq
  original := h.original
  prims_eq := h.prims_eq
  block b := by
    rw [block_modify r (h.lt_size hid)]
    split
    · rename_i hb
      rw [hb]
      exact hg
    · exact h.block b

end Renaming

/-! ## What arrives at a block -/

/-- The names of a variable among those that arrive. -/
def arriving (incoming : List Names) (v : Var) : List Var :=
  incoming.filterMap fun n ↦ Names.get? n v

/-- The name at a head where these names arrive, given the merges. -/
def chosen (merges : List (Var × Var)) (v : Var) (names : List Var) : Option Var :=
  match names with
  | [] => none
  | name :: _ => some ((merges.lookup v).getD name)

/-- Where there is no merge, all names of a variable that arrive are the same. -/
def Undisputed (merges : List (Var × Var)) (v : Var) (names : List Var) : Prop :=
  merges.lookup v = none → ∀ n ∈ names, ∀ n' ∈ names, n = n'

/-- What looking at the head of a block changes: only the merges of that block. -/
structure OnlyMerges (id : BlockId) (r r' : Renaming) : Prop where
  others : ∀ c ≠ id, r'.block c = r.block c
  here : r'.block id = { r.block id with merges := (r'.block id).merges }

theorem OnlyMerges.refl (id : BlockId) (r : Renaming) : OnlyMerges id r r :=
  ⟨fun _ _ ↦ rfl, rfl⟩

theorem OnlyMerges.trans {id : BlockId} {r r' r'' : Renaming} (h : OnlyMerges id r r')
    (h' : OnlyMerges id r' r'') : OnlyMerges id r r'' where
  others c hc := by rw [h'.others c hc, h.others c hc]
  here := by rw [h'.here, h.here]

namespace Renaming

variable {f : Function} {r r' : Renaming} {birth birth' : Var → Birth} {id : BlockId}

theorem lookup_append_singleton {l : List (Var × Var)} {v : Var} (h : l.lookup v = none)
    (m w : Var) : (l ++ [(v, m)]).lookup w = if w = v then some m else l.lookup w := by
  rw [List.lookup_append]
  split <;> rename_i hw
  · rw [hw, h, Option.none_or, List.lookup_cons_self]
  · simp [hw]

theorem nodup_append_singleton {l : List (Var × Var)} (hl : (l.map Prod.fst).Nodup) {v : Var}
    (h : l.lookup v = none) (m : Var) : ((l ++ [(v, m)]).map Prod.fst).Nodup := by
  rw [List.map_append, List.map_singleton, List.nodup_append]
  refine ⟨hl, List.nodup_singleton v, ?_⟩
  rintro w hw _ hwv rfl
  obtain ⟨p, hp, rfl⟩ := List.mem_map.1 hw
  simpa [List.mem_singleton.1 hwv] using List.lookup_eq_none_iff.1 h p hp

/-- Where nothing is disputed no merge is made. -/
theorem headName_apply {v : Var} {names : List Var}
    (hv : Undisputed (r.block id).merges v names) :
    headName f id v names r = (.ok (chosen (r.block id).merges v names), r) := by
  unfold headName
  rw [Stage.bind_apply, Stage.get_apply]
  cases names with
  | nil => rfl
  | cons name rest =>
    cases hmerge : (r.block id).merges.lookup v with
    | some merge =>
      simp only [hmerge, chosen]
      rfl
    | none =>
      have hall : (rest.all fun n ↦ decide (n = name)) = true := by
        rw [List.all_eq_true]
        intro n hn
        exact decide_eq_true (hv hmerge n (List.mem_cons_of_mem name hn) name List.mem_cons_self)
      simp only [hmerge, chosen, hall, if_true]
      rfl

/-- Different names ask for a merge. -/
theorem headName_of_disputed {v : Var} {names : List Var}
    (hv : ¬Undisputed (r.block id).merges v names) :
    names ≠ [] ∧ (r.block id).merges.lookup v = none ∧ headName f id v names r =
      (fresh f v >>= fun merge ↦
        update id (fun k ↦ { k with merges := k.merges ++ [(v, merge)] }) >>= fun _ ↦
          pure (some merge)) r := by
  unfold Undisputed at hv
  push Not at hv
  obtain ⟨hnone, n, hn, n', hn', hne⟩ := hv
  obtain _ | ⟨name, rest⟩ := names
  · cases hn
  refine ⟨List.cons_ne_nil _ _, hnone, ?_⟩
  have hall : (rest.all fun n ↦ decide (n = name)) = false := by
    rw [Bool.eq_false_iff]
    intro hall
    have heq : ∀ n ∈ name :: rest, n = name :=
      List.forall_mem_cons.2 ⟨rfl, fun n hn ↦ of_decide_eq_true (List.all_eq_true.1 hall n hn)⟩
    exact hne ((heq n hn).trans (heq n' hn').symm)
  unfold headName
  rw [Stage.bind_apply, Stage.get_apply]
  simp only [hnone, hall]
  rfl

/-- A rule for looking at one variable: either nothing changes, or a new name becomes a merge. -/
theorem meets_headName {err : Failure → Prop} {post : Option Var → Renaming → Prop}
    {v : Var} {names : List Var}
    (hsame : Undisputed (r.block id).merges v names →
      post (chosen (r.block id).merges v names) r)
    (hmerge : ¬Undisputed (r.block id).merges v names → names ≠ [] →
      (r.block id).merges.lookup v = none → Stage.Meets (fresh f v) r err fun m t ↦
        post (some m) { t with
          blocks := t.blocks.modify id fun k ↦ { k with merges := k.merges ++ [(v, m)] } }) :
    Stage.Meets (headName f id v names) r err post := by
  by_cases hv : Undisputed (r.block id).merges v names
  · unfold Stage.Meets
    rw [headName_apply hv]
    exact hsame hv
  · obtain ⟨hnames, hnone, heq⟩ := headName_of_disputed (f := f) hv
    unfold Stage.Meets
    rw [heq]
    refine Stage.meets_bind.2 ((hmerge hv hnames hnone).imp fun m t hpost ↦ ?_)
    rw [Stage.meets_bind, update, Stage.meets_modify, Stage.meets_pure]
    exact hpost

/-- What is found about one variable at a head. -/
structure HeadName (id : BlockId) (v : Var) (names : List Var) (r : Renaming) (name : Option Var)
    (r' : Renaming) : Prop where
  size_eq : r'.blocks.size = r.blocks.size
  only : OnlyMerges id r r'
  merges : (r.block id).merges <+: (r'.block id).merges
  name_eq : name = chosen (r'.block id).merges v names
  undisputed : Undisputed (r'.block id).merges v names
  lookup_eq : ∀ w ≠ v, (r'.block id).merges.lookup w = (r.block id).merges.lookup w
  stable : Undisputed (r.block id).merges v names → r' = r

/-- A new merge is the name at the head from then on. -/
theorem HeadName.merge (hid : id < r.blocks.size) (hblocks : r'.blocks = r.blocks) {v m : Var}
    {names : List Var} (hnames : names ≠ []) (hnone : (r.block id).merges.lookup v = none)
    (hdisputed : ¬Undisputed (r.block id).merges v names) :
    HeadName id v names r (some m) { r' with
      blocks := r'.blocks.modify id fun k ↦ { k with merges := k.merges ++ [(v, m)] } } := by
  have hsame (c : BlockId) : r'.block c = r.block c := by rw [block, hblocks, block]
  have hblock := block_modify r' (hblocks ▸ hid) fun k ↦ { k with merges := k.merges ++ [(v, m)] }
  have hhere := (hblock id).trans (if_pos rfl)
  rw [hsame] at hhere
  have hlookup := lookup_append_singleton hnone m
  refine ⟨by simp [hblocks], ⟨fun c hc ↦ ?_, ?_⟩, ?_, ?_, ?_, fun w hw ↦ ?_,
    fun hundisputed ↦ absurd hundisputed hdisputed⟩
  · rw [hblock, if_neg hc, hsame]
  · rw [hhere]
  · rw [hhere]
    exact List.prefix_append _ _
  · obtain ⟨name, rest, rfl⟩ := List.exists_cons_of_ne_nil hnames
    simp [chosen, hhere, hlookup]
  · intro hlookup'
    simp [hhere, hlookup] at hlookup'
  · rw [hhere, hlookup, if_neg hw]

theorem headName_ensures (hid : id < r.blocks.size) (v : Var) (names : List Var) :
    Ensures (headName f id v names) r fun name r' ↦ HeadName id v names r name r' := by
  refine meets_headName (fun hv ↦ ?_) fun hdisputed hnames hnone ↦
    (fresh_ensures f v r).imp ?_
  · exact ⟨rfl, OnlyMerges.refl id r, List.prefix_rfl, rfl, hv, fun _ _ ↦ rfl, fun _ ↦ rfl⟩
  · rintro m t ⟨-, p, -, ht⟩
    have hblocks : t.blocks = r.blocks := by rw [ht]
    exact HeadName.merge hid hblocks hnames hnone hdisputed

/-- Looking at a variable only gives new names to variables of the function. -/
theorem headName_named (h : r.Named f birth) (hid : id ≤ f.blocks.size) (v : Var)
    (names : List Var) (hv : names ≠ [] → v < f.vars.size) :
    Ensures (headName f id v names) r fun _ r' ↦
      ∃ birth', r'.Named f birth' ∧ Grows r.vars r'.vars birth birth' := by
  refine meets_headName (fun _ ↦ ⟨birth, h, Grows.refl _ _⟩) fun _ hnames hnone ↦
    (fresh_ensures f v r).imp ?_
  rintro _ _ ⟨rfl, p, hp, rfl⟩
  obtain ⟨hnamed, hgrows, hfresh⟩ := h.push (hv hnames) hp (.head id)
  have hk := hnamed.block id
  refine ⟨_, hnamed.modify hid ⟨hk.defs_length, hk.defs_named, fun q hq ↦ ?_,
    nodup_append_singleton hk.merges_nodup hnone _, hk.out_faithful, hk.branches_faithful⟩, hgrows⟩
  obtain hq | hq := List.mem_append.1 hq
  · exact hk.merges_fresh q hq
  · rw [List.mem_singleton.1 hq]
    exact hfresh

/-! ## All variables of a block -/

/-- The names at the head of a block, as its merges and what arrives decide them. -/
def headEnv (f : Function) (g : Graph) (r : Renaming) (b : BlockId) : Env :=
  fun v ↦ chosen (r.block b).merges v (arriving (r.incoming f g b) v)

/-- What blocks pass on to others. -/
structure SameFlow (r r' : Renaming) : Prop where
  out_eq : ∀ b, (r'.block b).out = (r.block b).out
  branches_eq : ∀ b, (r'.block b).branches = (r.block b).branches

theorem SameFlow.along_eq (h : SameFlow r r') : r'.along = r.along := by
  funext e
  unfold along
  split
  · rw [h.branches_eq]
  · rw [h.out_eq]

theorem SameFlow.incoming_eq (h : SameFlow r r') (g : Graph) (b : BlockId) :
    r'.incoming f g b = r.incoming f g b := by
  unfold incoming
  rw [h.along_eq]

theorem sameFlow_of_onlyMerges (h : OnlyMerges id r r') :
    SameFlow r r' where
  out_eq b := by
    by_cases hb : b = id
    · rw [hb, h.here]
    · rw [h.others b hb]
  branches_eq b := by
    by_cases hb : b = id
    · rw [hb, h.here]
    · rw [h.others b hb]

/-- What is found at the head of a block. -/
structure HeadFound (f : Function) (g : Graph) (id : BlockId) (r : Renaming) (names : Names)
    (r' : Renaming) : Prop where
  only : OnlyMerges id r r'
  merges : (r.block id).merges <+: (r'.block id).merges
  trim : names.Trim
  get?_eq : Names.get? names = headEnv f g r' id
  undisputed : ∀ v, Undisputed (r'.block id).merges v (arriving (r'.incoming f g id) v)
  stable : (∀ v, Undisputed (r.block id).merges v (arriving (r.incoming f g id) v)) → r' = r

/-- What looking at the head of a block gives. -/
structure Head (f : Function) (g : Graph) (id : BlockId) (r : Renaming) (birth : Var → Birth)
    (names : Names) (r' : Renaming) (birth' : Var → Birth) : Prop extends
    HeadFound f g id r names r' where
  named : r'.Named f birth'
  grows : Grows r.vars r'.vars birth birth'

theorem le_foldl_max (sizes : List Nat) (k : Nat) :
    k ≤ sizes.foldl max k ∧ ∀ n ∈ sizes, n ≤ sizes.foldl max k := by
  induction sizes generalizing k with
  | nil => simp
  | cons m sizes ih =>
    obtain ⟨hmax, hrest⟩ := ih (max k m)
    refine ⟨Nat.le_trans (Nat.le_max_left k m) hmax, fun n hn ↦ ?_⟩
    rcases List.mem_cons.1 hn with rfl | hn
    · exact Nat.le_trans (Nat.le_max_right k n) hmax
    · exact hrest n hn

/-- No variable behind the end of every table arrives under any name. -/
theorem arriving_eq_nil {ns : List Names} {v : Var}
    (hv : v ∉ List.range ((ns.map Array.size).foldl max 0)) : arriving ns v = [] := by
  rw [List.mem_range, Nat.not_lt] at hv
  refine List.filterMap_eq_nil_iff.2 fun n hn ↦ Names.get?_eq_none_of_size_le ?_
  exact Nat.le_trans ((le_foldl_max _ 0).2 n.size (List.mem_map_of_mem hn)) hv

/-- What holds of parameters and of what blocks pass on holds of what arrives. -/
theorem forall_mem_incoming {P : Names → Prop} {g : Graph} {b : BlockId}
    (hparams : P (paramNames f)) (hout : ∀ c o, (r.block c).out = some o → P o)
    (hbranches : ∀ c, ∀ p ∈ (r.block c).branches, P p.2) : ∀ n ∈ r.incoming f g b, P n := by
  intro n hn
  obtain hn | hn := List.mem_append.1 hn
  · split at hn
    · rw [List.mem_singleton.1 hn]
      exact hparams
    · cases hn
  · obtain ⟨e, -, halong⟩ := List.mem_filterMap.1 hn
    unfold along at halong
    split at halong
    · obtain ⟨before, rest, hlist, -⟩ := List.lookup_eq_some_iff.1 halong
      exact hbranches e.src (e.instr, n) (by simp [hlist])
    · exact hout e.src n halong

/-- Every table of names that arrives at a block stands for the variables of the function. -/
theorem Named.incoming_faithful (h : r.Named f birth) (hparams : f.params.length ≤ f.vars.size)
    (g : Graph) (b : BlockId) : ∀ n ∈ r.incoming f g b,
      Env.Faithful f r.vars birth (Names.get? n) := by
  refine forall_mem_incoming (fun v name hname ↦ ?_) (fun c ↦ (h.block c).out_faithful)
    fun c ↦ (h.block c).branches_faithful
  rw [Names.get?_paramNames] at hname
  split at hname
  · cases hname
    have hv : v < f.vars.size := Nat.lt_of_lt_of_le ‹_› hparams
    exact ⟨hv, Nat.lt_of_lt_of_le hv h.size_le, by rw [h.original v hv]⟩
  · cases hname

/-- What is found at the head of a block by looking at some of the variables. -/
structure PartHead (id : BlockId) (ns : List Names) (r : Renaming) (done : List Var) (names : Names)
    (t : Renaming) : Prop where
  size_eq : t.blocks.size = r.blocks.size
  only : OnlyMerges id r t
  merges : (r.block id).merges <+: (t.block id).merges
  trim : names.Trim
  done_eq : ∀ v ∈ done, Names.get? names v = chosen (t.block id).merges v (arriving ns v)
  undisputed : ∀ v ∈ done, Undisputed (t.block id).merges v (arriving ns v)
  rest_eq : ∀ v ∉ done, Names.get? names v = none
  stable : (∀ v, Undisputed (r.block id).merges v (arriving ns v)) → t = r

theorem PartHead.step {ns : List Names} {done : List Var} {names names' : Names} {t t' : Renaming}
    (h : PartHead id ns r done names t) {v : Var} {name : Option Var} (hv : v ∉ done)
    (hhead : HeadName id v (arriving ns v) t name t') (htrim : names'.Trim)
    (hnames : Names.get? names' = Function.update (Names.get? names) v name) :
    PartHead id ns r (done ++ [v]) names' t' where
  size_eq := hhead.size_eq.trans h.size_eq
  only := h.only.trans hhead.only
  merges := h.merges.trans hhead.merges
  trim := htrim
  done_eq w hw := by
    rw [hnames]
    rcases List.mem_append.1 hw with hw | hw
    · have hne : w ≠ v := fun heq ↦ hv (heq ▸ hw)
      rw [Function.update_of_ne hne, h.done_eq w hw]
      unfold chosen
      rw [hhead.lookup_eq w hne]
    · rw [List.mem_singleton.1 hw, Function.update_self, hhead.name_eq]
  undisputed w hw := by
    rcases List.mem_append.1 hw with hw | hw
    · have hne : w ≠ v := fun heq ↦ hv (heq ▸ hw)
      intro hnone
      exact h.undisputed w hw (by rwa [hhead.lookup_eq w hne] at hnone)
    · rw [List.mem_singleton.1 hw]
      exact hhead.undisputed
  rest_eq w hw := by
    rw [List.mem_append, List.mem_singleton, not_or] at hw
    rw [hnames, Function.update_of_ne hw.2, h.rest_eq w hw.1]
  stable hr := by
    have ht := h.stable hr
    rw [hhead.stable (ht ▸ hr v), ht]

theorem headNames_found (f : Function) (g : Graph) (hid : id < r.blocks.size) :
    Ensures (headNames f g id) r fun names r' ↦ HeadFound f g id r names r' := by
  unfold headNames
  rw [Ensures, Stage.meets_bind, Stage.meets_get]
  set ns := r.incoming f g id with hns
  refine (Stage.meets_foldlM (fun done names t ↦ PartHead id ns r done names t)
    ⟨rfl, OnlyMerges.refl id r, List.prefix_rfl, Names.trim_empty, by simp, by simp, by simp,
      fun _ ↦ rfl⟩ ?_).imp ?_
  · intro done v rest names t hl hpart
    have hv : v ∉ done := by
      have hnodup := List.nodup_range (n := (ns.map Array.size).foldl max 0)
      rw [hl] at hnodup
      exact fun hv ↦ (List.nodup_append.1 hnodup).2.2 v hv v List.mem_cons_self rfl
    rw [Stage.meets_bind]
    refine (headName_ensures (hpart.size_eq ▸ hid) v (arriving ns v)).imp ?_
    rintro (_ | name) t' hhead
    · refine hpart.step hv hhead hpart.trim ?_
      rw [← hpart.rest_eq v hv, Function.update_eq_self]
    · exact hpart.step hv hhead (hpart.trim.set v name) (Names.get?_set_eq_update names v name)
  · intro names t hpart
    have hincoming : t.incoming f g id = ns := (sameFlow_of_onlyMerges hpart.only).incoming_eq g id
    refine ⟨hpart.only, hpart.merges, hpart.trim, funext fun v ↦ ?_, fun v ↦ ?_, hpart.stable⟩
    · unfold headEnv
      rw [hincoming]
      by_cases hv : v ∈ List.range ((ns.map Array.size).foldl max 0)
      · exact hpart.done_eq v hv
      · rw [hpart.rest_eq v hv, arriving_eq_nil hv]
        rfl
    · rw [hincoming]
      by_cases hv : v ∈ List.range ((ns.map Array.size).foldl max 0)
      · exact hpart.undisputed v hv
      · rw [arriving_eq_nil hv]
        exact fun _ n hn ↦ absurd hn List.not_mem_nil

theorem headNames_named {g : Graph} (h : r.Named f birth) (hid : id ≤ f.blocks.size)
    (hparams : f.params.length ≤ f.vars.size) :
    Ensures (headNames f g id) r fun _ r' ↦
      ∃ birth', r'.Named f birth' ∧ Grows r.vars r'.vars birth birth' := by
  have hfaithful := h.incoming_faithful hparams g id
  set ns := r.incoming f g id with hns
  have hlt {v : Var} (hv : arriving ns v ≠ []) : v < f.vars.size := by
    obtain ⟨name, hname⟩ := List.exists_mem_of_ne_nil _ hv
    obtain ⟨n, hn, hget⟩ := List.mem_filterMap.1 hname
    exact (hfaithful n hn v name hget).var_lt
  unfold headNames
  rw [Ensures, Stage.meets_bind, Stage.meets_get]
  refine Stage.meets_foldlM (fun _ _ (t : Renaming) ↦ ∃ birth', t.Named f birth'
    ∧ Grows r.vars t.vars birth birth') ⟨birth, h, Grows.refl _ _⟩ ?_
  rintro done v rest names t - ⟨birth', hnamed, hgrows⟩
  rw [Stage.meets_bind]
  refine (headName_named hnamed hid v (arriving ns v) hlt).imp ?_
  rintro (_ | name) t' ⟨birth'', hnamed', hgrows'⟩
  · exact ⟨birth'', hnamed', hgrows.trans hgrows'⟩
  · exact ⟨birth'', hnamed', hgrows.trans hgrows'⟩

theorem headNames_ensures {g : Graph} (h : r.Named f birth) (hid : id ≤ f.blocks.size)
    (hparams : f.params.length ≤ f.vars.size) :
    Ensures (headNames f g id) r fun names r' ↦
      ∃ birth', Head f g id r birth names r' birth' := by
  refine ((headNames_found f g (h.lt_size hid)).and (headNames_named h hid hparams)).imp ?_
  rintro names r' ⟨hfound, birth', hnamed, hgrows⟩
  exact ⟨birth', ⟨hfound, hnamed, hgrows⟩⟩

theorem length_incoming_le (f : Function) (g : Graph) (r : Renaming) (b : BlockId) :
    (r.incoming f g b).length ≤ g.ways b := by
  unfold incoming Graph.ways
  rw [List.length_append]
  refine Nat.add_le_add ?_ (List.length_filterMap_le _ _)
  split <;> simp

/-- Nothing is disputed at a block with one way into it. -/
theorem undisputed_of_ways_le_one {g : Graph} (hways : g.ways id ≤ 1) (merges : List (Var × Var))
    (v : Var) : Undisputed merges v (arriving (r.incoming f g id) v) := by
  intro _ n hn n' hn'
  have hlength := Nat.le_trans (length_incoming_le f g r id) hways
  obtain ⟨t, ht, hget⟩ := List.mem_filterMap.1 hn
  obtain ⟨t', ht', hget'⟩ := List.mem_filterMap.1 hn'
  have hsame : t = t' := by
    generalize r.incoming f g id = names at hlength ht ht'
    match names, hlength with
    | [x], _ => exact (List.mem_singleton.1 ht).trans (List.mem_singleton.1 ht').symm
  subst hsame
  exact Option.some.inj (hget.symm.trans hget')

/-- A name at a head is a merge there or arrives there. -/
theorem mem_of_headEnv_eq {g : Graph} {b : BlockId} {v name : Var}
    (h : headEnv f g r b v = some name) :
    (v, name) ∈ (r.block b).merges ∨ ∃ n ∈ r.incoming f g b, Names.get? n v = some name := by
  unfold headEnv chosen at h
  split at h
  · cases h
  · rename_i first rest harriving
    cases hmerge : (r.block b).merges.lookup v with
    | none =>
      rw [hmerge] at h
      cases h
      have hmem : first ∈ arriving (r.incoming f g b) v := harriving ▸ List.mem_cons_self
      exact .inr (List.mem_filterMap.1 hmem)
    | some merge =>
      rw [hmerge] at h
      cases h
      obtain ⟨before, rest, hmerges, -⟩ := List.lookup_eq_some_iff.1 hmerge
      exact .inl (by simp [hmerges])

/-- The names at a head stand for the variables of the function. -/
theorem Named.headEnv_faithful (h : r.Named f birth) (hparams : f.params.length ≤ f.vars.size)
    (g : Graph) (b : BlockId) : (headEnv f g r b).Faithful f r.vars birth := by
  intro v name hname
  obtain hmerge | ⟨n, hn, hget⟩ := mem_of_headEnv_eq hname
  · exact ((h.block b).merges_fresh (v, name) hmerge).standsFor
  · exact h.incoming_faithful hparams g b n hn v name hget

end Renaming

end WasmBackend.SingleAssignment
