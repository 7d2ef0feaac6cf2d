import WasmBackend.Proofs.DeadCode.Trimming
import WasmBackend.Proofs.SingleAssignment.Definitions

/-!
# Pruning preserves runs

A function that runs without trapping does the same without its dead code: the effects of its pure
instructions may be missing, everything else happens in the same order, and the run ends the same
way.
-/

namespace WasmBackend.DeadCode

open Ir (Behavior BlockId Block Copy Correspondence Forest Function Instr Machine SameCode State
  Tree Var counter)
open SingleAssignment (Birth Converted Renaming conversion convert countdown)
open WasmBackend.Flow (Graph)
open Stage (Succeeds)

/-- The second behaviour lacks at most effects of pure instructions. -/
structure TrimmedTo {V W : Type} (b b' : Behavior V W) : Prop where
  outcome_eq : b'.outcome = b.outcome
  world_eq : b'.world = b.world
  effects_eq : effects b'.trace = effects b.trace
  sublist : b'.trace.Sublist b.trace

/-- Whatever one function does without trapping, the other does as well, apart from effects of
pure instructions. -/
def Replaces (f' f : Function) : Prop :=
  ∀ (V W : Type) (m : Machine V W) (budget : Nat) (params : List V) (world : W),
    (∀ reason, (f.behavior m budget params world).outcome ≠ .trapped reason) →
      TrimmedTo (f.behavior m budget params world) (f'.behavior m budget params world)

theorem Replaces.of_eq {f f' : Function}
    (h : ∀ (V W : Type) (m : Machine V W) (budget : Nat) (params : List V) (world : W),
      f'.behavior m budget params world = f.behavior m budget params world) : Replaces f' f := by
  intro V W m budget params world _
  rw [h]
  exact ⟨rfl, rfl, rfl, List.Sublist.refl _⟩

theorem Replaces.trans {f f' f'' : Function} (h' : Replaces f'' f') (h : Replaces f' f) :
    Replaces f'' f := by
  intro V W m budget params world hruns
  have hfirst := h V W m budget params world hruns
  have hsecond := h' V W m budget params world fun reason ↦ by
    rw [hfirst.outcome_eq]
    exact hruns reason
  exact ⟨hsecond.outcome_eq.trans hfirst.outcome_eq, hsecond.world_eq.trans hfirst.world_eq,
    hsecond.effects_eq.trans hfirst.effects_eq, hsecond.sublist.trans hfirst.sublist⟩

theorem behavior_eq {f : Function} {ts : Forest} (hf : f.LaidOut ts) {V W : Type}
    (m : Machine V W) (budget : Nat) (params : List V) (world : W) :
    f.behavior m budget params world =
      let r := Forest.run m f budget ts (f.start m params world)
      { trace := r.1.trace, world := r.1.world, outcome := f.outcome r.2 } := by
  unfold Function.behavior
  rw [hf.trees_eq]

/-! ## One sweep -/

/-- The function consists of these trees, and the variables in their blocks exist. -/
structure Sound (f : Function) (ts : Forest) : Prop extends f.LaidOut ts where
  within : ∀ id ∈ Forest.ids ts, (f.blockAt id).Within f.vars.size

/-- What pruning makes of a function with these trees, apart from blocks that are given up. -/
structure Pruned (f : Function) (ts : Forest) (givenUp drop : BlockId → Bool) (p : Function) :
    Prop where
  frame : p = { f with blocks := p.blocks, body := p.body }
  sound : Sound p (Forest.without drop ts)
  trim : ∀ id, Trim (p.Reads (Forest.without drop ts)) (f.blockAt id) (p.blockAt id)
  dropped : ∀ id, drop id → givenUp id ∨ (p.blockAt id).isEmpty
  kept : ∀ id, givenUp id → drop id
  replaces : Replaces p f
  assigned : f.Assigned (Forest.ids (Forest.without givenUp ts)) →
    p.Assigned (Forest.ids (Forest.without drop ts))

/-- A block with nothing to do keeps nothing to do. -/
theorem Trim.isEmpty {needed : Var → Prop} {b b' : Block} (h : Trim needed b b') (hb : b.isEmpty) :
    b'.isEmpty := by
  simp only [Block.isEmpty, Bool.and_eq_true, List.isEmpty_iff, decide_eq_true_eq] at hb ⊢
  have hinstrs := h.instrs
  have hexits := h.exits.subset
  rw [hb.1.2] at hinstrs
  rw [hb.2] at hexits
  refine ⟨⟨h.kind_eq.trans hb.1.1, ?_⟩, List.subset_nil.1 hexits⟩
  generalize b'.instrs = is at hinstrs
  cases hinstrs
  rfl

theorem Pruned.trans {f p q : Function} {ts : Forest} {givenUp drop drop' : BlockId → Bool}
    (h : Pruned f ts givenUp drop p)
    (h' : Pruned p (Forest.without drop ts) (fun _ ↦ false) drop' q) :
    Pruned f ts givenUp (fun id ↦ drop id || drop' id) q where
  frame := by rw [h'.frame, h.frame]
  sound := by
    rw [← (Tree.without_without drop drop').2]
    exact h'.sound
  trim id := by
    rw [← (Tree.without_without drop drop').2]
    refine ((h.trim id).mono fun v hv ↦ ?_).trans (h'.trim id)
    obtain ⟨b, hb, hread⟩ := hv
    exact ⟨b, ((Tree.ids_without drop').2 _).subset hb, (h'.trim b).reads hread⟩
  dropped id hid := by
    rcases Bool.or_eq_true_iff.1 hid with hid | hid
    · rcases h.dropped id hid with hgone | hempty
      · exact .inl hgone
      · exact .inr ((h'.trim id).isEmpty hempty)
    · exact .inr ((h'.dropped id hid).resolve_left Bool.false_ne_true)
  kept id hid := by simp [h.kept id hid]
  replaces := h'.replaces.trans h.replaces
  assigned hf := by
    have hassigned := h'.assigned
    rw [Tree.without_none.2, (Tree.without_without drop drop').2] at hassigned
    exact hassigned (h.assigned hf)

/-- Some blocks have lost what nothing uses. -/
structure Swept (live : Live) (ids : List BlockId) (f f' : Function) : Prop where
  frame : f' = { f with blocks := f'.blocks }
  size_eq : f'.blocks.size = f.blocks.size
  block?_eq : ∀ c, f'.block? c =
    (f.block? c).map fun b ↦ if c ∈ ids then live.swept b else b

section

variable {live : Live} {f f' : Function} {ts : Forest}

theorem Swept.refl (live : Live) (f : Function) : Swept live [] f f where
  frame := rfl
  size_eq := rfl
  block?_eq c := by cases f.block? c <;> rfl

theorem Swept.step {ids : List BlockId} (h : Swept live ids f f') {id : BlockId} (hid : id ∉ ids)
    {b : Block} (hb : f.block? id = some b) :
    Swept live (ids ++ [id]) f (f'.updateBlock id fun _ ↦ live.swept b) where
  frame := by
    unfold Function.updateBlock
    split
    · exact h.frame
    · rw [h.frame]
  size_eq := by
    unfold Function.updateBlock
    split
    · exact h.size_eq
    · simpa using h.size_eq
  block?_eq c := by
    rw [Function.block?_updateBlock, h.block?_eq]
    by_cases hc : c = id
    · subst hc
      simp [hb]
    · simp [hc]

theorem Swept.blockAt_eq (h : Swept live (Forest.ids ts) f f') (hf : Forest.Stored f ts)
    {id : BlockId} (hid : id ∈ Forest.ids ts) : f'.blockAt id = live.swept (f.blockAt id) := by
  conv_lhs => unfold Function.blockAt
  rw [h.block?_eq, Tree.block?_of_mem_ids.2 ts hf id hid]
  simp [hid]

theorem Swept.laidOut (h : Swept live (Forest.ids ts) f f') (hf : f.LaidOut ts) :
    f'.LaidOut ts where
  body_eq := by rw [h.frame, ← hf.body_eq]
  stored := by
    refine Tree.stored_congr.2 ts (fun id _ b hb ↦ ⟨_, by rw [h.block?_eq, hb]; rfl, ?_⟩) hf.stored
    split <;> exact ⟨rfl, rfl, rfl⟩
  nodup := hf.nodup
  height_le := by
    rw [Function.treeDepth, h.size_eq]
    exact hf.height_le

theorem within_swept {n : Nat} {b : Block} (h : b.Within n) (live : Live) :
    (live.swept b).Within n where
  cond := h.cond
  instrs i hi := by
    obtain ⟨j, hj, hkept⟩ := List.mem_filterMap.1 hi
    split at hkept
    · cases hkept
      have hj' := h.instrs j hj
      exact ⟨hj'.dst, hj'.args, fun c hc ↦ hj'.copies c (List.mem_of_mem_filter hc)⟩
    · cases hkept
  exits c hc := h.exits c (List.mem_of_mem_filter hc)
  arounds c hc := h.arounds c (List.mem_of_mem_filter hc)
  entries c hc := h.entries c (List.mem_of_mem_filter hc)

theorem Swept.sound (h : Swept live (Forest.ids ts) f f') (hf : Sound f ts) : Sound f' ts where
  toLaidOut := h.laidOut hf.toLaidOut
  within id hid := by
    rw [h.blockAt_eq hf.stored hid, h.frame]
    exact within_swept (hf.within id hid) live

/-- Sweeping removes nothing but effects of pure instructions. -/
theorem Swept.replaces (h : Swept live (Forest.ids ts) f f') (hf : f.LaidOut ts)
    (hclosed : ∀ id ∈ Forest.ids ts, live.Closed (f.blockAt id)) : Replaces f' f := by
  intro V W m budget params world hruns
  have hsimulates : Forest.Simulates m (trimming V W live) f f' {} 0 ts :=
    simulates_of_sweptTo.2 ts {} 0 hf.stored fun id hid ↦
      ⟨hclosed id hid, h.blockAt_eq hf.stored hid⟩
  have hstart : f'.start m params world = f.start m params world := by
    rw [h.frame]
    rfl
  have hagree : AgreeOn live (f.start m params world) (f.start m params world) :=
    ⟨⟨rfl, rfl, List.Sublist.refl _⟩, fun _ _ ↦ rfl⟩
  have hresult : f'.result = f.result := by rw [h.frame]
  rw [behavior_eq hf] at hruns ⊢
  rw [behavior_eq (h.laidOut hf), hstart]
  obtain ⟨-, reason, htrap⟩ | ⟨hexit, hlanded⟩ :=
    (Tree.matches_of_simulates budget).2 ts {} 0 hsimulates _ _ hagree
  · refine absurd ?_ (hruns reason)
    dsimp only
    rw [htrap]
    rfl
  · have htrimmed : Trimmed _ _ := hlanded.stopped
    refine ⟨?_, htrimmed.world_eq, htrimmed.effects_eq, htrimmed.sublist⟩
    dsimp only
    rw [← hexit]
    unfold Function.outcome
    rw [hresult]

/-- Dropping blocks with nothing to do changes nothing. -/
theorem replaces_of_dropped {drop : BlockId → Bool} (h : SameCode f f') (hf : f.LaidOut ts)
    (hf' : f'.LaidOut (Forest.without drop ts))
    (hrun : ∀ (V W : Type) (m : Machine V W) (budget : Nat) (params : List V) (world : W),
      Forest.run m f budget (Forest.without drop ts) (f.start m params world)
        = Forest.run m f budget ts (f.start m params world)) : Replaces f' f := by
  refine Replaces.of_eq fun V W m budget params world ↦ ?_
  have hresult : f'.result = f.result := by rw [h.frame]
  rw [behavior_eq hf, behavior_eq hf', h.start_eq, (h.run_eq m budget).2, hrun]
  unfold Function.outcome
  rw [hresult]

theorem Sound.sameCode {ts' : Forest} (hf : Sound f ts) (h : SameCode f f') (hf' : f'.LaidOut ts')
    (hids : Forest.ids ts' ⊆ Forest.ids ts) : Sound f' ts' where
  toLaidOut := hf'
  within id hid := by
    rw [show f'.vars = f.vars by rw [h.frame]]
    exact h.within (hf.within id (hids hid))

/-! ## What is assigned -/

theorem assigned_of_sameCode {ids : List BlockId} (hf : f.Assigned ids) (h : SameCode f f') :
    f'.Assigned ids := by
  have hparams : f'.params = f.params := by rw [h.frame]
  have hblock (c : BlockId) : (f'.blockAt c).defs = (f.blockAt c).defs
      ∧ (f'.blockAt c).copyGroups = (f.blockAt c).copyGroups
      ∧ (f'.blockAt c).merged = (f.blockAt c).merged := by
    obtain ⟨body, otherwise, heq⟩ := h.blockAt_eq c
    rw [heq]
    exact ⟨rfl, rfl, rfl⟩
  constructor <;> simp only [hblock, hparams]
  · exact hf.defs_nodup
  · exact hf.defs_apart
  · exact hf.params_le
  · exact hf.groups_nodup
  · exact hf.merged

theorem defs_swept_sublist (live : Live) (b : Block) : (live.swept b).defs.Sublist b.defs := by
  have hinstrs (is : List Instr) :
      ((live.sweptInstrs is).flatMap Instr.dst).Sublist (is.flatMap Instr.dst) := by
    induction is with
    | nil => exact List.Sublist.refl _
    | cons i is ih =>
      rw [Live.sweptInstrs_cons, List.flatMap_cons]
      split
      · exact (List.Sublist.refl _).append ih
      · exact ih.trans (List.sublist_append_right _ _)
  exact hinstrs b.instrs

theorem exists_of_mem_copyGroups_swept {b : Block} {cs : List Copy}
    (h : cs ∈ (live.swept b).copyGroups) : ∃ cs' ∈ b.copyGroups, cs = live.only cs' := by
  simp only [Block.copyGroups, List.mem_cons, List.mem_map] at h ⊢
  rcases h with rfl | rfl | rfl | ⟨j, hj, rfl⟩
  · exact ⟨_, .inl rfl, rfl⟩
  · exact ⟨_, .inr (.inl rfl), rfl⟩
  · exact ⟨_, .inr (.inr (.inl rfl)), rfl⟩
  · obtain ⟨i, hi, hkept⟩ := List.mem_filterMap.1 hj
    split at hkept <;> cases hkept
    exact ⟨i.copies, .inr (.inr (.inr ⟨i, hi, rfl⟩)), rfl⟩

/-- A merge of a live variable stays. -/
theorem mem_merged_swept {b : Block} {v : Var} (hv : v ∈ b.merged) (hlive : live.has v) :
    v ∈ (live.swept b).merged := by
  simp only [Block.merged, List.mem_flatMap, List.mem_filter, decide_eq_true_eq] at hv ⊢
  obtain ⟨i, ⟨hi, hop⟩, hdst⟩ := hv
  refine ⟨{ i with copies := live.only i.copies }, ⟨List.mem_filterMap.2 ⟨i, hi, ?_⟩, hop⟩, hdst⟩
  rw [if_pos]
  exact Bool.or_eq_true_iff.2 (.inr (List.any_eq_true.2 ⟨v, hdst, hlive⟩))

/-- After a sweep every assignment that is left still is one to a merge that is left. -/
theorem Swept.assigned (h : Swept live (Forest.ids ts) f f') (hf : f.LaidOut ts)
    (hassigned : f.Assigned (Forest.ids ts)) :
    f'.Assigned (Forest.ids (Forest.without (fun id ↦ (f'.blockAt id).isEmpty) ts)) := by
  have hmem := ((Tree.ids_without fun id ↦ (f'.blockAt id).isEmpty).2 ts).subset
  have hdefs {id : BlockId} (hid : id ∈ Forest.ids ts) :
      (f'.blockAt id).defs.Sublist (f.blockAt id).defs := by
    rw [h.blockAt_eq hf.stored hid]
    exact defs_swept_sublist live _
  have hgroups {id : BlockId} (hid : id ∈ Forest.ids ts) {cs : List Copy}
      (hcs : cs ∈ (f'.blockAt id).copyGroups) :
      ∃ cs' ∈ (f.blockAt id).copyGroups, cs = live.only cs' := by
    rw [h.blockAt_eq hf.stored hid] at hcs
    exact exists_of_mem_copyGroups_swept hcs
  refine ⟨fun id hid ↦ ?_, fun id hid c hc v hv hv' ↦ ?_, fun id hid v hv ↦ ?_,
    fun id hid cs hcs ↦ ?_, fun id hid cs hcs c hc ↦ ?_⟩
  · exact (hdefs (hmem hid)).nodup (hassigned.defs_nodup id (hmem hid))
  · exact hassigned.defs_apart id (hmem hid) c (hmem hc) v ((hdefs (hmem hid)).subset hv)
      ((hdefs (hmem hc)).subset hv')
  · rw [show f'.params = f.params by rw [h.frame]]
    exact hassigned.params_le id (hmem hid) v ((hdefs (hmem hid)).subset hv)
  · obtain ⟨cs', hcs', rfl⟩ := hgroups (hmem hid) hcs
    exact (List.filter_sublist.map Copy.dst).nodup (hassigned.groups_nodup id (hmem hid) cs' hcs')
  · obtain ⟨cs', hcs', rfl⟩ := hgroups (hmem hid) hcs
    obtain ⟨hc', hlive⟩ := List.mem_filter.1 hc
    obtain ⟨b, hb, hmerged⟩ := hassigned.merged id (hmem hid) cs' hcs' c hc'
    have hmerged' : c.dst ∈ (f'.blockAt b).merged := by
      rw [h.blockAt_eq hf.stored hb]
      exact mem_merged_swept hmerged hlive
    refine ⟨b, (Tree.mem_ids_without fun id hid ↦ ?_).2 ts (h.laidOut hf).stored b hb ?_, hmerged'⟩
    · simp only [Block.isEmpty, Bool.and_eq_true, decide_eq_true_eq] at hid
      exact hid.1.1
    · rw [Bool.eq_false_iff]
      intro hempty
      simp only [Block.isEmpty, Bool.and_eq_true, List.isEmpty_iff] at hempty
      rw [Block.merged, hempty.1.2] at hmerged'
      cases hmerged'

/-- A function whose blocks were swept, without those that have nothing left to do. -/
theorem Swept.pruned (h : Swept live (Forest.ids ts) f f') (hf : Sound f ts)
    (hclosed : ∀ id ∈ Forest.ids ts, live.Closed (f.blockAt id)) {p : Function}
    (hsame : SameCode f' p)
    (hp : p.LaidOut (Forest.without (fun id ↦ (f'.blockAt id).isEmpty) ts)) :
    Pruned f ts (fun _ ↦ false) (fun id ↦ (f'.blockAt id).isEmpty) p where
  frame := by rw [hsame.frame, h.frame]
  sound := (h.sound hf).sameCode hsame hp ((Tree.ids_without _).2 ts).subset
  trim id := by
    have hreads {v : Var} (hv : p.Reads (Forest.without (fun id ↦ (f'.blockAt id).isEmpty) ts) v) :
        live.has v := by
      obtain ⟨b, hb, hread⟩ := hv
      have hb' := ((Tree.ids_without _).2 ts).subset hb
      obtain ⟨body, otherwise, hpb⟩ := hsame.blockAt_eq b
      rw [hpb] at hread
      refine has_of_mem_reads_swept (hclosed b hb') ?_
      rw [← h.blockAt_eq hf.stored hb']
      exact hread
    obtain ⟨body, otherwise, hpb⟩ := hsame.blockAt_eq id
    rw [hpb]
    refine Trim.trans ?_ (Trim.refl _ (f'.blockAt id) body otherwise)
    by_cases hid : id ∈ Forest.ids ts
    · rw [h.blockAt_eq hf.stored hid]
      exact (trim_swept live (f.blockAt id)).mono fun v hv ↦ hreads hv
    · have hsame' : f'.blockAt id = f.blockAt id := by
        unfold Function.blockAt
        rw [h.block?_eq]
        simp [hid]
      rw [hsame']
      exact Trim.refl _ _ (f.blockAt id).body (f.blockAt id).otherwise
  dropped id hid := .inr (by rwa [hsame.isEmpty_eq])
  kept _ hid := by cases hid
  replaces := by
    refine (replaces_of_dropped hsame (h.laidOut hf.toLaidOut) hp ?_).trans
      (h.replaces hf.toLaidOut hclosed)
    intro V W m budget params world
    rw [(Tree.run_without_of_isEmpty budget fun id hid ↦ hid).2 ts (h.laidOut hf.toLaidOut).stored]
  assigned hassigned := by
    rw [Tree.without_none.2] at hassigned
    exact assigned_of_sameCode (h.assigned hf.toLaidOut hassigned) hsame

end

namespace Pruning

variable {live : Live} {s : Pruning}

theorem filterM_eq {α : Type} {p : α → Except Failure Bool} {q : α → Bool} {l : List α}
    (h : ∀ a ∈ l, p a = .ok (q a)) : l.filterM p = .ok (l.filter q) := by
  induction l with
  | nil => rfl
  | cons a l ih =>
    rw [Stage.filterM_cons, h a List.mem_cons_self,
      ih fun b hb ↦ h b (List.mem_cons_of_mem a hb), List.filter_cons]
    rfl

theorem liveCopies_succeeds {cs : List Copy} (hcs : ∀ c ∈ cs, c.dst < live.size) :
    Succeeds (liveCopies live cs) s fun kept s' ↦
      kept = live.only cs ∧ s'.function = s.function := by
  unfold liveCopies count
  rw [filterM_eq fun c hc ↦ Live.contains_eq (hcs c hc)]
  exact ⟨rfl, rfl⟩

theorem liveInstrs_succeeds {is : List Instr} (his : ∀ i ∈ is, i.Within live.size) :
    Succeeds (liveInstrs live is) s fun kept s' ↦
      kept = live.sweptInstrs is ∧ s'.function = s.function := by
  unfold liveInstrs
  induction is generalizing s with
  | nil => exact ⟨rfl, rfl⟩
  | cons i is ih =>
    have hi := his i List.mem_cons_self
    rw [List.filterMapM_cons, Live.keeps_eq hi.dst, Live.sweptInstrs_cons]
    simp only [Succeeds, Stage.meets_bind, Stage.meets_ofExcept]
    cases hretains : live.retains i with
    | true =>
      simp only [if_true, Stage.meets_bind, Stage.meets_pure]
      refine (liveCopies_succeeds fun c hc ↦ (hi.copies c hc).1).imp ?_
      rintro _ s₁ ⟨rfl, hs₁⟩
      refine (ih fun j hj ↦ his j (List.mem_cons_of_mem i hj)).imp ?_
      rintro _ s₂ ⟨rfl, hs₂⟩
      exact ⟨rfl, hs₂.trans hs₁⟩
    | false =>
      simp only [Bool.false_eq_true, if_false, Stage.meets_bind, Stage.meets_pure, count,
        Stage.meets_modify]
      refine (ih fun j hj ↦ his j (List.mem_cons_of_mem i hj)).imp ?_
      rintro _ s₂ ⟨rfl, hs₂⟩
      exact ⟨rfl, hs₂⟩

theorem sweepBlock_succeeds {id : BlockId} {b : Block} (hb : s.function.block? id = some b)
    (hwithin : b.Within live.size) :
    Succeeds (sweepBlock live id) s fun _ s' ↦
      s'.function = s.function.updateBlock id fun _ ↦ live.swept b := by
  unfold sweepBlock
  rw [Succeeds, Stage.meets_bind, meets_blockOf hb, Stage.meets_bind]
  refine (liveInstrs_succeeds hwithin.instrs).imp ?_
  rintro _ s₁ ⟨rfl, hs₁⟩
  rw [Stage.meets_bind]
  refine (liveCopies_succeeds fun c hc ↦ (hwithin.exits c hc).1).imp ?_
  rintro _ s₂ ⟨rfl, hs₂⟩
  rw [Stage.meets_bind]
  refine (liveCopies_succeeds fun c hc ↦ (hwithin.arounds c hc).1).imp ?_
  rintro _ s₃ ⟨rfl, hs₃⟩
  rw [Stage.meets_bind]
  refine (liveCopies_succeeds fun c hc ↦ (hwithin.entries c hc).1).imp ?_
  rintro _ s₄ ⟨rfl, hs₄⟩
  rw [meets_setBlock]
  dsimp only
  rw [hs₄, hs₃, hs₂, hs₁]
  rfl

/-- A sweep succeeds and prunes the function. -/
theorem sweep_succeeds {ts : Forest} (hs : Sound s.function ts) :
    Succeeds sweep s fun _ s' ↦
      ∃ drop, Pruned s.function ts (fun _ ↦ false) drop s'.function := by
  obtain ⟨live, hlive, hsize, hclosed⟩ := Live.ofFunction_closed hs.toLaidOut hs.within
  unfold sweep
  simp only [Succeeds, Stage.meets_bind, Stage.meets_get, Stage.meets_ofExcept, hlive,
    hs.walk_eq]
  refine (Stage.meets_forIn
    (fun done _ (t : Pruning) ↦ Swept live (done.map Prod.fst) s.function t.function)
    (Swept.refl live s.function) ?_).imp ?_
  · intro done p rest _ t hl ht
    have hids : Forest.ids ts = (done ++ p :: rest).map Prod.fst := by
      rw [← hl, List.map_map]
      exact (List.map_id _).symm
    have hnodup := hs.nodup
    rw [hids, List.map_append, List.map_cons] at hnodup
    have hnew : p.1 ∉ done.map Prod.fst := fun hmem ↦
      (List.nodup_append.1 hnodup).2.2 p.1 hmem p.1 List.mem_cons_self rfl
    have hmem : p.1 ∈ Forest.ids ts := by
      rw [hids]
      exact List.mem_map_of_mem (List.mem_append_right _ List.mem_cons_self)
    have hblock := Tree.block?_of_mem_ids.2 ts hs.stored p.1 hmem
    have hblock' : t.function.block? p.1 = some (s.function.blockAt p.1) := by
      rw [ht.block?_eq, hblock, Option.map_some, if_neg hnew]
    rw [Stage.meets_bind]
    refine (sweepBlock_succeeds hblock' (hsize ▸ hs.within p.1 hmem)).imp ?_
    intro _ t' ht'
    refine ⟨_, rfl, ?_⟩
    rw [ht', List.map_append]
    exact ht.step hnew hblock
  · intro _ t ht
    rw [List.map_map, show Prod.fst ∘ (fun id ↦ (id, s.function.blockAt id)) = id from rfl,
      List.map_id] at ht
    have hsound := ht.sound hs
    have hdrop (id : BlockId) (t' : Pruning) (b : Block) (hsame : SameCode t.function t'.function)
        (hb : t'.function.block? id = some b) :
        Succeeds (do return (← blockOf id).isEmpty) t' fun dropped t'' ↦
          dropped = (t.function.blockAt id).isEmpty ∧ t' = t'' := by
      rw [Succeeds, Stage.meets_bind, meets_blockOf hb]
      refine ⟨?_, rfl⟩
      rw [← hsame.isEmpty_eq, Function.blockAt, hb]
      rfl
    refine (dropFromTree_succeeds hsound.toLaidOut hdrop).imp ?_
    rintro _ t' ⟨hsame, hlaidOut⟩
    exact ⟨_, ht.pruned hs hclosed hsame hlaidOut⟩

/-- Sweeping again and again prunes the function. -/
theorem sweepAll_succeeds {ts : Forest} {givenUp drop : BlockId → Bool} {f : Function}
    (rounds : Nat) (hs : Pruned f ts givenUp drop s.function) :
    Succeeds (sweepAll rounds) s fun _ s' ↦ ∃ drop', Pruned f ts givenUp drop' s'.function := by
  induction rounds generalizing s drop with
  | zero => exact ⟨drop, hs⟩
  | succ rounds ih =>
    unfold sweepAll
    rw [Succeeds, Stage.meets_bind]
    refine (sweep_succeeds hs.sound).imp ?_
    rintro again s₁ ⟨drop', hpruned⟩
    cases again with
    | false => exact ⟨_, hs.trans hpruned⟩
    | true => exact ih (hs.trans hpruned)

end Pruning

/-! ## Converted functions -/

section

variable {f f' : Function} {ts : Forest} {g : Graph} {r : Renaming} {birth : Var → Birth}

/-- Dropping what control cannot reach from a converted function changes nothing. -/
theorem replaces_reachable (h : Converted f ts f' g r birth) {p : Function}
    (hsame : SameCode f' p) (hp : p.LaidOut (Forest.without (fun id ↦ !g.isReachable id) ts)) :
    Replaces p f' := by
  refine replaces_of_dropped hsame h.laidOut hp fun V W m budget params world ↦ ?_
  refine (Tree.run_without_of_simulates (c := conversion m f g r birth) id (fun b s s' hat hb ↦ ?_)
    budget).2 ts {} 0 (h.simulates.2 ts {} 0 [] (h.shaped.placed h.describes)) h.laidOut.stored _ _
    (h.at_start m params world)
  have hmem : b ∈ g.order := (hat.2 hb).1
  simp [Graph.isReachable, hmem]

/-- A converted function without what control cannot reach. -/
theorem pruned_reachable (h : Converted f ts f' g r birth) (hplain : f.isPlain) {p : Function}
    (hsame : SameCode f' p) (hp : p.LaidOut (Forest.without (fun id ↦ !g.isReachable id) ts)) :
    Pruned f' ts (fun id ↦ !g.isReachable id) (fun id ↦ !g.isReachable id) p where
  frame := hsame.frame
  sound.toLaidOut := hp
  sound.within id hid := by
    have hreachable := (Tree.keeps_without _).2 ts id hid
    have hmem : id ∈ g.order := by simpa [Graph.isReachable] using hreachable
    rw [show p.vars = f'.vars by rw [hsame.frame]]
    exact hsame.within (h.within hplain hmem)
  trim id := by
    obtain ⟨body, otherwise, hpb⟩ := hsame.blockAt_eq id
    rw [hpb]
    exact Trim.refl _ _ body otherwise
  dropped _ hid := .inl hid
  kept _ hid := hid
  replaces := replaces_reachable h hsame hp
  assigned hassigned := assigned_of_sameCode hassigned hsame

/-- Pruning a converted function succeeds. -/
theorem pruned_of_converted (h : Converted f ts f' g r birth) (hplain : f.isPlain) :
    ∃ p removed drop, prune f' (some g) = .ok (p, removed)
      ∧ Pruned f' ts (fun id ↦ !g.isReachable id) drop p := by
  have hdrop (id : BlockId) (s : Pruning) (b : Block) (_ : SameCode f' s.function)
      (_ : s.function.block? id = some b) :
      Succeeds (pure (!g.isReachable id) : Pruning.M Bool) s fun dropped s' ↦
        dropped = !g.isReachable id ∧ s = s' :=
    ⟨rfl, rfl⟩
  have hrun : Succeeds (do
      Pruning.dropFromTree fun id => return !g.isReachable id
      Pruning.sweepAll (Removed.bound f' + 1)) { function := f' } fun _ s ↦
        ∃ drop, Pruned f' ts (fun id ↦ !g.isReachable id) drop s.function := by
    rw [Succeeds, Stage.meets_bind]
    refine (Pruning.dropFromTree_succeeds h.laidOut hdrop).imp ?_
    rintro _ s ⟨hsame, hlaidOut⟩
    exact Pruning.sweepAll_succeeds _ (pruned_reachable h hplain hsame hlaidOut)
  obtain ⟨_, s, heq, drop, hpruned⟩ := Stage.succeeds_iff.1 hrun
  refine ⟨s.function, s.removed, drop, ?_, hpruned⟩
  unfold prune Stage.runFrom
  simp only [heq]
  rfl

end

/-- Pruning a converted function succeeds, and what remains replaces it: whatever the machine, the
parameters and the world, if the converted function does not trap, the pruned one ends the same
way, leaves the same world, and lacks at most effects of pure instructions.  What is left of every
block lacks only pure instructions whose results nothing that is left reads. -/
theorem behavior_prune {f f' : Function} {g : Graph} (hf : f.isShaped) (hplain : f.isPlain)
    (h : convert f = .ok (f', g)) :
    ∃ p removed ts, prune f' (some g) = .ok (p, removed) ∧ p.trees? = some ts ∧ Replaces p f'
      ∧ ∀ id, Trim (p.Reads ts) (f'.blockAt id) (p.blockAt id) := by
  obtain ⟨ts, r, birth, hconverted⟩ := SingleAssignment.converted_of_convert hf h
  obtain ⟨p, removed, drop, hprune, hpruned⟩ := pruned_of_converted hconverted hplain
  exact ⟨p, removed, Forest.without drop ts, hprune, hpruned.sound.trees_eq, hpruned.replaces,
    hpruned.trim⟩

/-- Counting down from five still gives fifteen without the addition that is never used. -/
theorem behavior_prune_countdown :
    countdown.isShaped ∧ countdown.isPlain ∧ ∃ f' g p removed, convert countdown = .ok (f', g)
      ∧ prune f' (some g) = .ok (p, removed)
      ∧ (p.behavior counter 9 [5] ()).outcome = .returned [15] := by
  have hshaped : countdown.isShaped := by decide
  have hplain : countdown.isPlain := by decide
  have hruns : (countdown.behavior counter 9 [5] ()).outcome = .returned [15] := by
    decide +kernel
  obtain ⟨f', g, h⟩ := SingleAssignment.exists_convert_countdown
  obtain ⟨ts, r, birth, hconverted⟩ := SingleAssignment.converted_of_convert hshaped h
  obtain ⟨p, removed, _, hprune, -, hreplaces, -⟩ := behavior_prune hshaped hplain h
  refine ⟨hshaped, hplain, f', g, p, removed, h, hprune, ?_⟩
  have hruns' : (f'.behavior counter 9 [5] ()).outcome = .returned [15] := by
    rw [hconverted.behavior_eq, hruns]
  have htrimmed := hreplaces Nat Unit counter 9 [5] () fun reason ↦ by
    rw [hruns']
    exact fun h ↦ by cases h
  rw [htrimmed.outcome_eq, hruns']

end WasmBackend.DeadCode
