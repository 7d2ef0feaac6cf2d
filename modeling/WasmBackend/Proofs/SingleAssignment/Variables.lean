import WasmBackend.Proofs.SingleAssignment.Preservation

/-!
# The variables of a converted function

Every variable a reachable block of the converted function mentions exists: it is a variable of the
function before, or a name that was made.
-/

namespace WasmBackend.SingleAssignment

open Ir (BlockId Block Copy Forest Function Instr Tree Var)
open WasmBackend.Flow (Graph Edge Site)

section

variable {f f' : Function} {ts : Forest} {g : Graph} {r : Renaming} {birth : Var → Birth}
  {id : BlockId} {env : Env}

theorem outEnv_faithful (h : r.Named f birth) (id : BlockId) :
    (outEnv r id).Faithful f r.vars birth := by
  intro v name hname
  unfold outEnv at hname
  cases hout : (r.block id).out with
  | none =>
    rw [hout] at hname
    cases hname
  | some o =>
    rw [hout] at hname
    exact (h.block id).out_faithful o hout v name hname

theorem Env.Faithful.rename_lt (henv : env.Faithful f r.vars birth) (h : r.Named f birth) {v : Var}
    (hv : v < f.vars.size) : env.rename v < r.vars.size := by
  unfold Env.rename
  cases hname : env v with
  | none => exact Nat.lt_of_lt_of_le hv h.size_le
  | some name => exact (henv v name hname).name_lt

/-- Renamed instructions mention only variables that exist. -/
theorem Env.Faithful.rewrite_within (h : r.Named f birth) {is : List (Instr × List Var)}
    (henv : env.Faithful f r.vars birth) (hstand : ResultsStand f r.vars birth is)
    (hnames : ∀ p ∈ is, ∀ name ∈ p.2, name < r.vars.size)
    (hargs : ∀ p ∈ is, ∀ v ∈ p.1.args, v < f.vars.size) (hcopies : ∀ p ∈ is, p.1.copies = []) :
    ∀ i ∈ env.rewrite is, i.Within r.vars.size := by
  induction is generalizing env with
  | nil =>
    intro i hi
    cases hi
  | cons p is ih =>
    obtain ⟨j, defs⟩ := p
    intro i hi
    rcases List.mem_cons.1 hi with rfl | hi
    · refine ⟨hnames _ List.mem_cons_self, fun v hv ↦ ?_, fun c hc ↦ ?_⟩
      · obtain ⟨w, hw, rfl⟩ := List.mem_map.1 hv
        exact henv.rename_lt h (hargs _ List.mem_cons_self w hw)
      · have hnone : c ∈ j.copies := hc
        rw [show j.copies = [] from hcopies _ List.mem_cons_self] at hnone
        cases hnone
    · exact ih (henv.bind (hstand _ List.mem_cons_self))
        (fun q hq ↦ hstand q (List.mem_cons_of_mem _ hq))
        (fun q hq ↦ hnames q (List.mem_cons_of_mem _ hq))
        (fun q hq ↦ hargs q (List.mem_cons_of_mem _ hq))
        (fun q hq ↦ hcopies q (List.mem_cons_of_mem _ hq)) i hi

theorem isStraight_copies {is : List Instr} (h : Ir.isStraight is) {i : Instr} (hi : i ∈ is) :
    i.copies = [] := by
  induction is with
  | nil => cases hi
  | cons j is ih =>
    simp only [Ir.isStraight, Bool.and_eq_true, List.isEmpty_iff] at h
    rcases List.mem_cons.1 hi with rfl | hi
    · exact h.1.1.2
    · exact ih h.2 hi

theorem Renaming.BlockResults.names_lt {is : List Instr} {ds : List (List Var)}
    (h : BlockResults f r.vars birth id is ds) :
    ∀ p ∈ is.zip ds, ∀ name ∈ p.2, name < r.vars.size := by
  intro p hp name hname
  obtain ⟨n, hn, rfl⟩ := List.mem_iff_getElem.1 hp
  rw [List.getElem_zip] at hname
  obtain ⟨j, hj, rfl⟩ := List.mem_iff_getElem.1 hname
  have hresult := h.results n _ _ (List.getElem?_eq_getElem (by simp at hn; omega))
    (List.getElem?_eq_getElem (by simp at hn; omega))
  have hj' := hresult.length_eq ▸ hj
  exact (hresult.fresh j _ _ (List.getElem?_eq_getElem hj') (List.getElem?_eq_getElem hj)).name_lt

/-- The assignments of edges between reachable blocks mention only variables that exist. -/
theorem Converted.copiesOf_within (h : Converted f ts f' g r birth) {e : Edge}
    (he : e ∈ Conversion.fedEdges g) (hsrc : e.src ∈ g.order) {c : Copy}
    (hc : c ∈ copiesOf f r e) : c.dst < r.vars.size ∧ c.src < r.vars.size := by
  obtain ⟨b, -, hpred⟩ := List.mem_flatMap.1 he
  have hedge := (Flow.Graph.mem_preds.1 hpred).1
  obtain ⟨v, hmerge, hname, -⟩ := (mem_copiesOf h.done hedge hsrc).1 hc
  exact ⟨((h.done.named.block e.dst).merges_fresh _ hmerge).name_lt,
    (outEnv_faithful h.done.named e.src v _ hname).name_lt⟩

/-- The merges at the head of a block mention only variables that exist. -/
theorem mergeInstrs_within (h : r.Named f birth) (hparams : f.params.length ≤ f.vars.size) :
    ∀ i ∈ Conversion.mergeInstrs g { function := f, names := r } id, i.Within r.vars.size := by
  intro i hi
  obtain ⟨⟨v, merge⟩, hmerge, rfl⟩ := List.mem_map.1 hi
  rw [Conversion.mergesOf, List.mem_mergeSort] at hmerge
  refine ⟨fun w hw ↦ ?_, fun w hw ↦ ?_, fun c hc ↦ absurd hc List.not_mem_nil⟩
  · rw [List.mem_singleton.1 hw]
    exact ((h.block id).merges_fresh _ hmerge).name_lt
  · have hw' := List.mem_eraseDups.1 hw
    obtain ⟨e, he, hname⟩ := List.mem_filterMap.1 hw'
    obtain ⟨n, halong, hget⟩ := Option.bind_eq_some_iff.1 hname
    have hincoming : n ∈ r.incoming f g id :=
      List.mem_append_right _ (List.mem_filterMap.2 ⟨e, he, halong⟩)
    exact (h.incoming_faithful hparams g id n hincoming v w hget).name_lt

theorem renamed_within (h : Converted f ts f' g r birth) (hplain : f.isPlain) (hid : id ∈ g.order) :
    (∀ i ∈ (renamed f g r id (f.blockAt id)).instrs, i.Within r.vars.size)
      ∧ ((f.blockAt id).kind = .cond ∨ (f.blockAt id).kind = .branch →
        (renamed f g r id (f.blockAt id)).cond < r.vars.size) := by
  have hnamed := h.done.named
  have henv := hnamed.headEnv_faithful h.shaped.params_le g id
  obtain ⟨t, d, next, scope, rfl, ht⟩ := (Tree.exists_placed f g).2 ts {} 0 []
    (h.shaped.placed h.describes) id (h.describes.order_subset id hid)
  by_cases hkind : (f.blockAt t.id).kind = .basic
  · rw [ht.kind_basic hkind] at ht
    obtain ⟨ds, hds, -⟩ := outEnv_of_basic (h.done.settled t.id hid) hkind
    have hresults := hnamed.blockResults hds
    refine ⟨fun i hi ↦ ?_, by simp [hkind]⟩
    simp only [renamed, hkind, hds, Option.getD_some] at hi
    rcases List.mem_append.1 hi with hi | hi
    · exact mergeInstrs_within hnamed h.shaped.params_le i hi
    · refine henv.rewrite_within hnamed hresults.stand hresults.names_lt ?_ ?_ i hi
      · exact fun p hp ↦ (ht.instr_vars (List.of_mem_zip hp).1).2
      · exact fun p hp ↦ isStraight_copies ht.straight (List.of_mem_zip hp).1
  · refine ⟨fun i hi ↦ ?_, fun hcond ↦ ?_⟩
    · have hnone : (renamed f g r t.id (f.blockAt t.id)).instrs = [] := by
        have hinstrs := Function.instrs_of_isPlain hplain hkind
        unfold renamed
        split <;> first | exact hinstrs | exact absurd ‹_› hkind
      rw [hnone] at hi
      cases hi
    · have hrename : (renamed f g r t.id (f.blockAt t.id)).cond
          = (Renaming.headEnv f g r t.id).rename (f.blockAt t.id).cond := by
        unfold renamed
        rcases hcond with hcond | hcond <;> rw [hcond]
      rw [hrename]
      exact henv.rename_lt hnamed (ht.cond_lt hcond)

/-- Every variable that a reachable block of a converted function mentions exists. -/
theorem Converted.within (h : Converted f ts f' g r birth) (hplain : f.isPlain)
    (hid : id ∈ g.order) : (f'.blockAt id).Within f'.vars.size := by
  have hvars : f'.vars.size = r.vars.size := by rw [h.frame]
  obtain ⟨t, d, next, scope, rfl, ht⟩ := (Tree.exists_placed f g).2 ts {} 0 []
    (h.shaped.placed h.describes) id (h.describes.order_subset id hid)
  have hfree := ht.isCopyFree
  simp only [Ir.Block.isCopyFree, Bool.and_eq_true, List.isEmpty_iff] at hfree
  obtain ⟨hinstrs, hcond⟩ := renamed_within h hplain hid
  have hcopies {p : Edge → Bool} : ∀ c ∈ (((Conversion.fedEdges g).filter fun e ↦ e.src = t.id).filter
      p).flatMap (copiesOf f r), c.dst < r.vars.size ∧ c.src < r.vars.size := by
    intro c hc
    obtain ⟨e, he, hc⟩ := List.mem_flatMap.1 hc
    obtain ⟨hfed, hsrc⟩ := List.mem_filter.1 (List.mem_filter.1 he).1
    exact h.copiesOf_within hfed (of_decide_eq_true hsrc ▸ hid) hc
  have hrenamed : (renamed f g r t.id (f.blockAt t.id)).exitCopies = []
      ∧ (renamed f g r t.id (f.blockAt t.id)).aroundCopies = []
      ∧ (renamed f g r t.id (f.blockAt t.id)).entryCopies = [] := by
    unfold renamed
    split <;> exact ⟨hfree.1.1, hfree.1.2, hfree.2⟩
  have hkind : (renamed f g r t.id (f.blockAt t.id)).kind = (f.blockAt t.id).kind := by
    unfold renamed
    split <;> rfl
  rw [h.blockAt_eq ht.stored.block?_id, hvars]
  simp only [Conversion.fedBy, Conversion.renamedIn, if_pos hid, Conversion.placed, hrenamed.1,
    hrenamed.2.1, hrenamed.2.2, List.nil_append]
  refine ⟨?_, fun i hi ↦ ?_, hcopies, hcopies, hcopies⟩
  · rw [hkind]
    exact hcond
  · obtain ⟨n, hn, rfl⟩ := List.mem_iff_getElem.1 hi
    rw [List.getElem_mapIdx]
    have hj := hinstrs _ (List.getElem_mem (by simpa using hn))
    refine ⟨hj.dst, hj.args, fun c hc ↦ ?_⟩
    rcases List.mem_append.1 hc with hc | hc
    · exact hj.copies c hc
    · exact hcopies c hc

end

end WasmBackend.SingleAssignment
