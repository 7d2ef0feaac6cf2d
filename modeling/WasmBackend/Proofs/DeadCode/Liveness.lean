import WasmBackend.Proofs.DeadCode.Dropping

/-!
# Live variables

Marking goes over all blocks until nothing more is marked.  Each pass marks at least one variable
that was not marked before or is the last one, so as many passes as there are variables are enough.
What is marked in the end is closed: everything that influences a marked variable, a condition or
an effect is marked.
-/

namespace WasmBackend.DeadCode

open Ir (BlockId Block Copy Forest Function Instr SameCode Tree Var)

namespace Live

/-- Whether a variable is marked. -/
def has (live : Live) (v : Var) : Bool :=
  live.getD v false

/-- Whether an instruction has to stay. -/
def retains (live : Live) (i : Instr) : Bool :=
  !i.isPure || i.dst.any live.has

/-- What feeds a marked variable through these assignments is marked. -/
def Feeds (live : Live) (cs : List Copy) : Prop :=
  ∀ c ∈ cs, live.has c.dst → live.has c.src

/-- What influences a marked variable or an effect through a block is marked. -/
structure Closed (live : Live) (b : Block) : Prop where
  cond : b.kind = .cond ∨ b.kind = .branch → live.has b.cond
  args : ∀ i ∈ b.instrs, live.retains i → ∀ v ∈ i.args, live.has v
  branches : ∀ i ∈ b.instrs, live.Feeds i.copies
  exits : live.Feeds b.exitCopies
  arounds : live.Feeds b.aroundCopies
  entries : live.Feeds b.entryCopies

theorem lt_size_of_has {live : Live} {v : Var} (h : live.has v) : v < live.size := by
  by_contra hv
  rw [has, Array.getD_eq_getD_getElem?, Array.getElem?_eq_none (Nat.le_of_not_lt hv)] at h
  cases h

theorem contains_eq {live : Live} {v : Var} (hv : v < live.size) :
    live.contains v = .ok (live.has v) := by
  unfold contains has
  rw [Array.getElem?_eq_getElem hv, Array.getD_eq_getD_getElem?, Array.getElem?_eq_getElem hv]
  rfl

theorem any_eq {live : Live} {vs : List Var} (hvs : ∀ v ∈ vs, v < live.size) :
    live.any vs = .ok (List.any vs live.has) := by
  unfold any
  induction vs with
  | nil => rfl
  | cons v vs ih =>
    rw [List.anyM_cons, contains_eq (hvs v List.mem_cons_self), List.any_cons]
    cases hv : live.has v with
    | true => rfl
    | false => exact ih fun w hw ↦ hvs w (List.mem_cons_of_mem v hw)

theorem keeps_eq {live : Live} {i : Instr} (hi : ∀ v ∈ i.dst, v < live.size) :
    live.keeps i = .ok (live.retains i) := by
  unfold keeps retains
  cases i.isPure with
  | true => simpa using any_eq hi
  | false => rfl

/-! ## Marking -/

/-- Every variable that was marked still is. -/
structure Le (live live' : Live) : Prop where
  size_eq : live'.size = live.size
  has_of_has : ∀ v, live.has v → live'.has v

theorem Le.refl (live : Live) : Le live live := ⟨rfl, fun _ h ↦ h⟩

theorem Le.trans {live live' live'' : Live} (h : Le live live') (h' : Le live' live'') :
    Le live live'' :=
  ⟨h'.size_eq.trans h.size_eq, fun v hv ↦ h'.has_of_has v (h.has_of_has v hv)⟩

theorem Le.antisymm {live live' : Live} (h : Le live live') (h' : Le live' live) :
    live = live' := by
  refine Array.ext h'.size_eq fun v hv hv' ↦ ?_
  have hget (l : Live) (hl : v < l.size) : l[v] = l.has v := by
    unfold has
    rw [Array.getD_eq_getD_getElem?, Array.getElem?_eq_getElem hl]
    rfl
  rw [hget live hv, hget live' hv', Bool.eq_iff_iff]
  exact ⟨h.has_of_has v, h'.has_of_has v⟩

/-- Marking succeeds, and where it marks nothing new `done` holds. -/
def Advances (x : Except Failure Live) (live : Live) (done : Prop) : Prop :=
  ∃ live', x = .ok live' ∧ Le live live' ∧ (live' = live → done)

theorem Advances.imp {x : Except Failure Live} {live : Live} {p q : Prop} (h : Advances x live p)
    (hpq : p → q) : Advances x live q := by
  obtain ⟨live', hx, hle, hp⟩ := h
  exact ⟨live', hx, hle, fun heq ↦ hpq (hp heq)⟩

theorem advances_pure {live : Live} {p : Prop} (hp : p) : Advances (pure live) live p :=
  ⟨live, rfl, Le.refl live, fun _ ↦ hp⟩

theorem Advances.bind {x : Except Failure Live} {k : Live → Except Failure Live} {live : Live}
    {p : Prop} {q : Live → Prop} (h : Advances x live p)
    (hk : ∀ live', live'.size = live.size → Advances (k live') live' (q live')) :
    Advances (x >>= k) live (p ∧ q live) := by
  obtain ⟨live₁, hx, hle₁, hp⟩ := h
  obtain ⟨live₂, hk₂, hle₂, hq⟩ := hk live₁ hle₁.size_eq
  refine ⟨live₂, by rw [hx]; exact hk₂, hle₁.trans hle₂, fun heq ↦ ?_⟩
  subst heq
  have hsame : live₁ = live₂ := hle₂.antisymm hle₁
  exact ⟨hp hsame, hsame ▸ hq hsame.symm⟩

theorem advances_foldlM {α : Type} {step : Live → α → Except Failure Live} {p : α → Live → Prop}
    {n : Nat} (l : List α)
    (h : ∀ a ∈ l, ∀ live : Live, live.size = n → Advances (step live a) live (p a live))
    {live : Live} (hlive : live.size = n) :
    Advances (l.foldlM step live) live (∀ a ∈ l, p a live) := by
  induction l generalizing live with
  | nil => exact advances_pure (by simp)
  | cons a l ih =>
    rw [List.foldlM_cons]
    refine ((h a List.mem_cons_self live hlive).bind fun live' hsize ↦
      ih (fun b hb ↦ h b (List.mem_cons_of_mem a hb)) (hsize.trans hlive)).imp ?_
    rintro ⟨ha, hl⟩
    exact List.forall_mem_cons.2 ⟨ha, hl⟩

theorem mark_advances {live : Live} {v : Var} (hv : v < live.size) :
    Advances (live.mark v) live (live.has v) := by
  have hhas (w : Var) : Live.has (live.set! v true) w = (decide (w = v) || live.has w) := by
    unfold has
    rw [Array.getD_eq_getD_getElem?, Array.getD_eq_getD_getElem?, Array.set!_eq_setIfInBounds,
      Array.getElem?_setIfInBounds]
    by_cases hw : v = w
    · simp [hw, hw ▸ hv]
    · simp [hw, Ne.symm hw]
  refine ⟨live.set! v true, if_pos hv, ⟨by simp, fun w hw ↦ ?_⟩, fun heq ↦ ?_⟩
  · rw [hhas, hw, Bool.or_true]
  · rw [← heq, hhas, decide_eq_true rfl, Bool.true_or]

theorem followCopies_advances {live : Live} {cs : List Copy}
    (hcs : ∀ c ∈ cs, c.dst < live.size ∧ c.src < live.size) :
    Advances (live.followCopies cs) live (live.Feeds cs) := by
  have hstep : ∀ c ∈ cs, ∀ live' : Live, live'.size = live.size →
      Advances (do if ← live'.contains c.dst then live'.mark c.src else return live') live'
        (live'.has c.dst → live'.has c.src) := by
    intro c hc live' hsize
    obtain ⟨hdst, hsrc⟩ := hcs c hc
    rw [← hsize] at hdst hsrc
    rw [contains_eq hdst]
    cases hlive : live'.has c.dst with
    | true => exact (mark_advances hsrc).imp fun h _ ↦ h
    | false => exact advances_pure (by simp)
  exact advances_foldlM cs hstep rfl

theorem followInstr_advances {live : Live} {i : Instr} (hi : i.Within live.size) :
    Advances (live.followInstr i) live
      ((live.retains i → ∀ v ∈ i.args, live.has v) ∧ live.Feeds i.copies) := by
  have hargs : Advances (if live.retains i then i.args.foldlM mark live else pure live) live
      (live.retains i → ∀ v ∈ i.args, live.has v) := by
    split <;> rename_i hretains
    · have hmark := advances_foldlM i.args (fun v hv l (hl : l.size = live.size) ↦
        mark_advances (hl ▸ hi.args v hv)) rfl
      exact hmark.imp fun h _ ↦ h
    · exact advances_pure fun h ↦ absurd h hretains
  have hcopies (live' : Live) (hsize : live'.size = live.size) :
      Advances (live'.followCopies i.copies) live' (live'.Feeds i.copies) :=
    followCopies_advances (by rw [hsize]; exact hi.copies)
  have hboth := hargs.bind hcopies
  unfold followInstr
  rw [keeps_eq hi.dst]
  cases hretains : live.retains i <;> rw [hretains] at hboth <;> exact hboth

theorem followBlock_advances {live : Live} {b : Block} (hb : b.Within live.size) :
    Advances (live.followBlock b) live (live.Closed b) := by
  have hcond : Advances (if b.kind = .cond ∨ b.kind = .branch then live.mark b.cond else pure live)
      live (b.kind = .cond ∨ b.kind = .branch → live.has b.cond) := by
    split <;> rename_i hkind
    · exact (mark_advances (hb.cond hkind)).imp fun h _ ↦ h
    · exact advances_pure fun h ↦ absurd h hkind
  have hrest {live' : Live} (hsize : live'.size = live.size) {cs : List Copy}
      (hcs : ∀ c ∈ cs, c.dst < live.size ∧ c.src < live.size) :
      Advances (live'.followCopies cs) live' (live'.Feeds cs) :=
    followCopies_advances (by rw [hsize]; exact hcs)
  have hinstrs {live' : Live} (hsize : live'.size = live.size) :=
    advances_foldlM b.instrs (fun i hi l (hl : l.size = live.size) ↦
      followInstr_advances (hl ▸ hb.instrs i hi)) hsize
  have hall := hcond.bind fun live₁ h₁ ↦ (hinstrs h₁).bind fun live₂ h₂ ↦
    (hrest (h₂.trans h₁) hb.exits).bind fun live₃ h₃ ↦
      (hrest (h₃.trans (h₂.trans h₁)) hb.arounds).bind fun live₄ h₄ ↦
        hrest (h₄.trans (h₃.trans (h₂.trans h₁))) hb.entries
  have hclosed := hall.imp fun ⟨hcond, hinstrs, hexits, harounds, hentries⟩ ↦
    (⟨hcond, fun i hi ↦ (hinstrs i hi).1, fun i hi ↦ (hinstrs i hi).2, hexits, harounds, hentries⟩ :
      live.Closed b)
  unfold followBlock
  split at hclosed
  · rwa [if_pos ‹_›]
  · rwa [if_neg ‹_›]

/-! ## Passes -/

/-- The number of variables that are not marked. -/
def unmarked (live : Live) : Nat :=
  ((Finset.range live.size).filter fun v ↦ live.has v = false).card

theorem unmarked_lt {live live' : Live} (h : Le live live') (hne : live' ≠ live) :
    unmarked live' < unmarked live := by
  refine Finset.card_lt_card ((Finset.ssubset_iff_of_subset fun v hv ↦ ?_).2 ?_)
  · simp only [Finset.mem_filter, Finset.mem_range] at hv ⊢
    refine ⟨h.size_eq ▸ hv.1, Bool.eq_false_iff.2 fun hlive ↦ ?_⟩
    rw [h.has_of_has v hlive] at hv
    exact absurd hv.2 (by simp)
  · by_contra hall
    push Not at hall
    refine hne (Le.antisymm ⟨h.size_eq.symm, fun v hv ↦ ?_⟩ h)
    by_contra hunmarked
    rw [Bool.not_eq_true] at hunmarked
    have hmem := hall v (Finset.mem_filter.2 ⟨Finset.mem_range.2 ?_, hunmarked⟩)
    · rw [(Finset.mem_filter.1 hmem).2] at hv
      cases hv
    · exact h.size_eq ▸ lt_size_of_has hv

/-- Enough passes mark a closed set. -/
theorem close_closed {blocks : List Block} {n : Nat} (hblocks : ∀ b ∈ blocks, b.Within n)
    (rounds : Nat) {live : Live} (hlive : live.size = n) (hrounds : unmarked live < rounds) :
    ∃ live', close blocks rounds live = .ok live' ∧ Le live live' ∧ ∀ b ∈ blocks, live'.Closed b := by
  induction rounds generalizing live with
  | zero => cases hrounds
  | succ rounds ih =>
    obtain ⟨next, hnext, hle, hclosed⟩ := advances_foldlM blocks (fun b hb l (hl : l.size = n) ↦
      followBlock_advances (hl ▸ hblocks b hb)) hlive
    unfold close
    rw [hnext]
    by_cases heq : next = live
    · exact ⟨live, if_pos heq, Le.refl live, hclosed heq⟩
    · obtain ⟨live', hlive', hle', hclosed'⟩ := ih (hle.size_eq.trans hlive)
        (Nat.lt_of_lt_of_le (unmarked_lt hle heq) (Nat.lt_succ_iff.1 hrounds))
      refine ⟨live', ?_, hle.trans hle', hclosed'⟩
      rw [← hlive']
      exact if_neg heq

/-- The live variables of a function are found, and the blocks that a walk meets are closed under
them. -/
theorem closed_of_walk {f : Function} {ids : List BlockId}
    (hwalk : f.walk = .ok (ids.map fun id ↦ (id, f.blockAt id)))
    (hwithin : ∀ id ∈ ids, (f.blockAt id).Within f.vars.size) :
    ∃ live, ofFunction f = .ok live ∧ live.size = f.vars.size
      ∧ ∀ id ∈ ids, live.Closed (f.blockAt id) := by
  have hunmarked : unmarked (Array.replicate f.vars.size false) < f.vars.size + 1 := by
    refine Nat.lt_succ_of_le ((Finset.card_filter_le _ _).trans ?_)
    rw [Finset.card_range, Array.size_replicate]
  have hblocks : ∀ b ∈ (ids.map fun id ↦ (id, f.blockAt id)).map Prod.snd,
      b.Within f.vars.size := by
    simpa using hwithin
  obtain ⟨live, hlive, hle, hclosed⟩ := close_closed hblocks (f.vars.size + 1) (by simp) hunmarked
  refine ⟨live, ?_, by rw [hle.size_eq, Array.size_replicate], by simpa using hclosed⟩
  unfold ofFunction
  rw [hwalk]
  exact hlive

/-- The live variables of a function are found, and they are closed. -/
theorem ofFunction_closed {f : Function} {ts : Forest} (hf : f.LaidOut ts)
    (hwithin : ∀ id ∈ Forest.ids ts, (f.blockAt id).Within f.vars.size) :
    ∃ live, ofFunction f = .ok live ∧ live.size = f.vars.size
      ∧ ∀ id ∈ Forest.ids ts, live.Closed (f.blockAt id) :=
  closed_of_walk hf.walk_eq hwithin

end Live

end WasmBackend.DeadCode
