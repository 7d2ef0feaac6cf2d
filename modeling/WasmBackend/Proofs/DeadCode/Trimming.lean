import WasmBackend.Proofs.DeadCode.Sweeping

/-!
# What is left of a function

Whatever the number of sweeps, what is left of a block is the block without some pure instructions
and some assignments.  Nothing that is left reads a result of an instruction or the destination of
an assignment that is gone.
-/

namespace WasmBackend.Ir

/-- The variables a block reads. -/
def Block.reads (b : Block) : List Var :=
  (if b.kind = .cond ∨ b.kind = .branch then [b.cond] else [])
    ++ b.instrs.flatMap (fun i ↦ i.args ++ i.copies.map Copy.src)
    ++ (b.exitCopies ++ b.aroundCopies ++ b.entryCopies).map Copy.src

/-- A block of these trees reads the variable. -/
def Function.Reads (f : Function) (ts : Forest) (v : Var) : Prop :=
  ∃ id ∈ Forest.ids ts, v ∈ (f.blockAt id).reads

theorem Block.mem_reads {b : Block} {v : Var} :
    v ∈ b.reads ↔ ((b.kind = .cond ∨ b.kind = .branch) ∧ v = b.cond)
      ∨ (∃ i ∈ b.instrs, v ∈ i.args ∨ ∃ c ∈ i.copies, c.src = v)
      ∨ ∃ c, (c ∈ b.exitCopies ∨ c ∈ b.aroundCopies ∨ c ∈ b.entryCopies) ∧ c.src = v := by
  unfold Block.reads
  simp only [List.mem_append, List.mem_flatMap, List.mem_map, or_assoc]
  split <;> simp_all

end WasmBackend.Ir

namespace WasmBackend.DeadCode

open Ir (BlockId Block Copy Forest Function Instr SameCode Tree Var)

/-- Assignments of which some are gone, none of them to a variable that is needed. -/
def TrimCopies (needed : Var → Prop) (cs cs' : List Copy) : Prop :=
  ∃ keep : Var → Bool, cs' = cs.filter (fun c ↦ keep c.dst) ∧ ∀ v, needed v → keep v

/-- Instructions of which some pure ones are gone, none of them with a result that is needed. -/
inductive TrimInstrs (needed : Var → Prop) : List Instr → List Instr → Prop where
  | nil : TrimInstrs needed [] []
  | keep {i : Instr} {cs : List Copy} {is is' : List Instr} (hcopies : TrimCopies needed i.copies cs)
      (rest : TrimInstrs needed is is') :
      TrimInstrs needed (i :: is) ({ i with copies := cs } :: is')
  | remove {i : Instr} {is is' : List Instr} (hpure : i.isPure) (hdst : ∀ v ∈ i.dst, ¬needed v)
      (rest : TrimInstrs needed is is') : TrimInstrs needed (i :: is) is'

/-- What is left of a block. -/
structure Trim (needed : Var → Prop) (b b' : Block) : Prop where
  kind_eq : b'.kind = b.kind
  cond_eq : b'.cond = b.cond
  instrs : TrimInstrs needed b.instrs b'.instrs
  exits : TrimCopies needed b.exitCopies b'.exitCopies
  arounds : TrimCopies needed b.aroundCopies b'.aroundCopies
  entries : TrimCopies needed b.entryCopies b'.entryCopies

section

variable {needed needed' : Var → Prop}

theorem TrimCopies.refl (needed : Var → Prop) (cs : List Copy) : TrimCopies needed cs cs :=
  ⟨fun _ ↦ true, (List.filter_eq_self.2 fun _ _ ↦ rfl).symm, fun _ _ ↦ rfl⟩

theorem TrimCopies.mono {cs cs' : List Copy} (h : TrimCopies needed cs cs')
    (hneeded : ∀ v, needed' v → needed v) : TrimCopies needed' cs cs' := by
  obtain ⟨keep, hcs, hkeep⟩ := h
  exact ⟨keep, hcs, fun v hv ↦ hkeep v (hneeded v hv)⟩

theorem TrimCopies.trans {cs cs' cs'' : List Copy} (h : TrimCopies needed cs cs')
    (h' : TrimCopies needed cs' cs'') : TrimCopies needed cs cs'' := by
  obtain ⟨keep, rfl, hkeep⟩ := h
  obtain ⟨keep', rfl, hkeep'⟩ := h'
  refine ⟨fun v ↦ keep' v && keep v, ?_, fun v hv ↦ ?_⟩
  · rw [List.filter_filter]
  · exact Bool.and_eq_true_iff.2 ⟨hkeep' v hv, hkeep v hv⟩

theorem TrimCopies.subset {cs cs' : List Copy} (h : TrimCopies needed cs cs') : cs' ⊆ cs := by
  obtain ⟨keep, rfl, -⟩ := h
  exact List.filter_subset_self _

theorem TrimInstrs.refl (needed : Var → Prop) (is : List Instr) : TrimInstrs needed is is := by
  induction is with
  | nil => exact .nil
  | cons i is ih => exact .keep (TrimCopies.refl needed i.copies) ih

theorem TrimInstrs.mono {is is' : List Instr} (h : TrimInstrs needed is is')
    (hneeded : ∀ v, needed' v → needed v) : TrimInstrs needed' is is' := by
  induction h with
  | nil => exact .nil
  | keep hcopies _ ih => exact .keep (hcopies.mono hneeded) ih
  | remove hpure hdst _ ih => exact .remove hpure (fun v hv hn ↦ hdst v hv (hneeded v hn)) ih

theorem TrimInstrs.trans {is is' is'' : List Instr} (h : TrimInstrs needed is is')
    (h' : TrimInstrs needed is' is'') : TrimInstrs needed is is'' := by
  induction h generalizing is'' with
  | nil => exact h'
  | keep hcopies _ ih =>
    cases h' with
    | keep hcopies' rest' => exact .keep (hcopies.trans hcopies') (ih rest')
    | remove hpure hdst rest' => exact .remove hpure hdst (ih rest')
  | remove hpure hdst _ ih => exact .remove hpure hdst (ih h')

/-- Every instruction that is left was there before, with the assignments it lost. -/
theorem TrimInstrs.exists_of_mem {is is' : List Instr} (h : TrimInstrs needed is is') {j : Instr}
    (hj : j ∈ is') :
    ∃ i ∈ is, ∃ cs, TrimCopies needed i.copies cs ∧ j = { i with copies := cs } := by
  induction h with
  | nil => cases hj
  | @keep i cs is is' hcopies _ ih =>
    rcases List.mem_cons.1 hj with rfl | hj
    · exact ⟨i, List.mem_cons_self, cs, hcopies, rfl⟩
    · obtain ⟨i', hi', hrest⟩ := ih hj
      exact ⟨i', List.mem_cons_of_mem i hi', hrest⟩
  | remove _ _ _ ih =>
    obtain ⟨i', hi', hrest⟩ := ih hj
    exact ⟨i', List.mem_cons_of_mem _ hi', hrest⟩

theorem Trim.refl (needed : Var → Prop) (b : Block) (body otherwise : List BlockId) :
    Trim needed b { b with body := body, otherwise := otherwise } :=
  ⟨rfl, rfl, .refl _ _, .refl _ _, .refl _ _, .refl _ _⟩

theorem Trim.mono {b b' : Block} (h : Trim needed b b') (hneeded : ∀ v, needed' v → needed v) :
    Trim needed' b b' :=
  ⟨h.kind_eq, h.cond_eq, h.instrs.mono hneeded, h.exits.mono hneeded, h.arounds.mono hneeded,
    h.entries.mono hneeded⟩

theorem Trim.trans {b b' b'' : Block} (h : Trim needed b b') (h' : Trim needed b' b'') :
    Trim needed b b'' :=
  ⟨h'.kind_eq.trans h.kind_eq, h'.cond_eq.trans h.cond_eq, h.instrs.trans h'.instrs,
    h.exits.trans h'.exits, h.arounds.trans h'.arounds, h.entries.trans h'.entries⟩

/-- What is left reads nothing that was not read before. -/
theorem Trim.reads {b b' : Block} (h : Trim needed b b') {v : Var} (hv : v ∈ b'.reads) :
    v ∈ b.reads := by
  rw [Block.mem_reads] at hv ⊢
  rw [h.kind_eq, h.cond_eq] at hv
  rcases hv with hcond | ⟨j, hj, hread⟩ | ⟨c, hc, hsrc⟩
  · exact .inl hcond
  · obtain ⟨i, hi, cs, hcopies, rfl⟩ := h.instrs.exists_of_mem hj
    refine .inr (.inl ⟨i, hi, ?_⟩)
    rcases hread with harg | ⟨c, hc, hsrc⟩
    · exact .inl harg
    · exact .inr ⟨c, hcopies.subset hc, hsrc⟩
  · refine .inr (.inr ⟨c, ?_, hsrc⟩)
    rcases hc with hc | hc | hc
    · exact .inl (h.exits.subset hc)
    · exact .inr (.inl (h.arounds.subset hc))
    · exact .inr (.inr (h.entries.subset hc))

end

/-! ## One sweep -/

theorem trimCopies_only (live : Live) (cs : List Copy) :
    TrimCopies (fun v ↦ live.has v) cs (live.only cs) :=
  ⟨live.has, rfl, fun _ hv ↦ hv⟩

theorem trimInstrs_sweptInstrs (live : Live) (is : List Instr) :
    TrimInstrs (fun v ↦ live.has v) is (live.sweptInstrs is) := by
  induction is with
  | nil => exact .nil
  | cons i is ih =>
    rw [Live.sweptInstrs_cons]
    split <;> rename_i hretains
    · exact .keep (trimCopies_only live i.copies) ih
    · simp only [Live.retains, Bool.or_eq_true, Bool.not_eq_true', not_or, Bool.not_eq_false,
        List.any_eq_true, not_exists, not_and] at hretains
      exact .remove hretains.1 hretains.2 ih

theorem trim_swept (live : Live) (b : Block) : Trim (fun v ↦ live.has v) b (live.swept b) :=
  ⟨rfl, rfl, trimInstrs_sweptInstrs live _, trimCopies_only live _, trimCopies_only live _,
    trimCopies_only live _⟩

/-- What is left after a sweep reads only live variables. -/
theorem has_of_mem_reads_swept {live : Live} {b : Block} (hclosed : live.Closed b) {v : Var}
    (hv : v ∈ (live.swept b).reads) : live.has v := by
  have hfeeds {cs : List Copy} (hcs : live.Feeds cs) {c : Copy} (hc : c ∈ live.only cs) :
      live.has c.src :=
    hcs c (List.mem_of_mem_filter hc) (List.mem_filter.1 hc).2
  rcases Block.mem_reads.1 hv with ⟨hkind, rfl⟩ | ⟨j, hj, hread⟩ | ⟨c, hc, rfl⟩
  · exact hclosed.cond hkind
  · obtain ⟨i, hi, hkept⟩ := List.mem_filterMap.1 hj
    split at hkept <;> cases hkept
    rename_i hretains
    rcases hread with harg | ⟨c, hc, rfl⟩
    · exact hclosed.args i hi hretains v harg
    · exact hfeeds (hclosed.branches i hi) hc
  · rcases hc with hc | hc | hc
    · exact hfeeds hclosed.exits hc
    · exact hfeeds hclosed.arounds hc
    · exact hfeeds hclosed.entries hc

end WasmBackend.DeadCode
