import WasmBackend.Proofs.Acceptance

/-!
# Trees of valid functions

Control uses the second list of blocks of a two-armed `if` only.  `Function.trimmed` drops that
list elsewhere; what is left of a valid function consists of well-formed trees.
-/

namespace WasmBackend.Ir

/-- The block with a second list only where control may go there. -/
def Block.trimmed (b : Block) : Block :=
  if b.kind = .branch then b else { b with otherwise := [] }

namespace Block

variable (b : Block)

@[simp]
theorem kind_trimmed : b.trimmed.kind = b.kind := by
  unfold trimmed
  split <;> rfl

@[simp]
theorem instrs_trimmed : b.trimmed.instrs = b.instrs := by
  unfold trimmed
  split <;> rfl

@[simp]
theorem cond_trimmed : b.trimmed.cond = b.cond := by
  unfold trimmed
  split <;> rfl

@[simp]
theorem body_trimmed : b.trimmed.body = b.body := by
  unfold trimmed
  split <;> rfl

@[simp]
theorem exitCopies_trimmed : b.trimmed.exitCopies = b.exitCopies := by
  unfold trimmed
  split <;> rfl

@[simp]
theorem aroundCopies_trimmed : b.trimmed.aroundCopies = b.aroundCopies := by
  unfold trimmed
  split <;> rfl

@[simp]
theorem entryCopies_trimmed : b.trimmed.entryCopies = b.entryCopies := by
  unfold trimmed
  split <;> rfl

@[simp]
theorem otherwise_trimmed :
    b.trimmed.otherwise = if b.kind = .branch then b.otherwise else [] := by
  unfold trimmed
  split <;> rfl

end Block

namespace Function

/-- The function with a second list of blocks only where control may go there. -/
def trimmed (f : Function) : Function :=
  { f with blocks := f.blocks.map Block.trimmed }

section

variable (f : Function) (id : BlockId)

@[simp]
theorem body_trimmed : f.trimmed.body = f.body := rfl

@[simp]
theorem vars_trimmed : f.trimmed.vars = f.vars := rfl

@[simp]
theorem unknownVars_trimmed : f.trimmed.unknownVars id = f.unknownVars id := rfl

@[simp]
theorem unknownCopyVars_trimmed : f.trimmed.unknownCopyVars id = f.unknownCopyVars id := rfl

@[simp]
theorem instrViolations_trimmed : f.trimmed.instrViolations id = f.instrViolations id := rfl

@[simp]
theorem size_blocks_trimmed : f.trimmed.blocks.size = f.blocks.size := by
  simp [trimmed]

@[simp]
theorem block?_trimmed : f.trimmed.block? id = (f.block? id).map Block.trimmed := by
  unfold block?
  split
  · rfl
  · simp [trimmed]

@[simp]
theorem blockAt_trimmed : f.trimmed.blockAt id = (f.blockAt id).trimmed := by
  unfold blockAt
  rw [block?_trimmed]
  cases f.block? id <;> rfl

end

variable {f : Function} {id : BlockId} {kind : BlockKind} {body other : List BlockId}

theorem Node.trimmed (h : f.Node id kind body other) :
    f.trimmed.Node id kind body (if kind = .branch then other else []) where
  block?_eq := by rw [block?_trimmed, h.block?_eq, blockAt_trimmed, Option.map_some]
  kind_eq := by rw [blockAt_trimmed, Block.kind_trimmed, h.kind_eq]
  body_eq := by rw [blockAt_trimmed, Block.body_trimmed, h.body_eq]
  otherwise_eq := by rw [blockAt_trimmed, Block.otherwise_trimmed, h.kind_eq, h.otherwise_eq]

/-- What is accepted are trees, but for the lists that are dropped; no block of theirs is met that
validation has not met. -/
theorem Accepts.exists_trees {scope : List (BlockId × BlockKind)} {ids met : List BlockId}
    (h : f.Accepts scope ids met) :
    ∃ ts, Forest.roots ts = ids ∧ Forest.Stored f.trimmed ts ∧ Forest.Checked f.trimmed scope ts
      ∧ (Forest.ids ts).Sublist met := by
  induction h with
  | nil => exact ⟨[], rfl, trivial, trivial, List.Sublist.refl []⟩
  | @basic scope id rest met hnode hinstrs hexits _ ih =>
    obtain ⟨ts, rfl, hstored, hchecked, hsub⟩ := ih
    have hstored' : (Tree.basic id).Stored f.trimmed := hnode.trimmed
    have hchecked' : (Tree.basic id).Checked f.trimmed scope := by
      constructor
      · simpa using instrs_flatMap_eq_nil.2 hinstrs
      · simpa using f.unknownCopyVars_eq_nil.2 hexits
    exact ⟨.basic id :: ts, rfl, ⟨hstored', hstored⟩, ⟨hchecked', hchecked⟩, hsub.cons_cons id⟩
  | @choice scope id kind body other rest inside beside met hkind hnode hcond harounds _ _ _ ih ih'
      ihs =>
    obtain ⟨ts, rfl, hstored, hchecked, hsub⟩ := ih
    obtain ⟨us, rfl, hstored', hchecked', hsub'⟩ := ih'
    obtain ⟨vs, rfl, hstoreds, hcheckeds, hsubs⟩ := ihs
    have hnode' := hnode.trimmed
    have hcond' : f.trimmed.unknownVars id [(f.trimmed.blockAt id).cond] = [] :=
      f.trimmed.unknownVars_eq_nil.2 (by simpa using hcond)
    have harounds' : f.trimmed.unknownCopyVars id (f.trimmed.blockAt id).aroundCopies = [] :=
      by simpa using f.unknownCopyVars_eq_nil.2 harounds
    rcases hkind with rfl | rfl
    · refine ⟨.cond id ts :: vs, rfl, ⟨⟨hnode', hstored⟩, hstoreds⟩,
        ⟨⟨hcond', harounds', hchecked⟩, hcheckeds⟩, ?_⟩
      exact ((hsub.trans (List.sublist_append_left _ _)).append hsubs).cons_cons id
    · refine ⟨.branch id ts us :: vs, rfl, ⟨⟨hnode', hstored, hstored'⟩, hstoreds⟩,
        ⟨⟨hcond', harounds', hchecked, hchecked'⟩, hcheckeds⟩, ?_⟩
      exact ((hsub.append hsub').append hsubs).cons_cons id
  | @frame scope id kind body other rest inside met hkind hnode hentries _ _ ih ihs =>
    obtain ⟨ts, rfl, hstored, hchecked, hsub⟩ := ih
    obtain ⟨vs, rfl, hstoreds, hcheckeds, hsubs⟩ := ihs
    have hnode' := hnode.trimmed
    have hentries' : f.trimmed.unknownCopyVars id (f.trimmed.blockAt id).entryCopies = [] :=
      by simpa using f.unknownCopyVars_eq_nil.2 hentries
    rcases hkind with rfl | rfl
    · exact ⟨.loop id ts :: vs, rfl, ⟨⟨hnode', hstored⟩, hstoreds⟩,
        ⟨⟨hentries', hchecked⟩, hcheckeds⟩, (hsub.append hsubs).cons_cons id⟩
    · exact ⟨.breakable id ts :: vs, rfl, ⟨⟨hnode', hstored⟩, hstoreds⟩,
        ⟨⟨hentries', hchecked⟩, hcheckeds⟩, (hsub.append hsubs).cons_cons id⟩

/-- A valid function consists of well-formed trees, but for the lists that are dropped. -/
theorem exists_wellFormed_trimmed (h : f.isValid) : ∃ ts, f.trimmed.WellFormed ts := by
  obtain ⟨met, haccepts, hnodup⟩ := accepts_of_isValid h
  obtain ⟨ts, hroots, hstored, hchecked, hsub⟩ := haccepts.exists_trees
  exact ⟨ts, hroots.symm, hstored, hsub.nodup hnodup, hchecked⟩

end Function

end WasmBackend.Ir
