import WasmBackend.Proofs.Lowering.Writes

/-!
# Writing constructs

A construct is lowered in three moves: its block is put behind the current one, the rows inside it
are written as lists of their own, and the block gets them once they are finished.  In between, the
block is in nobody's row; what counts is that the rows inside are built apart from everything that
was there before.
-/

namespace WasmBackend.Lowering

open Ir (Block BlockId BlockKind Forest Instr Tree Var)
open Stage (Ensures)

variable {α : Type} {σ : Scope} {frame : Frame} {n : Nat} {s s' s'' : Lowering}

/-- The second state has new blocks, which belong to no list of the first. -/
structure Apart (s : Lowering) (ids : List BlockId) (s' : Lowering) : Prop where
  vars_le : s.vars.size ≤ s'.vars.size
  size_le : s.blocks.size ≤ s'.blocks.size
  kept : ∀ id ≤ s.blocks.size, s'.draft.block? id = s.draft.block? id
  fresh : ∀ id ∈ ids, s.blocks.size < id
  le_size : ∀ id ∈ ids, id ≤ s'.blocks.size
  nodup : ids.Nodup
  nesting : s'.nesting = s.nesting
  loops : s'.loops = s.loops
  funcs : s'.unit.funcs = s.unit.funcs
  plain : s'.Plain

theorem Apart.trans {ids ids' : List BlockId} (h : s.Apart ids s') (h' : s'.Apart ids' s'') :
    s.Apart (ids ++ ids') s'' where
  vars_le := Nat.le_trans h.vars_le h'.vars_le
  size_le := Nat.le_trans h.size_le h'.size_le
  kept id hid := by rw [h'.kept id (Nat.le_trans hid h.size_le), h.kept id hid]
  fresh id hid := by
    cases List.mem_append.1 hid with
    | inl hid => exact h.fresh id hid
    | inr hid => exact Nat.lt_of_le_of_lt h.size_le (h'.fresh id hid)
  le_size id hid := by
    cases List.mem_append.1 hid with
    | inl hid => exact Nat.le_trans (h.le_size id hid) h'.size_le
    | inr hid => exact h'.le_size id hid
  nodup := by
    refine List.nodup_append.2 ⟨h.nodup, h'.nodup, fun x hx y hy ↦ ?_⟩
    exact Nat.ne_of_lt (Nat.lt_of_le_of_lt (h.le_size x hx) (h'.fresh y hy))
  nesting := h'.nesting.trans h.nesting
  loops := h'.loops.trans h.loops
  funcs := h'.funcs.trans h.funcs
  plain := h'.plain

theorem Apart.holds {ids ids' : List BlockId} (h : s.Apart ids s') (h' : s'.Apart ids' s'') :
    s'.draft.Holds s''.draft ids :=
  ⟨h'.vars_le, fun id hid ↦ h'.kept id (h.le_size id hid)⟩

/-- A row that was written as a list of its own. -/
structure Row (σ : Scope) (s : Lowering) (ts : Forest) (s' : Lowering) : Prop where
  apart : s.Apart (Forest.ids ts) s'
  finished : Forest.Finished s'.draft σ ts
  arranged : Forest.isArranged ts

/-- What writing inside the constructs of `σ` relies on. -/
structure Ready (σ : Scope) (n : Nat) (s : Lowering) : Prop where
  vars_le : n ≤ s.vars.size
  plain : s.Plain
  loops : ∀ l ∈ s.loops, σ.find? (fun p ↦ p.1 = l) = some (l, .loop)
  scope : ∀ p ∈ σ, p.1 ≤ s.blocks.size

/-- A nested list step by step, in one frame. -/
theorem nested_apply (x : M Unit) (frame : Frame) : nested x frame = (do
    modify fun s => { s with nesting := [] :: s.nesting }
    openBasic frame
    x frame
    let ids := (← get).nesting.headD []
    modify fun s => { s with nesting := s.nesting.tail }
    pure ids.reverse) :=
  rfl

/-- A list of its own starts with a row of one empty block. -/
theorem Ready.writing_nested (hs : Ready σ n s) :
    Writing σ [.basic (s.blocks.size + 1)]
      { s with nesting := [] :: s.nesting : Lowering }.pushBasic := by
  set t : Lowering := { s with nesting := [] :: s.nesting }
  have hplain : t.Plain := hs.plain
  refine ⟨⟨rfl, finished_pushBasic σ t, List.nodup_singleton _, rfl, ⟨[], rfl⟩,
    hplain.pushBlock .basic, hs.loops, fun p hp ↦ ?_⟩, ?_⟩
  · have hsize : t.pushBasic.blocks.size = s.blocks.size + 1 := by
      simp [pushBasic, pushBlock, t]
    rw [hsize]
    exact Nat.le_succ_of_le (hs.scope p hp)
  · have hblock := block?_pushBlock t .basic (s.blocks.size + 1)
    rw [if_pos rfl] at hblock
    intro i hi
    rw [show t.pushBasic.current = s.blocks.size + 1 from rfl, Ir.Function.blockAt,
      show t.pushBasic.draft.block? (s.blocks.size + 1) = some {} from hblock] at hi
    cases hi

theorem ensures_nested {x : M Unit} (hx : Writes σ frame n x fun _ _ ↦ True) (hs : Ready σ n s) :
    Ensures (nested x frame) s fun body s' ↦ ∃ ts, body = Forest.roots ts ∧ Row σ s ts s' := by
  set t : Lowering := { s with nesting := [] :: s.nesting } with ht
  have hkept (id : Nat) (hid : id ≤ s.blocks.size) :
      t.pushBasic.draft.block? id = s.draft.block? id := by
    have hpush := block?_pushBlock t .basic id
    rw [if_neg (show ¬id = t.blocks.size + 1 from Nat.ne_of_lt (Nat.lt_succ_of_le hid))] at hpush
    exact hpush
  have hsize : t.pushBasic.blocks.size = s.blocks.size + 1 := by
    simp [pushBasic, pushBlock, ht]
  have hw := hs.writing_nested
  have hopen : openBasic frame t = (.ok (), t.pushBasic) := rfl
  rw [nested_apply, Ensures, Stage.meets_bind, Stage.meets_modify, Stage.meets_bind, Stage.Meets, hopen]
  show Stage.Meets _ t.pushBasic _ _
  rw [Stage.meets_bind]
  refine (hx _ _ hw hs.vars_le).imp ?_
  rintro _ s₂ ⟨us, hw₂, hc, _⟩
  simp only [Stage.meets_bind, Stage.meets_get, Stage.meets_modify, Stage.meets_pure]
  have hids (id : Nat) (hid : id ∈ Forest.ids us) : s.blocks.size < id := by
    cases hc.fresh id hid with
    | inl hold => exact Nat.lt_of_lt_of_eq (Nat.lt_succ_self _) (List.mem_singleton.1 hold).symm
    | inr hnew =>
      rw [hsize] at hnew
      exact Nat.lt_of_succ_lt hnew
  refine ⟨us, ?_, ⟨hc.vars_le, ?_, ?_, hids, fun id hid ↦ hw₂.mem_ids_le hid, hw₂.nodup, hc.nesting,
    hc.loops, hc.funcs, hw₂.plain⟩, hw₂.finished, hw₂.arranged⟩
  · obtain ⟨outer, houter⟩ := List.head?_eq_some_iff.1 hw₂.nesting
    rw [houter, List.headD_cons, List.reverse_reverse]
  · have hle := hc.size_le
    rw [hsize] at hle
    exact Nat.le_of_succ_le hle
  · intro id hid
    have hnew : id ∉ Forest.ids [Tree.basic (s.blocks.size + 1)] := by
      intro hmem
      exact Nat.ne_of_lt (Nat.lt_succ_of_le hid) (List.mem_singleton.1 hmem)
    calc s₂.draft.block? id
      _ = t.pushBasic.draft.block? id := hc.kept id (by rw [hsize]; exact Nat.le_succ_of_le hid) hnew
      _ = s.draft.block? id := hkept id hid

/-! ## The block of a construct -/

/-- A state inside a construct whose block was just put behind the current one. -/
def inside (s : Lowering) (kind : BlockKind) (loops : List BlockId) : Lowering :=
  { s.pushBlock kind with loops := loops }

/-- A change that gives a block what is inside it. -/
structure Fills (f : Block → Block) : Prop where
  kind : ∀ b, (f b).kind = b.kind
  instrs : ∀ b, (f b).instrs = b.instrs

/-- The state behind a construct: its block has been filled. -/
structure Filled (s s₂ : Lowering) (f : Block → Block) (s₃ : Lowering) : Prop where
  vars : s₃.vars = s₂.vars
  blocks : s₃.blocks = s₂.blocks.modify s.blocks.size f
  nesting : s₃.nesting = s₂.nesting
  loops : s₃.loops = s.loops
  funcs : s₃.unit.funcs = s₂.unit.funcs

section

variable {us : Forest} {kind : BlockKind} {loops : List BlockId} {ids : List BlockId}
  {s₂ s₃ : Lowering} {f : Block → Block}

theorem Ready.inside (hw : Written σ us s) (hn : n ≤ s.vars.size) (kind : BlockKind)
    (loops : List BlockId) (hloops : ∀ l ∈ loops,
      l ∈ s.loops ∨ l = s.blocks.size + 1 ∧ kind = .loop) :
    Ready ((s.blocks.size + 1, kind) :: σ) n (s.inside kind loops) where
  vars_le := hn
  plain := hw.plain.pushBlock kind
  loops l hl := by
    rcases hloops l hl with hold | ⟨rfl, rfl⟩
    · have hfind := hw.loops l hold
      have hle := hw.scope _ (List.mem_of_find?_eq_some hfind)
      rw [List.find?_cons_of_neg]
      · exact hfind
      · simpa using Nat.ne_of_gt (Nat.lt_succ_of_le hle)
    · simp
  scope p hp := by
    have hsize : (s.inside kind loops).blocks.size = s.blocks.size + 1 := by
      simp [Lowering.inside, pushBlock]
    rw [hsize]
    cases List.mem_cons.1 hp with
    | inl heq => rw [heq]
    | inr hmem => exact Nat.le_succ_of_le (hw.scope p hmem)

theorem block?_filled (hfilled : Filled s s₂ f s₃) (id : BlockId) :
    s₃.draft.block? id =
      if id = s.blocks.size + 1 then (s₂.draft.block? id).map f else s₂.draft.block? id := by
  have hdraft : s₃.draft = s₂.draft.updateBlock (s.blocks.size + 1) f := by
    unfold Ir.Function.updateBlock draft
    rw [if_neg (Nat.succ_ne_zero _), hfilled.vars, hfilled.blocks]
    rfl
  rw [hdraft, Ir.Function.block?_updateBlock]

/-- The block of a construct, once it is filled. -/
theorem Apart.block?_construct (h : (s.inside kind loops).Apart ids s₂)
    (hfilled : Filled s s₂ f s₃) :
    s₃.draft.block? (s.blocks.size + 1) = some (f { kind := kind }) := by
  have hsize : (s.inside kind loops).blocks.size = s.blocks.size + 1 := by
    simp [inside, pushBlock]
  have hblock : (s.inside kind loops).draft.block? (s.blocks.size + 1) = some { kind := kind } := by
    have hpush := block?_pushBlock s kind (s.blocks.size + 1)
    rw [if_pos rfl] at hpush
    exact hpush
  rw [block?_filled hfilled, if_pos rfl, h.kept _ (Nat.le_of_eq hsize.symm), hblock]
  rfl

theorem Apart.holds_filled (h : (s.inside kind loops).Apart ids s₂) (hfilled : Filled s s₂ f s₃) :
    s₂.draft.Holds s₃.draft ids := by
  have hsize : (s.inside kind loops).blocks.size = s.blocks.size + 1 := by
    simp [inside, pushBlock]
  refine ⟨Nat.le_of_eq (congrArg Array.size hfilled.vars.symm), fun id hid ↦ ?_⟩
  have hnew := h.fresh id hid
  rw [hsize] at hnew
  rw [block?_filled hfilled, if_neg (Nat.ne_of_gt hnew)]

/-- A construct is built in blocks of its own. -/
theorem Apart.built (hw : Written σ us s) (h : (s.inside kind loops).Apart ids s₂)
    (hfilled : Filled s s₂ f s₃) (hf : Fills f) {t : Tree} (hid : t.id = s.blocks.size + 1)
    (hids : t.ids = (s.blocks.size + 1) :: ids) : Built us s [t] s₃ := by
  have hsize : (s.inside kind loops).blocks.size = s.blocks.size + 1 := by
    simp [inside, pushBlock]
  have hsize₃ : s₃.blocks.size = s₂.blocks.size := by
    rw [hfilled.blocks, Array.size_modify]
  have hsizes := h.size_le
  rw [hsize] at hsizes
  refine ⟨?_, ?_, ?_, ?_, ?_, ?_, hfilled.loops, hfilled.funcs.trans h.funcs, ?_⟩
  · rw [hfilled.vars]
    exact h.vars_le
  · rw [hsize₃]
    exact Nat.le_of_succ_le hsizes
  · intro id hid'
    have hne : id ≠ s.blocks.size + 1 := Nat.ne_of_lt (Nat.lt_succ_of_le hid')
    have hpush := block?_pushBlock s kind id
    rw [if_neg hne] at hpush
    rw [block?_filled hfilled, if_neg hne, h.kept id (by rw [hsize]; exact Nat.le_succ_of_le hid')]
    exact hpush
  · intro id hmem
    rw [Forest.ids_singleton, hids] at hmem
    cases List.mem_cons.1 hmem with
    | inl heq => exact Nat.lt_of_lt_of_eq (Nat.lt_succ_self _) heq.symm
    | inr hmem =>
      have hnew := h.fresh id hmem
      rw [hsize] at hnew
      exact Nat.lt_of_succ_lt hnew
  · rw [Forest.ids_singleton, hids, List.nodup_cons]
    refine ⟨fun hmem ↦ ?_, h.nodup⟩
    have hnew := h.fresh _ hmem
    rw [hsize] at hnew
    exact Nat.lt_irrefl _ hnew
  · obtain ⟨outer, houter⟩ := List.head?_eq_some_iff.1 hw.nesting
    rw [hfilled.nesting, h.nesting]
    simp [inside, pushBlock, houter, Forest.roots, hid]
  · intro b hb
    rw [hfilled.blocks] at hb
    obtain ⟨k, hk, rfl⟩ := Array.mem_iff_getElem.1 hb
    rw [Array.getElem_modify]
    have hold := h.plain _ (Array.getElem_mem (by simpa using hk))
    split
    · rw [hf.kind, hf.instrs]
      exact hold
    · exact hold

/-! ## Finished constructs -/

variable {g : Ir.Function} {id : BlockId} {c : Var} {ts ts' : Forest}

theorem node_of_block? {b : Block} (h : g.block? id = some b) :
    g.Node id b.kind b.body b.otherwise ∧ g.blockAt id = b :=
  ⟨Ir.Function.node_of_block? h, by rw [Ir.Function.blockAt, h, Option.getD_some]⟩

theorem finished_cond
    (h : g.block? id = some { kind := .cond, cond := c, body := Forest.roots ts })
    (hc : c < g.vars.size) (hts : Forest.Finished g ((id, .cond) :: σ) ts)
    (harranged : Forest.isArranged ts) : (Tree.cond id ts).Finished g σ := by
  obtain ⟨hnode, hblock⟩ := node_of_block? h
  refine ⟨⟨hnode, hts.stored⟩, ⟨?_, ?_, hts.checked⟩, ?_⟩
  · rw [hblock]
    exact Ir.Function.unknownVars_eq_nil.2 (List.forall_mem_singleton.2 hc)
  · rw [hblock]
    rfl
  · rw [Tree.isShaped, hblock, harranged, hts.shaped]
    rfl

theorem finished_branch
    (h : g.block? id = some
      { kind := .branch, cond := c, body := Forest.roots ts, otherwise := Forest.roots ts' })
    (hc : c < g.vars.size) (hts : Forest.Finished g ((id, .branch) :: σ) ts)
    (harranged : Forest.isArranged ts) (hts' : Forest.Finished g ((id, .branch) :: σ) ts')
    (harranged' : Forest.isArranged ts') : (Tree.branch id ts ts').Finished g σ := by
  obtain ⟨hnode, hblock⟩ := node_of_block? h
  refine ⟨⟨hnode, hts.stored, hts'.stored⟩, ⟨?_, ?_, hts.checked, hts'.checked⟩, ?_⟩
  · rw [hblock]
    exact Ir.Function.unknownVars_eq_nil.2 (List.forall_mem_singleton.2 hc)
  · rw [hblock]
    rfl
  · rw [Tree.isShaped, hblock, harranged, hts.shaped, harranged', hts'.shaped]
    rfl

theorem finished_loop (h : g.block? id = some { kind := .loop, body := Forest.roots ts })
    (hts : Forest.Finished g ((id, .loop) :: σ) ts) (harranged : Forest.isArranged ts) :
    (Tree.loop id ts).Finished g σ := by
  obtain ⟨hnode, hblock⟩ := node_of_block? h
  refine ⟨⟨hnode, hts.stored⟩, ⟨?_, hts.checked⟩, ?_⟩
  · rw [hblock]
    rfl
  · rw [Tree.isShaped, hblock, harranged, hts.shaped]
    rfl

theorem finished_breakable (h : g.block? id = some { kind := .breakable, body := Forest.roots ts })
    (hts : Forest.Finished g ((id, .breakable) :: σ) ts) (harranged : Forest.isArranged ts) :
    (Tree.breakable id ts).Finished g σ := by
  obtain ⟨hnode, hblock⟩ := node_of_block? h
  refine ⟨⟨hnode, hts.stored⟩, ⟨?_, hts.checked⟩, ?_⟩
  · rw [hblock]
    rfl
  · rw [Tree.isShaped, hblock, harranged, hts.shaped]
    rfl

end

/-! ## One rule for every construct -/

section

variable {k : M α} {post : α → Nat → Prop}

/-- The row goes on behind a construct that is finished. -/
theorem Writing.behind {us : Forest} {t : Tree} {s₃ : Lowering} (hw : Writing σ us s)
    (hn : n ≤ s.vars.size) (hbuilt : Built us s [t] s₃) (ht : t.Finished s₃.draft σ)
    (hk : Writes σ frame n k post) :
    Ensures (k frame) s₃.pushBasic fun a s' ↦
      ∃ us', Writing σ us' s' ∧ Continues us s us' s' ∧ post a s'.vars.size := by
  obtain ⟨hw₄, hc₄⟩ := hw.close hbuilt (Nat.le_refl 1)
    (Forest.finished_cons.2 ⟨ht, Forest.finished_nil⟩)
  refine (hk _ _ hw₄ (Nat.le_trans hn hbuilt.vars_le)).imp ?_
  rintro a s' ⟨us', hw', hc', ha⟩
  exact ⟨us', hw', hc₄.trans hc', ha⟩

theorem writes_breakable {inner : BlockId → M Unit}
    (hinner : ∀ block, Writes ((block, .breakable) :: σ) frame n (inner block) fun _ _ ↦ True)
    (hk : Writes σ frame n k post) :
    Writes σ frame n (do
      let block ← newBlock .breakable
      let body ← nested (inner block)
      updateBlock block fun b => { b with body := body }
      openBasic
      k) post := by
  intro us s hw hn
  have hready := Ready.inside hw.toWritten hn .breakable s.loops fun l hl ↦ .inl hl
  show Ensures (do
    let body ← nested (inner (s.blocks.size + 1)) frame
    updateBlock (s.blocks.size + 1) (fun b => { b with body := body }) frame
    openBasic frame
    k frame) (s.inside .breakable s.loops) _
  rw [Ensures, Stage.meets_bind]
  refine (ensures_nested (hinner _) hready).imp ?_
  rintro body s₂ ⟨ts, hbody, hrow⟩
  subst hbody
  have hfilled : Filled s s₂ (fun b => { b with body := Forest.roots ts })
      { s₂ with
        blocks := s₂.blocks.modify s.blocks.size fun b => { b with body := Forest.roots ts } } :=
    ⟨rfl, rfl, rfl, hrow.apart.loops, rfl⟩
  refine hw.behind hn (hrow.apart.built hw.toWritten hfilled ⟨fun _ ↦ rfl, fun _ ↦ rfl⟩ rfl rfl)
    (finished_breakable (hrow.apart.block?_construct hfilled)
      (hrow.finished.of_holds (hrow.apart.holds_filled hfilled)) hrow.arranged) hk

theorem writes_loop {inner : BlockId → M Unit}
    (hinner : ∀ block, Writes ((block, .loop) :: σ) frame n (inner block) fun _ _ ↦ True)
    (hk : Writes σ frame n k post) :
    Writes σ frame n (do
      let block ← newBlock .loop
      modify fun st => { st with loops := block :: st.loops }
      let body ← nested (inner block)
      updateBlock block fun b => { b with body := body }
      modify fun st => { st with loops := st.loops.tail }
      openBasic
      k) post := by
  intro us s hw hn
  have hready := Ready.inside hw.toWritten hn .loop ((s.blocks.size + 1) :: s.loops) fun l hl ↦
    (List.mem_cons.1 hl).symm.imp_right fun h ↦ ⟨h, rfl⟩
  show Ensures (do
    let body ← nested (inner (s.blocks.size + 1)) frame
    updateBlock (s.blocks.size + 1) (fun b => { b with body := body }) frame
    modify fun st => { st with loops := st.loops.tail }
    openBasic frame
    k frame) (s.inside .loop ((s.blocks.size + 1) :: s.loops)) _
  rw [Ensures, Stage.meets_bind]
  refine (ensures_nested (hinner _) hready).imp ?_
  rintro body s₂ ⟨ts, hbody, hrow⟩
  subst hbody
  have hfilled : Filled s s₂ (fun b => { b with body := Forest.roots ts })
      { s₂ with
        blocks := s₂.blocks.modify s.blocks.size fun b => { b with body := Forest.roots ts }
        loops := s₂.loops.tail } :=
    ⟨rfl, rfl, rfl, congrArg List.tail hrow.apart.loops, rfl⟩
  refine hw.behind hn (hrow.apart.built hw.toWritten hfilled ⟨fun _ ↦ rfl, fun _ ↦ rfl⟩ rfl rfl)
    (finished_loop (hrow.apart.block?_construct hfilled)
      (hrow.finished.of_holds (hrow.apart.holds_filled hfilled)) hrow.arranged) hk

theorem writes_cond {inner : M Unit} {c : Var} (hc : c < n)
    (hinner : ∀ block, Writes ((block, .cond) :: σ) frame n inner fun _ _ ↦ True)
    (hk : Writes σ frame n k post) :
    Writes σ frame n (do
      let block ← newBlock .cond
      let body ← nested inner
      updateBlock block fun b => { b with cond := c, body := body }
      openBasic
      k) post := by
  intro us s hw hn
  have hready := Ready.inside hw.toWritten hn .cond s.loops fun l hl ↦ .inl hl
  show Ensures (do
    let body ← nested inner frame
    updateBlock (s.blocks.size + 1) (fun b => { b with cond := c, body := body }) frame
    openBasic frame
    k frame) (s.inside .cond s.loops) _
  rw [Ensures, Stage.meets_bind]
  refine (ensures_nested (hinner _) hready).imp ?_
  rintro body s₂ ⟨ts, hbody, hrow⟩
  subst hbody
  have hfilled : Filled s s₂ (fun b => { b with cond := c, body := Forest.roots ts })
      { s₂ with
        blocks := s₂.blocks.modify s.blocks.size fun b =>
          { b with cond := c, body := Forest.roots ts } } :=
    ⟨rfl, rfl, rfl, hrow.apart.loops, rfl⟩
  have hc' : c < s₂.vars.size := Nat.lt_of_lt_of_le hc (Nat.le_trans hn hrow.apart.vars_le)
  refine hw.behind hn (hrow.apart.built hw.toWritten hfilled ⟨fun _ ↦ rfl, fun _ ↦ rfl⟩ rfl rfl)
    (finished_cond (hrow.apart.block?_construct hfilled) hc'
      (hrow.finished.of_holds (hrow.apart.holds_filled hfilled)) hrow.arranged) hk

theorem writes_choice {inner inner' : M Unit} {c : Var} (hc : c < n)
    (hinner : ∀ block, Writes ((block, .branch) :: σ) frame n inner fun _ _ ↦ True)
    (hinner' : ∀ block, Writes ((block, .branch) :: σ) frame n inner' fun _ _ ↦ True)
    (hk : Writes σ frame n k post) :
    Writes σ frame n (do
      let block ← newBlock .branch
      let body ← nested inner
      let other ← nested inner'
      updateBlock block fun b => { b with cond := c, body := body, otherwise := other }
      openBasic
      k) post := by
  intro us s hw hn
  have hready := Ready.inside hw.toWritten hn .branch s.loops fun l hl ↦ .inl hl
  show Ensures (do
    let body ← nested inner frame
    let other ← nested inner' frame
    updateBlock (s.blocks.size + 1)
      (fun b => { b with cond := c, body := body, otherwise := other }) frame
    openBasic frame
    k frame) (s.inside .branch s.loops) _
  rw [Ensures, Stage.meets_bind]
  refine (ensures_nested (hinner _) hready).imp ?_
  rintro body s₁ ⟨ts, hbody, hrow⟩
  have happart := hrow.apart
  have hready' : Ready ((s.blocks.size + 1, .branch) :: σ) n s₁ := by
    refine ⟨Nat.le_trans hready.vars_le happart.vars_le, happart.plain, ?_, fun p hp ↦ ?_⟩
    · rw [happart.loops]
      exact hready.loops
    · exact Nat.le_trans (hready.scope p hp) happart.size_le
  rw [Stage.meets_bind]
  refine (ensures_nested (hinner' _) hready').imp ?_
  rintro other s₂ ⟨ts', hother, hrow'⟩
  subst hbody hother
  have hboth := happart.trans hrow'.apart
  have hfilled : Filled s s₂
      (fun b => { b with cond := c, body := Forest.roots ts, otherwise := Forest.roots ts' })
      { s₂ with
        blocks := s₂.blocks.modify s.blocks.size fun b =>
          { b with cond := c, body := Forest.roots ts, otherwise := Forest.roots ts' } } :=
    ⟨rfl, rfl, rfl, hboth.loops, rfl⟩
  have hholds := hboth.holds_filled hfilled
  have hc' : c < s₂.vars.size := Nat.lt_of_lt_of_le hc (Nat.le_trans hn hboth.vars_le)
  have hfirst := (hrow.finished.of_holds (happart.holds hrow'.apart)).of_holds
    (hholds.mono (List.subset_append_left ..))
  have hsecond := hrow'.finished.of_holds (hholds.mono (List.subset_append_right ..))
  refine hw.behind hn (hboth.built hw.toWritten hfilled ⟨fun _ ↦ rfl, fun _ ↦ rfl⟩ rfl rfl)
    (finished_branch (hboth.block?_construct hfilled) hc' hfirst hrow.arranged hsecond
      hrow'.arranged) hk

end

end WasmBackend.Lowering
