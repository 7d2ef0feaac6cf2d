import WasmBackend.Proofs.Lowering.Frames

/-!
# Writing units

Every function that lowering puts into a unit has the shape that conversion to single assignment
relies on: its blocks are one finished row, and only basic blocks hold instructions.
-/

namespace WasmBackend.Lowering

open Ir (BlockId Forest Tree Var)
open Stage (Ensures)

variable {α β : Type} {σ : Scope} {frame : Frame} {n : Nat} {s s' : Lowering}

/-! ## Before the first block -/

/-- A function whose first block has just been opened. -/
structure Opened (start : Lowering) (frame : Frame) (f : Ir.Function) (s : Lowering) : Prop where
  writing : Writing [] [.basic s.current] s
  below : frame.Below s.vars.size
  params_le : f.params.length ≤ s.vars.size
  nesting : s.nesting.tail = []
  funcs : s.unit.funcs = start.unit.funcs

/-- The state in which a function is opened: there are no blocks yet. -/
structure Blank (start s : Lowering) : Prop where
  blocks : s.blocks = #[]
  nesting : s.nesting = [[]]
  loops : s.loops = []
  funcs : s.unit.funcs = start.unit.funcs

theorem Blank.aside {start : Lowering} (h : Blank start s) (hs : s.Aside s') : Blank start s' :=
  ⟨hs.blocks.trans h.blocks, hs.nesting.trans h.nesting, hs.loops.trans h.loops,
    hs.funcs.trans h.funcs⟩

theorem Blank.opened {start : Lowering} (h : Blank start s) {f : Ir.Function}
    (hframe : frame.Below s.vars.size) (hparams : f.params.length ≤ s.vars.size) :
    Opened start frame f s.pushBasic := by
  have hplain : s.Plain := by
    intro b hb
    rw [h.blocks] at hb
    exact absurd hb (by simp)
  refine ⟨⟨⟨?_, finished_pushBasic [] s, List.nodup_singleton _, rfl, ⟨[], rfl⟩,
    hplain.pushBlock .basic, ?_, fun p hp ↦ absurd hp List.not_mem_nil⟩, ?_⟩, hframe, hparams, ?_,
    h.funcs⟩
  · simp [pushBasic, pushBlock, h.nesting, Forest.roots, Tree.id]
  · intro l hl
    rw [show s.pushBasic.loops = [] from h.loops] at hl
    cases hl
  · have hblock := block?_pushBlock s .basic (s.blocks.size + 1)
    rw [if_pos rfl] at hblock
    intro i hi
    rw [show s.pushBasic.current = s.blocks.size + 1 from rfl, Ir.Function.blockAt,
      show s.pushBasic.draft.block? (s.blocks.size + 1) = some {} from hblock] at hi
    cases hi
  · simp [pushBasic, pushBlock, h.nesting]

theorem quiet_hasReceiver : Quiet hasReceiver := by
  refine quiet_read fun r ↦ ?_
  split <;> exact quiet_pure _

theorem quiet_receiverSlots (owner : Handle) : Quiet (receiverSlots owner) := by
  refine quiet_hasReceiver.bind fun b ↦ ?_
  split
  · exact quiet_slotsOf owner
  · exact quiet_pure []

theorem quiet_paramSlots : Quiet paramSlots := by
  refine quiet_frameLocals.bind fun locals ↦ quiet_read fun r ↦ quiet_mapM fun p _ ↦ ?_
  exact (quiet_expect _).bind fun l ↦ (quiet_resolve l.type).bind fun type ↦ quiet_slotsOf type

theorem ensures_bind {x : M α} {f : α → M β} {post : β → Lowering → Prop} :
    Ensures ((x >>= f) frame) s post ↔
      Ensures (x frame) s fun a t ↦ Ensures (f a frame) t post :=
  Stage.meets_bind

/-- A function is opened with its first block and with rows of variables for its frame. -/
theorem ensures_openFunction (frame : Frame) (owner result : Handle) (s : Lowering) :
    Ensures (openFunction owner result frame) s fun r s' ↦
      Opened s r.1 r.2 s' ∧ RowsApart r.1.self r.1.locals := by
  refine ensures_bind.2 ?_
  show Ensures _ { s with vars := #[], blocks := #[], nesting := [[]], current := 0, loops := [] } _
  refine ensures_bind.2 ((quiet_hasReceiver frame _).imp fun hasSelf s₀ hs₀ ↦ ?_)
  refine ensures_bind.2 ((quiet_receiverSlots owner frame s₀).imp fun selfSlots s₁ hs₁ ↦ ?_)
  refine ensures_bind.2 ((quiet_paramSlots frame s₁).imp fun params s₂ hs₂ ↦ ?_)
  refine ensures_bind.2 ((quiet_slotsOf result frame s₂).imp fun resultSlots s₃ hs₃ ↦ ?_)
  have hs := hs₀.trans (hs₁.trans (hs₂.trans hs₃))
  have hblank₃ : Blank s s₃ := ⟨hs.blocks, hs.nesting, hs.loops, hs.funcs⟩
  set native := selfSlots ++ params.flatten with hnative
  refine ensures_bind.2 ?_
  show Ensures _ { s₃ with vars := native.toArray } _
  have hsize : selfSlots.length + (params.map List.length).sum ≤ native.toArray.size := by
    simp [hnative, List.length_flatten]
  refine ensures_bind.2 ((beside_frameVars hsize _ (Nat.le_refl _)).imp ?_)
  rintro vars s₄ ⟨hs₄, hvars⟩
  have hblank₄ : Blank s s₄ := Blank.aside (s := { s₃ with vars := native.toArray })
    ⟨hblank₃.blocks, hblank₃.nesting, hblank₃.loops, hblank₃.funcs⟩ hs₄
  have hparams : native.length ≤ s₄.vars.size := hs₄.vars_le
  refine ensures_bind.2 ?_
  show Opened s _ _ s₄.pushBasic ∧ _
  exact ⟨hblank₄.opened ⟨hvars.receiver_below, hvars.below⟩ hparams, hvars.toRowsApart⟩

/-! ## Functions -/

/-- What conversion to single assignment relies on. -/
structure Lowered (f : Ir.Function) : Prop where
  shaped : f.isShaped
  plain : f.isPlain

/-- A row outside all constructs is a function. -/
theorem Written.lowered {us : Forest} (hw : Written [] us s) {f : Ir.Function}
    (hparams : f.params.length ≤ s.vars.size) :
    Lowered { f with vars := s.vars, blocks := s.blocks, body := (s.nesting.headD []).reverse } := by
  set g : Ir.Function :=
    { f with vars := s.vars, blocks := s.blocks, body := (s.nesting.headD []).reverse } with hg
  have hfinished : Forest.Finished g [] us := hw.finished.of_holds ⟨Nat.le_refl _, fun _ _ ↦ rfl⟩
  have hbody : g.body = Forest.roots us := by
    obtain ⟨outer, houter⟩ := List.head?_eq_some_iff.1 hw.nesting
    rw [hg, houter, List.headD_cons, List.reverse_reverse]
  have hwf : g.WellFormed us := ⟨hbody, hfinished.stored, hw.nodup, hfinished.checked⟩
  constructor
  · simp only [Ir.Function.isShaped, Bool.and_eq_true, decide_eq_true_eq]
    refine ⟨⟨Ir.Function.isValid_of_wellFormed hwf, hparams⟩, ?_⟩
    rw [hwf.laidOut.trees_eq, Option.any_some, hw.arranged, hfinished.shaped]
    rfl
  · refine List.all_eq_true.2 fun b hb ↦ ?_
    have hplain := hw.plain b (Array.mem_toList_iff.1 hb)
    simpa using hplain

/-- All functions of the unit are as they should be. -/
def AllLowered (s : Lowering) : Prop :=
  ∀ f ∈ s.unit.funcs, Lowered f

theorem Opened.closeFunction {start : Lowering} {f g : Ir.Function} {us : Forest} {inner : Frame}
    (h : Opened start frame f s) (hw : Writing [] us s') (hc : Continues [.basic s.current] s us s')
    (hg : g.params = f.params) (hstart : AllLowered start) :
    Ensures (closeFunction g inner) s' fun _ s₂ ↦ AllLowered s₂ := by
  intro f' hf'
  rcases List.mem_append.1 hf' with hold | hnew
  · rw [hc.funcs, h.funcs] at hold
    exact hstart f' hold
  · rw [List.mem_singleton.1 hnew]
    refine hw.toWritten.lowered ?_
    rw [hg]
    exact Nat.le_trans h.params_le hc.vars_le

theorem writes_constructorSelf (owner : Handle) :
    Writes σ frame n (constructorSelf owner) fun vs m ↦ VarsBelow m vs := by
  refine (quiet_typeOf owner).writes.bind fun t i _ _ ↦ ?_
  split
  · refine (writes_allocate t.size).bind fun v j _ hv ↦ writes_pure fun k hk ↦ ?_
    exact varsBelow_singleton.2 (Nat.lt_of_lt_of_le hv hk)
  · refine (quiet_ofLayout t.slots).writes.bind fun slots j _ _ ↦ ?_
    refine (writes_newVars slots).bind fun vars k _ hvars ↦ ?_
    refine (writes_clear hvars).bind fun _ l hl _ ↦ writes_pure fun m hm ↦ ?_
    exact hvars.mono (Nat.le_trans hl hm)

theorem quiet_currentTerminated : Quiet currentTerminated :=
  quiet_get fun _ ↦ quiet_pure _

theorem writes_finishBody (hframe : frame.Below n) (data : FunctionData) (result : Prim) :
    Writes σ frame n (finishBody data result) fun _ _ ↦ True := by
  refine quiet_currentTerminated.writes.bind fun terminated m hm _ ↦ ?_
  split
  · exact writes_pure fun _ _ ↦ trivial
  · split
    · exact writes_read (writes_lowerReturn (hframe.self.mono hm))
    · split
      · exact writes_emit ⟨rfl, nofun, rfl, varsBelow_nil, varsBelow_nil⟩
      · exact writes_pure fun _ _ ↦ trivial

theorem writes_lowerBody (hframe : frame.Below n) (owner : Handle) (data : FunctionData)
    (result : Prim) : Writes σ frame n (lowerBody owner data result) fun _ _ ↦ True := by
  have hstatements (frame : Frame) (m : Nat) (hframe : frame.Below m) :
      Writes σ frame m (do lowerStmts data.body; finishBody data result) fun _ _ ↦ True :=
    (listWrites_lowerStmts σ frame m data.body hframe).bind fun _ _ hi _ ↦
      writes_finishBody (hframe.mono hi) data result
  unfold lowerBody
  dsimp only
  split
  · refine (writes_constructorSelf owner).bind fun self m hm hself ↦ ?_
    exact hstatements { frame with self := self, selfType := owner } m
      ⟨hself, (hframe.mono hm).locals⟩
  · exact hstatements frame n hframe

theorem writes_resetHeap : Writes σ frame n resetHeap fun _ _ ↦ True := by
  refine (writes_newVar .pointer).bind fun base m _ hbase ↦ ?_
  have hbase := varsBelow_singleton.2 hbase
  refine Writes.bind (writes_emit ⟨rfl, nofun, rfl, hbase, varsBelow_nil⟩) fun _ k hk _ ↦ ?_
  exact writes_emit ⟨rfl, nofun, rfl, varsBelow_nil, hbase.mono hk⟩

theorem writes_initGlobal (hframe : frame.Below n) (id : DeclId) (d : Decl) :
    Writes σ frame n (initGlobal id d) fun _ _ ↦ True := by
  unfold initGlobal
  split
  · refine (quiet_expect d.global).writes.bind fun g i hi _ ↦ ?_
    split
    · refine (quiet_resolve g.type).writes.bind fun type j hj _ ↦ ?_
      refine (quiet_globalIndex id).writes.bind fun index k hk _ ↦ ?_
      exact subWrites_lowerExpr.into (d := .global type index 0)
        (hframe.mono (Nat.le_trans hi (Nat.le_trans hj hk))) g.init trivial
    · exact writes_pure fun _ _ ↦ trivial
  · exact writes_pure fun _ _ ↦ trivial

theorem writes_lowerEntry (hframe : frame.Below n) (needsAlloc : Bool) :
    Writes σ frame n (lowerEntry needsAlloc) fun _ _ ↦ True := by
  have hrest (m : Nat) (hm : n ≤ m) : Writes σ frame m (do
      let p ← program
      for q in p.numberedDecls do
        initGlobal q.1 q.2
      lowerStmts p.main) fun _ _ ↦ True := by
    refine quiet_program.writes.bind fun p i hi _ ↦ ?_
    have hframe := hframe.mono (Nat.le_trans hm hi)
    refine Writes.bind (writes_forIn fun q _ j hj ↦ ?_) fun _ k hk _ ↦
      listWrites_lowerStmts σ frame k p.main (hframe.mono hk)
    exact (writes_initGlobal (hframe.mono hj) q.1 q.2).bind fun _ _ _ _ ↦ writes_pure fun _ _ ↦ rfl
  unfold lowerEntry
  dsimp only
  split
  · exact writes_resetHeap.bind fun _ m hm _ ↦ hrest m hm
  · exact hrest n (Nat.le_refl n)

/-! ## Tasks -/

/-- A function is opened, its code written and the function put into the unit. -/
theorem ensures_lowerFunction {owner result : Handle} {body : Ir.Function → M Unit}
    {close : Ir.Function → Ir.Function}
    (hbody : ∀ (opened : Frame) (f : Ir.Function) (m : Nat), opened.Below m →
      Writes [] opened m (body f) fun _ _ ↦ True)
    (hclose : ∀ f, (close f).params = f.params) (hs : AllLowered s) :
    Ensures (lowerFunction owner result body close frame) s fun _ s' ↦ AllLowered s' := by
  refine ensures_bind.2 ((ensures_openFunction frame owner result s).imp ?_)
  rintro ⟨opened, f⟩ s₁ ⟨hopened, -⟩
  refine ensures_bind.2 ?_
  refine (hbody opened f _ hopened.below _ s₁ hopened.writing (Nat.le_refl _)).imp ?_
  rintro _ s₂ ⟨us, hw, hc, _⟩
  exact hopened.closeFunction hw hc (hclose f) hs

theorem AllLowered.of_eq (h : AllLowered s) (hfuncs : s'.unit.funcs = s.unit.funcs) :
    AllLowered s' := by
  unfold AllLowered
  rw [hfuncs]
  exact h

theorem quiet_lowerForeign (t : Task) (d : Decl) (data : FunctionData) :
    Quiet (lowerForeign t d data) := by
  refine Quiet.bind (quiet_mapM fun p _ ↦ ?_) fun params ↦ ?_
  · exact (quiet_expect _).bind fun l ↦ quiet_resolve l.type
  · refine (quiet_resolve data.result).bind fun result ↦ ?_
    refine (quiet_typeOf result).bind fun type ↦ (quiet_ofLayout _).bind fun n ↦ ?_
    have himport : Quiet (do
        let sig ← signatureOf params result
        modify fun s =>
          { s with
            unit :=
              { s.unit with
                imports := s.unit.imports
                  ++ [{ name := t.name, symbol := d.foreignSymbol, sig := sig,
                        inTable := t.indirect }] } } : M Unit) :=
      (quiet_signatureOf params result).bind fun _ ↦ quiet_modify fun s ↦ aside_unit s rfl
    dsimp only
    split
    · exact (quiet_report _).bind fun _ ↦ himport
    · exact himport

theorem ensures_lowerDeclared (t : Task) (d : Decl) (data : FunctionData) (hs : AllLowered s) :
    Ensures (lowerDeclared t d data frame) s fun _ s' ↦ AllLowered s' := by
  refine ensures_bind.2 ((quiet_resolve data.result _ s).imp fun result s₁ hs₁ ↦ ?_)
  exact ensures_lowerFunction
    (fun _ f _ hopened ↦ writes_lowerBody hopened t.owner data f.result) (fun _ ↦ rfl)
    (hs.of_eq hs₁.funcs)

theorem ensures_lowerTask (globals : List (DeclId × Nat)) (needsAlloc : Bool) (t : Task)
    (hs : AllLowered s) :
    Ensures (lowerTask globals needsAlloc t) s fun _ s' ↦ AllLowered s' := by
  unfold lowerTask
  rw [Ensures, Stage.meets_bind, Stage.meets_get]
  split
  · exact ensures_lowerFunction (fun _ _ _ hopened ↦ writes_lowerEntry hopened needsAlloc)
      (fun _ ↦ rfl) hs
  · split
    · rename_i d _
      split
      · rename_i data _
        dsimp only
        split
        · exact (quiet_lowerForeign t d data _ s).imp fun _ s' hs' ↦ hs.of_eq hs'.funcs
        · exact ensures_lowerDeclared t d data hs
      · exact trivial
    · exact trivial

/-! ## The unit -/

theorem lowered_allocator : Lowered allocator :=
  ⟨by decide +kernel, by decide +kernel⟩

theorem quiet_declareGlobal (globals : List (DeclId × Nat)) (id : DeclId) (d : Decl) :
    Quiet (declareGlobal globals id d) := by
  unfold declareGlobal
  split
  · refine (quiet_expect _).bind fun g ↦ (quiet_resolve g.type).bind fun type ↦ ?_
    refine (quiet_typeOf type).bind fun t ↦ (quiet_ofLayout _).bind fun size ↦ ?_
    exact Quiet.bind (quiet_modify fun s ↦ aside_unit s rfl) fun _ ↦ quiet_pure _
  · exact quiet_pure globals

theorem quiet_declareGlobals : Quiet declareGlobals := by
  refine quiet_program.bind fun p ↦ ?_
  generalize ([] : List (DeclId × Nat)) = globals
  induction p.numberedDecls generalizing globals with
  | nil => exact quiet_pure globals
  | cons q rest ih =>
    rw [List.foldlM_cons]
    exact (quiet_declareGlobal globals q.1 q.2).bind ih

theorem ensures_fillTable (tasks : List Task) (hs : AllLowered s) :
    Ensures (fillTable tasks) s fun _ s' ↦ AllLowered s' := by
  unfold fillTable
  rw [Ensures, Stage.meets_bind]
  refine (Stage.meets_forIn (fun _ _ t ↦ AllLowered t) hs fun _ t _ _ st _ hst ↦ ?_).imp
    fun _ _ h ↦ h
  split
  · exact ⟨_, rfl, hst⟩
  · exact ⟨_, rfl, hst⟩

theorem ensures_lowerTasks (globals : List (DeclId × Nat)) (needsAlloc : Bool) (parent : Nat)
    (tasks : List Task) (hs : AllLowered s) :
    Ensures (lowerTasks globals needsAlloc parent tasks) s fun _ s' ↦ AllLowered s' := by
  unfold lowerTasks
  rw [Ensures, Stage.meets_bind]
  refine (Stage.meets_forIn (fun _ _ t ↦ AllLowered t) hs fun _ t _ _ st _ hst ↦ ?_).imp
    fun _ _ h ↦ h
  split
  · rw [Stage.meets_bind, Stage.meets_modify, Stage.meets_bind]
    have hnext : AllLowered { st with tracer := st.tracer.point .task "lower" t.name parent } :=
      hst.of_eq rfl
    refine (ensures_lowerTask globals needsAlloc t hnext).imp ?_
    intro _ s' hs'
    exact ⟨_, rfl, hs'⟩
  · exact ⟨_, rfl, hst⟩

/-- Every function of a lowered unit has the shape that conversion to single assignment relies
on. -/
theorem ensures_lowerPlan (plan : Plan) (entryExport : Text) (parent : Nat) (s : Lowering) :
    Ensures (lowerPlan plan entryExport parent) s fun unit _ ↦ ∀ f ∈ unit.funcs, Lowered f := by
  unfold lowerPlan
  dsimp only
  rw [Ensures, Stage.meets_bind, Stage.meets_modify, Stage.meets_bind]
  refine (quiet_declareGlobals _ _).imp fun globals s₁ hs₁ ↦ ?_
  have hstart : AllLowered s₁ := by
    intro f hf
    rw [hs₁.funcs] at hf
    exact absurd hf List.not_mem_nil
  rw [Stage.meets_bind]
  refine (ensures_fillTable plan.tasks hstart).imp fun _ s₂ hs₂ ↦ ?_
  rw [Stage.meets_bind]
  refine (ensures_lowerTasks globals plan.needsAlloc parent plan.tasks hs₂).imp fun _ s₃ hs₃ ↦ ?_
  split
  · rw [Stage.meets_bind, Stage.meets_modify]
    intro f hf
    rcases List.mem_append.1 hf with hold | hnew
    · exact hs₃ f hold
    · rw [List.mem_singleton.1 hnew]
      exact lowered_allocator
  · exact hs₃

end WasmBackend.Lowering
