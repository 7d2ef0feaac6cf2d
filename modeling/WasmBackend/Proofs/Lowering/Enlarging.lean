import WasmBackend.Proofs.Confinement
import WasmBackend.Proofs.Lowering.Expressions

/-!
# What lowering adds

A step that lowers an expression leaves all code in place that was there before: it puts
instructions at the end of the current block and opens new blocks.  What it adds is tame.  It
assigns only variables from a number `n` on, the ones that were made for it; it reads only those and
the variables of the frame; it stores only through pointers of its own; and the only branches leave
constructs from a number `b` on, which were opened for it as well.

`Enlarged` says so of two states, `Enlarges` of a step, with one rule for every way steps are put
together.
-/

namespace WasmBackend

open Ir (Block BlockId BlockKind Instr Var)
open Stage (Ensures)

/-- The variables of the receiver and of the locals. -/
def Frame.Has (frame : Frame) (v : Var) : Prop :=
  v ∈ frame.self ∨ ∃ row ∈ frame.locals, v ∈ row

/-- The variables that code may read whose own variables are those from `n` on. -/
def Frame.Sees (frame : Frame) (n : Nat) (v : Var) : Prop :=
  frame.Has v ∨ n ≤ v

namespace Lowering

variable {α β : Type} {frame : Frame} {n b : Nat}

/-- An instruction that touches only what was made for it. -/
structure Tame (frame : Frame) (n b : Nat) (i : Instr) : Prop
    extends i.Confined (frame.Sees n) (n ≤ ·) (b < ·) where
  stores : i.op = .store → ∀ v ∈ i.args.head?, n ≤ v

/-- A block with tame instructions. -/
structure TameBlock (frame : Frame) (n b : Nat) (c : Block) : Prop where
  kind : c.kind = .basic ∨ c.kind = .breakable
  instrs : ∀ i ∈ c.instrs, Tame frame n b i
  exits : c.exitCopies = []

/-- The block with more instructions behind its own. -/
def Block.and (c : Block) (is : List Instr) : Block :=
  { c with instrs := c.instrs ++ is }

/-- There is a block that takes instructions. -/
structure HasCurrent (s : Lowering) : Prop where
  pos : 0 < s.current
  le : s.current ≤ s.blocks.size

/-- The second state has everything the first has, and tame code behind it. -/
structure Enlarged (frame : Frame) (n b : Nat) (s s' : Lowering) : Prop where
  vars : s.vars.toList <+: s'.vars.toList
  size_le : s.blocks.size ≤ s'.blocks.size
  hasCurrent : s'.HasCurrent
  current : s'.current = s.current ∨ s.blocks.size < s'.current
  kept : ∀ id ≤ s.blocks.size, id ≠ s.current → s'.draft.block? id = s.draft.block? id
  grown : ∃ is, (∀ i ∈ is, Tame frame n b i)
    ∧ s'.draft.block? s.current = (s.draft.block? s.current).map fun c => Block.and c is
  fresh : ∀ id c, s.blocks.size < id → s'.draft.block? id = some c → TameBlock frame n b c
  nesting : ∃ ids, s'.nesting.headD [] = ids ++ s.nesting.headD []
  outer : s'.nesting.tail = s.nesting.tail

section

variable {s s' s'' : Lowering}

theorem Block.and_nil (c : Block) : Block.and c [] = c := by
  simp [Block.and]

theorem Block.and_and (c : Block) (is is' : List Instr) :
    Block.and (Block.and c is) is' = Block.and c (is ++ is') := by
  simp [Block.and]

theorem TameBlock.and {c : Block} (h : TameBlock frame n b c) {is : List Instr}
    (his : ∀ i ∈ is, Tame frame n b i) : TameBlock frame n b (Block.and c is) where
  kind := h.kind
  instrs i hi := by
    cases List.mem_append.1 hi with
    | inl hold => exact h.instrs i hold
    | inr hnew => exact his i hnew
  exits := h.exits

theorem Tame.mono {n' b' : Nat} {i : Instr} (h : Tame frame n b i) (hn : n' ≤ n) (hb : b' ≤ b) :
    Tame frame n' b' i where
  toConfined := h.toConfined.mono (fun _ hv ↦ hv.imp_right hn.trans) (fun _ ↦ hn.trans)
    fun _ ↦ Nat.lt_of_le_of_lt hb
  stores hop v hv := hn.trans (h.stores hop v hv)

/-- A block that was just made is tame. -/
theorem tameBlock_new {kind : BlockKind} (h : kind = .basic ∨ kind = .breakable)
    (body : List BlockId) :
    TameBlock frame n b { kind := kind, body := body } :=
  ⟨h, fun _ hi ↦ absurd hi List.not_mem_nil, rfl⟩

theorem TameBlock.confined {c : Block} (h : TameBlock frame n b c) :
    c.Confined (frame.Sees n) (n ≤ ·) (b < ·) :=
  ⟨h.kind, fun i hi ↦ (h.instrs i hi).toConfined, h.exits⟩

theorem Writing.hasCurrent {σ : Scope} {us : Ir.Forest} (h : Writing σ us s) : s.HasCurrent where
  pos := Nat.pos_of_ne_zero h.current_ne_zero
  le := by
    obtain ⟨before, hus⟩ := h.last
    exact h.mem_ids_le (by simp [hus, Ir.Tree.ids])

theorem Enlarged.vars_le (h : Enlarged frame n b s s') : s.vars.size ≤ s'.vars.size := by
  simpa using h.vars.length_le

/-- Variables stay what they are. -/
theorem getElem?_vars_of_isPrefix {vars vars' : Array Prim}
    (h : vars.toList <+: vars'.toList) {v : Var} {p : Prim} (hv : vars[v]? = some p) : vars'[v]? = some p := by
  rw [← Array.getElem?_toList] at hv ⊢
  obtain ⟨hlt, rfl⟩ := List.getElem?_eq_some_iff.1 hv
  exact List.prefix_iff_getElem?.1 h v hlt

theorem Enlarged.getElem?_vars (h : Enlarged frame n b s s') {v : Var} {p : Prim}
    (hv : s.vars[v]? = some p) : s'.vars[v]? = some p :=
  getElem?_vars_of_isPrefix h.vars hv

theorem Enlarged.refl (h : s.HasCurrent) : Enlarged frame n b s s where
  vars := List.prefix_refl _
  size_le := Nat.le_refl _
  hasCurrent := h
  current := .inl rfl
  kept _ _ _ := rfl
  grown := by
    refine ⟨[], fun _ hi ↦ absurd hi List.not_mem_nil, ?_⟩
    simp only [Block.and_nil, Option.map_id']
  fresh id c hid hc := absurd hid (Nat.not_lt_of_le (Ir.Function.mem_range_of_block? hc).2)
  nesting := ⟨[], rfl⟩
  outer := rfl

theorem Enlarged.mono {n' b' : Nat} (h : Enlarged frame n b s s') (hn : n' ≤ n) (hb : b' ≤ b) :
    Enlarged frame n' b' s s' :=
  { h with
    grown := by
      obtain ⟨is, his, hblock⟩ := h.grown
      exact ⟨is, fun i hi ↦ (his i hi).mono hn hb, hblock⟩
    fresh := fun id c hid hc ↦
      have hc := h.fresh id c hid hc
      ⟨hc.kind, fun i hi ↦ (hc.instrs i hi).mono hn hb, hc.exits⟩ }

/-- Blocks that the first of two steps found or made are still there behind the second. -/
theorem Enlarged.block?_of_le (h : Enlarged frame n b s s') {id : BlockId}
    (hid : id ≤ s.blocks.size) : ∃ is, (∀ i ∈ is, Tame frame n b i)
      ∧ s'.draft.block? id = (s.draft.block? id).map fun c => Block.and c is := by
  by_cases hcurrent : id = s.current
  · rw [hcurrent]
    exact h.grown
  · refine ⟨[], fun _ hi ↦ absurd hi List.not_mem_nil, ?_⟩
    simp only [Block.and_nil, Option.map_id']
    exact h.kept id hid hcurrent

theorem Enlarged.trans (hs : s.HasCurrent) (h : Enlarged frame n b s s')
    (h' : Enlarged frame n b s' s'') : Enlarged frame n b s s'' where
  vars := h.vars.trans h'.vars
  size_le := Nat.le_trans h.size_le h'.size_le
  hasCurrent := h'.hasCurrent
  current := by
    cases h'.current with
    | inl heq => rw [heq]; exact h.current
    | inr hnew => exact .inr (Nat.lt_of_le_of_lt h.size_le hnew)
  kept id hid hne := by
    have hne' : id ≠ s'.current := by
      cases h.current with
      | inl heq => rw [heq]; exact hne
      | inr hnew => exact Nat.ne_of_lt (Nat.lt_of_le_of_lt hid hnew)
    rw [h'.kept id (Nat.le_trans hid h.size_le) hne', h.kept id hid hne]
  grown := by
    obtain ⟨is, his, hblock⟩ := h.grown
    obtain ⟨is', his', hblock'⟩ := h'.block?_of_le (Nat.le_trans hs.le h.size_le)
    refine ⟨is ++ is', fun i hi ↦ (List.mem_append.1 hi).elim (his i) (his' i), ?_⟩
    rw [hblock', hblock, Option.map_map]
    congr 1
    funext c
    exact Block.and_and c is is'
  fresh id c hid hc := by
    by_cases hold : id ≤ s'.blocks.size
    · obtain ⟨is, his, hblock⟩ := h'.block?_of_le hold
      rw [hblock, Option.map_eq_some_iff] at hc
      obtain ⟨c', hc', rfl⟩ := hc
      exact (h.fresh id c' hid hc').and his
    · exact h'.fresh id c (Nat.lt_of_not_le hold) hc
  nesting := by
    obtain ⟨ids, hids⟩ := h.nesting
    obtain ⟨ids', hids'⟩ := h'.nesting
    exact ⟨ids' ++ ids, by rw [hids', hids, List.append_assoc]⟩
  outer := h'.outer.trans h.outer

theorem Aside.hasCurrent (h : s.Aside s') (hs : s.HasCurrent) : s'.HasCurrent where
  pos := by rw [h.current]; exact hs.pos
  le := by rw [h.current, h.blocks]; exact hs.le

theorem Aside.enlarged (h : s.Aside s') (hs : s.HasCurrent) : Enlarged frame n b s s' where
  vars := h.vars
  size_le := by rw [h.blocks]
  hasCurrent := h.hasCurrent hs
  current := .inl h.current
  kept id _ _ := h.block?_eq id
  grown := by
    refine ⟨[], fun _ hi ↦ absurd hi List.not_mem_nil, ?_⟩
    simp only [Block.and_nil, Option.map_id']
    exact h.block?_eq s.current
  fresh id c hid hc := by
    rw [h.block?_eq] at hc
    exact absurd hid (Nat.not_lt_of_le (Ir.Function.mem_range_of_block? hc).2)
  nesting := ⟨[], by rw [h.nesting]; rfl⟩
  outer := by rw [h.nesting]

/-- What putting an instruction at the end of the current block does to the blocks. -/
theorem block?_append (hs : s.HasCurrent) (i : Instr) (id : BlockId) :
    (s.append i).draft.block? id =
      if id = s.current then (s.draft.block? id).map fun c => Block.and c [i]
      else s.draft.block? id := by
  have hdraft : (s.append i).draft = s.draft.updateBlock s.current fun c => Block.and c [i] := by
    unfold Ir.Function.updateBlock
    rw [if_neg (Nat.ne_of_gt hs.pos)]
    rfl
  rw [hdraft, Ir.Function.block?_updateBlock]

theorem HasCurrent.append (hs : s.HasCurrent) (i : Instr) : (s.append i).HasCurrent where
  pos := hs.pos
  le := by
    have hsize : (s.append i).blocks.size = s.blocks.size := by simp [Lowering.append]
    rw [hsize]
    exact hs.le

theorem enlarged_append (hs : s.HasCurrent) {i : Instr} (hi : Tame frame n b i) :
    Enlarged frame n b s (s.append i) where
  vars := List.prefix_refl _
  size_le := by simp [Lowering.append]
  hasCurrent := hs.append i
  current := .inl rfl
  kept id _ hne := by rw [block?_append hs, if_neg hne]
  grown := ⟨[i], List.forall_mem_singleton.2 hi, by rw [block?_append hs, if_pos rfl]⟩
  fresh id c hid hc := by
    rw [block?_append hs, if_neg (Nat.ne_of_gt (Nat.lt_of_le_of_lt hs.le hid))] at hc
    exact absurd hid (Nat.not_lt_of_le (Ir.Function.mem_range_of_block? hc).2)
  nesting := ⟨[], rfl⟩
  outer := rfl

theorem block?_pushBasic (s : Lowering) (id : Nat) :
    s.pushBasic.draft.block? id =
      if id = s.blocks.size + 1 then some {} else s.draft.block? id :=
  block?_pushBlock s .basic id

@[simp]
theorem size_pushBlock (s : Lowering) (kind : BlockKind) :
    (s.pushBlock kind).blocks.size = s.blocks.size + 1 := by
  simp [pushBlock]

@[simp]
theorem size_pushBasic (s : Lowering) : s.pushBasic.blocks.size = s.blocks.size + 1 :=
  size_pushBlock s .basic

theorem hasCurrent_pushBasic (s : Lowering) : s.pushBasic.HasCurrent where
  pos := Nat.succ_pos _
  le := Nat.le_of_eq (size_pushBasic s).symm

theorem enlarged_pushBasic (hs : s.HasCurrent) : Enlarged frame n b s s.pushBasic where
  vars := List.prefix_refl _
  size_le := by rw [size_pushBasic]; exact Nat.le_succ _
  hasCurrent := hasCurrent_pushBasic s
  current := .inr (Nat.lt_succ_self _)
  kept id hid _ := by rw [block?_pushBasic, if_neg (Nat.ne_of_lt (Nat.lt_succ_of_le hid))]
  grown := by
    refine ⟨[], fun _ hi ↦ absurd hi List.not_mem_nil, ?_⟩
    rw [block?_pushBasic, if_neg (Nat.ne_of_lt (Nat.lt_succ_of_le hs.le))]
    simp only [Block.and_nil, Option.map_id']
  fresh id c hid hc := by
    rw [block?_pushBasic] at hc
    split at hc
    · cases hc
      exact tameBlock_new (.inl rfl) []
    · exact absurd hid (Nat.not_lt_of_le (Ir.Function.mem_range_of_block? hc).2)
  nesting := by
    refine ⟨[s.blocks.size + 1], ?_⟩
    unfold pushBasic pushBlock
    cases s.nesting <;> rfl
  outer := by
    unfold pushBasic pushBlock
    cases s.nesting <;> rfl

end

/-! ## Steps -/

/-- The step enlarges every state it succeeds on, and its result satisfies `post`. -/
def Enlarges (frame : Frame) (n b : Nat) (x : M α) (post : α → Prop) : Prop :=
  ∀ s : Lowering, s.HasCurrent → n ≤ s.vars.size → b ≤ s.blocks.size →
    Ensures (x frame) s fun a s' ↦ Enlarged frame n b s s' ∧ post a

variable {x : M α} {post : α → Prop}

theorem Enlarges.imp {post' : α → Prop} (h : Enlarges frame n b x post)
    (hpost : ∀ a, post a → post' a) : Enlarges frame n b x post' :=
  fun s hs hn hb ↦ (h s hs hn hb).imp fun a _ ha ↦ ⟨ha.1, hpost a ha.2⟩

theorem enlarges_pure {a : α} (h : post a) : Enlarges frame n b (pure a) post :=
  fun _ hs _ _ ↦ ⟨Enlarged.refl hs, h⟩

theorem Enlarges.bind {f : α → M β} {post' : β → Prop} (hx : Enlarges frame n b x post)
    (hf : ∀ a, post a → Enlarges frame n b (f a) post') :
    Enlarges frame n b (x >>= f) post' := by
  intro s hs hn hb
  show Ensures (x frame >>= fun a ↦ f a frame) s _
  rw [Ensures, Stage.meets_bind]
  refine (hx s hs hn hb).imp ?_
  rintro a s₁ ⟨h₁, ha⟩
  refine (hf a ha s₁ h₁.hasCurrent (Nat.le_trans hn h₁.vars_le)
    (Nat.le_trans hb h₁.size_le)).imp ?_
  rintro c s₂ ⟨h₂, hc⟩
  exact ⟨h₁.trans hs h₂, hc⟩

theorem enlarges_throw {e : LoweringFault} : Enlarges frame n b (throw e : M α) post :=
  fun _ _ _ _ ↦ trivial

theorem enlarges_internalHere (message : Text) :
    Enlarges frame n b (internalHere message : M α) post :=
  fun _ _ _ _ ↦ trivial

/-- Nothing happens behind a broken invariant. -/
theorem enlarges_internalHere_bind (message : Text) {f : α → M β} {post : β → Prop} :
    Enlarges frame n b (internalHere message >>= f) post :=
  fun _ _ _ _ ↦ trivial

theorem enlarges_read {f : Frame → M β} {post : β → Prop}
    (h : Enlarges frame n b (f frame) post) : Enlarges frame n b (read >>= f) post :=
  h

theorem enlarges_discard (h : Enlarges frame n b x post) :
    Enlarges frame n b (discard x) fun _ ↦ True := by
  show Enlarges frame n b (Functor.map (fun _ ↦ PUnit.unit) x) _
  rw [map_eq_pure_bind]
  exact h.bind fun _ _ ↦ enlarges_pure trivial

theorem enlarges_forIn {l : List α} {f : α → PUnit → M (ForInStep PUnit)}
    (h : ∀ a ∈ l, Enlarges frame n b (f a ⟨⟩) fun r ↦ r = .yield ⟨⟩) :
    Enlarges frame n b (forIn l PUnit.unit f) fun _ ↦ True := by
  induction l with
  | nil => exact enlarges_pure trivial
  | cons a l ih =>
    rw [List.forIn_cons]
    refine (h a List.mem_cons_self).bind ?_
    rintro _ rfl
    exact ih fun c hc ↦ h c (List.mem_cons_of_mem a hc)

theorem enlarges_mapM {l : List α} {f : α → M β} {post : β → Prop}
    (h : ∀ a ∈ l, Enlarges frame n b (f a) post) :
    Enlarges frame n b (l.mapM f) fun cs ↦ ∀ c ∈ cs, post c := by
  induction l with
  | nil => exact enlarges_pure fun _ hc ↦ absurd hc List.not_mem_nil
  | cons a l ih =>
    rw [List.mapM_cons]
    refine (h a List.mem_cons_self).bind fun c hc ↦ ?_
    refine (ih fun a' ha' ↦ h a' (List.mem_cons_of_mem a ha')).bind fun cs hcs ↦ ?_
    exact enlarges_pure (List.forall_mem_cons.2 ⟨hc, hcs⟩)

/-- A step that touches no block. -/
theorem Quiet.enlarges (h : Quiet x) : Enlarges frame n b x fun _ ↦ True :=
  fun s hs _ _ ↦ (h frame s).imp fun _ _ hstep ↦ ⟨hstep.enlarged hs, trivial⟩

theorem enlarges_emit {i : Instr} (hi : Tame frame n b i) :
    Enlarges frame n b (emit i) fun _ ↦ True :=
  fun _ hs _ _ ↦ ⟨enlarged_append hs hi, trivial⟩

theorem enlarges_openBasic : Enlarges frame n b openBasic fun _ ↦ True :=
  fun _ hs _ _ ↦ ⟨enlarged_pushBasic hs, trivial⟩

theorem enlarges_newVar (p : Prim) : Enlarges frame n b (newVar p) fun v ↦ n ≤ v :=
  fun s hs hn _ ↦ ⟨(aside_push s p).enlarged hs, hn⟩

theorem enlarges_newVars (ps : List Prim) :
    Enlarges frame n b (newVars ps) fun vs ↦ ∀ v ∈ vs, n ≤ v :=
  enlarges_mapM fun p _ ↦ enlarges_newVar p

theorem enlarges_expect {y : Option α} (h : ∀ a ∈ y, post a) :
    Enlarges frame n b (expect y) post := by
  cases y with
  | some a => exact enlarges_pure (h a rfl)
  | none => exact enlarges_throw

theorem enlarges_first {p : Var → Prop} {vs : List Var} (h : ∀ v ∈ vs, p v) :
    Enlarges frame n b (first vs) p :=
  enlarges_expect fun v hv ↦ h v (List.mem_of_head? hv)

/-! ## Constructs -/

/-- The state in which a list inside a new block begins. -/
def enter (s : Lowering) (kind : BlockKind) : Lowering :=
  { s.pushBlock kind with nesting := [] :: (s.pushBlock kind).nesting }.pushBasic

/-- The state behind a breakable block: it gets what was lowered inside it. -/
def leaveBreakable (s s₁ : Lowering) : Lowering :=
  { s₁ with
    nesting := s₁.nesting.tail
    blocks := s₁.blocks.modify s.blocks.size fun c =>
      { c with body := (s₁.nesting.headD []).reverse } }.pushBasic

section

variable {s s₁ : Lowering}

theorem block?_enter (s : Lowering) (kind : BlockKind) (id : Nat) :
    (s.enter kind).draft.block? id =
      if id = s.blocks.size + 2 then some {}
      else if id = s.blocks.size + 1 then some { kind := kind } else s.draft.block? id := by
  have hpush := block?_pushBlock s kind id
  have hbasic := block?_pushBasic
    { s.pushBlock kind with nesting := [] :: (s.pushBlock kind).nesting } id
  rw [size_pushBlock] at hbasic
  exact hbasic.trans (by rw [← hpush]; rfl)

theorem size_enter (s : Lowering) (kind : BlockKind) :
    (s.enter kind).blocks.size = s.blocks.size + 2 := by
  simp [enter]

theorem block?_leaveBreakable (s s₁ : Lowering) (id : Nat) :
    (leaveBreakable s s₁).draft.block? id =
      if id = s₁.blocks.size + 1 then some {}
      else if id = s.blocks.size + 1 then
        (s₁.draft.block? id).map fun c => { c with body := (s₁.nesting.headD []).reverse }
      else s₁.draft.block? id := by
  unfold leaveBreakable
  rw [block?_pushBasic, Array.size_modify]
  congr 1
  have hupdate := s₁.draft.block?_updateBlock (s.blocks.size + 1)
    (fun c => { c with body := (s₁.nesting.headD []).reverse }) id
  unfold Ir.Function.updateBlock at hupdate
  rw [if_neg (Nat.succ_ne_zero _)] at hupdate
  exact hupdate

theorem current_enter (s : Lowering) (kind : BlockKind) :
    (s.enter kind).current = s.blocks.size + 2 := by
  simp [enter, pushBasic, pushBlock]

/-- A breakable block leaves the blocks from before it as they were. -/
theorem Enlarged.block?_leaveBreakable (h : Enlarged frame n b (s.enter .breakable) s₁) (id : Nat)
    (hid : id ≤ s.blocks.size) : (leaveBreakable s s₁).draft.block? id = s.draft.block? id := by
  have hsize := size_enter s .breakable
  have hcurrent := current_enter s .breakable
  have hle : s.blocks.size + 2 ≤ s₁.blocks.size := hsize ▸ h.size_le
  rw [Lowering.block?_leaveBreakable, if_neg (by omega), if_neg (by omega),
    h.kept id (by rw [hsize]; omega) (by rw [hcurrent]; omega), block?_enter,
    if_neg (by omega), if_neg (by omega)]

/-- A breakable block is added behind the current block, with tame code inside it. -/
theorem Enlarged.breakable (hs : s.HasCurrent)
    (h : Enlarged frame n b (s.enter .breakable) s₁) :
    Enlarged frame n b s (leaveBreakable s s₁) := by
  have hsize := size_enter s .breakable
  have hcurrent := current_enter s .breakable
  have hle : s.blocks.size + 2 ≤ s₁.blocks.size := hsize ▸ h.size_le
  refine ⟨h.vars, ?_, hasCurrent_pushBasic _, .inr ?_,
    fun id hid _ ↦ h.block?_leaveBreakable id hid, ?_, ?_, ?_, ?_⟩
  · simp only [leaveBreakable, size_pushBasic, Array.size_modify]
    omega
  · simp only [leaveBreakable, pushBasic, Array.size_modify]
    omega
  · refine ⟨[], fun _ hi ↦ absurd hi List.not_mem_nil, ?_⟩
    simp only [Block.and_nil, Option.map_id']
    exact h.block?_leaveBreakable s.current hs.le
  · intro (id : Nat) c hid hc
    rw [Lowering.block?_leaveBreakable] at hc
    split at hc
    · cases hc
      exact tameBlock_new (.inl rfl) []
    · split at hc
      · rename_i hblock
        rw [h.kept id (by rw [hsize]; omega) (by rw [hcurrent]; omega), block?_enter,
          if_neg (by omega), if_pos hblock] at hc
        cases hc
        exact tameBlock_new (.inr rfl) _
      · by_cases hentered : id ≤ s.blocks.size + 2
        · obtain ⟨is, his, hblock⟩ := h.block?_of_le (hsize.symm ▸ hentered)
          rw [hblock, block?_enter, if_pos (by omega)] at hc
          cases hc
          exact (tameBlock_new (.inl rfl) []).and his
        · exact h.fresh id c (by rw [hsize]; omega) hc
  · have houter := h.outer
    refine ⟨[s₁.blocks.size + 1, s.blocks.size + 1], ?_⟩
    unfold leaveBreakable pushBasic pushBlock
    simp only [houter]
    unfold enter pushBasic pushBlock
    cases s.nesting <;> simp
  · have houter := h.outer
    unfold leaveBreakable pushBasic pushBlock
    simp only [houter]
    unfold enter pushBasic pushBlock
    cases s.nesting <;> rfl

end

theorem enlarges_breakable {inner : BlockId → M Unit} {k : M α}
    (hinner : ∀ block, b < block → Enlarges frame n b (inner block) fun _ ↦ True)
    (hk : Enlarges frame n b k post) :
    Enlarges frame n b (do
      let block ← newBlock .breakable
      let body ← nested (inner block)
      updateBlock block fun c => { c with body := body }
      openBasic
      k) post := by
  intro s hs hn hb
  show Ensures (do
    let body ← nested (inner (s.blocks.size + 1)) frame
    updateBlock (s.blocks.size + 1) (fun c => { c with body := body }) frame
    openBasic frame
    k frame) (s.pushBlock .breakable) _
  rw [nested_apply, Ensures, Stage.meets_bind, Stage.meets_bind, Stage.meets_modify,
    Stage.meets_bind]
  show Stage.Meets _ (s.enter .breakable) _ _
  rw [Stage.meets_bind]
  have hentered : s.blocks.size ≤ (s.enter .breakable).blocks.size := by
    rw [size_enter]
    exact Nat.le_add_right _ _
  refine (hinner _ (Nat.lt_succ_of_le hb) (s.enter .breakable) (hasCurrent_pushBasic _) hn
    (Nat.le_trans hb hentered)).imp ?_
  rintro _ s₁ ⟨h₁, -⟩
  have h₂ := h₁.breakable hs
  show Ensures (k frame) (leaveBreakable s s₁) _
  refine (hk (leaveBreakable s s₁) h₂.hasCurrent (Nat.le_trans hn h₂.vars_le)
    (Nat.le_trans hb h₂.size_le)).imp ?_
  rintro a s₃ ⟨h₃, ha⟩
  exact ⟨h₂.trans hs h₃, ha⟩

end Lowering

end WasmBackend
