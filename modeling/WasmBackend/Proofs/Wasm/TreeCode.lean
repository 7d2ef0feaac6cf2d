import WasmBackend.Proofs.Wasm.Scheduling

/-!
# The code of a function

What the generator emits for an instruction, a block and a whole function, as relations between the
block tree and the code: whatever is to be known about generated code follows from these by
induction on the tree, without the generator.  Beside each relation stands what can go wrong: an
operand that is nowhere, values that are left over, or a branch to a construct that is not around.
-/

namespace WasmBackend.Wasm.Codegen

open Ir (Block BlockId Copy Forest Function Instr Tree Var)
open Stage

/-! ## Instructions -/

/-- The operands an instruction takes from the stack. -/
def operands (i : Instr) : List Var :=
  match i.op with
  | .phi | .const | .addr | .funcRef | .heapBase | .globalGet | .exit | .next | .unreachable => []
  | .native => if i.callee = "memory_size" ∨ i.callee = "unreachable" then [] else i.args
  | _ => i.args

/-- The results an instruction leaves. -/
def results (i : Instr) : List Var :=
  match i.op with
  | .store | .globalSet | .ret | .exit | .next | .exitIf | .unreachable => []
  | .native => if i.callee = "unreachable" then [] else i.dst
  | _ => i.dst

/-- The number of a global. -/
def globalNumber? (name : Text) : Option Nat :=
  if name = Ir.heapBaseGlobal then some 0
  else if name = Ir.heapPointerGlobal then some 1
  else none

/-- The code of an intrinsic, operands and results apart. -/
def NativeComputes (i : Instr) (core : List Instruction) : Prop :=
  match floatIntrinsic? i.callee, intIntrinsic? i.callee with
  | some op, _ =>
    holdsFloat i.storage.valType ∧ core = [.floatUnary (widthOf i.storage.valType) op]
  | none, some op =>
    ¬holdsFloat i.storage.valType ∧ core = [.intUnary (widthOf i.storage.valType) op]
  | none, none =>
    i.callee = "memory_size" ∧ core = [.memorySize]
      ∨ i.callee = "memory_grow" ∧ core = [.memoryGrow]
      ∨ i.callee = "unreachable" ∧ core = [.unreachable]

/-- The code of an operation, operands and results apart. -/
def Computes (c : CodeContext) (e : CodeState) (i : Instr) (core : List Instruction) : Prop :=
  match i.op with
  | .copy => core = []
  | .add | .sub | .mul | .div | .rem | .and | .or | .xor | .shl | .shr | .eq | .ne | .lt | .le
  | .gt | .ge => ∃ x, selectBinary c.function.name i.op i.storage = .ok x ∧ core = [x]
  | .neg => holdsFloat i.storage.valType ∧ core = [.floatUnary (widthOf i.storage.valType) .neg]
  | .eqz => core = selectEqz i.storage
  | .convert => ∃ k, selectConversion i.source i.storage = .ok k ∧ core = [.convert k]
  | .load => ∃ k, selectLoad i.storage = .ok k ∧ core = [.load k i.offset]
  | .store => ∃ k, selectStore i.storage = .ok k ∧ core = [.store k i.offset]
  | .call => ∃ n, functionIndex c.functions i.callee = .ok n ∧ core = [.call n]
  | .callIndirect =>
    ∃ sig n, i.sig = some sig ∧ HasType e.types n (.ofSignature sig) ∧ core = [.callIndirect n]
  | .globalGet => ∃ n, globalNumber? i.callee = some n ∧ core = [.globalGet n]
  | .globalSet => ∃ n, globalNumber? i.callee = some n ∧ core = [.globalSet n]
  | .native => NativeComputes i core
  | .ret => core = [.ret]
  | .unreachable => core = [.unreachable]
  | _ => False

/-- Whether an instruction has no code where it stands. -/
def isSilent (i : Instr) : Bool :=
  match i.op with
  | .phi | .const | .addr | .funcRef | .heapBase => true
  | _ => false

/-- What a branch names. -/
def labelOf (i : Instr) : Label :=
  ⟨i.target, i.op = .next⟩

/-- The code of an instruction; `labels` are the constructs around, innermost first. -/
inductive Emits (c : CodeContext) (e : CodeState) (labels : List Label) (i : Instr) :
    Placement → List Instruction → Placement → Prop
  | silent (p : Placement) (h : isSilent i) : Emits c e labels i p [] p
  | operation {p q r : Placement} {before core behind : List Instruction}
      (hoperands : Schedules c e (operands i) p before q) (hcore : Computes c e i core)
      (hresults : Defines c e (results i) q behind r) :
      Emits c e labels i p (before ++ core ++ behind) r
  | jump {p q : Placement} {code : List Instruction} {n : Nat} (hop : i.op = .exit ∨ i.op = .next)
      (hcopies : Copies c e i.copies p code q)
      (hdepth : labels.findIdx? (fun l ↦ l = labelOf i) = some n) :
      Emits c e labels i p (code ++ [.br n]) q
  | test {p q : Placement} {code : List Instruction} {n : Nat} (hop : i.op = .exitIf)
      (hcopies : i.copies = []) (hoperands : Schedules c e i.args p code q)
      (hdepth : labels.findIdx? (fun l ↦ l = labelOf i) = some n) :
      Emits c e labels i p (code ++ [.brIf n]) q
  | testCopies {p q r : Placement} {code inner : List Instruction} {n : Nat} (hop : i.op = .exitIf)
      (hne : i.copies ≠ []) (hoperands : Schedules c e i.args p code q)
      (hcopies : Copies c e i.copies q inner r)
      (hdepth : ({} :: labels).findIdx? (fun l ↦ l = labelOf i) = some n) :
      Emits c e labels i p (code ++ [.ifThen (inner ++ [.br n])]) r

/-- Why there is no code for an instruction: an operand or a source of a copy is nowhere, or its
branch names nothing around. -/
def Fails (c : CodeContext) (labels : List Label) (i : Instr) (p : Placement) (fault : CodeFault) :
    Prop :=
  Stuck c (operands i) p fault ∨ (∃ q, Stuck c (i.copies.map Copy.src) q fault)
    ∨ i.isBranch ∧ fault = .outOfScope i.target ∧ labelOf i ∉ labels

/-- What is computed where it is used has no code of its own. -/
theorem isReproducible_of_computes {c : CodeContext} {e : CodeState} {i : Instr}
    {core : List Instruction} (h : Computes c e i core) : i.isReproducible = false := by
  unfold Computes at h
  unfold Instr.isReproducible
  split at h <;> simp_all

/-- The code of instructions one after another. -/
inductive EmitsAll (c : CodeContext) (e : CodeState) (labels : List Label) :
    List Instr → Placement → List Instruction → Placement → Prop
  | nil (p : Placement) : EmitsAll c e labels [] p [] p
  | cons {i : Instr} {is : List Instr} {p q r : Placement} {code rest : List Instruction}
      (hhead : Emits c e labels i p code q) (htail : EmitsAll c e labels is q rest r) :
      EmitsAll c e labels (i :: is) p (code ++ rest) r

/-- Why there is no code for instructions: one of them has none behind those before it. -/
def FailsAmong (c : CodeContext) (labels : List Label) (is : List Instr) (p : Placement)
    (fault : CodeFault) : Prop :=
  ∃ done i rest e code q, is = done ++ i :: rest ∧ EmitsAll c e labels done p code q
    ∧ Fails c labels i q fault

section Instructions

variable {c : CodeContext} {e s t u : CodeState} {i : Instr} {labels : List Label}

theorem EmitsAll.append {is js : List Instr} {p q r : Placement} {code rest : List Instruction}
    (h : EmitsAll c e labels is p code q) (h' : EmitsAll c e labels js q rest r) :
    EmitsAll c e labels (is ++ js) p (code ++ rest) r := by
  induction h with
  | nil => exact h'
  | cons hhead _ ih =>
    rw [List.cons_append, List.append_assoc]
    exact .cons hhead (ih h')

/-- Where an instruction and its results stand. -/
abbrev Generated (c : CodeContext) (i : Instr) (s t : CodeState) : Prop :=
  Appends c.function s t fun e code ↦ Emits c e c.labels i (placementOf s) code (placementOf t)

/-- Nothing has to be brought to the stack. -/
theorem appends_none {args : List Var} (s : CodeState) (hargs : args = []) :
    Appends c.function s s fun e code ↦
      Schedules c e args (placementOf s) code (placementOf s) := by
  subst hargs
  refine appends_nil (.refl s) rfl fun e _ ↦ ?_
  exact .intro [] [] [] s.stack s.spilled [] [] (by simp) .nil .nil

/-- Operands, operation and results make an instruction. -/
theorem meets_results (hoperands : Appends c.function s t fun e code ↦
      Schedules c e (operands i) (placementOf s) code (placementOf t))
    (hcore : Appends c.function t u fun e code ↦ Computes c e i code)
    (hplace : placementOf u = placementOf t) (hresults : results i = i.dst)
    {err : CodeFault → Prop} (herr : ∀ fault, fault.IsOther → err fault) :
    Meets ((define i).run c) u err fun _ w ↦ Generated c i s w := by
  refine (meets_define u i).mono herr ?_
  rintro _ w hdefine
  refine ((hoperands.trans hcore).trans hdefine).imp ?_
  rintro e _ - ⟨_, behind, rfl, ⟨before, core, rfl, hbefore, hcore⟩, hbehind⟩
  rw [hplace, ← hresults] at hbehind
  exact .operation hbefore hcore hbehind

/-- An operation without results. -/
theorem generated_of_computes (hoperands : Appends c.function s t fun e code ↦
      Schedules c e (operands i) (placementOf s) code (placementOf t))
    (hcore : Appends c.function t u fun e code ↦ Computes c e i code)
    (hplace : placementOf u = placementOf t) (hresults : results i = []) :
    Generated c i s u := by
  refine (hoperands.trans hcore).imp ?_
  rintro e _ - ⟨before, core, rfl, hbefore, hcore⟩
  have hbehind : Defines c e (results i) (placementOf t) [] (placementOf u) := by
    rw [hresults, hplace]
    exact .nothing _
  simpa using Emits.operation hbefore hcore hbehind

theorem meets_depthOf (s : CodeState) (target : BlockId) (head : Bool) :
    Meets ((depthOf target head).run c) s
      (fun fault ↦ fault = .outOfScope target ∧ (⟨target, head⟩ : Label) ∉ c.labels)
      fun n t ↦ t = s ∧ c.labels.findIdx? (fun l ↦ l = ⟨target, head⟩) = some n := by
  unfold depthOf
  rw [meets_run_bind, meets_run_read]
  split
  · exact ⟨rfl, ‹_›⟩
  · rename_i hnone
    refine ⟨rfl, fun hmem ↦ ?_⟩
    simpa using List.findIdx?_eq_none_iff.1 hnone _ hmem

theorem globalNumber?_eq {name : Text} {n : Nat}
    (h : name = Ir.heapBaseGlobal ∧ n = 0
      ∨ name ≠ Ir.heapBaseGlobal ∧ name = Ir.heapPointerGlobal ∧ n = 1) :
    globalNumber? name = some n := by
  unfold globalNumber?
  rcases h with ⟨h, rfl⟩ | ⟨h, h', rfl⟩
  · rw [if_pos h]
  · rw [if_neg h, if_pos h']

/-! The constructs around matter to branches only. -/

theorem Schedules.within {args : List Var} {p q : Placement} {code : List Instruction}
    {around : List Label} (h : Schedules { c with labels := around } e args p code q) :
    Schedules c e args p code q := by
  cases h with
  | intro high used loaded rest spilled sets loads hlowest hsets hloads =>
    exact .intro high used loaded rest spilled sets loads hlowest hsets hloads

theorem Copies.within {cs : List Copy} {p q : Placement} {code : List Instruction}
    {around : List Label} (h : Copies { c with labels := around } e cs p code q) :
    Copies c e cs p code q := by
  cases h with
  | intro sets hsources hsets => exact .intro sets hsources.within hsets

theorem Defines.within {vs : List Var} {p q : Placement} {code : List Instruction}
    {around : List Label} (h : Defines { c with labels := around } e vs p code q) :
    Defines c e vs p code q := by
  cases h with
  | nothing => exact .nothing _
  | unused v _ h => exact .unused v _ h
  | kept v x _ h hkept hset => exact .kept v x _ h hkept hset
  | pushed v _ _ h hkept => exact .pushed v _ _ h hkept

/-- An operand that is nowhere stops an instruction. -/
theorem meets_operands (s : CodeState) {args : List Var} (hargs : operands i = args)
    {post : Unit → CodeState → Prop}
    (h : ∀ t, (Appends c.function s t fun e code ↦
      Schedules c e (operands i) (placementOf s) code (placementOf t)) → post ⟨⟩ t) :
    Meets ((schedule args).run c) s
      (fun fault ↦ fault.IsOther ∨ Fails c c.labels i (placementOf s) fault) post := by
  subst hargs
  refine (meets_schedule s _).mono ?_ fun _ t ↦ h t
  exact fun _ ↦ Or.imp_right .inl

/-- An operation whose one instruction is known. -/
theorem meets_putResults {x : Instruction} {args : List Var} (s : CodeState)
    (hargs : operands i = args) (hresults : results i = i.dst)
    (hcore : ∀ t e, Grows t e → Computes c e i [x]) :
    Meets ((do schedule args; put x; define i : M Unit).run c) s
      (fun fault ↦ fault.IsOther ∨ Fails c c.labels i (placementOf s) fault)
      fun _ t ↦ Generated c i s t := by
  rw [meets_run_bind]
  refine meets_operands s hargs fun t ht ↦ ?_
  rw [meets_run_bind, meets_run_put]
  exact meets_results ht (appends_put (hcore t)) rfl hresults fun _ ↦ .inl

/-- An operation whose one instruction is looked up. -/
theorem meets_selectResults {α : Type} {x : Except Failure α} {g : α → Instruction}
    (s : CodeState) (hargs : operands i = i.args) (hresults : results i = i.dst)
    (hcore : ∀ e a, x = .ok a → Computes c e i [g a]) :
    Meets ((do schedule i.args; put (g (← ofExcept x)); define i : M Unit).run c) s
      (fun fault ↦ fault.IsOther ∨ Fails c c.labels i (placementOf s) fault)
      fun _ t ↦ Generated c i s t := by
  rw [meets_run_bind]
  refine meets_operands s hargs fun t ht ↦ ?_
  rw [meets_run_bind]
  refine meets_run_ofExcept (fun _ ↦ .inl trivial) fun a ha ↦ ?_
  rw [meets_run_bind, meets_run_put]
  exact meets_results ht (appends_put fun e _ ↦ hcore e a ha) rfl hresults fun _ ↦ .inl

/-- An operation whose instruction is selected for an opcode. -/
theorem meets_binary (s : CodeState) (op : Ir.Opcode) (hargs : operands i = i.args)
    (hresults : results i = i.dst)
    (hcore : ∀ e a, selectBinary c.function.name op i.storage = .ok a → Computes c e i [a]) :
    Meets ((do
        schedule i.args
        put (← ofExcept (selectBinary (← read).function.name op i.storage))
        define i : M Unit).run c) s
      (fun fault ↦ fault.IsOther ∨ Fails c c.labels i (placementOf s) fault)
      fun _ t ↦ Generated c i s t :=
  meets_selectResults (g := id) s hargs hresults hcore

theorem meets_typeIndex (s : CodeState) {sig : Ir.Signature}
    (hsig : CallsType c.function (.ofSignature sig)) :
    Meets ((typeIndex sig).run c) s (fun _ ↦ False) fun n t ↦
      placementOf t = placementOf s ∧ Extends c.function s t ∧ t.code = s.code
        ∧ HasType t.types n (.ofSignature sig) := by
  unfold typeIndex
  rw [meets_run_bind, meets_run_get]
  refine ⟨rfl, ⟨⟨prefix_intern _ _, List.prefix_rfl⟩, fun τ hτ ↦ ?_⟩, rfl, hasType_intern _ _⟩
  refine (mem_intern hτ).imp_right fun heq ↦ ?_
  rw [heq]
  exact hsig

/-- Intrinsics without operands are none that compute. -/
theorem intrinsics_eq_none {name : Text} (h : name = "memory_size" ∨ name = "unreachable") :
    floatIntrinsic? name = none ∧ intIntrinsic? name = none := by
  rcases h with rfl | rfl <;> decide

theorem meets_native (s : CodeState) (hop : i.op = .native) :
    Meets ((native i).run c) s
      (fun fault ↦ fault.IsOther ∨ Fails c c.labels i (placementOf s) fault)
      fun _ t ↦ Generated c i s t := by
  have hcomputes {core : List Instruction} (h : NativeComputes i core) (t e : CodeState)
      (_ : Grows t e) : Computes c e i core := by
    simpa [Computes, hop] using h
  have hnamed (h : ¬(floatIntrinsic? i.callee = none ∧ intIntrinsic? i.callee = none)) :
      operands i = i.args ∧ results i = i.dst := by
    have hother := mt intrinsics_eq_none h
    rw [not_or] at hother
    simp [operands, results, hop, hother]
  unfold native
  dsimp only
  split
  · rename_i op hfloat
    obtain ⟨hargs, hresults⟩ := hnamed (by simp [hfloat])
    split
    · exact .inl trivial
    · rename_i hholds
      refine meets_putResults s hargs hresults (hcomputes ?_)
      simpa [NativeComputes, hfloat] using hholds
  · rename_i op hfloat hint
    obtain ⟨hargs, hresults⟩ := hnamed (by simp [hint])
    split
    · exact .inl trivial
    · rename_i hholds
      refine meets_putResults s hargs hresults (hcomputes ?_)
      simpa [NativeComputes, hfloat, hint] using hholds
  · rename_i hfloat hint
    have hcomputes {core : List Instruction}
        (h : i.callee = "memory_size" ∧ core = [.memorySize]
          ∨ i.callee = "memory_grow" ∧ core = [.memoryGrow]
          ∨ i.callee = "unreachable" ∧ core = [.unreachable]) (t e : CodeState) (he : Grows t e) :
        Computes c e i core :=
      hcomputes (by simpa only [NativeComputes, hfloat, hint] using h) t e he
    split
    · rename_i hname
      rw [meets_run_bind, meets_run_put]
      exact meets_results (appends_none s (by simp [operands, hop, hname]))
        (appends_put (hcomputes (.inl ⟨hname, rfl⟩) s)) rfl
        (by rw [results, hop, if_neg]; rw [hname]; decide) fun _ ↦ .inl
    · rename_i hsize
      split
      · rename_i hname
        have hother : i.callee ≠ "unreachable" := by
          rw [hname]
          decide
        exact meets_putResults s (by simp [operands, hop, hsize, hother])
          (by simp [results, hop, hother]) (hcomputes (.inr (.inl ⟨hname, rfl⟩)))
      · split
        · rename_i hname
          exact generated_of_computes (appends_none s (by simp [operands, hop, hname]))
            (appends_put (hcomputes (.inr (.inr ⟨hname, rfl⟩)) s)) rfl
            (by simp [results, hop, hname])
        · exact .inl trivial

/-- Code is generated inside one more construct. -/
theorem inside_run {α : Type} (l : Label) (x : M α) :
    (inside l x).run c = x.run { c with labels := l :: c.labels } := rfl

/-- A body of its own. -/
theorem meets_body {x : M Unit} {err : CodeFault → Prop}
    {R : Placement → CodeState → List Instruction → Prop}
    (h : Meets (x.run c) { s with code := [] } err fun _ t ↦
      Appends c.function { s with code := [] } t (R (placementOf t))) :
    Meets ((bodyOf x).run c) s err fun body t ↦
      t.code = s.code ∧ Extends c.function s t
        ∧ ∀ e, Grows t e → R (placementOf t) e body := by
  rw [meets_bodyOf]
  refine h.imp ?_
  rintro _ t ⟨hextends, code, hcode, hemits⟩
  refine ⟨rfl, ⟨⟨hextends.types, hextends.locals⟩, hextends.called⟩, fun e he ↦ ?_⟩
  simp only [List.append_nil] at hcode
  rw [hcode, List.reverse_reverse]
  exact hemits e ⟨he.types, he.locals⟩

/-- A construct is put behind what was there before its body. -/
theorem appends_construct {R : CodeState → List Instruction → Prop} {x : Instruction}
    (hcode : t.code = s.code) (hextends : Extends c.function s t)
    (h : ∀ e, Grows t e → R e [x]) :
    Appends c.function s { t with code := x :: t.code } R :=
  ⟨hextends.trans (extends_of_eq rfl rfl), [x], by simp [hcode],
    fun e he ↦ h e ⟨he.types, he.locals⟩⟩

/-- A branch whose assignments are made first. -/
theorem meets_jump (s : CodeState) (hop : i.op = .exit ∨ i.op = .next) :
    Meets ((do copyAll i.copies; put (.br (← depthOf i.target (labelOf i).head)) : M Unit).run c) s
      (fun fault ↦ fault.IsOther ∨ Fails c c.labels i (placementOf s) fault)
      fun _ t ↦ Generated c i s t := by
  rw [meets_run_bind]
  refine (meets_copyAll s i.copies).mono (fun _ ↦ Or.imp_right fun h ↦ .inr (.inl ⟨_, h⟩)) ?_
  rintro _ t hcopies
  rw [meets_run_bind]
  refine (meets_depthOf t i.target _).mono ?_ ?_
  · rintro fault ⟨rfl, hscope⟩
    refine .inr (.inr (.inr ⟨?_, rfl, hscope⟩))
    rcases hop with hop | hop <;> simp [Instr.isBranch, hop]
  · rintro n _ ⟨rfl, hn⟩
    rw [meets_run_put]
    refine (hcopies.trans (appends_put (R := fun _ code ↦ code = [.br n]) fun _ _ ↦ rfl)).imp ?_
    rintro e _ - ⟨code, _, rfl, hcode, rfl⟩
    exact .jump hop hcode hn

theorem meets_exitIf (s : CodeState) (hop : i.op = .exitIf) :
    Meets ((exitIf i).run c) s
      (fun fault ↦ fault.IsOther ∨ Fails c c.labels i (placementOf s) fault)
      fun _ t ↦ Generated c i s t := by
  unfold exitIf
  rw [meets_run_bind]
  refine meets_operands s (by simp [operands, hop]) fun t ht ↦ ?_
  split
  · rename_i hempty
    rw [List.isEmpty_iff] at hempty
    rw [meets_run_bind]
    refine (meets_depthOf t i.target false).mono ?_ ?_
    · rintro fault ⟨rfl, hscope⟩
      refine .inr (.inr (.inr ⟨by simp [Instr.isBranch, hop], rfl, ?_⟩))
      simpa [labelOf, hop] using hscope
    · rintro n _ ⟨rfl, hn⟩
      rw [meets_run_put]
      refine (ht.trans (appends_put (R := fun _ code ↦ code = [.brIf n]) fun _ _ ↦ rfl)).imp ?_
      rintro e _ - ⟨code, _, rfl, hcode, rfl⟩
      have hargs : operands i = i.args := by simp [operands, hop]
      exact .test hop hempty (hargs ▸ hcode) (by simpa [labelOf, hop] using hn)
  · rename_i hne
    rw [List.isEmpty_iff] at hne
    rw [meets_run_bind]
    refine (meets_body (s := t)
      (R := fun q e code ↦ ∃ inner n, code = inner ++ [Instruction.br n]
        ∧ Copies c e i.copies (placementOf t) inner q
        ∧ (({ } : Label) :: c.labels).findIdx? (fun l ↦ l = labelOf i) = some n) ?_).imp ?_
    · rw [inside_run, meets_run_bind]
      refine (meets_copyAll _ i.copies).mono (fun _ ↦ Or.imp_right fun h ↦ .inr (.inl ⟨_, h⟩)) ?_
      rintro _ u hcopies
      rw [meets_run_bind]
      refine (meets_depthOf u i.target false).mono ?_ ?_
      · rintro fault ⟨rfl, hscope⟩
        refine .inr (.inr (.inr ⟨by simp [Instr.isBranch, hop], rfl, fun hmem ↦ ?_⟩))
        exact hscope (List.mem_cons_of_mem _ (by simpa [labelOf, hop] using hmem))
      · rintro n u ⟨rfl, hn⟩
        rw [meets_run_put]
        refine (hcopies.trans (appends_put (R := fun _ code ↦ code = [.br n])
          fun _ _ ↦ rfl)).imp ?_
        rintro e _ - ⟨inner, _, rfl, hinner, rfl⟩
        exact ⟨inner, n, rfl, hinner.within, by simpa [labelOf, hop] using hn⟩
    · rintro body u ⟨hcode, hgrows, hbody⟩
      rw [meets_run_put]
      have hargs : operands i = i.args := by simp [operands, hop]
      refine (ht.trans (appends_construct (x := .ifThen body)
        (R := fun e code ↦ ∃ inner n, code = [.ifThen (inner ++ [.br n])]
          ∧ Copies c e i.copies (placementOf t) inner (placementOf u)
          ∧ (({ } : Label) :: c.labels).findIdx? (fun l ↦ l = labelOf i) = some n)
        hcode hgrows fun e he ↦ ?_)).imp ?_
      · obtain ⟨inner, n, rfl, hinner⟩ := hbody e he
        exact ⟨inner, n, rfl, hinner⟩
      · rintro e _ - ⟨code, _, rfl, hcode, inner, n, rfl, hinner, hn⟩
        exact .testCopies hop hne (hargs ▸ hcode) hinner hn

theorem meets_generate (s : CodeState) (i : Instr)
    (hi : ∀ sig ∈ i.sig, CallsType c.function (.ofSignature sig)) :
    Meets ((generate i).run c) s
      (fun fault ↦ fault.IsOther ∨ Fails c c.labels i (placementOf s) fault)
      fun _ t ↦ Generated c i s t := by
  unfold generate
  cases hop : i.op with
  | phi | const | addr | funcRef | heapBase =>
    exact appends_nil (.refl s) rfl fun e _ ↦ .silent _ (by simp [isSilent, hop])
  | copy =>
    rw [meets_run_bind]
    refine meets_operands s (by simp [operands, hop]) fun t ht ↦ ?_
    refine meets_results ht (appends_nil (.refl t) rfl fun e _ ↦ ?_) rfl (by simp [results, hop])
      fun _ ↦ .inl
    simp [Computes, hop]
  | add | sub | mul | div | rem | and | or | xor | shl | shr | eq | ne | lt | le | gt | ge =>
    refine meets_binary s _ (by simp [operands, hop]) (by simp [results, hop]) ?_
    exact fun e a ha ↦ by simpa [Computes, hop] using ha
  | neg =>
    rw [meets_run_bind]
    refine meets_operands s (by simp [operands, hop]) fun t ht ↦ ?_
    dsimp only
    split
    · exact .inl trivial
    · rename_i hfloat
      rw [meets_run_bind, meets_run_put]
      refine meets_results ht (appends_put fun e _ ↦ ?_) rfl (by simp [results, hop]) fun _ ↦ .inl
      simpa [Computes, hop] using hfloat
  | eqz =>
    rw [meets_run_bind]
    refine meets_operands s (by simp [operands, hop]) fun t ht ↦ ?_
    rw [meets_run_bind]
    refine (meets_run_forM (fun done u ↦ placementOf u = placementOf t
      ∧ Appends c.function t u fun _ code ↦ code = done)
      ⟨rfl, appends_nil (.refl t) rfl fun _ _ ↦ rfl⟩ ?_).imp fun _ u hu ↦ ?_
    · rintro done x rest u - ⟨hplace, hcode⟩
      refine ⟨hplace, (hcode.trans (appends_put (R := fun _ code ↦ code = [x])
        fun _ _ ↦ rfl)).imp ?_⟩
      rintro e _ - ⟨_, _, rfl, rfl, rfl⟩
      rfl
    · refine meets_results ht (hu.2.imp fun e code _ hcode ↦ ?_) hu.1 (by simp [results, hop])
        fun _ ↦ .inl
      simpa [Computes, hop] using hcode
  | convert =>
    refine meets_selectResults s (by simp [operands, hop]) (by simp [results, hop]) ?_
    exact fun e k hk ↦ by simpa [Computes, hop] using hk
  | load =>
    refine meets_selectResults (g := fun k ↦ .load k i.offset) s (by simp [operands, hop])
      (by simp [results, hop]) ?_
    exact fun e k hk ↦ by simpa [Computes, hop] using hk
  | store =>
    rw [meets_run_bind]
    refine meets_operands s (by simp [operands, hop]) fun t ht ↦ ?_
    rw [meets_run_bind]
    refine meets_run_ofExcept (fun _ ↦ .inl trivial) fun k hk ↦ ?_
    refine generated_of_computes ht (appends_put fun e _ ↦ ?_) rfl (by simp [results, hop])
    simpa [Computes, hop] using hk
  | call =>
    rw [meets_run_bind]
    refine meets_operands s (by simp [operands, hop]) fun t ht ↦ ?_
    rw [meets_run_bind, meets_run_read, meets_run_bind]
    refine meets_run_ofExcept (fun _ ↦ .inl trivial) fun n hn ↦ ?_
    rw [meets_run_bind, meets_run_put]
    refine meets_results ht (appends_put fun e _ ↦ ?_) rfl (by simp [results, hop]) fun _ ↦ .inl
    simpa [Computes, hop] using hn
  | callIndirect =>
    rw [meets_run_bind]
    refine meets_operands s (by simp [operands, hop]) fun t ht ↦ ?_
    split
    · exact .inl trivial
    · rename_i sig hsig
      rw [meets_run_bind]
      refine (meets_typeIndex t (hi sig hsig)).mono (fun _ ↦ False.elim) ?_
      rintro n u ⟨hplace, hextends, hcode, hn⟩
      rw [meets_run_bind, meets_run_put]
      refine meets_results ht (appends_construct hcode hextends fun e he ↦ ?_) hplace
        (by simp [results, hop]) fun _ ↦ .inl
      simpa [Computes, hop] using ⟨sig, hsig, hn.extend he.types⟩
  | globalGet =>
    rw [meets_run_bind]
    refine (meets_globalIndex s i.callee).mono (fun _ ↦ .inl) ?_
    rintro n t ⟨rfl, hn⟩
    rw [meets_run_bind, meets_run_put]
    refine meets_results (appends_none t (by simp [operands, hop])) (appends_put fun e _ ↦ ?_) rfl
      (by simp [results, hop]) fun _ ↦ .inl
    simpa [Computes, hop] using globalNumber?_eq hn
  | globalSet =>
    rw [meets_run_bind]
    refine meets_operands s (by simp [operands, hop]) fun t ht ↦ ?_
    rw [meets_run_bind]
    refine (meets_globalIndex t i.callee).mono (fun _ ↦ .inl) ?_
    rintro n _ ⟨rfl, hn⟩
    refine generated_of_computes ht (appends_put fun e _ ↦ ?_) rfl (by simp [results, hop])
    simpa [Computes, hop] using globalNumber?_eq hn
  | ret =>
    rw [meets_run_bind]
    refine meets_operands s (by simp [operands, hop]) fun t ht ↦ ?_
    refine generated_of_computes ht (appends_put fun e _ ↦ ?_) rfl (by simp [results, hop])
    simp [Computes, hop]
  | exit =>
    have := meets_jump (c := c) s (.inl hop)
    simpa [labelOf, hop] using this
  | next =>
    have := meets_jump (c := c) s (.inr hop)
    simpa [labelOf, hop] using this
  | exitIf => exact meets_exitIf s hop
  | native => exact meets_native s hop
  | unreachable =>
    refine generated_of_computes (appends_none s (by simp [operands, hop]))
      (appends_put fun e _ ↦ ?_) rfl (by simp [results, hop])
    simp [Computes, hop]
  | unknown => exact .inl trivial

theorem meets_instrs (s : CodeState) (is : List Instr)
    (his : ∀ i ∈ is, ∀ sig ∈ i.sig, CallsType c.function (.ofSignature sig)) :
    Meets ((is.forM generate).run c) s
      (fun fault ↦ fault.IsOther ∨ FailsAmong c c.labels is (placementOf s) fault)
      fun _ t ↦ Appends c.function s t fun e code ↦
        EmitsAll c e c.labels is (placementOf s) code (placementOf t) := by
  refine meets_run_forM (fun done t ↦ Appends c.function s t fun e code ↦
    EmitsAll c e c.labels done (placementOf s) code (placementOf t))
    (appends_nil (.refl s) rfl fun _ _ ↦ .nil _) ?_
  rintro done i rest t rfl happends
  refine (meets_generate t i (his i (by simp))).mono ?_ ?_
  · rintro fault (hother | hfails)
    · exact .inl hother
    · obtain ⟨-, code, -, hemits⟩ := happends
      exact .inr ⟨done, i, rest, t, code, _, rfl, hemits t (.refl t), hfails⟩
  · rintro _ u hi
    refine (happends.trans hi).imp ?_
    rintro e _ - ⟨code, more, rfl, hcode, hmore⟩
    simpa using hcode.append (.cons hmore (.nil _))

end Instructions

/-! ## Blocks -/

/-- Whether control never falls through the last of some blocks. -/
def endsTerminatedIn (f : Function) (ts : Forest) : Bool :=
  match ts.getLast? with
  | none => false
  | some t => (f.blockAt t.id).isTerminated

/-- The code of a basic block.  Values lie on the stack inside it only; `p` and `q` are the
variables moved to locals before and after. -/
def EmitsBasic (c : CodeContext) (e : CodeState) (labels : List Label) (b : Block) (p : List Var)
    (code : List Instruction) (q : List Var) : Prop :=
  ∃ body r, EmitsAll c e labels b.instrs ⟨[], p⟩ body r ∧
    if b.isTerminated then code = body ∧ q = r.spilled
    else ∃ exits, Copies c e b.exitCopies r exits ⟨[], q⟩ ∧ code = body ++ exits

/-- Why there is no code for a basic block: one of its instructions or assignments has none, or
values are left over. -/
def FailsBasic (c : CodeContext) (labels : List Label) (id : BlockId) (b : Block) (p : List Var)
    (fault : CodeFault) : Prop :=
  FailsAmong c labels b.instrs ⟨[], p⟩ fault ∨ (∃ q, Stuck c (b.exitCopies.map Copy.src) q fault)
    ∨ ∃ e body r exits q, b.isTerminated = false ∧ EmitsAll c e labels b.instrs ⟨[], p⟩ body r
      ∧ Copies c e b.exitCopies r exits q ∧ q.stack ≠ [] ∧ fault = .leftover id q.stack

mutual

/-- The code of a block with everything inside it. -/
def TreeEmits (c : CodeContext) (e : CodeState) (labels : List Label) :
    Tree → List Var → List Instruction → List Var → Prop
  | .basic id, p, code, q => EmitsBasic c e labels (c.function.blockAt id) p code q
  | .cond id body, p, code, q =>
    ∃ test inner, Schedules c e [(c.function.blockAt id).cond] ⟨[], p⟩ test ⟨[], p⟩
      ∧ ForestEmits c e ({} :: labels) body p inner q
      ∧ if (c.function.blockAt id).aroundCopies = [] then code = test ++ [.ifThen inner]
        else ∃ around, Copies c e (c.function.blockAt id).aroundCopies ⟨[], q⟩ around ⟨[], q⟩
          ∧ code = test ++ [.ifElse inner around]
  | .branch id body other, p, code, q =>
    ∃ test inner inner' r, Schedules c e [(c.function.blockAt id).cond] ⟨[], p⟩ test ⟨[], p⟩
      ∧ ForestEmits c e ({} :: labels) body p inner r
      ∧ ForestEmits c e ({} :: labels) other r inner' q
      ∧ code = test ++ [.ifElse inner inner']
  | .loop id body, p, code, q =>
    ∃ entry inner, Copies c e (c.function.blockAt id).entryCopies ⟨[], p⟩ entry ⟨[], p⟩
      ∧ ForestEmits c e (⟨id, true⟩ :: ⟨id, false⟩ :: labels) body p inner q
      ∧ code = entry ++ [.block [.loop
          (inner ++ if endsTerminatedIn c.function body then [] else [.br 0])]]
  | .breakable id body, p, code, q =>
    ∃ inner, ForestEmits c e (⟨id, false⟩ :: labels) body p inner q ∧ code = [.block inner]

/-- The code of blocks one behind the other. -/
def ForestEmits (c : CodeContext) (e : CodeState) (labels : List Label) :
    Forest → List Var → List Instruction → List Var → Prop
  | [], p, code, q => code = [] ∧ q = p
  | t :: ts, p, code, q =>
    ∃ head tail r, TreeEmits c e labels t p head r ∧ ForestEmits c e labels ts r tail q
      ∧ code = head ++ tail

end

mutual

/-- Why there is no code for a block. -/
def TreeFails (c : CodeContext) (labels : List Label) : Tree → List Var → CodeFault → Prop
  | .basic id, p, fault => FailsBasic c labels id (c.function.blockAt id) p fault
  | .cond id body, p, fault =>
    (∃ q, Stuck c [(c.function.blockAt id).cond] q fault)
      ∨ ForestFails c ({} :: labels) body p fault
      ∨ ∃ q, Stuck c ((c.function.blockAt id).aroundCopies.map Copy.src) q fault
  | .branch id body other, p, fault =>
    (∃ q, Stuck c [(c.function.blockAt id).cond] q fault)
      ∨ ForestFails c ({} :: labels) body p fault
      ∨ ∃ e inner q, ForestEmits c e ({} :: labels) body p inner q
        ∧ ForestFails c ({} :: labels) other q fault
  | .loop id body, p, fault =>
    (∃ q, Stuck c ((c.function.blockAt id).entryCopies.map Copy.src) q fault)
      ∨ ForestFails c (⟨id, true⟩ :: ⟨id, false⟩ :: labels) body p fault
  | .breakable id body, p, fault => ForestFails c (⟨id, false⟩ :: labels) body p fault

/-- Why there is no code for some blocks. -/
def ForestFails (c : CodeContext) (labels : List Label) : Forest → List Var → CodeFault → Prop
  | [], _, _ => False
  | t :: ts, p, fault =>
    TreeFails c labels t p fault
      ∨ ∃ e code q, TreeEmits c e labels t p code q ∧ ForestFails c labels ts q fault

end

section Blocks

variable {c : CodeContext} {e s t : CodeState}

/-- Nothing changes where nothing lies on the stack. -/
theorem Schedules.eq_of_stack {args : List Var} {p q : Placement} {code : List Instruction}
    (h : Schedules c e args p code q) (hp : p.stack = []) : q = p := by
  cases h with
  | intro high used loaded rest spilled sets loads hlowest hsets hloads =>
    simp only [List.append_eq_nil_iff, List.reverse_eq_nil_iff] at hp
    obtain ⟨rfl, rfl, rfl⟩ := hp
    rfl

theorem Copies.eq_of_stack {cs : List Copy} {p q : Placement} {code : List Instruction}
    (h : Copies c e cs p code q) (hp : p.stack = []) : q = p := by
  cases h with
  | intro sets hsources hsets => exact hsources.eq_of_stack hp

theorem Forest.Stored.of_mem {f : Function} {ts : Forest} {t : Tree} (h : Forest.Stored f ts)
    (ht : t ∈ ts) : t.Stored f := by
  induction ts with
  | nil => cases ht
  | cons u us ih =>
    rcases List.mem_cons.1 ht with rfl | ht
    · exact h.1
    · exact ih h.2 ht

theorem meets_endsTerminated (s : CodeState) {ts : Forest} (hts : Forest.Stored c.function ts) :
    Meets ((endsTerminated (Forest.roots ts)).run c) s (fun _ ↦ False) fun b t ↦
      t = s ∧ b = endsTerminatedIn c.function ts := by
  unfold endsTerminated endsTerminatedIn Forest.roots
  rw [List.getLast?_map]
  cases hlast : ts.getLast? with
  | none => exact ⟨rfl, rfl⟩
  | some t =>
    have hstored : t.Stored c.function :=
      Forest.Stored.of_mem hts (List.mem_of_getLast? hlast)
    simp only [Option.map_some, meets_run_bind, meets_run_read, hstored.block_id]
    exact ⟨rfl, rfl⟩

theorem Emits.within {labels around : List Label} {i : Instr} {p q : Placement}
    {code : List Instruction} (h : Emits { c with labels := around } e labels i p code q) :
    Emits c e labels i p code q := by
  cases h with
  | silent h => exact .silent p h
  | operation hoperands hcore hresults =>
    exact .operation hoperands.within hcore hresults.within
  | jump hop hcopies hdepth => exact .jump hop hcopies.within hdepth
  | test hop hcopies hoperands hdepth => exact .test hop hcopies hoperands.within hdepth
  | testCopies hop hne hoperands hcopies hdepth =>
    exact .testCopies hop hne hoperands.within hcopies.within hdepth

theorem EmitsAll.within {labels around : List Label} {is : List Instr} {p q : Placement}
    {code : List Instruction} (h : EmitsAll { c with labels := around } e labels is p code q) :
    EmitsAll c e labels is p code q := by
  induction h with
  | nil => exact .nil _
  | cons hhead _ ih => exact .cons hhead.within ih

theorem EmitsBasic.within {labels around : List Label} {b : Block} {p q : List Var}
    {code : List Instruction} (h : EmitsBasic { c with labels := around } e labels b p code q) :
    EmitsBasic c e labels b p code q := by
  obtain ⟨body, r, hbody, h⟩ := h
  refine ⟨body, r, hbody.within, ?_⟩
  split <;> rename_i hterminated
  · rwa [if_pos hterminated] at h
  · rw [if_neg hterminated] at h
    obtain ⟨exits, hexits, rfl⟩ := h
    exact ⟨exits, hexits.within, rfl⟩

theorem FailsBasic.within {labels around : List Label} {id : BlockId} {b : Block}
    {p : List Var} {fault : CodeFault}
    (h : FailsBasic { c with labels := around } labels id b p fault) :
    FailsBasic c labels id b p fault := by
  rcases h with ⟨done, i, rest, e, code, q, his, hdone, hfails⟩ | hexits
    | ⟨e, body, r, exits, q, hterminated, hbody, hexits, hleft, rfl⟩
  · exact .inl ⟨done, i, rest, e, code, q, his, hdone.within, hfails⟩
  · exact .inr (.inl hexits)
  · exact .inr (.inr ⟨e, body, r, exits, q, hterminated, hbody.within, hexits.within, hleft, rfl⟩)

theorem meets_basicBlock (s : CodeState) (id : BlockId) (b : Block) (hs : s.stack = [])
    (hb : ∀ i ∈ b.instrs, ∀ sig ∈ i.sig, CallsType c.function (.ofSignature sig)) :
    Meets ((basicBlock id b).run c) s
      (fun fault ↦ fault.IsOther ∨ FailsBasic c c.labels id b s.spilled fault)
      fun _ t ↦ t.stack = [] ∧ Appends c.function s t fun e code ↦
        EmitsBasic c e c.labels b s.spilled code t.spilled := by
  have hplace : placementOf s = ⟨[], s.spilled⟩ := by rw [placementOf_eq, hs]
  unfold basicBlock
  rw [meets_run_bind]
  refine (meets_instrs s b.instrs hb).mono ?_ ?_
  · rintro fault (hother | hfails)
    · exact .inl hother
    · exact .inr (.inl (hplace ▸ hfails))
  rintro _ t hbody
  rw [hplace] at hbody
  split
  · rename_i hterminated
    rw [meets_run_bind]
    refine (meets_copyAll t _).mono (fun _ ↦ Or.imp_right fun h ↦ .inr (.inl ⟨_, h⟩)) ?_
    rintro _ u hexits
    rw [meets_run_bind, meets_run_get]
    dsimp only
    split
    · rename_i hleft
      obtain ⟨hextends, exits, -, hcopies⟩ := hexits
      obtain ⟨-, body, -, hemits⟩ := hbody
      refine .inr (.inr (.inr ⟨u, body, _, exits, _, ?_, hemits u hextends.toGrows,
        hcopies u (.refl u), ?_, rfl⟩))
      · simpa using hterminated
      · simpa [placementOf] using hleft
    · rename_i hempty
      rw [meets_run_modify]
      refine ⟨rfl, ((hbody.trans hexits).imp ?_).place _ _⟩
      rintro e _ - ⟨body, exits, rfl, hbody, hexits⟩
      have hempty : u.stack = [] := by simpa using hempty
      rw [placementOf_eq u, hempty] at hexits
      refine ⟨body, _, hbody, ?_⟩
      rw [if_neg (by simpa using hterminated)]
      exact ⟨exits, hexits, rfl⟩
  · rename_i hterminated
    rw [meets_run_modify]
    refine ⟨rfl, (hbody.imp ?_).place _ _⟩
    rintro e body - hbody
    refine ⟨body, _, hbody, ?_⟩
    rw [if_pos (by simpa using hterminated)]
    exact ⟨rfl, rfl⟩

/-- The computation generates code that `emits` describes, with nothing on the stack before and
after it, or fails as `fails` allows. -/
def Builds (c : CodeContext) (labels : List Label) (x : M Unit)
    (fails : List Var → CodeFault → Prop)
    (emits : CodeState → List Var → List Instruction → List Var → Prop) : Prop :=
  ∀ s : CodeState, s.stack = [] →
    Meets (x.run { c with labels := labels }) s (fun fault ↦ fault.IsOther ∨ fails s.spilled fault)
      fun _ t ↦ t.stack = [] ∧ Appends c.function s t fun e code ↦ emits e s.spilled code t.spilled

/-- Operands are loaded where nothing lies on the stack. -/
theorem meets_scheduleFresh {labels : List Label} (s : CodeState) (args : List Var)
    (hs : s.stack = []) :
    Meets ((schedule args).run { c with labels := labels }) s
      (fun fault ↦ fault.IsOther ∨ ∃ p, Stuck c args p fault) fun _ t ↦
        t.stack = [] ∧ t.spilled = s.spilled ∧ Appends c.function s t fun e code ↦
          Schedules c e args ⟨[], s.spilled⟩ code ⟨[], s.spilled⟩ := by
  refine (meets_schedule s args).mono (fun _ ↦ Or.imp_right fun h ↦ ⟨_, h⟩) ?_
  rintro _ t ⟨hgrows, code, hcode, hemits⟩
  have heq : placementOf t = placementOf s := (hemits t (.refl t)).eq_of_stack hs
  have hplace : placementOf s = ⟨[], s.spilled⟩ := by rw [placementOf_eq, hs]
  rw [heq, hplace] at hemits
  rw [hplace] at heq
  simp only [placementOf, Placement.mk.injEq] at heq
  exact ⟨heq.1, heq.2, hgrows, code, hcode, fun e he ↦ (hemits e he).within⟩

/-- Assignments are made where nothing lies on the stack. -/
theorem meets_copyAllFresh {labels : List Label} (s : CodeState) (cs : List Copy)
    (hs : s.stack = []) :
    Meets ((copyAll cs).run { c with labels := labels }) s
      (fun fault ↦ fault.IsOther ∨ ∃ p, Stuck c (cs.map Copy.src) p fault) fun _ t ↦
        t.stack = [] ∧ t.spilled = s.spilled ∧ Appends c.function s t fun e code ↦
          Copies c e cs ⟨[], s.spilled⟩ code ⟨[], s.spilled⟩ := by
  refine (meets_copyAll s cs).mono (fun _ ↦ Or.imp_right fun h ↦ ⟨_, h⟩) ?_
  rintro _ t ⟨hgrows, code, hcode, hemits⟩
  have heq : placementOf t = placementOf s := (hemits t (.refl t)).eq_of_stack hs
  have hplace : placementOf s = ⟨[], s.spilled⟩ := by rw [placementOf_eq, hs]
  rw [heq, hplace] at hemits
  rw [hplace] at heq
  simp only [placementOf, Placement.mk.injEq] at heq
  exact ⟨heq.1, heq.2, hgrows, code, hcode, fun e he ↦ (hemits e he).within⟩

theorem builds_copyAll {labels : List Label} (cs : List Copy) :
    Builds c labels (copyAll cs) (fun _ fault ↦ ∃ p, Stuck c (cs.map Copy.src) p fault)
      fun e p code q ↦ q = p ∧ Copies c e cs ⟨[], p⟩ code ⟨[], p⟩ := by
  intro s hs
  refine (meets_copyAllFresh s cs hs).imp ?_
  rintro _ t ⟨ht, hspilled, happends⟩
  exact ⟨ht, happends.imp fun e code _ h ↦ ⟨hspilled, h⟩⟩

/-- The blocks of a loop go back to its head where they end. -/
theorem builds_loopBody {labels : List Label} {body : Forest} {x : M Unit}
    (hbody : Forest.Stored c.function body)
    (hx : Builds c labels x (ForestFails c labels body) fun e ↦ ForestEmits c e labels body) :
    Builds c labels (do
        x
        if !(← endsTerminated (Forest.roots body)) then put (.br 0))
      (ForestFails c labels body) fun e p code q ↦
        ∃ inner, ForestEmits c e labels body p inner q
          ∧ code = inner ++ if endsTerminatedIn c.function body then [] else [.br 0] := by
  intro s hs
  rw [meets_run_bind]
  refine (hx s hs).imp ?_
  rintro _ t ⟨ht, hinner⟩
  rw [meets_run_bind]
  refine (meets_endsTerminated (c := { c with labels := labels }) t hbody).mono
    (fun _ ↦ False.elim) ?_
  rintro _ t ⟨rfl, rfl⟩
  split
  · rename_i hends
    rw [meets_run_put]
    refine ⟨ht, (hinner.trans (appends_put (R := fun _ code ↦ code = [.br 0])
      fun _ _ ↦ rfl)).imp ?_⟩
    rintro e _ - ⟨inner, _, rfl, hinner, rfl⟩
    refine ⟨inner, hinner, ?_⟩
    rw [if_neg (by simpa using hends)]
  · rename_i hends
    refine ⟨ht, hinner.imp fun e inner _ hinner ↦ ⟨inner, hinner, ?_⟩⟩
    rw [if_pos (by simpa using hends), List.append_nil]

/-- Blocks in a body of their own, inside one more construct. -/
theorem Builds.body {labels : List Label} {l : Label} {x : M Unit} {err : CodeFault → Prop}
    {fails : List Var → CodeFault → Prop}
    {emits : CodeState → List Var → List Instruction → List Var → Prop} (s : CodeState)
    (h : Builds c (l :: labels) x fails emits) (hs : s.stack = [])
    (herr : ∀ fault, fault.IsOther ∨ fails s.spilled fault → err fault) :
    Meets ((inside l (bodyOf x)).run { c with labels := labels }) s err fun body t ↦
      t.stack = [] ∧ t.code = s.code ∧ Extends c.function s t
        ∧ ∀ e, Grows t e → emits e s.spilled body t.spilled := by
  rw [inside_run, meets_bodyOf]
  refine (h { s with code := [] } hs).mono herr ?_
  rintro _ t ⟨ht, hextends, code, hcode, hemits⟩
  refine ⟨ht, rfl, ⟨⟨hextends.types, hextends.locals⟩, hextends.called⟩, fun e he ↦ ?_⟩
  simp only [List.append_nil] at hcode
  rw [hcode, List.reverse_reverse]
  exact hemits e ⟨he.types, he.locals⟩

theorem builds_blocks {ts : Forest} (hts : c.function.trees? = some ts) :
    (∀ t : Tree, ∀ depth labels, t.height ≤ depth → t.Stored c.function →
        t.ids ⊆ Forest.ids ts →
        Builds c labels (block (blocks depth) t.id (c.function.blockAt t.id))
          (TreeFails c labels t) fun e ↦ TreeEmits c e labels t) ∧
      ∀ us : Forest, ∀ depth labels, Forest.height us ≤ depth → Forest.Stored c.function us →
        Forest.ids us ⊆ Forest.ids ts →
        Builds c labels (blocks depth (Forest.roots us)) (ForestFails c labels us)
          fun e ↦ ForestEmits c e labels us := by
  refine Tree.induction ?basic ?cond ?branch ?loop ?breakable ?nil ?cons
  case basic =>
    intro id depth labels _ h hids s hs
    unfold block
    simp only [Tree.id, h.kind_eq]
    refine (meets_basicBlock s id _ hs fun i hi sig hsig ↦ ?_).mono ?_ ?_
    · exact ⟨ts, hts, id, hids List.mem_cons_self, i, hi, sig, hsig, rfl⟩
    · exact fun fault ↦ Or.imp_right FailsBasic.within
    · rintro _ t ⟨ht, happends⟩
      exact ⟨ht, happends.imp fun e code _ ↦ EmitsBasic.within⟩
  case cond =>
    intro id body ih depth labels hd h hids s hs
    have hbody := ih depth ({} :: labels) hd h.2 (List.subset_of_cons_subset hids)
    rw [← h.1.body_eq] at hbody
    show Meets ((block (blocks depth) id (c.function.blockAt id)).run _) s _ _
    unfold block
    simp only [h.1.kind_eq]
    rw [meets_run_bind]
    refine (meets_scheduleFresh s _ hs).mono (fun _ ↦ Or.imp_right .inl) ?_
    rintro _ t ⟨ht, hspilled, htest⟩
    rw [meets_run_bind]
    refine (hbody.body t ht fun _ ↦ Or.imp_right fun h ↦ .inr (.inl (hspilled ▸ h))).imp ?_
    rintro inner u ⟨hu, hcode, hextends, hinner⟩
    rw [hspilled] at hinner
    by_cases haround : (c.function.blockAt id).aroundCopies = []
    · rw [if_pos (List.isEmpty_iff.2 haround), meets_run_put]
      refine ⟨hu, (htest.trans (appends_construct (x := .ifThen inner)
        (R := fun e code ↦ code = [.ifThen inner]
          ∧ ForestEmits c e ({} :: labels) body s.spilled inner u.spilled)
        hcode hextends fun e he ↦ ⟨rfl, hinner e he⟩)).imp ?_⟩
      rintro e _ - ⟨test, _, rfl, htest, rfl, hinner⟩
      exact ⟨test, inner, htest, hinner, by rw [if_pos haround]⟩
    · rw [if_neg (by simpa using haround), meets_run_bind]
      refine ((builds_copyAll _).body u hu fun _ ↦ Or.imp_right fun h ↦ .inr (.inr h)).imp ?_
      rintro around v ⟨hv, hcode', hextends', haroundCode⟩
      rw [meets_run_put]
      refine ⟨hv, (htest.trans (appends_construct (x := .ifElse inner around)
        (R := fun e code ↦ code = [.ifElse inner around]
          ∧ ForestEmits c e ({} :: labels) body s.spilled inner u.spilled
          ∧ v.spilled = u.spilled
          ∧ Copies c e (c.function.blockAt id).aroundCopies ⟨[], u.spilled⟩ around ⟨[], u.spilled⟩)
        (hcode'.trans hcode) (hextends.trans hextends')
        fun e he ↦ ⟨rfl, hinner e (hextends'.toGrows.trans he), haroundCode e he⟩)).imp ?_⟩
      rintro e _ - ⟨test, _, rfl, htest, rfl, hinner, hspilled, haround'⟩
      refine ⟨test, inner, htest, hspilled ▸ hinner, ?_⟩
      rw [if_neg haround]
      exact ⟨around, hspilled ▸ haround', rfl⟩
  case branch =>
    intro id body other ih ih' depth labels hd h hids s hs
    obtain ⟨hids, hids'⟩ := List.append_subset.1 (List.subset_of_cons_subset hids)
    have hbody := ih depth ({} :: labels) (Nat.max_le.1 hd).1 h.2.1 hids
    have hother := ih' depth ({} :: labels) (Nat.max_le.1 hd).2 h.2.2 hids'
    rw [← h.1.body_eq] at hbody
    rw [← h.1.otherwise_eq] at hother
    show Meets ((block (blocks depth) id (c.function.blockAt id)).run _) s _ _
    unfold block
    simp only [h.1.kind_eq]
    rw [meets_run_bind]
    refine (meets_scheduleFresh s _ hs).mono (fun _ ↦ Or.imp_right .inl) ?_
    rintro _ t ⟨ht, hspilled, htest⟩
    rw [meets_run_bind]
    refine (hbody.body t ht fun _ ↦ Or.imp_right fun h ↦ .inr (.inl (hspilled ▸ h))).imp ?_
    rintro inner u ⟨hu, hcode, hextends, hinner⟩
    rw [hspilled] at hinner
    rw [meets_run_bind]
    refine (hother.body u hu fun _ ↦ Or.imp_right fun h ↦
      .inr (.inr ⟨u, inner, _, hinner u (.refl u), h⟩)).imp ?_
    rintro inner' v ⟨hv, hcode', hextends', hinner'⟩
    rw [meets_run_put]
    refine ⟨hv, (htest.trans (appends_construct (x := .ifElse inner inner')
      (R := fun e code ↦ code = [.ifElse inner inner']
        ∧ ForestEmits c e ({} :: labels) body s.spilled inner u.spilled
        ∧ ForestEmits c e ({} :: labels) other u.spilled inner' v.spilled)
      (hcode'.trans hcode) (hextends.trans hextends')
      fun e he ↦ ⟨rfl, hinner e (hextends'.toGrows.trans he), hinner' e he⟩)).imp ?_⟩
    rintro e _ - ⟨test, _, rfl, htest, rfl, hinner, hinner'⟩
    exact ⟨test, inner, inner', _, htest, hinner, hinner', rfl⟩
  case loop =>
    intro id body ih depth labels hd h hids s hs
    have hbody := builds_loopBody h.2 (ih depth (⟨id, true⟩ :: ⟨id, false⟩ :: labels) hd h.2
      (List.subset_of_cons_subset hids))
    rw [← h.1.body_eq] at hbody
    show Meets ((block (blocks depth) id (c.function.blockAt id)).run _) s _ _
    unfold block
    simp only [h.1.kind_eq]
    rw [meets_run_bind]
    refine (meets_copyAllFresh s _ hs).mono (fun _ ↦ Or.imp_right .inl) ?_
    rintro _ t ⟨ht, hspilled, hentry⟩
    rw [meets_run_bind, inside_run]
    refine (hbody.body t ht fun _ ↦ Or.imp_right fun h ↦ .inr (hspilled ▸ h)).imp ?_
    rintro inner u ⟨hu, hcode, hextends, hinner⟩
    rw [hspilled] at hinner
    rw [meets_run_put]
    refine ⟨hu, (hentry.trans (appends_construct (x := .block [.loop inner])
      (R := fun e code ↦ ∃ inner, ForestEmits c e (⟨id, true⟩ :: ⟨id, false⟩ :: labels) body
        s.spilled inner u.spilled ∧ code = [.block [.loop
          (inner ++ if endsTerminatedIn c.function body then [] else [.br 0])]])
      hcode hextends fun e he ↦ ?_)).imp ?_⟩
    · obtain ⟨code, hemits, rfl⟩ := hinner e he
      exact ⟨code, hemits, rfl⟩
    · rintro e _ - ⟨entry, _, rfl, hentry, inner, hinner, rfl⟩
      exact ⟨entry, inner, hentry, hinner, rfl⟩
  case breakable =>
    intro id body ih depth labels hd h hids s hs
    have hbody := ih depth (⟨id, false⟩ :: labels) hd h.2 (List.subset_of_cons_subset hids)
    rw [← h.1.body_eq] at hbody
    show Meets ((block (blocks depth) id (c.function.blockAt id)).run _) s _ _
    unfold block
    simp only [h.1.kind_eq]
    rw [meets_run_bind]
    refine (hbody.body s hs fun _ h ↦ h).imp ?_
    rintro inner t ⟨ht, hcode, hextends, hinner⟩
    rw [meets_run_put]
    exact ⟨ht, appends_construct hcode hextends fun e he ↦ ⟨inner, hinner e he, rfl⟩⟩
  case nil =>
    intro depth labels hd _ _ s hs
    obtain ⟨depth, rfl⟩ := Nat.exists_eq_add_one_of_ne_zero (Nat.pos_iff_ne_zero.1 hd)
    exact ⟨hs, appends_nil (.refl s) rfl fun _ _ ↦ ⟨rfl, rfl⟩⟩
  case cons =>
    intro t us ih ihs depth labels hd h hids s hs
    obtain ⟨hids, hids'⟩ := List.append_subset.1 hids
    simp only [Forest.height] at hd
    obtain ⟨depth, rfl⟩ := Nat.exists_eq_add_one_of_ne_zero (n := depth) (by omega)
    have ht := ih depth labels (by omega) h.1 hids
    have hus := ihs (depth + 1) labels (by omega) h.2 hids'
    show Meets (((do block (blocks depth) t.id (← ofExcept ((← read).function.block t.id))) >>=
      fun _ ↦ blocks (depth + 1) (Forest.roots us)).run { c with labels := labels }) s _ _
    simp only [meets_run_bind, meets_run_read, h.1.block_id]
    refine (ht s hs).mono (fun _ ↦ Or.imp_right .inl) ?_
    rintro _ u ⟨hu, hhead⟩
    obtain ⟨-, code, -, hemits⟩ := id hhead
    refine (hus u hu).mono
      (fun _ ↦ Or.imp_right fun h ↦ .inr ⟨u, code, _, hemits u (.refl u), h⟩) ?_
    rintro _ v ⟨hv, htail⟩
    refine ⟨hv, (hhead.trans htail).imp ?_⟩
    rintro e _ - ⟨head, tail, rfl, hhead, htail⟩
    exact ⟨head, tail, _, hhead, htail, rfl⟩

/-- The code behind the blocks of a function: one that promises a result must not get there. -/
def closing (f : Function) (ts : Forest) : List Instruction :=
  if f.result ≠ .none ∧ !endsTerminatedIn f ts then [.unreachable] else []

/-- **The code of a function is the code of its trees.**  Without the failures of its blocks, the
generator fails for other reasons only. -/
theorem meets_codeOf {ts : Forest} (types : List FuncType) (hts : c.function.trees? = some ts) :
    Meets (body.run c) { types := types }
      (fun fault ↦ fault.IsOther ∨ ForestFails c c.labels ts [] fault) fun b e ↦
        ∃ code q, ForestEmits c e c.labels ts [] code q ∧ types <+: e.types
          ∧ (∀ τ ∈ e.types, τ ∈ types ∨ CallsType c.function τ)
          ∧ b = { locals := e.locals.map Prod.snd, code := code ++ closing c.function ts } := by
  obtain ⟨hroots, hstored, hheight⟩ := Function.stored_of_treesFrom hts
  unfold body
  rw [meets_run_bind, meets_run_read]
  dsimp only
  rw [hroots, meets_run_bind]
  refine ((builds_blocks hts).2 ts _ c.labels hheight hstored (List.Subset.refl _)
    { types := types } rfl).imp ?_
  rintro _ t ⟨-, hextends, code, hcode, hemits⟩
  rw [List.append_nil] at hcode
  rw [meets_run_bind]
  refine (meets_endsTerminated t hstored).mono (fun _ ↦ False.elim) ?_
  rintro _ t ⟨rfl, rfl⟩
  unfold closing
  split
  · rw [meets_run_bind, meets_run_put, meets_run_bind, meets_run_get, meets_run_pure]
    exact ⟨code, _, hemits _ ⟨List.prefix_rfl, List.prefix_rfl⟩, hextends.types, hextends.called,
      by simp [hcode]⟩
  · rw [meets_run_bind, meets_run_get, meets_run_pure]
    exact ⟨code, _, hemits _ (.refl _), hextends.types, hextends.called, by simp [hcode]⟩

end Blocks

end WasmBackend.Wasm.Codegen
