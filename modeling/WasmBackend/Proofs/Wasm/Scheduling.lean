import WasmBackend.Proofs.Tree
import WasmBackend.Proofs.Wasm.GeneratedCode

/-!
# Operands and results

What the generator does between the operations of a block, said once.  Operands are brought to the
top of the stack: what lies in the way is moved into locals, and what is missing is read from a
local or computed again.  A result goes to its local, onto the stack or nowhere.

`Schedules`, `Defines` and `Copies` relate the code to what lies on the simulated stack before and
after it.  They read the numbers of locals and types off a state in which the body is complete, so
nothing that is appended later changes them.
-/

namespace WasmBackend.Wasm

/-- Whether the stack and the constructs around have no part in a fault. -/
def CodeFault.IsOther : CodeFault → Prop
  | other _ => True
  | _ => False

namespace Codegen

open Ir (Block BlockId CodeUnit Copy Forest Function Instr Signature Var)
open Stage

/-! ## Rules for computations in a context -/

section Rules

variable {α β : Type} {c : CodeContext} {s : CodeState} {E : CodeFault → Prop}

@[simp]
theorem meets_run_pure {a : α} {post : α → CodeState → Prop} :
    Meets ((pure a : M α).run c) s E post ↔ post a s := Iff.rfl

@[simp]
theorem meets_run_bind {x : M α} {f : α → M β} {post : β → CodeState → Prop} :
    Meets ((x >>= f).run c) s E post ↔
      Meets (x.run c) s E fun a t ↦ Meets ((f a).run c) t E post := by
  rw [ReaderT.run_bind, meets_bind]

@[simp]
theorem meets_run_read {post : CodeContext → CodeState → Prop} :
    Meets ((read : M CodeContext).run c) s E post ↔ post c s := Iff.rfl

@[simp]
theorem meets_run_get {post : CodeState → CodeState → Prop} :
    Meets ((get : M CodeState).run c) s E post ↔ post s s := Iff.rfl

@[simp]
theorem meets_run_modify {f : CodeState → CodeState} {post : PUnit → CodeState → Prop} :
    Meets ((modify f : M PUnit).run c) s E post ↔ post ⟨⟩ (f s) := Iff.rfl

@[simp]
theorem meets_run_throw {e : CodeFault} {post : α → CodeState → Prop} :
    Meets ((throw e : M α).run c) s E post ↔ E e := Iff.rfl

@[simp]
theorem meets_run_put {i : Instruction} {post : Unit → CodeState → Prop} :
    Meets ((put i).run c) s E post ↔ post ⟨⟩ { s with code := i :: s.code } := Iff.rfl

@[simp]
theorem meets_run_internal {message : Text} {post : α → CodeState → Prop} :
    Meets ((internal message : M α).run c) s E post ↔
      E (.other (.internal (c.function.name ++ ": " ++ message))) := Iff.rfl

theorem meets_run_ofExcept {x : Except Failure α} {post : α → CodeState → Prop}
    (herr : ∀ f, E (.other f)) (h : ∀ a, x = .ok a → post a s) :
    Meets ((ofExcept x).run c) s E post := by
  cases x with
  | ok a => exact h a rfl
  | error e => exact herr e

theorem meets_run_forM {f : α → M PUnit} {l : List α} (inv : List α → CodeState → Prop)
    (start : inv [] s)
    (step : ∀ done a rest t, l = done ++ a :: rest → inv done t →
      Meets ((f a).run c) t E fun _ t' ↦ inv (done ++ [a]) t') :
    Meets ((l.forM f).run c) s E fun _ t ↦ inv l t := by
  suffices h : ∀ rest done t, l = done ++ rest → inv done t →
      Meets ((rest.forM f).run c) t E fun _ t' ↦ inv l t' from h l [] s rfl start
  intro rest
  induction rest with
  | nil =>
    intro done t hl hinv
    rw [List.append_nil] at hl
    subst hl
    exact hinv
  | cons a rest ih =>
    intro done t hl hinv
    show Meets ((f a >>= fun _ ↦ rest.forM f).run c) t E _
    rw [meets_run_bind]
    refine (step done a rest t hl hinv).imp ?_
    intro _ t' hinv'
    exact ih (done ++ [a]) t' (by simpa using hl) hinv'

theorem meets_run_forIn {f : α → PUnit → M (ForInStep PUnit)} {l : List α}
    (inv : List α → CodeState → Prop) (start : inv [] s)
    (step : ∀ done a rest t, l = done ++ a :: rest → inv done t →
      Meets ((f a ⟨⟩).run c) t E fun r t' ↦ r = .yield ⟨⟩ ∧ inv (done ++ [a]) t') :
    Meets ((forIn l ⟨⟩ f).run c) s E fun _ t ↦ inv l t := by
  suffices h : ∀ rest done t, l = done ++ rest → inv done t →
      Meets ((forIn rest ⟨⟩ f).run c) t E fun _ t' ↦ inv l t' from h l [] s rfl start
  intro rest
  induction rest with
  | nil =>
    intro done t hl hinv
    rw [List.append_nil] at hl
    subst hl
    exact hinv
  | cons a rest ih =>
    intro done t hl hinv
    rw [List.forIn_cons, meets_run_bind]
    refine (step done a rest t hl hinv).imp ?_
    rintro _ t' ⟨rfl, hinv'⟩
    exact ih (done ++ [a]) t' (by simpa using hl) hinv'

end Rules

/-- The function calls values of this type. -/
def CallsType (f : Function) (t : FuncType) : Prop :=
  ∃ ts, f.trees? = some ts ∧ ∃ id ∈ Forest.ids ts, ∃ i ∈ (f.blockAt id).instrs, ∃ sig ∈ i.sig,
    t = .ofSignature sig

/-! ## Where values are -/

/-- Where the values without a local of their own are: on the operand stack, top first, or moved
from there into a local. -/
structure Placement where
  stack : List Var := []
  spilled : List Var := []

/-- Where the values are after what was generated so far. -/
def placementOf (s : CodeState) : Placement where
  stack := s.stack
  spilled := s.spilled

/-- Whether a variable is kept in a local from its definition on. -/
def isKept (c : CodeContext) (v : Var) : Bool :=
  c.usage.inLocal c.function.params.length v

/-- Whether a variable can be brought to the stack from elsewhere. -/
def IsAvailable (c : CodeContext) (spilled : List Var) (v : Var) : Prop :=
  (c.usage.replay? v).isSome ∨ isKept c v ∨ v ∈ spilled

/-- The number of the local of a variable; `e` tells which locals there are in the end. -/
def localNumber? (c : CodeContext) (e : CodeState) (v : Var) : Option Nat :=
  if v < c.function.params.length then some v
  else (e.locals.findIdx? fun l ↦ l.1 = v).map (c.function.params.length + ·)

/-- The instruction computes a reproducible value again. -/
def Replays (c : CodeContext) (i : Instr) (x : Instruction) : Prop :=
  match i.op with
  | .const => x = selectConst i.storage i.imm i.float
  | .addr => ∃ a, c.memory.address i.zone i.index i.imm = .ok a ∧ x = .i32Const a
  | .funcRef =>
    ∃ slot, c.unit.table.findIdx? (fun n ↦ n = i.callee) = some slot ∧ x = .i32Const slot.toUInt32
  | .heapBase => x = .globalGet 0
  | _ => False

/-- The instruction pushes the value of a variable that is not on the stack. -/
def Loads (c : CodeContext) (e : CodeState) (spilled : List Var) (v : Var) (x : Instruction) :
    Prop :=
  match c.usage.replay? v with
  | some i => Replays c i x
  | none => (isKept c v ∨ v ∈ spilled) ∧ ∃ n, localNumber? c e v = some n ∧ x = .localGet n

/-- The instruction pops the value of a variable into its local. -/
def Sets (c : CodeContext) (e : CodeState) (v : Var) (x : Instruction) : Prop :=
  ∃ n, localNumber? c e v = some n ∧ x = .localSet n

/-- The code brings operands to the top of the stack, the last on top; `q` is the placement below
them.  What lies high on the stack, down to an operand, is moved into locals, or the first operands
are used where they lie. -/
inductive Schedules (c : CodeContext) (e : CodeState) :
    List Var → Placement → List Instruction → Placement → Prop
  | intro (high used loaded rest spilled : List Var) (sets loads : List Instruction)
      (hlowest : ∀ v ∈ high.getLast?, v ∈ used ++ loaded)
      (hsets : List.Forall₂ (Sets c e) high sets)
      (hloads : List.Forall₂ (Loads c e (high.reverse ++ spilled)) loaded loads) :
      Schedules c e (used ++ loaded) ⟨high ++ (used.reverse ++ rest), spilled⟩ (sets ++ loads)
        ⟨rest, high.reverse ++ spilled⟩

/-- The code puts a result where its uses expect it. -/
inductive Defines (c : CodeContext) (e : CodeState) :
    List Var → Placement → List Instruction → Placement → Prop
  | nothing (p : Placement) : Defines c e [] p [] p
  | unused (v : Var) (p : Placement) (h : c.usage.uses.getD v 0 = 0) :
      Defines c e [v] p [.drop] p
  | kept (v : Var) (x : Instruction) (p : Placement) (h : c.usage.uses.getD v 0 ≠ 0)
      (hkept : isKept c v) (hset : Sets c e v x) : Defines c e [v] p [x] p
  | pushed (v : Var) (stack spilled : List Var) (h : c.usage.uses.getD v 0 ≠ 0)
      (hkept : ¬isKept c v) : Defines c e [v] ⟨stack, spilled⟩ [] ⟨v :: stack, spilled⟩

/-- The code makes assignments at once. -/
inductive Copies (c : CodeContext) (e : CodeState) :
    List Copy → Placement → List Instruction → Placement → Prop
  | intro {cs : List Copy} {p q : Placement} {code : List Instruction} (sets : List Instruction)
      (hsources : Schedules c e (cs.map Copy.src) p code q)
      (hsets : List.Forall₂ (Sets c e) (cs.reverse.map Copy.dst) sets) :
      Copies c e cs p (code ++ sets) q

/-- An operand that is neither on the stack nor available stops the generator. -/
def Stuck (c : CodeContext) (args : List Var) (p : Placement) (fault : CodeFault) : Prop :=
  ∃ v ∈ args, fault = .unavailable v ∧ v ∉ p.stack ∧ ¬IsAvailable c p.spilled v

/-! ## What the steps of the generator append -/

section Steps

variable {c : CodeContext} {s t u e : CodeState} {v : Var} {n : Nat}

theorem placementOf_eq (s : CodeState) : placementOf s = ⟨s.stack, s.spilled⟩ := rfl

/-- A local keeps its number when more locals are added. -/
theorem localNumber?_mono (h : localNumber? c t v = some n) (hgrows : Grows t e) :
    localNumber? c e v = some n := by
  unfold localNumber? at *
  split
  · rw [if_pos ‹_›] at h
    exact h
  · rw [if_neg ‹_›] at h
    obtain ⟨i, hi, rfl⟩ := Option.map_eq_some_iff.1 h
    obtain ⟨rest, hrest⟩ := hgrows.locals
    rw [← hrest, List.findIdx?_append, hi]
    rfl

/-- What is added while code is generated: locals, and types of values that are called. -/
structure Extends (f : Function) (s t : CodeState) : Prop extends Grows s t where
  called : ∀ τ ∈ t.types, τ ∈ s.types ∨ CallsType f τ

variable {f : Function}

theorem Extends.trans (h : Extends f s t) (h' : Extends f t u) : Extends f s u where
  toGrows := h.toGrows.trans h'.toGrows
  called τ hτ := (h'.called τ hτ).elim (h.called τ) .inr

/-- Code and placements have no part in this. -/
theorem extends_of_eq (htypes : t.types = s.types) (hlocals : t.locals = s.locals) :
    Extends f s t where
  types := htypes ▸ List.prefix_rfl
  locals := hlocals ▸ List.prefix_rfl
  called _ hτ := .inl (htypes ▸ hτ)

theorem Extends.refl (s : CodeState) : Extends f s s :=
  extends_of_eq rfl rfl

/-- Code was appended that `emits` describes, whatever comes later. -/
def Appends (f : Function) (s t : CodeState)
    (emits : CodeState → List Instruction → Prop) : Prop :=
  Extends f s t ∧ ∃ code, t.code = code.reverse ++ s.code ∧ ∀ e, Grows t e → emits e code

theorem Appends.imp {emits emits' : CodeState → List Instruction → Prop} (h : Appends f s t emits)
    (himp : ∀ e code, Grows t e → emits e code → emits' e code) : Appends f s t emits' := by
  obtain ⟨hextends, code, hcode, hemits⟩ := h
  exact ⟨hextends, code, hcode, fun e he ↦ himp e code he (hemits e he)⟩

theorem Appends.trans {emits emits' : CodeState → List Instruction → Prop}
    (h : Appends f s t emits) (h' : Appends f t u emits') :
    Appends f s u fun e code ↦ ∃ code₁ code₂, code = code₁ ++ code₂ ∧ emits e code₁
      ∧ emits' e code₂ := by
  obtain ⟨hextends, code, hcode, hemits⟩ := h
  obtain ⟨hextends', code', hcode', hemits'⟩ := h'
  refine ⟨hextends.trans hextends', code ++ code', ?_, fun e he ↦ ?_⟩
  · rw [hcode', hcode, List.reverse_append, List.append_assoc]
  · exact ⟨code, code', rfl, hemits e (hextends'.toGrows.trans he), hemits' e he⟩

/-- Nothing but locals, types and placements changes. -/
theorem appends_nil {emits : CodeState → List Instruction → Prop} (hextends : Extends f s t)
    (hcode : t.code = s.code) (h : ∀ e, Grows t e → emits e []) : Appends f s t emits :=
  ⟨hextends, [], by simpa using hcode, h⟩

theorem appends_put {R : CodeState → List Instruction → Prop} {x : Instruction}
    (h : ∀ e, Grows s e → R e [x]) : Appends f s { s with code := x :: s.code } R :=
  ⟨extends_of_eq rfl rfl, [x], rfl, fun e he ↦ h e ⟨he.types, he.locals⟩⟩

/-- Moving values about appends nothing. -/
theorem Appends.place {emits : CodeState → List Instruction → Prop} (h : Appends f s t emits)
    (stack spilled : List Var) :
    Appends f s { t with stack := stack, spilled := spilled } emits := by
  obtain ⟨hextends, code, hcode, hemits⟩ := h
  exact ⟨hextends.trans (extends_of_eq rfl rfl), code, hcode,
    fun e he ↦ hemits e ⟨he.types, he.locals⟩⟩

theorem meets_localOf (s : CodeState) (v : Var) :
    Meets ((localOf v).run c) s CodeFault.IsOther fun n t ↦
      (placementOf t = placementOf s ∧ t.code = s.code ∧ Extends c.function s t)
        ∧ localNumber? c t v = some n := by
  unfold localOf localNumber? paramCount
  simp only [meets_run_bind, meets_run_read, meets_run_pure]
  split
  · exact ⟨⟨rfl, rfl, .refl s⟩, rfl⟩
  · simp only [meets_run_bind, meets_run_get]
    split
    · rename_i i hi
      exact ⟨⟨rfl, rfl, .refl s⟩, by rw [hi]; rfl⟩
    · rename_i hnone
      simp only [meets_run_bind, meets_run_read]
      refine meets_run_ofExcept (fun _ ↦ trivial) fun p _ ↦ ?_
      refine ⟨⟨rfl, rfl, ⟨List.prefix_rfl, List.prefix_append _ _⟩, fun _ ↦ .inl⟩, ?_⟩
      rw [List.findIdx?_append, hnone]
      simp

/-- A pop into the local of a variable. -/
theorem meets_set (s : CodeState) (v : Var) :
    Meets ((do put (.localSet (← localOf v)) : M Unit).run c) s CodeFault.IsOther
      fun _ t ↦ placementOf t = placementOf s
        ∧ Appends c.function s t fun e code ↦ ∃ x, code = [x] ∧ Sets c e v x := by
  simp only [meets_run_bind, meets_run_put]
  refine (meets_localOf s v).imp ?_
  rintro n t ⟨⟨hplace, hcode, hextends⟩, hn⟩
  refine ⟨hplace, hextends.trans (extends_of_eq rfl rfl), [.localSet n], by simp [hcode],
    fun e he ↦ ?_⟩
  exact ⟨_, rfl, n, localNumber?_mono hn ⟨he.types, he.locals⟩, rfl⟩

theorem meets_globalIndex (s : CodeState) (name : Text) :
    Meets ((globalIndex name).run c) s CodeFault.IsOther fun n t ↦
      t = s ∧ (name = Ir.heapBaseGlobal ∧ n = 0
        ∨ name ≠ Ir.heapBaseGlobal ∧ name = Ir.heapPointerGlobal ∧ n = 1) := by
  unfold globalIndex
  split
  · exact ⟨rfl, .inl ⟨‹_›, rfl⟩⟩
  · split
    · exact ⟨rfl, .inr ⟨‹_›, ‹_›, rfl⟩⟩
    · trivial

theorem meets_replay (s : CodeState) (i : Instr) :
    Meets ((replay i).run c) s CodeFault.IsOther fun _ t ↦
      ∃ x, Replays c i x ∧ t = { s with code := x :: s.code } := by
  unfold replay
  split <;> rename_i hop
  · exact ⟨_, by simp only [Replays, hop], rfl⟩
  · simp only [meets_run_bind, meets_run_read]
    refine meets_run_ofExcept (fun _ ↦ trivial) fun a ha ↦ ⟨_, ?_, rfl⟩
    simpa only [Replays, hop] using ⟨a, ha, rfl⟩
  · simp only [meets_run_bind, meets_run_read]
    split
    · rename_i slot hslot
      refine ⟨_, ?_, rfl⟩
      simpa only [Replays, hop] using ⟨slot, hslot, rfl⟩
    · trivial
  · rw [meets_run_bind]
    refine (meets_globalIndex s _).imp ?_
    rintro n t ⟨rfl, ⟨-, rfl⟩ | ⟨h, -⟩⟩
    · exact ⟨_, by simp only [Replays, hop], rfl⟩
    · exact absurd rfl h
  · trivial

theorem meets_load (s : CodeState) (v : Var) :
    Meets ((load v).run c) s
      (fun fault ↦ fault.IsOther ∨ fault = .unavailable v ∧ ¬IsAvailable c s.spilled v)
      fun _ t ↦ placementOf t = ⟨v :: s.stack, s.spilled⟩
        ∧ Appends c.function s t fun e code ↦ ∃ x, code = [x] ∧ Loads c e s.spilled v x := by
  unfold load
  simp only [meets_run_bind, meets_run_read]
  split
  · rename_i i hi
    simp only [meets_run_bind]
    refine (meets_replay s i).mono (fun _ ↦ .inl) ?_
    rintro _ t ⟨x, hx, rfl⟩
    refine ⟨rfl, extends_of_eq rfl rfl, [x], rfl, fun _ _ ↦ ⟨x, rfl, ?_⟩⟩
    simpa only [Loads, hi] using hx
  · rename_i hnone
    show Meets ((if isKept c v || decide (v ∈ s.spilled) then _ else _ : M PUnit).run c) s _ _
    split
    · rename_i hkept
      simp only [meets_run_bind, meets_run_put, meets_run_modify]
      refine (meets_localOf s v).mono (fun _ ↦ .inl) ?_
      rintro n t ⟨⟨hplace, hcode, hextends⟩, hn⟩
      simp only [placementOf, Placement.mk.injEq] at hplace ⊢
      refine ⟨⟨by rw [hplace.1], hplace.2⟩, hextends.trans (extends_of_eq rfl rfl),
        [.localGet n], by simp [hcode], fun e he ↦ ⟨_, rfl, ?_⟩⟩
      have hnumber : localNumber? c e v = some n := localNumber?_mono hn ⟨he.types, he.locals⟩
      simp only [Loads, hnone]
      exact ⟨by simpa using hkept, n, hnumber, rfl⟩
    · rename_i hkept
      exact .inr ⟨rfl, by simpa [IsAvailable, hnone] using hkept⟩

/-- Variables are pushed in order. -/
theorem meets_loads (s : CodeState) (vs : List Var) :
    Meets ((forIn vs PUnit.unit fun v _ ↦ do load v; pure (.yield PUnit.unit)).run c) s
      (fun fault ↦ fault.IsOther ∨ ∃ v ∈ vs, fault = .unavailable v ∧ ¬IsAvailable c s.spilled v)
      fun _ t ↦ placementOf t = ⟨vs.reverse ++ s.stack, s.spilled⟩
        ∧ Appends c.function s t fun e code ↦ List.Forall₂ (Loads c e s.spilled) vs code := by
  refine meets_run_forIn (fun done t ↦ placementOf t = ⟨done.reverse ++ s.stack, s.spilled⟩
    ∧ Appends c.function s t fun e code ↦ List.Forall₂ (Loads c e s.spilled) done code)
    ⟨rfl, appends_nil (.refl s) rfl fun _ _ ↦ .nil⟩ ?_
  rintro done v rest t rfl ⟨hplace, happends⟩
  simp only [placementOf, Placement.mk.injEq] at hplace
  rw [meets_run_bind]
  refine (meets_load t v).mono ?_ ?_
  · rintro fault (hother | ⟨rfl, h⟩)
    · exact .inl hother
    · exact .inr ⟨v, by simp, rfl, hplace.2 ▸ h⟩
  · rintro _ u ⟨hplace', happends'⟩
    refine ⟨rfl, ?_, (happends.trans happends').imp ?_⟩
    · rw [hplace', hplace.1, hplace.2]
      simp
    · rintro e _ - ⟨loads, _, rfl, hloads, x, rfl, hx⟩
      exact List.rel_append hloads (.cons (hplace.2 ▸ hx) .nil)

/-- What lies on the stack down to the lowest wanted variable is moved into locals. -/
theorem meets_spill (s : CodeState) (wanted : List Var) :
    Meets ((spill wanted).run c) s CodeFault.IsOther fun _ t ↦
      ∃ high rest, s.stack = high ++ rest ∧ placementOf t = ⟨rest, high.reverse ++ s.spilled⟩
        ∧ (∀ v ∈ high.getLast?, v ∈ wanted) ∧ (∀ v ∈ rest, v ∉ wanted)
        ∧ Appends c.function s t fun e code ↦ List.Forall₂ (Sets c e) high code := by
  unfold spill
  simp only [meets_run_bind, meets_run_get, meets_run_modify]
  generalize hhigh : (s.stack.reverse.dropWhile fun v ↦ v ∉ wanted).reverse = high
  have hstack : s.stack = high ++ (s.stack.reverse.takeWhile fun v ↦ v ∉ wanted).reverse := by
    rw [← hhigh, ← List.reverse_append, List.takeWhile_append_dropWhile, List.reverse_reverse]
  refine (meets_run_forIn (fun done t ↦ placementOf t = ⟨s.stack, done.reverse ++ s.spilled⟩
      ∧ Appends c.function s t fun e code ↦ List.Forall₂ (Sets c e) done code)
    ⟨rfl, appends_nil (.refl s) rfl fun _ _ ↦ .nil⟩ ?step).imp ?_
  case step =>
    rintro done v rest t rfl ⟨hplace, happends⟩
    simp only [meets_run_bind, meets_run_modify, meets_run_pure]
    have hset := meets_set (c := c) t v
    simp only [meets_run_bind] at hset
    refine hset.imp fun n t' ht' ↦ ht'.imp ?_
    rintro _ u ⟨hplace', happends'⟩
    refine ⟨trivial, ?_, ?_⟩
    · simp only [placementOf, Placement.mk.injEq] at hplace hplace' ⊢
      rw [hplace'.1, hplace'.2, hplace.1, hplace.2]
      simp
    · refine ((happends.trans happends').imp ?_).place _ _
      rintro e _ - ⟨sets, _, rfl, hsets, x, rfl, hx⟩
      exact List.rel_append hsets (.cons hx .nil)
  rintro _ t ⟨hplace, happends⟩
  simp only [placementOf, Placement.mk.injEq] at hplace
  refine ⟨high, _, hstack, ?_, ?_, ?_, happends.place _ _⟩
  · simp only [placementOf, Placement.mk.injEq]
    refine ⟨?_, hplace.2⟩
    conv_lhs => rw [hstack]
    exact List.drop_left
  · intro v hv
    rw [← hhigh, List.getLast?_reverse] at hv
    have := List.head?_dropWhile_not (fun v ↦ decide (v ∉ wanted)) s.stack.reverse
    rw [hv] at this
    simpa using this
  · intro v hv
    simpa using List.mem_takeWhile_imp (List.mem_reverse.1 hv)

theorem meets_available (s : CodeState) (v : Var) :
    Meets ((available v).run c) s (fun _ ↦ False) fun b t ↦
      t = s ∧ (b = true ↔ IsAvailable c s.spilled v) := by
  refine ⟨rfl, ?_⟩
  show ((c.usage.replay? v).isSome || isKept c v || decide (v ∈ s.spilled)) = true ↔ _
  simp [IsAvailable, or_assoc]

theorem meets_allAvailable (s : CodeState) (vs : List Var) :
    Meets ((vs.allM available).run c) s (fun _ ↦ False) fun b t ↦
      t = s ∧ (b = true ↔ ∀ v ∈ vs, IsAvailable c s.spilled v) := by
  induction vs with
  | nil => exact ⟨rfl, by simp⟩
  | cons v vs ih =>
    rw [List.allM, meets_run_bind]
    refine (meets_available s v).imp ?_
    rintro b _ ⟨rfl, hb⟩
    cases b with
    | false =>
      refine ⟨rfl, fun h ↦ absurd h Bool.false_ne_true, fun h ↦ ?_⟩
      exact hb.2 (h v List.mem_cons_self)
    | true =>
      refine ih.imp ?_
      rintro b t ⟨rfl, hrest⟩
      exact ⟨rfl, by rw [hrest, List.forall_mem_cons, ← hb]; simp⟩

/-- The operands that can be used where they lie, if all others are available. -/
theorem meets_reusable (s : CodeState) (args : List Var) (n : Nat) :
    Meets ((reusable args n).run c) s (fun _ ↦ False) fun r t ↦ t = s ∧
      match r with
      | some k => s.stack.take k = (args.take k).reverse ∧
          ∀ v ∈ args.drop k, IsAvailable c s.spilled v
      | none => ¬∀ v ∈ args, IsAvailable c s.spilled v := by
  induction n with
  | zero =>
    rw [reusable, meets_run_bind]
    refine (meets_allAvailable s args).imp ?_
    rintro b t ⟨rfl, hb⟩
    split
    · rename_i htrue
      exact ⟨rfl, by simp, by simpa using hb.1 htrue⟩
    · rename_i hfalse
      exact ⟨rfl, fun h ↦ hfalse (hb.2 h)⟩
  | succ n ih =>
    rw [reusable, meets_run_bind, meets_run_get]
    dsimp only
    split
    · rename_i htop
      rw [meets_run_bind]
      refine (meets_allAvailable s (args.drop (n + 1))).imp ?_
      rintro b t ⟨rfl, hb⟩
      split
      · rename_i htrue
        exact ⟨rfl, htop, hb.1 htrue⟩
      · exact ih
    · exact ih

/-- The operands behind the first `n` are pushed on these, and all are consumed. -/
theorem meets_push (s : CodeState) (args : List Var) (n : Nat)
    (htop : s.stack.take n = (args.take n).reverse) :
    Meets ((do
        for v in args.drop n do
          load v
        let stack := (← get).stack
        if args.length ≤ stack.length ∧ stack.take args.length = args.reverse then
          modify fun s => { s with stack := stack.drop args.length }
        else throw (.misplaced stack args) : M Unit).run c) s
      (fun fault ↦ fault.IsOther
        ∨ ∃ v ∈ args.drop n, fault = .unavailable v ∧ ¬IsAvailable c s.spilled v)
      fun _ t ↦ placementOf t = ⟨s.stack.drop n, s.spilled⟩
        ∧ Appends c.function s t fun e code ↦
          List.Forall₂ (Loads c e s.spilled) (args.drop n) code := by
  rw [meets_run_bind]
  refine (meets_loads s (args.drop n)).imp ?_
  rintro _ t ⟨hplace, happends⟩
  simp only [placementOf, Placement.mk.injEq] at hplace
  have hstack : t.stack = args.reverse ++ s.stack.drop n := by
    have hargs : args.reverse = (args.drop n).reverse ++ (args.take n).reverse := by
      rw [← List.reverse_append, List.take_append_drop]
    rw [hplace.1, hargs, List.append_assoc, ← htop, List.take_append_drop]
  have hlength : args.length = args.reverse.length := List.length_reverse.symm
  rw [meets_run_bind, meets_run_get]
  dsimp only
  rw [if_pos]
  · rw [meets_run_modify]
    refine ⟨?_, happends.place _ _⟩
    simp only [placementOf, Placement.mk.injEq]
    refine ⟨?_, hplace.2⟩
    rw [hstack, hlength, List.drop_left]
  · rw [hstack, hlength, List.take_left]
    exact ⟨by simp, rfl⟩

/-- **Operands come to the top of the stack**, whatever lies there, unless one is nowhere. -/
theorem meets_schedule (s : CodeState) (args : List Var) :
    Meets ((schedule args).run c) s
      (fun fault ↦ fault.IsOther ∨ Stuck c args (placementOf s) fault)
      fun _ t ↦ Appends c.function s t fun e code ↦
        Schedules c e args (placementOf s) code (placementOf t) := by
  unfold schedule
  rw [meets_run_bind, meets_run_get]
  dsimp only
  rw [meets_run_bind]
  refine (meets_reusable s args _).mono (fun _ ↦ False.elim) ?_
  rintro (_ | n) t ⟨rfl, hreuse⟩
  · -- some operand lies on the stack only, so all of them are loaded
    dsimp only at hreuse ⊢
    rw [meets_run_bind]
    refine (meets_spill t args).mono (fun _ ↦ .inl) ?_
    rintro _ u ⟨high, rest, hstack, hplace, hlowest, hrest, hsets⟩
    simp only [placementOf, Placement.mk.injEq] at hplace
    refine (meets_push u args 0 rfl).mono ?_ ?_
    · rintro fault (hother | ⟨v, hv, rfl, hunavailable⟩)
      · exact .inl hother
      · rw [hplace.2] at hunavailable
        simp only [IsAvailable, List.mem_append, List.mem_reverse, not_or] at hunavailable
        obtain ⟨hreplay, hkept, hhigh, hspilled⟩ := hunavailable
        refine .inr ⟨v, hv, rfl, fun hmem ↦ ?_, by simp [IsAvailable, placementOf, *]⟩
        rw [placementOf_eq, hstack] at hmem
        rcases List.mem_append.1 hmem with hmem | hmem
        · exact hhigh hmem
        · exact hrest v hmem hv
    · rintro _ w ⟨hplace', hloads⟩
      rw [hplace.1, hplace.2] at hplace'
      refine (hsets.trans hloads).imp ?_
      rintro e _ - ⟨sets, loads, rfl, hsets, hloads⟩
      rw [hplace.2] at hloads
      have := Schedules.intro high [] args rest t.spilled sets loads hlowest hsets hloads
      simpa [placementOf_eq t, hstack, hplace'] using this
  · dsimp only at hreuse ⊢
    refine (meets_push t args n hreuse.1).mono ?_ ?_
    · rintro fault (hother | ⟨v, hv, rfl, hunavailable⟩)
      · exact .inl hother
      · exact absurd (hreuse.2 v hv) hunavailable
    · rintro _ u ⟨hplace, hloads⟩
      refine hloads.imp ?_
      rintro e loads - hloads
      have := Schedules.intro [] (args.take n) (args.drop n) (t.stack.drop n) t.spilled [] loads
        (by simp) .nil hloads
      rw [← hreuse.1] at this
      simpa [placementOf_eq t, hplace] using this

/-- A result goes where its uses expect it. -/
theorem meets_define (s : CodeState) (i : Instr) :
    Meets ((define i).run c) s CodeFault.IsOther fun _ t ↦
      Appends c.function s t fun e code ↦
        Defines c e i.dst (placementOf s) code (placementOf t) := by
  unfold define
  dsimp only
  split
  · trivial
  rename_i hlength
  rw [meets_run_bind]
  refine (meets_run_forIn (fun done t ↦ (done = [] → t = s) ∧ Appends c.function s t fun e code ↦
      Defines c e done (placementOf s) code (placementOf t))
    ⟨fun _ ↦ rfl, appends_nil (.refl s) rfl fun _ _ ↦ .nothing _⟩ ?step).imp fun _ _ h ↦ h.2
  rintro done v rest t hdst ⟨hstart, -⟩
  obtain rfl : done = [] := by
    cases done with
    | nil => rfl
    | cons => simp [hdst] at hlength
  obtain rfl := hstart rfl
  rw [List.nil_append, meets_run_bind, meets_run_read]
  split
  · rename_i huses
    rw [meets_run_bind, meets_run_put, meets_run_pure]
    exact ⟨rfl, by simp, appends_put fun e _ ↦ .unused v _ huses⟩
  · rename_i huses
    show Meets ((if isKept c v then _ else _ : M (ForInStep PUnit)).run c) t _ _
    split
    · rename_i hkept
      have hset := meets_set (c := c) t v
      simp only [meets_run_bind, meets_run_pure] at hset ⊢
      refine hset.imp fun n t' ht' ↦ ht'.imp ?_
      rintro _ u ⟨hplace, happends⟩
      refine ⟨trivial, by simp, happends.imp ?_⟩
      rintro e _ - ⟨x, rfl, hx⟩
      rw [hplace]
      exact .kept v x _ huses hkept hx
    · rename_i hkept
      rw [meets_run_bind, meets_run_modify, meets_run_pure]
      refine ⟨rfl, by simp, appends_nil (extends_of_eq rfl rfl) rfl fun e _ ↦ ?_⟩
      exact .pushed v _ _ huses hkept

/-- Assignments are made at once. -/
theorem meets_copyAll (s : CodeState) (cs : List Copy) :
    Meets ((copyAll cs).run c) s
      (fun fault ↦ fault.IsOther ∨ Stuck c (cs.map Copy.src) (placementOf s) fault)
      fun _ t ↦ Appends c.function s t fun e code ↦
        Copies c e cs (placementOf s) code (placementOf t) := by
  unfold copyAll
  split
  · rename_i hempty
    rw [List.isEmpty_iff] at hempty
    subst hempty
    refine appends_nil (.refl s) rfl fun e _ ↦ ?_
    show Copies c e [] _ ([] ++ []) _
    exact .intro []
      (.intro [] [] [] s.stack s.spilled [] [] (by simp) .nil .nil) .nil
  · rw [meets_run_bind]
    refine (meets_schedule s _).imp ?_
    rintro _ t happends
    rw [meets_run_bind]
    refine (meets_run_forIn (E := CodeFault.IsOther) (fun done u ↦ placementOf u = placementOf t
        ∧ Appends c.function t u fun e code ↦ List.Forall₂ (Sets c e) (done.map Copy.dst) code)
      ⟨rfl, appends_nil (.refl t) rfl fun _ _ ↦ .nil⟩ ?step).mono (fun _ ↦ .inl) ?_
    case step =>
      rintro done copy rest u - ⟨hplace, hsets⟩
      have hset := meets_set (c := c) u copy.dst
      simp only [meets_run_bind, meets_run_pure] at hset ⊢
      refine hset.imp fun n u' hu' ↦ hu'.imp ?_
      rintro _ w ⟨hplace', hset⟩
      refine ⟨trivial, hplace'.trans hplace, (hsets.trans hset).imp ?_⟩
      rintro e _ - ⟨sets, _, rfl, hsets, x, rfl, hx⟩
      rw [List.map_append]
      exact List.rel_append hsets (.cons hx .nil)
    rintro _ u ⟨hplace, hsets⟩
    refine (happends.trans hsets).imp ?_
    rintro e _ - ⟨code, sets, rfl, hsources, hsets⟩
    rw [hplace]
    exact .intro sets hsources hsets

end Steps

end Codegen

end WasmBackend.Wasm
