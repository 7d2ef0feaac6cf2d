import WasmBackend.Proofs.Stage
import WasmBackend.Proofs.Wasm.FunctionTypes
import WasmBackend.Proofs.Wasm.Scope
import WasmBackend.Wasm.Codegen

/-!
# Code generation stays in scope

While the code of a function is generated, types and locals are only added, no type and no
variable twice, and the code so far names only what there is at that point.  Each step of the
generator keeps this; so the body that comes out names only constructs around it, its own locals,
and functions, types and globals of the module.
-/

namespace WasmBackend.Wasm.Codegen

open Ir (Block BlockId CodeUnit Copy Function Instr Signature Var)
open Stage

/-- What code can name at some point of its generation. -/
def scopeOf (c : CodeContext) (s : CodeState) : Scope where
  labels := c.labels.length
  locals := c.function.params.length + s.locals.length
  functions := c.unit.imports.length + c.unit.funcs.length
  types := s.types.length
  globals := 2

/-- The state of the generator is in order. -/
structure Sound (c : CodeContext) (s : CodeState) : Prop where
  /-- Functions are numbered by position. -/
  functions : ∀ p ∈ c.functions, p.2 < c.unit.imports.length + c.unit.funcs.length
  /-- No type stands twice. -/
  types : (s.types.map FuncType.key).Nodup
  /-- No variable has two locals. -/
  locals : (s.locals.map Prod.fst).Nodup
  /-- A local has the type of its variable. -/
  typed : ∀ l ∈ s.locals, ∃ p, c.function.vars[l.1]? = some p ∧ p.valType = l.2
  code : InstructionsInScope (scopeOf c s) s.code

/-- Types and locals are only added. -/
structure Grows (s t : CodeState) : Prop where
  types : s.types <+: t.types
  locals : s.locals <+: t.locals

section Grows

variable {c : CodeContext} {s t u : CodeState}

theorem Grows.refl (s : CodeState) : Grows s s :=
  ⟨List.prefix_rfl, List.prefix_rfl⟩

theorem Grows.trans (h : Grows s t) (h' : Grows t u) : Grows s u :=
  ⟨h.types.trans h'.types, h.locals.trans h'.locals⟩

theorem Grows.scope (h : Grows s t) : (scopeOf c s).Within (scopeOf c t) where
  labels := le_rfl
  locals := Nat.add_le_add_left h.locals.length_le _
  functions := le_rfl
  types := h.types.length_le
  globals := le_rfl

end Grows

/-- Where `pre` holds, the computation keeps the state in order, and its results satisfy `post`. -/
def Keeps {α : Type} (c : CodeContext) (pre : CodeState → Prop) (x : M α)
    (post : α → CodeState → Prop) : Prop :=
  ∀ s, Sound c s → pre s → Ensures (x.run c) s fun a t ↦ Sound c t ∧ Grows s t ∧ post a t

/-- What every result satisfies, whatever was before. -/
abbrev Yields {α : Type} (c : CodeContext) (x : M α) (post : α → CodeState → Prop) : Prop :=
  Keeps c (fun _ ↦ True) x post

/-- The computation keeps the state in order. -/
abbrev Preserves {α : Type} (c : CodeContext) (x : M α) : Prop :=
  Yields c x fun _ _ ↦ True

/-! ## One rule for every way to put computations together -/

section Rules

variable {α β : Type} {c : CodeContext} {x : M α} {f : α → M β} {pre : CodeState → Prop}
  {post : α → CodeState → Prop}

theorem Keeps.imp {pre' : CodeState → Prop} {post' : α → CodeState → Prop}
    (h : Keeps c pre x post) (hpre : ∀ s, pre' s → pre s) (hpost : ∀ a t, post a t → post' a t) :
    Keeps c pre' x post' := by
  intro s hs hpre'
  refine (h s hs (hpre s hpre')).imp ?_
  rintro a t ⟨ht, hgrows, ha⟩
  exact ⟨ht, hgrows, hpost a t ha⟩

theorem Keeps.weaken (h : Yields c x post) : Keeps c pre x post :=
  h.imp (fun _ _ ↦ trivial) fun _ _ h ↦ h

theorem Keeps.bind {post' : β → CodeState → Prop} (h : Keeps c pre x post)
    (hf : ∀ a, Keeps c (post a) (f a) post') : Keeps c pre (x >>= f) post' := by
  intro s hs hpre
  rw [ReaderT.run_bind, Ensures, meets_bind]
  refine (h s hs hpre).imp ?_
  rintro a t ⟨ht, hgrows, ha⟩
  refine (hf a t ht ha).imp ?_
  rintro b u ⟨hu, hgrows', hb⟩
  exact ⟨hu, hgrows.trans hgrows', hb⟩

theorem Keeps.seq {post' : β → CodeState → Prop} (h : Preserves c x)
    (hf : ∀ a, Yields c (f a) post') : Yields c (x >>= f) post' :=
  Keeps.bind h hf

/-- What stays true while types and locals are added is true afterwards too. -/
theorem Keeps.frame {inv : CodeState → Prop} (h : Yields c x post)
    (hinv : ∀ s t, Grows s t → inv s → inv t) : Keeps c inv x fun a t ↦ inv t ∧ post a t := by
  intro s hs his
  refine (h s hs trivial).imp ?_
  rintro a t ⟨ht, hgrows, ha⟩
  exact ⟨ht, hgrows, hinv s t hgrows his, ha⟩

theorem keeps_pure {a : α} (h : ∀ s, pre s → post a s) : Keeps c pre (pure a) post := by
  intro s hs hpre
  exact ⟨hs, .refl s, h s hpre⟩

theorem preserves_pure {a : α} : Preserves c (pure a) :=
  keeps_pure fun _ _ ↦ trivial

theorem keeps_throw {e : CodeFault} : Keeps c pre (throw e : M α) post :=
  fun _ _ _ ↦ trivial

theorem keeps_throw_bind {e : CodeFault} {f : β → M α} :
    Keeps c pre ((throw e : M β) >>= f) post :=
  fun _ _ _ ↦ trivial

theorem keeps_internal_bind {message : Text} {f : β → M α} :
    Keeps c pre ((internal message : M β) >>= f) post :=
  fun _ _ _ ↦ trivial

theorem keeps_internal {message : Text} : Keeps c pre (internal message : M α) post :=
  fun _ _ _ ↦ trivial

/-- A fact that does not depend on the state. -/
theorem keeps_of {p : Prop} (h : p → Yields c x post) : Keeps c (fun _ ↦ p) x post :=
  fun s hs hp ↦ h hp s hs trivial

theorem keeps_read_bind {f : CodeContext → M α} (h : Keeps c pre (f c) post) :
    Keeps c pre (read >>= f) post :=
  h

theorem keeps_get_bind {f : CodeState → M α} (h : ∀ s, Keeps c (fun t ↦ t = s ∧ pre t) (f s) post) :
    Keeps c pre (get >>= f) post :=
  fun s hs hpre ↦ h s s hs ⟨rfl, hpre⟩

theorem keeps_ofExcept_bind {e : Except Failure β} {f : β → M α}
    (h : ∀ b, e = .ok b → Keeps c pre (f b) post) : Keeps c pre (ofExcept e >>= f) post := by
  cases e with
  | error => exact fun _ _ _ ↦ trivial
  | ok b => exact h b rfl

theorem keeps_ite {p : Prop} [Decidable p] {y : M α} (hx : p → Keeps c pre x post)
    (hy : ¬p → Keeps c pre y post) : Keeps c pre (if p then x else y) post := by
  split
  · exact hx ‹_›
  · exact hy ‹_›

theorem keeps_modify {g : CodeState → CodeState} {post : PUnit → CodeState → Prop}
    (h : ∀ s, Sound c s → pre s → Sound c (g s) ∧ Grows s (g s) ∧ post ⟨⟩ (g s)) :
    Keeps c pre (modify g : M PUnit) post :=
  fun s hs hpre ↦ h s hs hpre

/-- A change of neither types, locals nor code. -/
theorem preserves_modify {g : CodeState → CodeState} (htypes : ∀ s, (g s).types = s.types)
    (hlocals : ∀ s, (g s).locals = s.locals) (hcode : ∀ s, (g s).code = s.code) :
    Preserves c (modify g : M PUnit) := by
  refine keeps_modify fun s hs _ ↦ ⟨?_, ?_, trivial⟩
  · have hscope : scopeOf c (g s) = scopeOf c s := by
      simp only [scopeOf, htypes, hlocals]
    constructor
    · exact hs.functions
    · rw [htypes]
      exact hs.types
    · rw [hlocals]
      exact hs.locals
    · rw [hlocals]
      exact hs.typed
    · rw [hcode, hscope]
      exact hs.code
  · exact ⟨(htypes s).symm ▸ List.prefix_rfl, (hlocals s).symm ▸ List.prefix_rfl⟩

theorem preserves_forM {l : List α} {f : α → M PUnit} (h : ∀ a ∈ l, Preserves c (f a)) :
    Preserves c (l.forM f) := by
  induction l with
  | nil => exact preserves_pure
  | cons a l ih =>
    exact (h a (by simp)).seq fun _ ↦ ih fun b hb ↦ h b (by simp [hb])

theorem preserves_forIn {l : List α} {f : α → PUnit → M (ForInStep PUnit)}
    (h : ∀ a ∈ l, Yields c (f a ⟨⟩) fun r _ ↦ r = .yield ⟨⟩) :
    Preserves c (forIn l ⟨⟩ f) := by
  induction l with
  | nil => exact preserves_pure
  | cons a l ih =>
    rw [List.forIn_cons]
    refine (h a (by simp)).bind fun r ↦ ?_
    intro s hs hr
    subst hr
    exact ih (fun b hb ↦ h b (by simp [hb])) s hs trivial

theorem preserves_allM {l : List α} {p : α → M Bool} (h : ∀ a, Preserves c (p a)) :
    Preserves c (l.allM p) := by
  induction l with
  | nil => exact preserves_pure
  | cons a l ih =>
    refine (h a).seq fun b ↦ ?_
    cases b
    · exact preserves_pure
    · exact ih

end Rules

/-! ## Steps that append instructions -/

section Steps

variable {c : CodeContext}

theorem keeps_put {i : Instruction} {pre : CodeState → Prop}
    (h : ∀ s, pre s → i.InScope (scopeOf c s)) : Keeps c pre (put i) fun _ _ ↦ True :=
  keeps_modify fun s hs hpre ↦ ⟨{ hs with code := ⟨h s hpre, hs.code⟩ },
    ⟨List.prefix_rfl, List.prefix_rfl⟩, trivial⟩

theorem keeps_put_bind {α : Type} {i : Instruction} {pre : CodeState → Prop} {f : PUnit → M α}
    {post : α → CodeState → Prop} (h : ∀ s, pre s → i.InScope (scopeOf c s))
    (hf : ∀ a, Yields c (f a) post) : Keeps c pre (put i >>= f) post :=
  (keeps_put h).bind hf

/-- An instruction that names nothing. -/
theorem preserves_put {i : Instruction} (h : ∀ σ, i.InScope σ) : Preserves c (put i) :=
  keeps_put fun _ _ ↦ h _

theorem keeps_paramCount : Yields c paramCount fun n _ ↦ n = c.function.params.length :=
  keeps_pure fun _ _ ↦ rfl

theorem preserves_inLocal {v : Var} : Preserves c (inLocal v) :=
  preserves_pure

theorem preserves_available {v : Var} : Preserves c (available v) := by
  unfold available
  refine keeps_read_bind (Keeps.seq preserves_inLocal fun _ ↦ ?_)
  exact keeps_get_bind fun _ ↦ keeps_pure fun _ _ ↦ trivial

theorem sound_addLocal {s : CodeState} (hs : Sound c s) {v : Var} {p : Prim}
    (hv : v ∉ s.locals.map Prod.fst) (hp : c.function.vars[v]? = some p) :
    Sound c { s with locals := s.locals ++ [(v, p.valType)] } := by
  have hgrows : Grows s { s with locals := s.locals ++ [(v, p.valType)] } :=
    ⟨List.prefix_rfl, List.prefix_append _ _⟩
  refine { hs with locals := ?_, typed := ?_, code := hs.code.mono hgrows.scope }
  · simp only [List.map_append, List.map_cons, List.map_nil]
    refine List.nodup_append.mpr ⟨hs.locals, by simp, ?_⟩
    rintro a ha b hb rfl
    obtain rfl := List.mem_singleton.mp hb
    exact hv ha
  · intro l hl
    obtain hl | hl := List.mem_append.mp hl
    · exact hs.typed l hl
    · obtain rfl := List.mem_singleton.mp hl
      exact ⟨p, hp, rfl⟩

theorem varPrim_eq {f : Function} {v : Var} {p : Prim} (h : f.varPrim v = .ok p) :
    f.vars[v]? = some p := by
  unfold Function.varPrim at h
  split at h
  · rename_i q hq
    cases h
    exact hq
  · cases h

/-- The local of a variable that has none yet. -/
theorem keeps_newLocal {s : CodeState} {v : Var} {p : Prim}
    (hnone : s.locals.findIdx? (fun l ↦ l.1 = v) = none) (hp : c.function.varPrim v = .ok p) :
    Keeps c (fun t ↦ t = s)
      (modify fun s ↦ { s with locals := s.locals ++ [(v, p.valType)] } : M PUnit)
      fun _ t ↦ t.locals.length = s.locals.length + 1 := by
  refine keeps_modify ?_
  rintro s hs rfl
  have hv : v ∉ s.locals.map Prod.fst := by
    intro hv
    obtain ⟨l, hl, rfl⟩ := List.mem_map.mp hv
    simpa using List.findIdx?_eq_none_iff.mp hnone l hl
  refine ⟨sound_addLocal hs hv (varPrim_eq hp), ⟨List.prefix_rfl, List.prefix_append _ _⟩, ?_⟩
  simp

theorem keeps_localOf {v : Var} : Yields c (localOf v) fun n s ↦ n < (scopeOf c s).locals := by
  unfold localOf
  refine Keeps.bind keeps_paramCount fun n ↦ keeps_of ?_
  rintro rfl
  refine keeps_ite (fun hv ↦ keeps_pure fun s _ ↦ ?_) fun hv ↦ ?_
  · exact Nat.lt_of_lt_of_le hv (Nat.le_add_right _ _)
  · refine keeps_get_bind fun s ↦ ?_
    dsimp only
    split
    · rename_i i hi
      refine keeps_pure ?_
      rintro _ ⟨rfl, -⟩
      exact Nat.add_lt_add_left (List.findIdx?_eq_some_iff_findIdx_eq.mp hi).1 _
    · rename_i hnone
      refine keeps_read_bind (keeps_ofExcept_bind fun p hp ↦ ?_)
      refine ((keeps_newLocal hnone hp).imp (fun _ h ↦ h.1) fun _ _ h ↦ h).bind fun _ ↦ ?_
      refine keeps_pure fun t ht ↦ ?_
      simp only [scopeOf, ht]
      omega

theorem keeps_globalIndex {name : Text} : Yields c (globalIndex name) fun n _ ↦ n < 2 := by
  unfold globalIndex
  refine keeps_ite (fun _ ↦ keeps_pure fun _ _ ↦ by decide) fun _ ↦ ?_
  exact keeps_ite (fun _ ↦ keeps_pure fun _ _ ↦ by decide) fun _ ↦ keeps_internal

theorem preserves_replay {i : Instr} : Preserves c (replay i) := by
  unfold replay
  split
  · refine preserves_put fun σ ↦ ?_
    unfold selectConst
    split <;> trivial
  · refine keeps_read_bind (keeps_ofExcept_bind fun a _ ↦ ?_)
    exact preserves_put fun _ ↦ trivial
  · refine keeps_read_bind ?_
    split
    · exact preserves_put fun _ ↦ trivial
    · exact keeps_internal
  · exact Keeps.bind keeps_globalIndex fun _ ↦ keeps_put fun _ h ↦ h
  · exact keeps_internal

/-- A change of the simulated stack. -/
theorem preserves_modifyStack {g : CodeState → List Var} :
    Preserves c (modify fun s ↦ { s with stack := g s } : M PUnit) :=
  preserves_modify (fun _ ↦ rfl) (fun _ ↦ rfl) fun _ ↦ rfl

theorem preserves_load {v : Var} : Preserves c (load v) := by
  unfold load
  refine keeps_read_bind ?_
  split
  · exact Keeps.seq preserves_replay fun _ ↦ preserves_modifyStack
  · refine Keeps.seq preserves_inLocal fun _ ↦ keeps_get_bind fun _ ↦ Keeps.weaken ?_
    refine keeps_ite (fun _ ↦ ?_) fun _ ↦ keeps_throw_bind
    refine Keeps.bind keeps_localOf fun _ ↦ ?_
    exact keeps_put_bind (fun _ h ↦ h) fun _ ↦ preserves_modifyStack

theorem preserves_spill {wanted : List Var} : Preserves c (spill wanted) := by
  unfold spill
  refine keeps_get_bind fun s ↦ Keeps.weaken ?_
  refine (preserves_forIn fun v _ ↦ ?_).seq fun _ ↦ preserves_modifyStack
  refine Keeps.bind keeps_localOf fun _ ↦ ?_
  refine keeps_put_bind (fun _ h ↦ h) fun _ ↦ ?_
  have hmark : Preserves c (modify fun s ↦ { s with spilled := v :: s.spilled } : M PUnit) :=
    preserves_modify (fun _ ↦ rfl) (fun _ ↦ rfl) fun _ ↦ rfl
  exact hmark.seq fun _ ↦ keeps_pure fun _ _ ↦ rfl

theorem preserves_reusable {args : List Var} {n : Nat} : Preserves c (reusable args n) := by
  induction n with
  | zero =>
    unfold reusable
    refine (preserves_allM fun _ ↦ preserves_available).seq fun _ ↦ ?_
    exact keeps_ite (fun _ ↦ preserves_pure) fun _ ↦ preserves_pure
  | succ n ih =>
    unfold reusable
    refine keeps_get_bind fun s ↦ Keeps.weaken ?_
    refine keeps_ite (fun _ ↦ ?_) fun _ ↦ ih
    refine (preserves_allM fun _ ↦ preserves_available).seq fun _ ↦ ?_
    exact keeps_ite (fun _ ↦ preserves_pure) fun _ ↦ ih

theorem preserves_schedule {args : List Var} : Preserves c (schedule args) := by
  unfold schedule
  refine keeps_get_bind fun s ↦ Keeps.weaken ?_
  have hrest (n : Nat) : Preserves c (do
      for v in args.drop n do
        load v
      let stack := (← get).stack
      if args.length ≤ stack.length ∧ stack.take args.length = args.reverse then
        modify fun s => { s with stack := stack.drop args.length }
      else throw (.misplaced stack args)) := by
    refine (preserves_forIn fun v _ ↦ ?_).seq fun _ ↦ ?_
    · exact Keeps.seq preserves_load fun _ ↦ keeps_pure fun _ _ ↦ rfl
    · refine keeps_get_bind fun s ↦ Keeps.weaken ?_
      exact keeps_ite (fun _ ↦ preserves_modifyStack) fun _ ↦ keeps_throw
  refine Keeps.seq preserves_reusable fun reuse ↦ ?_
  split
  · exact hrest _
  · exact Keeps.seq preserves_spill fun _ ↦ hrest _

theorem preserves_define {i : Instr} : Preserves c (define i) := by
  unfold define
  refine keeps_ite (fun _ ↦ keeps_internal_bind) fun _ ↦ ?_
  refine Keeps.seq (preserves_forIn fun v _ ↦ ?_) fun _ ↦ preserves_pure
  refine keeps_read_bind ?_
  refine keeps_ite (fun _ ↦ ?_) fun _ ↦ ?_
  · exact keeps_put_bind (fun _ _ ↦ trivial) fun _ ↦ keeps_pure fun _ _ ↦ rfl
  · refine Keeps.seq preserves_inLocal fun _ ↦ ?_
    refine keeps_ite (fun _ ↦ ?_) fun _ ↦ ?_
    · refine Keeps.bind keeps_localOf fun _ ↦ ?_
      exact keeps_put_bind (fun _ h ↦ h) fun _ ↦ keeps_pure fun _ _ ↦ rfl
    · exact Keeps.seq preserves_modifyStack fun _ ↦ keeps_pure fun _ _ ↦ rfl

theorem preserves_copyAll {cs : List Copy} : Preserves c (copyAll cs) := by
  unfold copyAll
  refine keeps_ite (fun _ ↦ preserves_pure) fun _ ↦ ?_
  refine Keeps.seq preserves_schedule fun _ ↦ ?_
  refine Keeps.seq (preserves_forIn fun copy _ ↦ ?_) fun _ ↦ preserves_pure
  refine Keeps.bind keeps_localOf fun _ ↦ ?_
  exact keeps_put_bind (fun _ h ↦ h) fun _ ↦ keeps_pure fun _ _ ↦ rfl

theorem keeps_depthOf {target : BlockId} {head : Bool} :
    Yields c (depthOf target head) fun n s ↦ n < (scopeOf c s).labels := by
  unfold depthOf
  refine keeps_read_bind ?_
  split
  · rename_i n hn
    exact keeps_pure fun _ _ ↦ (List.findIdx?_eq_some_iff_findIdx_eq.mp hn).1
  · exact keeps_throw

theorem keeps_typeIndex {sig : Signature} :
    Yields c (typeIndex sig) fun n s ↦ HasType s.types n (FuncType.ofSignature sig) := by
  unfold typeIndex
  refine keeps_get_bind fun s ↦ ?_
  have hadd : Keeps c (fun t ↦ t = s ∧ True)
      (modify fun t ↦ { t with types := ((FuncType.ofSignature sig).intern s.types).2 } : M PUnit)
      fun _ t ↦ t.types = ((FuncType.ofSignature sig).intern s.types).2 := by
    refine keeps_modify ?_
    rintro s hs ⟨rfl, -⟩
    have hinit := prefix_intern (FuncType.ofSignature sig) s.types
    refine ⟨{ hs with types := nodup_intern _ hs.types, code := ?_ },
      ⟨hinit, List.prefix_rfl⟩, rfl⟩
    refine hs.code.mono ?_
    exact { labels := le_rfl, locals := le_rfl, functions := le_rfl, types := hinit.length_le,
            globals := le_rfl }
  refine hadd.bind fun _ ↦ keeps_pure fun t ht ↦ ?_
  rw [ht]
  exact hasType_intern _ _

theorem preserves_native {i : Instr} : Preserves c (native i) := by
  unfold native
  dsimp only
  split
  · refine keeps_ite (fun _ ↦ keeps_internal_bind) fun _ ↦ ?_
    refine Keeps.seq preserves_schedule fun _ ↦ ?_
    exact keeps_put_bind (fun _ _ ↦ trivial) fun _ ↦ preserves_define
  · refine keeps_ite (fun _ ↦ keeps_internal_bind) fun _ ↦ ?_
    refine Keeps.seq preserves_schedule fun _ ↦ ?_
    exact keeps_put_bind (fun _ _ ↦ trivial) fun _ ↦ preserves_define
  · refine keeps_ite (fun _ ↦ ?_) fun _ ↦ ?_
    · exact keeps_put_bind (fun _ _ ↦ trivial) fun _ ↦ preserves_define
    refine keeps_ite (fun _ ↦ ?_) fun _ ↦ ?_
    · refine Keeps.seq preserves_schedule fun _ ↦ ?_
      exact keeps_put_bind (fun _ _ ↦ trivial) fun _ ↦ preserves_define
    refine keeps_ite (fun _ ↦ ?_) fun _ ↦ keeps_internal
    exact preserves_put fun _ ↦ trivial

end Steps

/-! ## Bodies -/

section Bodies

variable {c : CodeContext}

/-- The instructions of a body are taken out of what was generated before. -/
theorem meets_bodyOf {x : M Unit} {s : CodeState} {err : CodeFault → Prop}
    {post : List Instruction → CodeState → Prop} :
    Meets ((bodyOf x).run c) s err post ↔
      Meets (x.run c) { s with code := [] } err fun _ t ↦
        post t.code.reverse { t with code := s.code } := by
  unfold bodyOf
  simp only [ReaderT.run_bind, meets_bind]
  rfl

/-- A body generated with other constructs around it. -/
theorem ensures_bodyOf {labels : List Label} {x : M Unit}
    (h : Preserves { c with labels := labels } x) {s : CodeState} (hs : Sound c s) :
    Ensures ((bodyOf x).run { c with labels := labels }) s fun body t ↦
      Sound c t ∧ Grows s t ∧
        InstructionsInScope { scopeOf c t with labels := labels.length } body := by
  rw [Ensures, meets_bodyOf]
  have hs' : Sound { c with labels := labels } { s with code := [] } :=
    { hs with code := trivial }
  refine (h _ hs' trivial).imp ?_
  rintro _ t ⟨ht, hgrows, -⟩
  refine ⟨{ ht with code := ?_ }, ⟨hgrows.types, hgrows.locals⟩, ?_⟩
  · exact hs.code.mono (Grows.scope ⟨hgrows.types, hgrows.locals⟩)
  · exact instructionsInScope_reverse.mpr ht.code

/-- A body inside one more construct. -/
theorem keeps_inside {l : Label} {x : M Unit}
    (h : Preserves { c with labels := l :: c.labels } x) :
    Yields c (inside l (bodyOf x)) fun body s ↦ InstructionsInScope (scopeOf c s).inner body :=
  fun _ hs _ ↦ ensures_bodyOf h hs

/-- A body inside two more constructs. -/
theorem keeps_inside_inside {l k : Label} {x : M Unit}
    (h : Preserves { c with labels := k :: l :: c.labels } x) :
    Yields c (inside l (inside k (bodyOf x))) fun body s ↦
      InstructionsInScope (scopeOf c s).inner.inner body :=
  fun _ hs _ ↦ ensures_bodyOf h hs

theorem preserves_exitIf {i : Instr} : Preserves c (exitIf i) := by
  unfold exitIf
  refine Keeps.seq preserves_schedule fun _ ↦ ?_
  refine keeps_ite (fun _ ↦ ?_) fun _ ↦ ?_
  · exact Keeps.bind keeps_depthOf fun _ ↦ keeps_put fun _ h ↦ h
  · have hbody : Preserves { c with labels := {} :: c.labels } (do
        copyAll i.copies
        put (.br (← depthOf i.target false))) :=
      Keeps.seq preserves_copyAll fun _ ↦ Keeps.bind keeps_depthOf fun _ ↦ keeps_put fun _ h ↦ h
    exact (keeps_inside hbody).bind fun _ ↦ keeps_put fun _ h ↦ h

theorem functionIndex_lt {functions : List (Text × Nat)} {name : Text} {n count : Nat}
    (hlt : ∀ p ∈ functions, p.2 < count) (h : functionIndex functions name = .ok n) :
    n < count := by
  unfold functionIndex at h
  split at h
  · rename_i i hi
    cases h
    obtain ⟨before, behind, heq, -⟩ := List.lookup_eq_some_iff.mp hi
    exact hlt (name, n) (by simp [heq])
  · cases h

theorem selectBinary_inScope {here : Text} {op : Ir.Opcode} {p : Prim} {i : Instruction}
    (h : selectBinary here op p = .ok i) (σ : Scope) : i.InScope σ := by
  unfold selectBinary at h
  dsimp only at h
  split at h <;> split at h <;> cases h <;> trivial

theorem preserves_binary {i : Instr} {op : Ir.Opcode} :
    Preserves c (do
      schedule i.args
      put (← ofExcept (selectBinary (← read).function.name op i.storage))
      define i) := by
  refine Keeps.seq preserves_schedule fun _ ↦ ?_
  refine keeps_read_bind (keeps_ofExcept_bind fun machine hmachine ↦ ?_)
  exact keeps_put_bind (fun _ _ ↦ selectBinary_inScope hmachine _) fun _ ↦ preserves_define

theorem preserves_putAll {is : List Instruction} (h : ∀ i ∈ is, ∀ σ, i.InScope σ) :
    Preserves c (is.forM put) :=
  preserves_forM fun i hi ↦ preserves_put (h i hi)

theorem selectEqz_inScope {p : Prim} {i : Instruction} (h : i ∈ selectEqz p) (σ : Scope) :
    i.InScope σ := by
  unfold selectEqz at h
  split at h <;> simp only [List.mem_cons, List.not_mem_nil, or_false] at h
  · exact h ▸ trivial
  · exact h ▸ trivial
  · obtain rfl | rfl := h <;> trivial
  · obtain rfl | rfl := h <;> trivial

theorem preserves_call {i : Instr} :
    Preserves c (do
      schedule i.args
      put (.call (← ofExcept (functionIndex (← read).functions i.callee)))
      define i) := by
  refine Keeps.seq preserves_schedule fun _ ↦ ?_
  refine keeps_read_bind (keeps_ofExcept_bind fun n hn ↦ ?_)
  have hcall (hlt : n < c.unit.imports.length + c.unit.funcs.length) :
      Preserves c (do
        put (.call n)
        define i) :=
    keeps_put_bind (fun _ _ ↦ hlt) fun _ ↦ preserves_define
  exact fun s hs htrue ↦ hcall (functionIndex_lt hs.functions hn) s hs htrue

theorem preserves_callIndirect {i : Instr} :
    Preserves c (do
      schedule i.args
      match i.sig with
      | none => internal "indirect call without signature"
      | some sig =>
        put (.callIndirect (← typeIndex sig))
        define i) := by
  refine Keeps.seq preserves_schedule fun _ ↦ ?_
  split
  · exact keeps_internal
  · refine Keeps.bind keeps_typeIndex fun _ ↦ ?_
    exact keeps_put_bind (fun _ h ↦ h.lt_length) fun _ ↦ preserves_define

theorem preserves_branch {i : Instr} {head : Bool} :
    Preserves c (do
      copyAll i.copies
      put (.br (← depthOf i.target head))) :=
  Keeps.seq preserves_copyAll fun _ ↦ Keeps.bind keeps_depthOf fun _ ↦ keeps_put fun _ h ↦ h

theorem preserves_generate {i : Instr} : Preserves c (generate i) := by
  unfold generate
  cases i.op with
  | phi | const | addr | funcRef | heapBase => exact preserves_pure
  | copy => exact Keeps.seq preserves_schedule fun _ ↦ preserves_define
  | add | sub | mul | div | rem | and | or | xor | shl | shr | eq | ne | lt | le | gt | ge =>
    exact preserves_binary
  | neg =>
    refine Keeps.seq preserves_schedule fun _ ↦ ?_
    refine keeps_ite (fun _ ↦ keeps_internal_bind) fun _ ↦ ?_
    exact keeps_put_bind (fun _ _ ↦ trivial) fun _ ↦ preserves_define
  | eqz =>
    refine Keeps.seq preserves_schedule fun _ ↦ ?_
    refine Keeps.seq (preserves_putAll fun _ h ↦ selectEqz_inScope h) fun _ ↦ preserves_define
  | convert =>
    refine Keeps.seq preserves_schedule fun _ ↦ keeps_ofExcept_bind fun _ _ ↦ ?_
    exact keeps_put_bind (fun _ _ ↦ trivial) fun _ ↦ preserves_define
  | load =>
    refine Keeps.seq preserves_schedule fun _ ↦ keeps_ofExcept_bind fun _ _ ↦ ?_
    exact keeps_put_bind (fun _ _ ↦ trivial) fun _ ↦ preserves_define
  | store =>
    refine Keeps.seq preserves_schedule fun _ ↦ keeps_ofExcept_bind fun _ _ ↦ ?_
    exact preserves_put fun _ ↦ trivial
  | call => exact preserves_call
  | callIndirect => exact preserves_callIndirect
  | globalGet =>
    refine Keeps.bind keeps_globalIndex fun _ ↦ ?_
    exact keeps_put_bind (fun _ h ↦ h) fun _ ↦ preserves_define
  | globalSet =>
    refine Keeps.seq preserves_schedule fun _ ↦ ?_
    exact Keeps.bind keeps_globalIndex fun _ ↦ keeps_put fun _ h ↦ h
  | ret => exact Keeps.seq preserves_schedule fun _ ↦ preserves_put fun _ ↦ trivial
  | exit => exact preserves_branch
  | next => exact preserves_branch
  | exitIf => exact preserves_exitIf
  | native => exact preserves_native
  | unreachable => exact preserves_put fun _ ↦ trivial
  | unknown => exact keeps_internal

/-! ## Blocks -/

theorem preserves_endsTerminated {ids : List BlockId} : Preserves c (endsTerminated ids) := by
  unfold endsTerminated
  split
  · exact preserves_pure
  · exact keeps_read_bind (keeps_ofExcept_bind fun _ _ ↦ preserves_pure)

theorem preserves_basicBlock {id : BlockId} {b : Block} : Preserves c (basicBlock id b) := by
  unfold basicBlock
  refine Keeps.seq (preserves_forM fun _ _ ↦ preserves_generate) fun _ ↦ ?_
  refine keeps_ite (fun _ ↦ ?_) fun _ ↦ preserves_modifyStack
  refine Keeps.seq preserves_copyAll fun _ ↦ keeps_get_bind fun _ ↦ Keeps.weaken ?_
  exact keeps_ite (fun _ ↦ keeps_throw_bind) fun _ ↦ preserves_modifyStack

/-- A construct with two bodies, the second generated behind the first. -/
theorem keeps_ifElse {body : List Instruction} {x : M Unit}
    (h : ∀ labels, Preserves { c with labels := labels } x) :
    Keeps c (fun s ↦ InstructionsInScope (scopeOf c s).inner body)
      (do put (.ifElse body (← inside {} (bodyOf x)))) fun _ _ ↦ True := by
  refine ((keeps_inside (h _)).frame fun s t hgrows hbody ↦ ?_).bind fun _ ↦ ?_
  · exact hbody.mono hgrows.scope.inner
  · exact keeps_put fun _ h ↦ h

/-- One block, when the blocks inside it keep the state in order wherever they stand. -/
theorem preserves_block {blocks : List BlockId → M Unit} {id : BlockId} {b : Block}
    (h : ∀ labels ids, Preserves { c with labels := labels } (blocks ids)) :
    Preserves c (block blocks id b) := by
  unfold block
  cases b.kind with
  | basic => exact preserves_basicBlock
  | cond =>
    refine Keeps.seq preserves_schedule fun _ ↦ ?_
    refine (keeps_inside (h _ _)).bind fun body ↦ ?_
    exact keeps_ite (fun _ ↦ keeps_put fun _ h ↦ h)
      fun _ ↦ keeps_ifElse fun _ ↦ preserves_copyAll
  | branch =>
    refine Keeps.seq preserves_schedule fun _ ↦ ?_
    refine (keeps_inside (h _ _)).bind fun body ↦ ?_
    exact keeps_ifElse fun _ ↦ h _ _
  | loop =>
    refine Keeps.seq preserves_copyAll fun _ ↦ ?_
    have hbody : Preserves { c with labels := ⟨id, true⟩ :: ⟨id, false⟩ :: c.labels } (do
        blocks b.body
        if !(← endsTerminated b.body) then put (.br 0)) := by
      refine (h _ _).seq fun _ ↦ Keeps.seq preserves_endsTerminated fun _ ↦ ?_
      refine keeps_ite (fun _ ↦ keeps_put fun s _ ↦ ?_) fun _ ↦ preserves_pure
      exact Nat.succ_pos _
    refine (keeps_inside_inside hbody).bind fun _ ↦ keeps_put fun _ h ↦ ?_
    exact ⟨h, trivial⟩
  | breakable => exact (keeps_inside (h _ _)).bind fun _ ↦ keeps_put fun _ h ↦ h
  | unknown => exact preserves_pure

/-- Blocks of any depth, wherever they stand. -/
theorem preserves_blocks {depth : Nat} {ids : List BlockId} : Preserves c (blocks depth ids) := by
  induction depth generalizing c ids with
  | zero => exact keeps_throw
  | succ depth ih =>
    unfold blocks
    refine preserves_forM fun id _ ↦ ?_
    exact keeps_read_bind (keeps_ofExcept_bind fun _ _ ↦ preserves_block fun _ _ ↦ ih)

/-- The body of a function is what was generated, with the types of the locals. -/
theorem keeps_body : Yields c body fun b s ↦
    b = { locals := s.locals.map Prod.snd, code := s.code.reverse } := by
  have hresult : Yields c (do
      let s ← get
      return { locals := s.locals.map Prod.snd, code := s.code.reverse } : M Body) fun b s ↦
        b = { locals := s.locals.map Prod.snd, code := s.code.reverse } := by
    refine keeps_get_bind fun s ↦ keeps_pure ?_
    rintro _ ⟨rfl, -⟩
    rfl
  unfold body
  refine keeps_read_bind ?_
  refine Keeps.seq preserves_blocks fun _ ↦ ?_
  refine Keeps.seq preserves_endsTerminated fun _ ↦ ?_
  refine keeps_ite (fun _ ↦ ?_) fun _ ↦ hresult
  exact keeps_put_bind (fun _ _ ↦ trivial) fun _ ↦ hresult

end Bodies

/-! ## The body of a function -/

/-- What the body of a function names: its parameters and locals, and the functions, types and
globals of the module. -/
def bodyScope (u : CodeUnit) (f : Function) (types : List FuncType) (b : Body) : Scope where
  locals := f.params.length + b.locals.length
  functions := u.imports.length + u.funcs.length
  types := types.length
  globals := 2

/-- A body whose code names only what there is, and whose locals belong to different variables of
the function and have their types. -/
structure BodyInScope (u : CodeUnit) (f : Function) (types : List FuncType) (b : Body) : Prop where
  code : InstructionsInScope (bodyScope u f types b) b.code
  locals : ∃ vs : List Var, vs.Nodup ∧
    List.Forall₂ (fun v t ↦ ∃ p, f.vars[v]? = some p ∧ p.valType = t) vs b.locals

theorem BodyInScope.length_locals_le {u : CodeUnit} {f : Function} {types : List FuncType}
    {b : Body} (h : BodyInScope u f types b) : b.locals.length ≤ f.vars.size := by
  obtain ⟨vs, hnodup, htyped⟩ := h.locals
  have hsub : vs ⊆ List.range f.vars.size := by
    intro v hv
    obtain ⟨n, hn, rfl⟩ := List.getElem_of_mem hv
    obtain ⟨p, hp, -⟩ := htyped.get hn (htyped.length_eq ▸ hn)
    exact List.mem_range.mpr (Array.getElem?_eq_some_iff.mp hp).1
  have hle := (hnodup.subperm hsub).length_le
  rw [List.length_range] at hle
  exact htyped.length_eq ▸ hle

/-- **The body that is generated for a function is in scope.** -/
theorem ensures_body {c : CodeContext} {types : List FuncType} (hlabels : c.labels = [])
    (hfunctions : ∀ p ∈ c.functions, p.2 < c.unit.imports.length + c.unit.funcs.length)
    (htypes : (types.map FuncType.key).Nodup) :
    Ensures (body.run c) { types := types } fun b s ↦
      BodyInScope c.unit c.function s.types b ∧ types <+: s.types ∧
        (s.types.map FuncType.key).Nodup := by
  have hstart : Sound c { types := types } :=
    { functions := hfunctions, types := htypes, locals := List.nodup_nil, typed := by simp,
      code := trivial }
  refine (keeps_body _ hstart trivial).imp ?_
  rintro b s ⟨hs, hgrows, rfl⟩
  refine ⟨⟨?_, ?_⟩, hgrows.types, hs.types⟩
  · refine (instructionsInScope_reverse.mpr hs.code).mono ?_
    exact { labels := by simp [scopeOf, hlabels], locals := by simp [scopeOf, bodyScope],
            functions := le_rfl, types := le_rfl, globals := le_rfl }
  · refine ⟨s.locals.map Prod.fst, hs.locals, ?_⟩
    rw [List.forall₂_map_left_iff, List.forall₂_map_right_iff, List.forall₂_same]
    exact hs.typed

end WasmBackend.Wasm.Codegen
