import WasmBackend.Proofs.Types.Names

/-!
# Building goes down to arguments

Resolving a type expression follows its parts, and it goes too deep only if they lead to an
expression that contains itself: a way down that is longer than there are expressions meets one of
them twice.

Building asks for the types of the arguments and of nothing else, and arguments have smaller
handles.  So it follows a descending chain of handles: how many types may be under construction does
not matter once it is more than the handle, no type is asked for while it is being built, and the
type built has the name of its ground type.
-/

namespace WasmBackend

open Relation (ReflTransGen TransGen)

/-! ## Expressions without end -/

namespace Program

/-- The first type expression is written with the second. -/
def Part (p : Program) (id part : TypeId) : Prop :=
  id ≠ 0 ∧ ∃ t, p.typeExpr? id = some t ∧
    match t.kind with
    | .named => part ∈ t.args
    | .pointer => part = t.elem
    | .function => part ∈ t.args ∨ part = t.elem
    | _ => False

/-- The parts of a type expression lead to one that contains itself. -/
def Endless (p : Program) (id : TypeId) : Prop :=
  ∃ part, ReflTransGen p.Part id part ∧ TransGen p.Part part part

/-- Some aggregate has a member whose type expression goes on without end. -/
def EndlessMember (p : Program) : Prop :=
  ∃ id d agg, p.decl? id = some d ∧ d.aggregate = some agg ∧ ∃ f ∈ agg.fields, p.Endless f.type

/-- The parts of a type expression go on for `depth` steps. -/
def Descends (p : Program) : Nat → TypeId → Prop
  | 0, _ => True
  | depth + 1, id => ∃ part, p.Part id part ∧ p.Descends depth part

variable {p : Program} {id : TypeId}

theorem Part.lt {part : TypeId} (hp : p.Part id part) : id.toNat - 1 < p.types.size := by
  obtain ⟨hid, t, ht, -⟩ := hp
  rw [typeExpr?, node?, if_neg hid] at ht
  exact (Array.getElem?_eq_some_iff.1 ht).1

/-- The expressions on the way down. -/
theorem Descends.exists_path {depth : Nat} (hd : p.Descends depth id) :
    ∃ path : List TypeId, path.length = depth ∧ path.IsChain p.Part ∧
      (∀ first ∈ path.head?, first = id) ∧
      ∀ part ∈ path, ReflTransGen p.Part id part ∧ part ≠ 0 ∧ part.toNat - 1 < p.types.size := by
  induction depth generalizing id with
  | zero => exact ⟨[], rfl, .nil, by simp, by simp⟩
  | succ depth ih =>
    obtain ⟨part, hpart, hd⟩ := hd
    obtain ⟨path, hlength, hchain, hfirst, hpath⟩ := ih hd
    refine ⟨id :: path, by simp [hlength], List.isChain_cons.2 ⟨fun first h ↦ ?_, hchain⟩,
      by simp, ?_⟩
    · rwa [hfirst first h]
    · intro part' hpart'
      obtain rfl | hpart' := List.mem_cons.1 hpart'
      · exact ⟨.refl, hpart.1, hpart.lt⟩
      · exact ⟨.head hpart (hpath part' hpart').1, (hpath part' hpart').2⟩

/-- A way down that is longer than there are expressions meets one of them twice. -/
theorem Descends.endless {depth : Nat} (hd : p.Descends depth id)
    (hdepth : p.types.size < depth) : p.Endless id := by
  by_contra hnot
  obtain ⟨path, rfl, hchain, -, hpath⟩ := hd.exists_path
  have hbefore : path.Pairwise (TransGen p.Part) := (hchain.imp fun _ _ ↦ .single).pairwise
  have hnodup : path.Nodup := by
    refine hbefore.imp_of_mem fun {x y} hx _ hxy heq ↦ hnot ?_
    exact ⟨x, (hpath x hx).1, heq ▸ hxy⟩
  have hindices : (path.map fun part ↦ part.toNat - 1).Nodup := by
    refine hnodup.map_on fun x hx y hy heq ↦ UInt32.toNat_inj.1 ?_
    have hpos {z : TypeId} (hz : z ∈ path) : 0 < z.toNat :=
      Nat.pos_of_ne_zero fun h ↦ (hpath z hz).2.1 (UInt32.toNat_inj.1 h)
    exact Nat.sub_one_cancel (hpos hx) (hpos hy) heq
  have hsubset : (path.map fun part ↦ part.toNat - 1) ⊆ List.range p.types.size := by
    intro i hi
    obtain ⟨part, hpart, rfl⟩ := List.mem_map.1 hi
    exact List.mem_range.2 (hpath part hpart).2.2
  refine absurd (hindices.subperm hsubset).length_le (Nat.not_le.2 ?_)
  rwa [List.length_map, List.length_range]

end Program

/-! ## Failures without circles -/

/-- No circle is behind a failure: it is not that of a type asked for while it is being built, and
a recursion went too deep only if `endless`. -/
structure Failure.Acyclic (endless : Prop) (e : Failure) : Prop where
  ne_circular : ∀ key, e ≠ .internal ("get: " ++ key ++ " materialized recursively")
  endless : e = .exhausted → endless

namespace Failure

variable {q q' : Prop} {e : Failure}

theorem Acyclic.mono (he : e.Acyclic q) (h : q → q') : e.Acyclic q' :=
  ⟨he.ne_circular, fun hexhausted ↦ h (he.endless hexhausted)⟩

theorem acyclic_exhausted (h : q) : Failure.exhausted.Acyclic q :=
  ⟨nofun, fun _ ↦ h⟩

theorem acyclic_fault : Failure.fault.Acyclic q :=
  ⟨nofun, nofun⟩

/-- The failures of looking something up start with another letter. -/
theorem acyclic_of_head? {message : Text} (h : message.bytes.head? ≠ some 103) :
    (Failure.internal message).Acyclic q where
  ne_circular := by
    rintro key ⟨⟩
    exact h rfl
  endless := nofun

/-- The failure of building no type ends with another letter. -/
theorem acyclic_of_getLast? {message : Text} (h : message.bytes.getLast? ≠ some 121) :
    (Failure.internal message).Acyclic q where
  ne_circular := by
    rintro key ⟨⟩
    refine h ?_
    rw [Text.bytes_append, List.getLast?_append]
    rfl
  endless := nofun

end Failure

namespace TypeStore

open Stage (Meets Ensures)

variable {s s' : TypeStore} {h : Handle} {p : Program} {q : Prop}

/-! ## How resolving ends -/

/-- Making a handle builds no type, and it works only for a template that takes the arguments. -/
theorem meets_specialize (identity : Text) (args : List Handle) :
    Meets (specialize identity args) s (Failure.Acyclic q) fun _ s' ↦
      s.MakesOnly s' ∧ s.Accepts identity args.length := by
  unfold specialize
  rw [Stage.meets_bind, Stage.meets_get]
  cases ht : s.template? identity with
  | none => exact Failure.acyclic_of_head? (by show some (115 : UInt8) ≠ _; decide)
  | some t =>
    have hpush (hcount : ∀ n, t.arity s.program = some n → n = args.length) : s.MakesOnly
        { s with applications := s.applications.push { template := t, args := args } } := by
      refine ⟨fun h u hu ↦ ?_, fun hs h a ha ↦ ?_⟩
      · obtain rfl | hh := eq_or_ne h 0
        · exact hu
        obtain ⟨a, ha, hau⟩ := exists_of_type? hu hh
        rw [application?_push] at ha
        split at ha
        · cases ha
          cases hau
        · exact (type?_eq ha).trans hau
      · rw [application?_push] at ha
        split at ha
        · cases ha
          exact hcount
        · exact hs h a ha
    cases harity : t.arity s.program with
    | none =>
      have hcount : ∀ n, t.arity s.program = some n → n = args.length := by simp [harity]
      have haccepts : s.Accepts identity args.length := ⟨t, ht, hcount⟩
      cases hh : s.handle? identity args with
      | some h => simpa [harity, hh] using ⟨MakesOnly.refl s, haccepts⟩
      | none => simpa [harity, hh] using ⟨hpush hcount, haccepts⟩
    | some arity =>
      by_cases hlen : arity = args.length
      · have hcount : ∀ n, t.arity s.program = some n → n = args.length := by simp [harity, hlen]
        have haccepts : s.Accepts identity args.length := ⟨t, ht, hcount⟩
        cases hh : s.handle? identity args with
        | some h => simpa [harity, hlen, hh] using ⟨MakesOnly.refl s, haccepts⟩
        | none => simpa [harity, hlen, hh] using ⟨hpush hcount, haccepts⟩
      · simp only [harity, if_pos hlen]
        exact Failure.acyclic_of_head? (by show some (115 : UInt8) ≠ _; decide)

theorem primIdentity_ne : ∀ x ∈ Prim.known.tail,
    primIdentity x ≠ primIdentity .none ∧ primIdentity x ≠ "prim:" ++ "prim?" := by
  decide

theorem native_prim_of_identity {t : Template} (ht : t.Native p) {x : Prim}
    (h : t.identity = primIdentity x) : (Template.prim x).Native p := by
  have hmark := ht.mark.symm.trans (congrArg (fun i ↦ i.bytes.take 2) h)
  obtain ⟨y, hy, rfl⟩ | rfl | rfl | ⟨id, rfl⟩ := ht.cases
  · have hknown : x ∈ Prim.known.tail := by
      cases x with
      | none => exact absurd h (primIdentity_ne y hy).1
      | unknown c hc => exact absurd h (primIdentity_ne y hy).2
      | _ => decide
    rwa [Template.primIdentity_injOn x hknown y hy h.symm]
  all_goals cases hmark

theorem meets_prim (hs : s.Standard) (x : Prim) :
    Meets (prim x) s (Failure.Acyclic q) fun _ s' ↦
      s.MakesOnly s' ∧ (x = .none ∨ (Template.prim x).Native s.program) := by
  unfold prim
  split
  · exact ⟨.refl s, .inl ‹_›⟩
  · refine (meets_specialize _ _).imp ?_
    rintro h s' ⟨hmakes, t, ht, -⟩
    have hnative : t.Native s.program := by
      have := List.mem_of_find?_eq_some ht
      rwa [hs.templates] at this
    exact ⟨hmakes, .inr (native_prim_of_identity hnative (template?_identity ht))⟩

theorem meets_instantiate (hs : s.Standard) (decl : DeclId) (args : List Handle) :
    Meets (instantiate decl args) s (Failure.Acyclic q) fun _ s' ↦
      s.MakesOnly s' ∧ (Template.aggregate decl).Native s.program ∧
        (Template.aggregate decl).arity s.program = some (args.length : Int) := by
  unfold instantiate
  rw [Stage.meets_bind, Stage.meets_get, Stage.meets_ite]
  refine ⟨fun hany ↦ ?_, fun _ ↦ ?_⟩
  · have hnative : (Template.aggregate decl).Native s.program := by
      obtain ⟨t, ht, heq⟩ := List.any_eq_true.1 hany
      rw [hs.templates] at ht
      rwa [of_decide_eq_true heq] at ht
    refine (meets_specialize _ _).imp ?_
    rintro h s' ⟨hmakes, t, ht, harity⟩
    obtain rfl : t = .aggregate decl :=
      Option.some.inj (ht.symm.trans (hs.template?_eq hnative))
    exact ⟨hmakes, hnative, congrArg some (harity _ rfl)⟩
  · exact Failure.acyclic_of_head? (by show some (105 : UInt8) ≠ _; decide)

/-- Resolving builds no type, returns only for an expression that names what there is, and goes too
deep only where the expression does. -/
theorem meets_resolveWithin (hp : s.program = p) (hs : s.Standard) (depth : Nat) (id : TypeId)
    {scope : List Handle} (hscope : ∀ g ∈ scope, g < s.size) :
    Meets (resolveWithin depth id scope) s (Failure.Acyclic (p.Descends depth id)) fun _ s' ↦
      s.MakesOnly s' ∧ p.ResolvesWithin scope.length depth id := by
  induction depth generalizing id s with
  | zero => exact Failure.acyclic_exhausted trivial
  | succ depth ih =>
    have part (a : TypeId) {t : TypeStore} (ht : s.Enlarges t) :
        Meets (resolveWithin depth a scope) t (Failure.Acyclic (p.Descends depth a)) fun _ t' ↦
          (t.MakesOnly t' ∧ p.ResolvesWithin scope.length depth a) ∧ t.Enlarges t' := by
      have hmakes := makes_resolveWithin (ht.program.trans hp) (ht.standard hs) depth a
        (ht.all_lt_size hscope)
      exact ((ih (ht.program.trans hp) (ht.standard hs) a (ht.all_lt_size hscope)).and
        hmakes.2.ensures).imp fun _ _ h ↦ ⟨h.1, h.2.1⟩
    have all (ids : List TypeId) :
        Meets (ids.mapM fun a ↦ resolveWithin depth a scope) s
          (Failure.Acyclic (∃ a ∈ ids, p.Descends depth a)) fun hs t ↦
          (s.MakesOnly t ∧ ∀ a ∈ ids, p.ResolvesWithin scope.length depth a) ∧
            s.Enlarges t ∧ hs.length = ids.length := by
      refine Stage.meets_mapM (fun done hs t ↦
        (s.MakesOnly t ∧ ∀ a ∈ done, p.ResolvesWithin scope.length depth a) ∧
          s.Enlarges t ∧ hs.length = done.length) ⟨⟨.refl s, by simp⟩, .refl s, rfl⟩ ?_
      rintro done a rest hs t rfl ⟨⟨hmakes, hdone⟩, ht, hlength⟩
      refine (part a ht).mono (fun _ he ↦ he.mono fun hd ↦ ⟨a, by simp, hd⟩) ?_
      rintro h t' ⟨⟨hmakes', ha⟩, ht'⟩
      refine ⟨⟨hmakes.trans hmakes', fun b hb ↦ ?_⟩, ht.trans ht', by simp [hlength]⟩
      obtain hb | hb := List.mem_append.1 hb
      · exact hdone b hb
      · rwa [List.mem_singleton.1 hb]
    unfold resolveWithin
    by_cases hid : id = 0
    · simp only [hid, if_true]
      exact ⟨.refl s, .inl rfl⟩
    simp only [hid, if_false]
    rw [Stage.meets_bind, Stage.meets_get, hp]
    cases ht : p.typeExpr? id with
    | none => exact Failure.acyclic_of_head? (by show some (114 : UInt8) ≠ _; decide)
    | some t =>
      have descend {a : TypeId} (hpart : p.Part id a) (hd : p.Descends depth a) :
          p.Descends (depth + 1) id := ⟨a, hpart, hd⟩
      simp only [Program.resolvesWithin_succ hid ht]
      cases hk : t.kind <;> simp only
      case void => exact ⟨.refl s, trivial⟩
      case prim => exact hp ▸ meets_prim hs t.prim
      case named =>
        rw [Stage.meets_bind]
        refine (all t.args).mono (fun _ he ↦ he.mono ?_) ?_
        · rintro ⟨a, ha, hd⟩
          exact descend ⟨hid, t, ht, by rwa [hk]⟩ hd
        · rintro args s₁ ⟨⟨hmakes, hall⟩, h₁, hlength⟩
          refine (meets_instantiate (h₁.standard hs) t.decl args).imp ?_
          rintro h s₂ ⟨hmakes', hnative, harity⟩
          rw [h₁.program, hp] at hnative harity
          rw [hlength] at harity
          exact ⟨hmakes.trans hmakes', hnative, harity, hall⟩
      case param =>
        cases hi : scope[t.index.toNat]? with
        | none => exact Failure.acyclic_of_head? (by show some (114 : UInt8) ≠ _; decide)
        | some h => exact ⟨.refl s, (List.getElem?_eq_some_iff.1 hi).1⟩
      case pointer =>
        rw [Stage.meets_bind]
        refine (part t.elem (.refl s)).mono
          (fun _ he ↦ he.mono (descend ⟨hid, t, ht, by rw [hk]⟩)) ?_
        rintro elem s₁ ⟨⟨hmakes, helem⟩, -⟩
        exact (meets_specialize _ _).imp fun _ _ h ↦ ⟨hmakes.trans h.1, helem⟩
      case function =>
        rw [Stage.meets_bind]
        refine (all t.args).mono (fun _ he ↦ he.mono ?_) ?_
        · rintro ⟨a, ha, hd⟩
          exact descend ⟨hid, t, ht, by rw [hk]; exact .inl ha⟩ hd
        rintro params s₁ ⟨⟨hmakes, hall⟩, h₁, -⟩
        rw [Stage.meets_bind]
        refine (part t.elem h₁).mono
          (fun _ he ↦ he.mono (descend ⟨hid, t, ht, by rw [hk]; exact .inr rfl⟩)) ?_
        rintro result s₂ ⟨⟨hmakes', hresult⟩, -⟩
        exact (meets_specialize _ _).imp fun _ _ h ↦
          ⟨(hmakes.trans hmakes').trans h.1, hall, hresult⟩
      case unknown => exact Failure.acyclic_of_head? (by show some (114 : UInt8) ≠ _; decide)

theorem meets_resolve (hs : s.Standard) (id : TypeId) {scope : List Handle}
    (hscope : ∀ g ∈ scope, g < s.size) :
    Meets (resolve id scope) s (Failure.Acyclic (s.program.Endless id)) fun h s' ↦
      (s.Enlarges s' ∧ h < s'.size) ∧ s.MakesOnly s' ∧ s.program.Resolves scope.length id := by
  unfold resolve
  rw [Stage.meets_bind, Stage.meets_get]
  have hmakes := makes_resolveWithin rfl hs (s.program.types.size + 2) id hscope
  refine ((meets_resolveWithin rfl hs _ id hscope).and hmakes.2.ensures).mono
    (fun _ he ↦ he.mono fun hd ↦ hd.endless (by omega)) fun _ _ h ↦ h.symm

end TypeStore

namespace Stage

variable {ε σ α β : Type} {x y : ExceptT ε (StateM σ) α} {s : σ} {inv : σ → Prop}

/-- From `s` both computations do the same, and where they return the invariant holds. -/
def Agree (inv : σ → Prop) (x y : ExceptT ε (StateM σ) α) (s : σ) : Prop :=
  x s = y s ∧ Ensures y s fun _ t ↦ inv t

theorem agree_pure {a : α} (hs : inv s) :
    Agree inv (pure a : ExceptT ε (StateM σ) α) (pure a) s :=
  ⟨rfl, hs⟩

theorem Agree.bind_eq {f g : α → ExceptT ε (StateM σ) β} (h : Agree inv x y s)
    (hfg : ∀ a t, inv t → f a t = g a t) : (x >>= f) s = (y >>= g) s := by
  obtain ⟨heq, hinv⟩ := h
  rw [bind_apply, bind_apply, heq]
  rcases hy : y s with ⟨_ | a, t⟩
  · rfl
  · exact hfg a t (hinv.of_eq hy)

theorem Agree.bind {f g : α → ExceptT ε (StateM σ) β} (h : Agree inv x y s)
    (hfg : ∀ a t, inv t → Agree inv (f a) (g a) t) : Agree inv (x >>= f) (y >>= g) s :=
  ⟨h.bind_eq fun a t ht ↦ (hfg a t ht).1, meets_bind.2 (h.2.imp fun a t ht ↦ (hfg a t ht).2)⟩

theorem agree_get_bind {f g : σ → ExceptT ε (StateM σ) β} (h : Agree inv (f s) (g s) s) :
    Agree inv (get >>= f) (get >>= g) s :=
  h

theorem agree_modify_bind {u : σ → σ} {f g : PUnit → ExceptT ε (StateM σ) β}
    (h : Agree inv (f ⟨⟩) (g ⟨⟩) (u s)) : Agree inv (modify u >>= f) (modify u >>= g) s :=
  h

theorem agree_mapM {f g : α → ExceptT ε (StateM σ) β} {l : List α} (hs : inv s)
    (h : ∀ a ∈ l, ∀ t, inv t → Agree inv (f a) (g a) t) : Agree inv (l.mapM f) (l.mapM g) s := by
  induction l generalizing s with
  | nil => exact agree_pure hs
  | cons a l ih =>
    rw [List.mapM_cons, List.mapM_cons]
    refine (h a (by simp) s hs).bind fun b t ht ↦ ?_
    refine (ih ht fun c hc ↦ h c (by simp [hc])).bind fun bs u hu ↦ ?_
    exact agree_pure hu

end Stage

namespace TypeStore

open Stage (Meets Agree agree_pure agree_get_bind agree_modify_bind agree_mapM
  ensures_true)

variable {s s' : TypeStore} {h g : Handle} {p : Program} {a : Application}
  {build build' : Handle → M ConcreteType}

/-! ## Only arguments are asked for -/

section Congr

variable {inv : TypeStore → Prop}

theorem agree_shortName (hs : inv s) (hbuild : Agree inv (build g) (build' g) s) :
    Agree inv (shortName build g) (shortName build' g) s := by
  unfold shortName
  by_cases hg : g = 0
  · simp only [hg, if_true]
    exact agree_pure hs
  simp only [hg, if_false]
  refine agree_get_bind ?_
  cases s.application? g with
  | none => exact ⟨rfl, trivial⟩
  | some b =>
    by_cases hbuilding : b.building
    · simp only [hbuilding, if_true]
      exact agree_pure hs
    · simp only [hbuilding, Bool.false_eq_true, if_false]
      exact hbuild.bind fun t u hu ↦ agree_pure hu

theorem agree_mangleWith (name : Text) {args : List Handle} (hs : inv s)
    (hbuild : ∀ g ∈ args, ∀ t, inv t → Agree inv (build g) (build' g) t) :
    Agree inv (mangleWith build name args) (mangleWith build' name args) s := by
  unfold mangleWith
  split
  · exact agree_pure hs
  · refine (agree_mapM hs fun g hg t ht ↦ ?_).bind fun names t ht ↦ agree_pure ht
    exact (hbuild g hg t ht).bind fun u t ht ↦ agree_pure ht

/-- Two ways to build types that agree on the arguments of an application build the same type. -/
theorem materialize_congr (hnative : a.template.Native p)
    (hbuild : ∀ g ∈ a.args, ∀ t, inv t → Agree inv (build g) (build' g) t) (hs : inv s) :
    materialize build h a s = materialize build' h a s := by
  have hname (g : Handle) (hg : g ∈ a.args) (t : TypeStore) (ht : inv t) :
      Agree inv (shortName build g) (shortName build' g) t :=
    agree_shortName ht (hbuild g hg t ht)
  unfold materialize
  rw [Stage.bind_apply, Stage.bind_apply, Stage.get_apply]
  obtain ⟨x, -, htemplate⟩ | htemplate | htemplate | ⟨id, htemplate⟩ := hnative.cases <;>
    simp only [htemplate]
  · -- a pointer
    cases hargs : a.args with
    | nil => rfl
    | cons elem rest =>
      exact (hname elem (by simp [hargs]) s hs).bind_eq fun _ _ _ ↦ rfl
  · -- a function type
    cases hlast : a.args.getLast? with
    | none => rfl
    | some result =>
      refine (agree_mapM hs fun g hg ↦ hname g (List.mem_of_mem_dropLast hg)).bind_eq
        fun names t ht ↦ ?_
      exact (hname result (List.mem_of_getLast? hlast) t ht).bind_eq fun _ _ _ ↦ rfl
  · -- an aggregate
    cases hd : s.program.decl? id with
    | none => rfl
    | some d =>
      cases hagg : d.aggregate with
      | none => simp only [Stage.some!, hagg, pure_bind]; rfl
      | some agg =>
        simp only [Stage.some!, hagg, pure_bind]
        exact (agree_mangleWith d.name hs hbuild).bind_eq fun _ _ _ ↦ rfl

end Congr

/-- A template asks for the types of the arguments and of nothing else. -/
theorem materialize_eq_of_args (hnative : a.template.Native p)
    (hbuild : ∀ g ∈ a.args, build g = build' g) :
    materialize build h a = materialize build' h a := by
  funext s
  have hagree (g : Handle) (hg : g ∈ a.args) (t : TypeStore) (_ : True) :
      Agree (fun _ ↦ True) (build g) (build' g) t := ⟨congrFun (hbuild g hg) t, ensures_true⟩
  exact materialize_congr hnative hagree trivial

/-- How many types may be under construction does not matter, if they are more than the handle. -/
theorem getWithin_eq (hs : s.Standard) {depth depth' : Nat} (hdepth : h < depth)
    (hdepth' : h < depth') : getWithin depth h s = getWithin depth' h s := by
  induction depth generalizing depth' h s with
  | zero => exact absurd hdepth (Nat.not_lt_zero h)
  | succ depth ih =>
    cases depth' with
    | zero => exact absurd hdepth' (Nat.not_lt_zero h)
    | succ depth' =>
      suffices hagree : Agree (fun _ ↦ True) (getWithin (depth + 1) h) (getWithin (depth' + 1) h) s
        from hagree.1
      have same {α : Type} (x : M α) (t : TypeStore) : Agree (fun _ ↦ True) x x t :=
        ⟨rfl, ensures_true⟩
      unfold getWithin
      by_cases hh : h = 0
      · simp only [hh, if_true]
        exact same _ s
      simp only [hh, if_false]
      refine agree_get_bind ?_
      cases ha : s.application? h with
      | none => exact same _ s
      | some a =>
        simp only
        cases ht : a.type with
        | some t => exact same _ s
        | none =>
          simp only
          by_cases hbuilding : a.building
          · simp only [hbuilding, if_true]
            exact ⟨rfl, ensures_true⟩
          simp only [hbuilding, Bool.false_eq_true, if_false]
          refine agree_modify_bind ?_
          have hmark : (s.mark h true).Standard := (follows_mark true).standard hs
          have hbuilt : materialize (getWithin depth) h a (s.mark h true) =
              materialize (getWithin depth') h a (s.mark h true) := by
            refine materialize_congr (hs.native ha) (fun g hg t (ht : t.Standard) ↦ ?_) hmark
            have hgh : g < h := hs.ordered.args_lt h a ha g hg
            have hlt : g < depth := hgh.trans_le (Nat.le_of_lt_succ hdepth)
            have hlt' : g < depth' := hgh.trans_le (Nat.le_of_lt_succ hdepth')
            exact ⟨ih ht hlt hlt', (leaves_getWithin ht depth' hlt').2.ensures.imp fun _ _ h ↦
              h.1.standard ht⟩
          exact Agree.bind ⟨hbuilt, ensures_true⟩ fun r t _ ↦ same _ t

/-! ## Names of what is built -/

/-- Building a type fails without a circle, or it leaves types with the names of their ground
types. -/
abbrev NamesAt (p : Program) (build : Handle → M ConcreteType) (s : TypeStore) (g : Handle) :
    Prop :=
  Meets (build g) s (Failure.Acyclic p.EndlessMember) fun t s' ↦ s.Grows s' ∧ s'.type? g = some t

theorem meets_shortName (hs : s.WellNamed) (hi : s.Idle g) (hlt : g < s.size)
    (hbuild : NamesAt p build s g) :
    Meets (shortName build g) s (Failure.Acyclic p.EndlessMember) fun name s' ↦
      s.Grows s' ∧ s'.Named g name := by
  unfold shortName
  obtain rfl | hg := eq_or_ne g 0
  · exact ⟨hs.grows_refl, named_void s⟩
  obtain ⟨b, hb⟩ := exists_application hg hlt
  simp only [hg, if_false, Stage.meets_bind, Stage.meets_get, hb, hi g le_rfl b hb,
    Bool.false_eq_true, Stage.meets_pure]
  exact hbuild.imp fun t s' h ↦ ⟨h.1, h.1.wellNamed.named g t h.2⟩

/-- The names of several types one after another. -/
theorem meets_names {f : Handle → M Text} {hs : List Handle} (hwell : s.WellNamed) {q : Prop}
    (hf : ∀ g ∈ hs, ∀ t, s.Grows t →
      Meets (f g) t (Failure.Acyclic q) fun name t' ↦ t.Grows t' ∧ t'.Named g name) :
    Meets (hs.mapM f) s (Failure.Acyclic q) fun names s' ↦
      s.Grows s' ∧ List.Forall₂ s'.Named hs names := by
  refine Stage.meets_mapM (fun done names t ↦ s.Grows t ∧ List.Forall₂ t.Named done names)
    ⟨hwell.grows_refl, .nil⟩ ?_
  rintro done g rest names t rfl ⟨ht, hnames⟩
  refine (hf g (by simp) t ht).imp ?_
  rintro name t' ⟨ht', hname⟩
  refine ⟨ht.trans ht', List.rel_append (hnames.imp fun _ _ hn ↦ ?_) (.cons hname .nil)⟩
  exact ht'.toFollows.named ht.wellNamed.ordered hn

theorem meets_mangleWith (hs : s.WellNamed) (name : Text) {args : List Handle}
    (hbuild : ∀ g ∈ args, ∀ t, s.Grows t → NamesAt p build t g) :
    Meets (mangleWith build name args) s (Failure.Acyclic p.EndlessMember) fun n s' ↦
      s.Grows s' ∧ ∃ names, List.Forall₂ s'.Named args names ∧
        n = if names.isEmpty then name else name ++ "<" ++ Text.join "," names ++ ">" := by
  unfold mangleWith
  cases args with
  | nil => exact ⟨hs.grows_refl, [], .nil, rfl⟩
  | cons g args =>
    simp only [List.isEmpty_cons, Bool.false_eq_true, if_false, Stage.meets_bind]
    refine (meets_names hs fun g hg t ht ↦ ?_).imp ?_
    · rw [Stage.meets_bind]
      exact (hbuild g hg t ht).imp fun u t' h ↦ ⟨h.1, h.1.wellNamed.named g u h.2⟩
    · rintro names s' ⟨h₁, hnames⟩
      refine ⟨h₁, names, hnames, ?_⟩
      cases hnames
      rfl

theorem meets_membersOf (hs : s.WellNamed) (fields : List Field) {args : List Handle}
    (hargs : ∀ g ∈ args, g < s.size) :
    Meets (membersOf fields args) s
      (Failure.Acyclic (∃ f ∈ fields, s.program.Endless f.type)) fun _ s' ↦
      s.Grows s' ∧ ∀ f ∈ fields, s.program.Resolves args.length f.type := by
  unfold membersOf
  rw [Stage.meets_bind]
  simp only [Stage.meets_pure]
  refine Stage.meets_mapM (fun done _ t ↦
    s.Grows t ∧ ∀ f ∈ done, s.program.Resolves args.length (Field.type f))
    ⟨hs.grows_refl, by simp⟩ ?_
  rintro done f rest pairs t rfl ⟨ht, hdone⟩
  rw [Stage.meets_bind]
  have hresolve := meets_resolve ht.wellNamed.toStandard f.type (ht.all_lt_size hargs)
  rw [ht.program] at hresolve
  refine hresolve.mono (fun _ he ↦ he.mono fun hd ↦ ⟨f, by simp, hd⟩) ?_
  rintro h t' ⟨⟨ht', hlt⟩, hmakes, hf⟩
  obtain ⟨k, hk⟩ := exists_kindOf hlt
  simp only [Stage.meets_bind, Stage.meets_get, hk, Stage.meets_ofExcept, Stage.meets_pure]
  refine ⟨ht.trans (ht'.grows ht.wellNamed hmakes), fun f' hf' ↦ ?_⟩
  obtain hf' | hf' := List.mem_append.1 hf'
  · exact hdone f' hf'
  · rwa [List.mem_singleton.1 hf']

theorem eq_fault_of_orFault_bind {α β : Type} {x : Option α} {f : α → Except Failure β}
    {e : Failure} (hf : ∀ y, f y = .error e → e = .fault) (h : orFault x >>= f = .error e) :
    e = .fault := by
  cases x with
  | none =>
    cases h
    rfl
  | some y => exact hf y h

theorem eq_fault_of_foldlM {α β : Type} {f : β → α → Except Failure β}
    (hf : ∀ b a e, f b a = .error e → e = .fault) {l : List α} {b : β} {e : Failure}
    (h : l.foldlM f b = .error e) : e = .fault := by
  induction l generalizing b with
  | nil => cases h
  | cons a l ih =>
    rw [List.foldlM_cons] at h
    cases hb : f b a with
    | error e' =>
      rw [hb] at h
      cases h
      exact hf b a e hb
    | ok b' =>
      rw [hb] at h
      exact ih h

/-- The table of methods is missing only where a declaration is. -/
theorem eq_fault_of_methodTable {ids : List DeclId} {e : Failure}
    (h : methodTable p ids = .error e) : e = .fault :=
  eq_fault_of_foldlM (fun _ _ _ he ↦ eq_fault_of_orFault_bind (fun _ h ↦ by cases h) he) h

/-- The table of operators is missing only where a declaration or a function is. -/
theorem eq_fault_of_operatorTable {ids : List DeclId} {e : Failure}
    (h : operatorTable p ids = .error e) : e = .fault := by
  refine eq_fault_of_foldlM (fun _ _ _ he ↦ ?_) h
  refine eq_fault_of_orFault_bind (fun _ h ↦ ?_) he
  exact eq_fault_of_orFault_bind (fun _ h ↦ by cases h) h

/-- A template fails without a circle, and what it builds has the name of the ground type. -/
abbrev MaterializesNamed (p : Program) (build : Handle → M ConcreteType) (s : TypeStore)
    (h : Handle) (a : Application) : Prop :=
  Meets (materialize build h a) s (Failure.Acyclic p.EndlessMember) fun r s' ↦
    s.Grows s' ∧ ∀ t, r = some t → s'.Named h t.name

theorem Grows.named_apply (hg : s.Grows s') (hp : s.program = p) (ha : s.application? h = some a)
    {names : List Text} (hcomplete : a.template.Complete p a.args)
    (hn : List.Forall₂ s'.Named a.args names) : s'.Named h (a.template.nameFrom p names) := by
  obtain ⟨b, hb, htemplate, hargs⟩ := hg.application? ha
  have hprogram : s'.program = p := hg.program.trans hp
  have happly : s'.Named h (b.template.nameFrom s'.program names) :=
    hg.wellNamed.named_apply hb (by rwa [htemplate, hargs, hprogram]) (by rwa [hargs])
  rwa [htemplate, hprogram] at happly

/-- An argument of an application is named when the application is built. -/
theorem meets_argumentName (hs : s.WellNamed) (ha : s.application? h = some a)
    (hbuild : ∀ g ∈ a.args, ∀ t, s.Grows t → NamesAt p build t g) (hi : ∀ g ∈ a.args, s.Idle g)
    (hmem : g ∈ a.args) (hg : s.Grows s') :
    Meets (shortName build g) s' (Failure.Acyclic p.EndlessMember) fun name t ↦
      s'.Grows t ∧ t.Named g name :=
  meets_shortName hg.wellNamed (hg.idle (hi g hmem))
    (hg.lt_size (hs.ordered.args_lt_size ha g hmem)) (hbuild g hmem s' hg)

section Materialize

variable (hs : s.WellNamed) (hp : s.program = p) (ha : s.application? h = some a)

include hs hp ha

theorem meets_materialize_prim {x : Prim} (htemplate : a.template = .prim x) :
    MaterializesNamed p build s h a := by
  unfold MaterializesNamed materialize
  simp only [Stage.meets_bind, Stage.meets_get, htemplate]
  refine ⟨hs.grows_refl, ?_⟩
  rintro t ⟨⟩
  have hargs : a.args = [] := by
    simpa [htemplate, Template.arity, eq_comm] using hs.counted h a ha 0
  have hcomplete : a.template.Complete p a.args := htemplate ▸ trivial
  have hnames : List.Forall₂ s.Named a.args [] := hargs ▸ .nil
  simpa [htemplate, Template.nameFrom] using hs.grows_refl.named_apply hp ha hcomplete hnames

variable (hbuild : ∀ g ∈ a.args, ∀ t, s.Grows t → NamesAt p build t g)

include hbuild

theorem meets_materialize_aggregate {id : DeclId} (htemplate : a.template = .aggregate id) :
    MaterializesNamed p build s h a := by
  unfold MaterializesNamed materialize
  rw [Stage.meets_bind, Stage.meets_get, hp]
  simp only [htemplate]
  cases hd : p.decl? id with
  | none => exact Failure.acyclic_fault
  | some d =>
    cases hagg : d.aggregate with
    | none =>
      simp only [Stage.some!, hagg, Stage.meets_bind, Stage.meets_pure]
      exact Failure.acyclic_fault
    | some agg =>
      simp only [Stage.some!, hagg, Stage.meets_bind, Stage.meets_pure]
      refine (meets_mangleWith hs d.name hbuild).imp ?_
      rintro name s₁ ⟨h₁, names, hnames, rfl⟩
      have hmembers := meets_membersOf h₁.wellNamed agg.fields
        (h₁.all_lt_size (hs.ordered.args_lt_size ha))
      rw [h₁.program, hp] at hmembers
      refine hmembers.mono (fun _ he ↦ he.mono fun hd' ↦ ⟨id, d, agg, hd, hagg, hd'⟩) ?_
      rintro ⟨members, deps⟩ s₂ ⟨h₂, hresolves⟩
      cases hmethods : methodTable p agg.methods with
      | error e =>
        rw [eq_fault_of_methodTable hmethods]
        exact Failure.acyclic_fault
      | ok methods =>
        cases hoperators : operatorTable p agg.operators with
        | error e =>
          rw [eq_fault_of_operatorTable hoperators]
          exact Failure.acyclic_fault
        | ok operators =>
          simp only [Stage.meets_ofExcept]
          refine ⟨h₁.trans h₂, ?_⟩
          rintro t ⟨⟩
          have hcomplete : a.template.Complete p a.args := htemplate ▸
            ⟨d, agg, hd, hagg, hresolves, ⟨methods, hmethods⟩, operators, hoperators⟩
          have hnames' := hnames.imp fun _ _ ↦ h₂.toFollows.named h₁.wellNamed.ordered
          simpa [htemplate, Template.nameFrom, hd] using
            (h₁.trans h₂).named_apply hp ha hcomplete hnames'

variable (hi : ∀ g ∈ a.args, s.Idle g)

include hi

theorem meets_materialize_pointer (htemplate : a.template = .pointer) :
    MaterializesNamed p build s h a := by
  obtain ⟨elem, hargs⟩ : ∃ elem, a.args = [elem] := by
    rw [← List.length_eq_one_iff]
    exact (Int.natCast_inj.1 (hs.counted h a ha 1 (htemplate ▸ rfl))).symm
  have hname := meets_argumentName hs ha hbuild hi (g := elem) (by simp [hargs]) hs.grows_refl
  unfold MaterializesNamed materialize
  simp only [Stage.meets_bind, Stage.meets_get, htemplate, hargs, List.head?_cons, Stage.some!,
    Stage.meets_pure]
  refine hname.imp ?_
  rintro name s₁ ⟨h₁, hn⟩
  refine ⟨h₁, ?_⟩
  rintro t ⟨⟩
  have hcomplete : a.template.Complete p a.args := by simp [htemplate, Template.Complete, hargs]
  have hnames : List.Forall₂ s₁.Named a.args [name] := hargs ▸ .cons hn .nil
  simpa [htemplate, Template.nameFrom] using h₁.named_apply hp ha hcomplete hnames

theorem meets_materialize_function (htemplate : a.template = .function) :
    MaterializesNamed p build s h a := by
  have hname (g : Handle) (hg : g ∈ a.args) (t : TypeStore) (ht : s.Grows t) :=
    meets_argumentName hs ha hbuild hi hg ht
  unfold MaterializesNamed materialize
  simp only [Stage.meets_bind, Stage.meets_get, htemplate]
  cases hlast : a.args.getLast? with
  | none =>
    refine ⟨hs.grows_refl, ?_⟩
    rintro t ⟨⟩
  | some result =>
    have hresult : result ∈ a.args := List.mem_of_getLast? hlast
    have hargs : a.args.dropLast ++ [result] = a.args := List.dropLast_append_getLast? _ hlast
    simp only [Stage.meets_bind, Stage.meets_pure]
    refine (meets_names hs fun g hg ↦ hname g (List.mem_of_mem_dropLast hg)).imp ?_
    rintro names s₁ ⟨h₁, hnames⟩
    refine (hname result hresult s₁ h₁).imp ?_
    rintro name s₂ ⟨h₂, hn⟩
    refine ⟨h₁.trans h₂, ?_⟩
    rintro t ⟨⟩
    have hall : List.Forall₂ s₂.Named a.args (names ++ [name]) := by
      rw [← hargs]
      refine List.rel_append (hnames.imp fun _ _ hn ↦ ?_) (.cons hn .nil)
      exact h₂.toFollows.named h₁.wellNamed.ordered hn
    have hcomplete : a.template.Complete p a.args := htemplate ▸ List.ne_nil_of_mem hresult
    simpa [htemplate, Template.nameFrom] using (h₁.trans h₂).named_apply hp ha hcomplete hall

theorem meets_materialize : MaterializesNamed p build s h a := by
  obtain ⟨x, -, htemplate⟩ | htemplate | htemplate | ⟨id, htemplate⟩ := (hs.native ha).cases
  · exact meets_materialize_prim hs hp ha htemplate
  · exact meets_materialize_pointer hs hp ha hbuild hi htemplate
  · exact meets_materialize_function hs hp ha hbuild hi htemplate
  · exact meets_materialize_aggregate hs hp ha hbuild htemplate

end Materialize

theorem WellNamed.mark (hs : s.WellNamed) (building : Bool) : (s.mark h building).WellNamed := by
  refine hs.of_makesOnly (follows_mark building) ⟨fun g t ht ↦ ?_, fun hcount ↦ ?_⟩
  · rwa [type?_mark] at ht
  · exact hcount.update fun _ ↦ ⟨rfl, rfl⟩

theorem Idle.mark (hi : s.Idle h) (hlt : g < h) : (s.mark h true).Idle g := by
  intro g' hg' b hb
  rw [TypeStore.mark, application?_update, if_neg (hg'.trans_lt hlt).ne] at hb
  exact hi g' (hg'.trans hlt.le) b hb

theorem follows_setType (t : ConcreteType) : s.Follows (s.setType t) :=
  follows_update fun _ ↦ ⟨rfl, rfl⟩

theorem WellNamed.setType (hs : s.WellNamed) {t : ConcreteType}
    (ha : s.application? t.handle = some a) (hn : s.Named t.handle t.name) :
    (s.setType t).WellNamed where
  toStandard := (follows_setType t).standard hs.toStandard
  counted := hs.counted.update fun _ ↦ ⟨rfl, rfl⟩
  named := by
    intro g u hu
    refine (follows_setType t).named hs.ordered ?_
    rw [type?_setType ha] at hu
    split at hu
    · cases hu
      subst g
      exact hn
    · exact hs.named g u hu

/-- Building the type of a handle fails without a circle, and it leaves names of ground types. -/
theorem meets_getWithin (hs : s.WellNamed) (hp : s.program = p) (hi : s.Idle h) (hlt : h < s.size)
    {depth : Nat} (hdepth : h < depth) : NamesAt p (getWithin depth) s h := by
  induction depth generalizing h s with
  | zero => exact absurd hdepth (Nat.not_lt_zero h)
  | succ depth ih =>
    have hbuilds := (leaves_getWithin hs.toStandard (depth + 1) hdepth).2.ensures
    suffices hwell : Meets (getWithin (depth + 1) h) s (Failure.Acyclic p.EndlessMember)
        fun _ s' ↦ s'.WellNamed from
      (hwell.and hbuilds).imp fun _ _ h ↦ ⟨⟨h.2.1, h.1⟩, h.2.2⟩
    obtain rfl | hh := eq_or_ne h 0
    · exact hs
    obtain ⟨a, ha⟩ := exists_application hh hlt
    unfold getWithin
    simp only [hh, if_false, Stage.meets_bind, Stage.meets_get, ha]
    cases ht : a.type with
    | some t => exact hs
    | none =>
      simp only [hi h le_rfl a ha, Bool.false_eq_true, if_false, Stage.meets_bind,
        Stage.meets_modify]
      have hmarked : (s.mark h true).application? h = some { a with building := true } := by
        simp [mark, application?_update, ha]
      have hbelow (g : Handle) (hg : g ∈ a.args) : g < h := hs.ordered.args_lt h a ha g hg
      have hprogram : (s.mark h true).program = p := (follows_mark true).program.trans hp
      have hargs (g : Handle) (hg : g ∈ a.args) (t : TypeStore) (ht : (s.mark h true).Grows t) :
          NamesAt p (getWithin depth) t g :=
        ih ht.wellNamed (ht.program.trans hprogram) (ht.idle (hi.mark (hbelow g hg)))
          (ht.lt_size ((hbelow g hg).trans (lt_size hmarked)))
          ((hbelow g hg).trans_le (Nat.le_of_lt_succ hdepth))
      refine (meets_materialize (hs.mark true) hprogram hmarked hargs fun g hg ↦
        hi.mark (hbelow g hg)).imp ?_
      rintro r s₁ ⟨h₁, hr⟩
      cases r with
      | none =>
        refine Failure.acyclic_of_getLast? ?_
        rw [Text.bytes_append, List.getLast?_append]
        show some (101 : UInt8) ≠ _
        decide
      | some t =>
        obtain ⟨b, hb, -⟩ := (h₁.toFollows.trans (follows_mark (h := h) false)).application? hmarked
        have hlast := h₁.wellNamed.mark (h := h) false
        refine hlast.setType (t := { t with handle := h, args := a.args }) hb ?_
        exact (follows_mark false).named h₁.wellNamed.ordered (hr t rfl)

end TypeStore

end WasmBackend
