import WasmBackend.Proofs.Types.Buildable

/-!
# Handles stand for ground types

The ground type of a handle is the tree of template identities behind it.  A handle keeps its ground
type, and different handles have different ones.  Resolving a type expression gives the handle whose
ground type is the expression with its generic parameters filled in; so two expressions resolve to
one handle exactly when they become the same ground type, whenever each of them is resolved.
-/

namespace WasmBackend

open Relation (ReflTransGen)
open Stage (Leaves leaves_pure)

/-- A type in which everything is written out. -/
inductive GroundType where
  | void
  | apply (identity : Text) (args : List GroundType)

namespace Program

/-- A type expression at most `depth` deep with ground types for its generic parameters. -/
def substituteWithin (p : Program) : Nat → TypeId → List GroundType → Option GroundType
  | 0, _, _ => none
  | depth + 1, id, scope =>
    if id = 0 then some .void
    else
      match p.typeExpr? id with
      | none => none
      | some t =>
        match t.kind with
        | .void => some .void
        | .prim => if t.prim = .none then some .void else some (.apply (primIdentity t.prim) [])
        | .named => do
          let args ← t.args.mapM fun a ↦ p.substituteWithin depth a scope
          some (.apply (declIdentity t.decl) args)
        | .param => scope[t.index.toNat]?
        | .pointer => do
          let elem ← p.substituteWithin depth t.elem scope
          some (.apply "ptr" [elem])
        | .function => do
          let params ← t.args.mapM fun a ↦ p.substituteWithin depth a scope
          let result ← p.substituteWithin depth t.elem scope
          some (.apply "fn" (params ++ [result]))
        | .unknown _ _ => none

/-- A type expression with ground types for its generic parameters. -/
def substitute (p : Program) (id : TypeId) (scope : List GroundType) : Option GroundType :=
  p.substituteWithin (p.types.size + 2) id scope

end Program

namespace TypeStore

/-- The ground type of a handle.  Arguments come before what is applied to them. -/
def ground (s : TypeStore) (h : Handle) : GroundType :=
  match s.application? h with
  | none => .void
  | some a => .apply a.template.identity
      (a.args.map fun g ↦ if _ : g < h then s.ground g else .void)
termination_by h

variable {s s' : TypeStore} {h h' : Handle}

theorem ground_zero (s : TypeStore) : s.ground 0 = .void := by
  rw [ground]
  rfl

theorem Ordered.ground_eq (hs : s.Ordered) {a : Application} (ha : s.application? h = some a) :
    s.ground h = .apply a.template.identity (a.args.map s.ground) := by
  rw [ground]
  simp only [ha, GroundType.apply.injEq, true_and]
  refine List.map_congr_left fun g hg ↦ ?_
  rw [dif_pos (hs.args_lt h a ha g hg)]

/-- The ground type of a handle stays. -/
theorem Follows.ground_eq (hf : s.Follows s') (hs : s.Ordered) (hlt : h < s.size) :
    s'.ground h = s.ground h := by
  induction h using Nat.strong_induction_on with
  | _ h ih =>
    obtain rfl | hh := eq_or_ne h 0
    · rw [ground_zero, ground_zero]
    obtain ⟨a, ha⟩ := exists_application hh hlt
    obtain ⟨a', ha', htemplate, hargs⟩ := hf.application? ha
    rw [hs.ground_eq ha, (hf.ordered hs).ground_eq ha', htemplate, hargs]
    refine congrArg _ (List.map_congr_left fun g hg ↦ ?_)
    exact ih g (hs.args_lt h a ha g hg) (hs.args_lt_size ha g hg)

/-- Different handles have different ground types. -/
theorem Ordered.ground_injOn (hs : s.Ordered) (hlt : h < s.size) (hlt' : h' < s.size)
    (heq : s.ground h = s.ground h') : h = h' := by
  induction h using Nat.strong_induction_on generalizing h' with
  | _ h ih =>
    by_cases hh : h = 0 <;> by_cases hh' : h' = 0
    · rw [hh, hh']
    · obtain ⟨a', ha'⟩ := exists_application hh' hlt'
      rw [hh, ground_zero, hs.ground_eq ha'] at heq
      cases heq
    · obtain ⟨a, ha⟩ := exists_application hh hlt
      rw [hh', ground_zero, hs.ground_eq ha] at heq
      cases heq
    · obtain ⟨a, ha⟩ := exists_application hh hlt
      obtain ⟨a', ha'⟩ := exists_application hh' hlt'
      rw [hs.ground_eq ha, hs.ground_eq ha'] at heq
      obtain ⟨hidentity, hargs⟩ := GroundType.apply.inj heq
      refine hs.unique h h' a a' ha ha' hidentity ?_
      have hlength : a.args.length = a'.args.length := by
        simpa using congrArg List.length hargs
      refine List.ext_getElem hlength fun i hi hi' ↦ ?_
      have hmem := List.getElem_mem hi
      refine ih _ (hs.args_lt h a ha _ hmem) (hs.args_lt_size ha _ hmem)
        (hs.args_lt_size ha' _ (List.getElem_mem hi')) ?_
      simpa [hi, hi'] using congrArg (fun gs ↦ gs[i]?) hargs

/-! ## Resolving is substituting -/

theorem Ordered.ground_of_handle? (hs : s.Ordered) {identity : Text} {args : List Handle}
    (hh : s.handle? identity args = some h) :
    s.ground h = .apply identity (args.map s.ground) := by
  obtain ⟨a, ha, rfl, rfl⟩ := application?_of_handle? hh
  exact hs.ground_eq ha

theorem Ordered.substituteWithin_eq (hs : s.Ordered) {scope : List Handle} {depth : Nat}
    {id : TypeId} (hd : s.denoteWithin depth id scope = some h) :
    s.program.substituteWithin depth id (scope.map s.ground) = some (s.ground h) := by
  induction depth generalizing id h with
  | zero => simp [denoteWithin] at hd
  | succ depth ih =>
    have all {ids : List TypeId} {hs : List Handle}
        (hids : (ids.mapM fun a ↦ s.denoteWithin depth a scope) = some hs) :
        (ids.mapM fun a ↦ s.program.substituteWithin depth a (scope.map s.ground)) =
          some (hs.map s.ground) := by
      refine mapM_eq_some_iff.2 (List.forall₂_map_right_iff.2 ?_)
      exact (mapM_eq_some_iff.1 hids).imp fun _ _ ↦ ih
    unfold denoteWithin at hd
    unfold Program.substituteWithin
    by_cases hid : id = 0
    · simp only [hid, if_true, Option.some.injEq] at hd ⊢
      rw [← hd, ground_zero]
    simp only [hid, if_false] at hd ⊢
    cases ht : s.program.typeExpr? id with
    | none => simp [ht] at hd
    | some t =>
      simp only [ht] at hd ⊢
      cases hk : t.kind <;> simp only [hk] at hd ⊢
      case void => rw [← Option.some.inj hd, ground_zero]
      case prim =>
        split
        · rw [if_pos ‹_›] at hd
          rw [← Option.some.inj hd, ground_zero]
        · rw [if_neg ‹_›] at hd
          rw [hs.ground_of_handle? hd, List.map_nil]
      case named =>
        obtain ⟨args, hargs, hh⟩ := Option.bind_eq_some_iff.1 hd
        rw [all hargs, hs.ground_of_handle? hh]
        rfl
      case param => rw [List.getElem?_map, hd, Option.map_some]
      case pointer =>
        obtain ⟨elem, helem, hh⟩ := Option.bind_eq_some_iff.1 hd
        rw [ih helem, hs.ground_of_handle? hh]
        rfl
      case function =>
        obtain ⟨params, hparams, hh⟩ := Option.bind_eq_some_iff.1 hd
        obtain ⟨result, hresult, hh⟩ := Option.bind_eq_some_iff.1 hh
        rw [all hparams, ih hresult, hs.ground_of_handle? hh, List.map_append]
        rfl
      case unknown => cases hd

/-- Filling in the parameters gives the ground type of the handle returned. -/
theorem Standard.substitute_eq (hs : s.Standard) {id : TypeId} {scope : List Handle}
    (hscope : ∀ g ∈ scope, g < s.size) (hr : resolve id scope s = (.ok h, s')) :
    s.program.substitute id (scope.map s.ground) = some (s'.ground h) := by
  have hfollows : s.Follows s' := ((makes_resolve hs id hscope).of_eq hr).1
  have hdenote : s'.denote id scope = some h := ((ensures_resolve id scope).of_eq hr).2
  have hground : scope.map s'.ground = scope.map s.ground :=
    List.map_congr_left fun g hg ↦ hfollows.ground_eq hs.ordered (hscope g hg)
  rw [← hground, ← hfollows.program]
  exact (hfollows.ordered hs.ordered).substituteWithin_eq hdenote

/-! ## Calls in any order -/

/-- A call of the store. -/
inductive Call where
  | specialize (identity : Text) (args : List Handle)
  | resolve (id : TypeId) (scope : List Handle)
  | get (h : Handle)

namespace Call

/-- The handles a call is given. -/
def given : Call → List Handle
  | specialize _ args => args
  | resolve _ scope => scope
  | get h => [h]

def run : Call → M Unit
  | specialize identity args => do let _ ← TypeStore.specialize identity args
  | resolve id scope => do let _ ← TypeStore.resolve id scope
  | get h => do let _ ← getType h

end Call

/-- A call with the empty type and handles made before, whether it returns or fails. -/
def Called (s s' : TypeStore) : Prop :=
  ∃ c : Call, (∀ g ∈ c.given, g < s.size) ∧ (c.run s).2 = s'

/-- Calls keep handles in order, and one that returns only makes handles and builds types. -/
theorem Call.leaves_run (hs : s.Standard) (c : Call) (hgiven : ∀ g ∈ c.given, g < s.size) :
    Leaves c.run s s.Follows (fun _ ↦ True) fun _ s' ↦ s.Enlarges s' := by
  have done {s' : TypeStore} (he : s.Enlarges s') :
      Leaves (pure ⟨⟩) s' s.Follows (fun (_ : Failure) ↦ True) fun (_ : Unit) s' ↦ s.Enlarges s' :=
    leaves_pure he.toFollows he
  cases c with
  | specialize identity args =>
    exact ((makes_specialize hgiven).mono (fun _ h ↦ h) (fun _ _ ↦ trivial) fun _ _ h ↦
      done h.1).bind
  | resolve id scope =>
    exact ((makes_resolve hs id hgiven).mono (fun _ h ↦ h) (fun _ _ ↦ trivial) fun _ _ h ↦
      done h.1).bind
  | get h =>
    exact ((leaves_getType hs (hgiven h (List.mem_singleton_self h))).mono (fun _ h ↦ h)
      (fun _ _ ↦ trivial) fun _ _ h ↦ done h.1).bind

theorem Called.follows (hs : s.Standard) (hc : s.Called s') : s.Follows s' := by
  obtain ⟨c, hgiven, rfl⟩ := hc
  exact (c.leaves_run hs hgiven).1

theorem called_of_resolve {id : TypeId} {scope : List Handle} (hscope : ∀ g ∈ scope, g < s.size)
    (hr : resolve id scope s = (.ok h, s')) : s.Called s' := by
  refine ⟨.resolve id scope, hscope, ?_⟩
  rw [Call.run, Stage.bind_apply, hr]
  rfl

theorem follows_of_calls (hs : s.Standard) (hcalls : ReflTransGen Called s s') : s.Follows s' := by
  induction hcalls with
  | refl => exact .refl s
  | tail _ hc ih => exact ih.trans (hc.follows (ih.standard hs))

variable {p : Program}

/-- A store that calls lead to from that of the program. -/
theorem standard_of_calls (hcalls : ReflTransGen Called (ofProgram p) s) :
    s.Standard ∧ s.program = p :=
  have hfollows := follows_of_calls (standard_ofProgram p) hcalls
  ⟨hfollows.standard (standard_ofProgram p), hfollows.program⟩

/-- Two type expressions resolve to the same handle, whatever is called before and between, if and
only if they become the same ground type when the ground types of their scopes are filled in.  The
handle returned has this ground type, no call ever changes the ground type of a handle, and finding
an application by its text is finding it by template and arguments. -/
theorem resolve_eq_iff_substitute_eq {s₁ s₁' s₂ s₂' : TypeStore} {id₁ id₂ : TypeId}
    {scope₁ scope₂ : List Handle} {h₁ h₂ : Handle}
    (hstart : ReflTransGen Called (ofProgram p) s₁)
    (hscope₁ : ∀ g ∈ scope₁, g < s₁.size) (hresolve₁ : resolve id₁ scope₁ s₁ = (.ok h₁, s₁'))
    (hbetween : ReflTransGen Called s₁' s₂)
    (hscope₂ : ∀ g ∈ scope₂, g < s₂.size) (hresolve₂ : resolve id₂ scope₂ s₂ = (.ok h₂, s₂')) :
    (h₁ = h₂ ↔
      p.substitute id₁ (scope₁.map s₁.ground) = p.substitute id₂ (scope₂.map s₂.ground)) ∧
    p.substitute id₁ (scope₁.map s₁.ground) = some (s₁'.ground h₁) ∧
    p.substitute id₂ (scope₂.map s₂.ground) = some (s₂'.ground h₂) ∧
    (∀ s s', ReflTransGen Called (ofProgram p) s → ReflTransGen Called s s' →
      ∀ h < s.size, s'.ground h = s.ground h) ∧
    ∀ s, ReflTransGen Called (ofProgram p) s → ∀ a : Application, a.template.Native p →
      s.keyed? a.key = s.handle? a.template.identity a.args := by
  obtain ⟨hs₁, hp₁⟩ := standard_of_calls hstart
  have hcall₁ := called_of_resolve hscope₁ hresolve₁
  have hstart₂ := (hstart.tail hcall₁).trans hbetween
  obtain ⟨hs₂, hp₂⟩ := standard_of_calls hstart₂
  have hcall₂ := called_of_resolve hscope₂ hresolve₂
  have hsub₁ := hs₁.substitute_eq hscope₁ hresolve₁
  have hsub₂ := hs₂.substitute_eq hscope₂ hresolve₂
  rw [hp₁] at hsub₁
  rw [hp₂] at hsub₂
  refine ⟨?_, hsub₁, hsub₂, ?_, ?_⟩
  · have hs₁' := (hcall₁.follows hs₁).standard hs₁
    have hlater := follows_of_calls hs₁' (hbetween.tail hcall₂)
    obtain ⟨-, -, hlt₁⟩ := (makes_resolve hs₁ id₁ hscope₁).of_eq hresolve₁
    obtain ⟨-, -, hlt₂⟩ := (makes_resolve hs₂ id₂ hscope₂).of_eq hresolve₂
    rw [hsub₁, hsub₂, Option.some.injEq, ← hlater.ground_eq hs₁'.ordered hlt₁]
    constructor
    · rintro rfl
      rfl
    · exact (hlater.ordered hs₁'.ordered).ground_injOn (hlater.lt_size hlt₁) hlt₂
  · intro s s' hs hcalls h hlt
    obtain ⟨hstandard, -⟩ := standard_of_calls hs
    exact (follows_of_calls hstandard hcalls).ground_eq hstandard.ordered hlt
  · intro s hs a ha
    obtain ⟨hstandard, rfl⟩ := standard_of_calls hs
    refine keyed?_key ha fun b hb ↦ ?_
    obtain ⟨i, hi⟩ := Array.getElem?_of_mem hb
    exact hstandard.native (application?_eq_some.2 ⟨i.succ_ne_zero, hi⟩)

/-- A generic struct with two parameters, and type expressions for it: `Pair<*i32, i32>`, and
`Pair<*T, T>` inside a generic declaration. -/
def genericPair : Program where
  decls := #[{ kind := .struct, name := "Pair", generics := ["T", "U"], aggregate := some {} }]
  types := #[{ kind := .prim, prim := .i32 }, { kind := .pointer, elem := 1 },
    { kind := .param }, { kind := .pointer, elem := 3 },
    { kind := .named, decl := 1, args := [2, 1] }, { kind := .named, decl := 1, args := [4, 3] }]

/-- `Pair<*i32, i32>` and then `Pair<*T, T>` for the handle of `i32` resolve to one handle, as the
parameters filled in make them one ground type. -/
theorem resolve_genericPair : ∃ s s',
    resolve 5 [] (ofProgram genericPair) = (.ok 3, s) ∧ resolve 6 [1] s = (.ok 3, s') ∧
      genericPair.substitute 5 [] = genericPair.substitute 6 [s.ground 1] := by
  have h₁ : resolve 5 [] (ofProgram genericPair) =
      (.ok 3, (resolve 5 [] (ofProgram genericPair)).2) := Prod.ext (by decide +kernel) rfl
  have h₂ : resolve 6 [1] (resolve 5 [] (ofProgram genericPair)).2 =
      (.ok 3, (resolve 6 [1] (resolve 5 [] (ofProgram genericPair)).2).2) :=
    Prod.ext (by decide +kernel) rfl
  have hsize : ∀ g ∈ [1], g < (resolve 5 [] (ofProgram genericPair)).2.size := by
    decide +kernel
  refine ⟨_, _, h₁, h₂, ?_⟩
  exact (resolve_eq_iff_substitute_eq .refl (by simp) h₁ .refl hsize h₂).1.1 rfl

end TypeStore

end WasmBackend
