import WasmBackend.Plan.Schedule
import WasmBackend.Proofs.Diagnostic.Reporting

/-!
# Scheduling only reports

Wrong decorators and export names are errors, and what is found out about a program does not depend
on the bag they are reported to.
-/

namespace WasmBackend.Scheduler

open Stage

instance : HasBag Scheduler :=
  ⟨fun b s ↦ { s with bag := b }⟩

variable {α β : Type}

/-- Scheduling reports errors only. -/
abbrev ReportsErrors (x : M α) : Prop :=
  Reports Diagnostic.IsError x

theorem reports_onLayouts (x : Layouts.M α) : ReportsErrors (onLayouts x) :=
  reports_zoom (fun _ _ ↦ rfl) fun _ _ _ ↦ rfl

theorem reports_onStore (x : TypeStore.M α) : ReportsErrors (onStore x) :=
  reports_onLayouts (Layouts.onStore x)

theorem reports_error {code : Code} {span : Span} {message : Text} {notes : List Note} :
    ReportsErrors (report (.error code span message notes)) :=
  reports_add (Diagnostic.isError_error code span message notes) fun _ _ ↦ rfl

theorem reports_rejectDecl {id : DeclId} {code : Code} {span : Span} {message : Text} :
    ReportsErrors (rejectDecl id code span message) :=
  (reports_modify fun _ _ ↦ rfl).bind fun _ ↦ reports_error

theorem reports_push (t : Task) : ReportsErrors (push t) := by
  refine reports_get (fun _ _ ↦ rfl) fun s ↦ ?_
  split
  · exact reports_modify fun _ _ ↦ rfl
  · exact (reports_onStore _).bind fun name ↦ reports_modify fun _ _ ↦ rfl

/-! ## Types -/

theorem reports_requireWithin (depth : ℕ) (h : Handle) : ReportsErrors (requireWithin depth h) := by
  induction depth generalizing h with
  | zero => exact reports_throw _
  | succ depth ih =>
    refine reports_get (fun _ _ ↦ rfl) fun s ↦ ?_
    split
    · exact reports_pure _
    refine (reports_modify fun _ _ ↦ rfl).bind fun _ ↦ reports_get (fun _ _ ↦ rfl) fun s ↦ ?_
    refine (reports_ofExcept _).bind fun kind ↦ ?_
    split
    · exact reports_push _
    · exact reports_push _
    · exact (reports_onStore _).bind fun t ↦ ih t.elem
    · refine (reports_onStore _).bind fun t ↦ ?_
      refine (reports_forIn fun p _ _ ↦ ?_).bind fun _ ↦ reports_pure _
      exact (ih p).bind fun _ ↦ reports_pure _
    all_goals exact reports_pure _

theorem reports_require (h : Handle) : ReportsErrors (require h) :=
  reports_get (fun _ _ ↦ rfl) fun _ ↦ reports_requireWithin _ h

theorem reports_requireType (scope : List Handle) (t : TypeId) :
    ReportsErrors (requireType scope t) :=
  (reports_onStore _).bind fun h ↦ reports_require h

/-! ## Functions to start from -/

theorem reports_checkForeign (id : DeclId) (d : Decl) (f : FunctionData) :
    ReportsErrors (checkForeign id d f) := by
  unfold checkForeign
  split
  · exact reports_rejectDecl
  · split
    · exact reports_rejectDecl
    · exact reports_pure _

theorem reports_checkNative (id : DeclId) (d : Decl) (f : FunctionData) :
    ReportsErrors (checkNative id d f) := by
  unfold checkNative
  split
  · exact reports_rejectDecl
  · split
    · exact reports_rejectDecl
    · exact reports_pure _

theorem reports_checkDecl (id : DeclId) (d : Decl) : ReportsErrors (checkDecl id d) := by
  have hnative : ReportsErrors (do
      if d.has .native then checkNative id d (← Stage.some! d.function)) := by
    split
    · exact (reports_some! _).bind fun f ↦ reports_checkNative id d f
    · exact reports_pure _
  unfold checkDecl
  split
  · exact reports_pure _
  · dsimp only
    split
    · refine (reports_some! _).bind fun f ↦ (reports_checkForeign id d f).bind fun _ ↦ hnative
    · exact hnative

theorem reports_claimExport (entryExport : Text) (id : DeclId) (d : Decl) :
    ReportsErrors (claimExport entryExport id d) := by
  unfold claimExport
  dsimp only
  split
  · exact reports_error
  · refine reports_get (fun _ _ ↦ rfl) fun s ↦ ?_
    split
    · refine reports_get (fun _ _ ↦ rfl) fun s ↦ (reports_some! _).bind fun first ↦ ?_
      exact reports_error
    · exact reports_modify fun _ _ ↦ rfl

theorem reports_seedDecl (entryExport : Text) (id : DeclId) (d : Decl) :
    ReportsErrors (seedDecl entryExport id d) := by
  unfold seedDecl
  split
  · exact reports_pure _
  refine (reports_some! _).bind fun f ↦ ?_
  split
  · exact reports_pure _
  refine reports_get (fun _ _ ↦ rfl) fun s ↦ ?_
  split
  · exact reports_pure _
  split
  · exact reports_error.bind fun _ ↦ reports_pure _
  refine reports_get (fun _ _ ↦ rfl) fun s ↦ ?_
  split
  · exact reports_pure _
  split
  · exact (reports_claimExport entryExport id d).bind fun _ ↦ reports_push _
  · exact reports_push _

/-! ## References -/

theorem reports_calledDecl (what : Text) (id : DeclId) : ReportsErrors (calledDecl what id) := by
  refine reports_get (fun _ _ ↦ rfl) fun s ↦ ?_
  split
  · split
    · exact reports_pure _
    · exact reports_internal _
  · exact reports_internal _

theorem reports_receiver (scope : List Handle) (x : ExprId) (what : Text) :
    ReportsErrors (receiver scope x what) := by
  refine reports_get (fun _ _ ↦ rfl) fun s ↦ (reports_some! _).bind fun e ↦ ?_
  refine (reports_onStore _).bind fun t ↦ ?_
  split
  · exact reports_pure _
  · exact reports_internal _

theorem reports_followExpr (scope : List Handle) (e : Expr) :
    ReportsErrors (followExpr scope e) := by
  refine (reports_requireType scope e.type).bind fun _ ↦ ?_
  cases e.kind with
  | call =>
    refine (reports_calledDecl "call" e.decl).bind fun d ↦ ?_
    split
    · exact reports_pure _
    · exact (reports_onStore _).bind fun args ↦ reports_push _
  | funcRef =>
    refine (reports_calledDecl "reference" e.decl).bind fun d ↦ ?_
    dsimp only
    split
    · refine reports_get (fun _ _ ↦ rfl) fun s ↦ ?_
      split
      · exact reports_rejectDecl.bind fun _ ↦ reports_pure _
      · exact reports_pure _
    · exact (reports_onStore _).bind fun args ↦ reports_push _
  | methodCall =>
    refine (reports_receiver scope e.x "method call").bind fun t ↦ ?_
    split
    · exact reports_push _
    · exact reports_internal _
  | operator =>
    refine (reports_receiver scope e.x "operator").bind fun t ↦ ?_
    split
    · exact reports_push _
    · exact reports_internal _
  | member =>
    refine (reports_receiver scope e.x "member access").bind fun t ↦ ?_
    split
    · exact reports_internal _
    · exact reports_pure _
  | construct =>
    refine (reports_onStore _).bind fun t ↦ ?_
    have hinit : ReportsErrors (do
        if t.init ≠ 0 then push { kind := .constructor, decl := t.init, owner := t.handle }
        else if t.kind = .cls then modify fun s ↦ { s with needsAlloc := true }) := by
      split
      · exact reports_push _
      · split
        · exact reports_modify fun _ _ ↦ rfl
        · exact reports_pure _
    dsimp only
    split
    · exact (reports_internal _).bind fun _ ↦ hinit
    · exact hinit
  | alloc => exact reports_modify fun _ _ ↦ rfl
  | _ => exact reports_pure _

theorem reports_followWalk (scope : List Handle) (w : Walked) :
    ReportsErrors (followWalk scope w) := by
  refine (reports_forIn fun v _ _ ↦ ?_).bind fun _ ↦ reports_ofExcept _
  cases v with
  | expr id e => exact (reports_followExpr scope e).bind fun _ ↦ reports_pure _
  | stmt id s => exact reports_pure _

/-! ## Tasks -/

theorem reports_followGlobal (d : Decl) : ReportsErrors (followGlobal d) := by
  unfold followGlobal
  split
  · exact reports_pure _
  refine (reports_some! _).bind fun g ↦ (reports_requireType [] g.type).bind fun _ ↦ ?_
  exact reports_get (fun _ _ ↦ rfl) fun s ↦ reports_followWalk [] _

theorem reports_followLayout (owner : Handle) : ReportsErrors (followLayout owner) := by
  refine (reports_onLayouts _).bind fun _ ↦ (reports_onStore _).bind fun type ↦ ?_
  refine (reports_forIn fun m _ _ ↦ ?_).bind fun _ ↦ reports_pure _
  exact (reports_require m.type).bind fun _ ↦ reports_pure _

theorem reports_followEntry : ReportsErrors followEntry := by
  refine reports_get (fun _ _ ↦ rfl) fun s ↦ ?_
  refine (reports_forIn fun d _ _ ↦ ?_).bind fun _ ↦ ?_
  · exact (reports_followGlobal d.2).bind fun _ ↦ reports_pure _
  refine (reports_forIn fun l _ _ ↦ ?_).bind fun _ ↦ reports_followWalk [] _
  exact (reports_requireType [] l.type).bind fun _ ↦ reports_pure _

theorem reports_followSelf (f : FunctionData) (owner : Handle) :
    ReportsErrors (followSelf f owner) := by
  unfold followSelf
  split
  · exact reports_pure _
  refine reports_get (fun _ _ ↦ rfl) fun s ↦ (reports_ofExcept _).bind fun kind ↦ ?_
  split
  · exact reports_modify fun _ _ ↦ rfl
  · exact reports_pure _

theorem reports_followFunction (t : Task) : ReportsErrors (followFunction t) := by
  refine reports_get (fun _ _ ↦ rfl) fun s ↦ ?_
  dsimp only
  split
  · exact reports_internal _
  rename_i f _
  refine reports_get (fun _ _ ↦ rfl) fun s' ↦ (reports_require t.owner).bind fun _ ↦ ?_
  refine (reports_requireType _ f.result).bind fun _ ↦ ?_
  refine (reports_forIn fun l _ _ ↦ ?_).bind fun _ ↦ ?_
  · exact (reports_requireType _ l.type).bind fun _ ↦ reports_pure _
  refine (reports_followSelf f t.owner).bind fun _ ↦ ?_
  split
  · exact reports_followWalk _ _
  · exact reports_pure _

theorem reports_follow (t : Task) : ReportsErrors (follow t) := by
  unfold follow
  cases t.kind with
  | layout => exact reports_followLayout t.owner
  | entry => exact reports_followEntry
  | _ => exact reports_followFunction t

theorem reports_step (parent : ℕ) : ReportsErrors (step parent) := by
  refine reports_get (fun _ _ ↦ rfl) fun s ↦ ?_
  split
  · exact reports_pure _
  refine (reports_modify fun _ _ ↦ rfl).bind fun _ ↦ reports_get (fun _ _ ↦ rfl) fun s ↦ ?_
  refine (reports_some! _).bind fun t ↦ (reports_modify fun _ _ ↦ rfl).bind fun _ ↦ ?_
  exact (reports_follow t).bind fun _ ↦ reports_pure _

theorem reports_drain (parent fuel : ℕ) : ReportsErrors (drain parent fuel) := by
  induction fuel with
  | zero => exact reports_throw _
  | succ fuel ih =>
    refine (reports_step parent).bind fun progress ↦ ?_
    split
    · exact ih
    · exact reports_pure _

/-- **Scheduling reports errors only, and its plan does not depend on the bag.** -/
theorem reports_run (entryExport : Text) (parent limit : ℕ) :
    ReportsErrors (run entryExport parent limit) := by
  refine (reports_push _).bind fun _ ↦ reports_get (fun _ _ ↦ rfl) fun s ↦ ?_
  refine (reports_forIn fun p _ _ ↦ ?_).bind fun _ ↦ reports_get (fun _ _ ↦ rfl) fun s ↦ ?_
  · exact (reports_checkDecl p.1 p.2).bind fun _ ↦ reports_pure _
  refine (reports_forIn fun p _ _ ↦ ?_).bind fun _ ↦ ?_
  · exact (reports_seedDecl _ p.1 p.2).bind fun _ ↦ reports_pure _
  refine (reports_drain parent limit).bind fun _ ↦ ?_
  exact reports_get (fun _ _ ↦ rfl) fun s ↦ reports_pure _

end WasmBackend.Scheduler
