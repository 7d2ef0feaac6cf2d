import WasmBackend.Proofs.Lowering.Putting
import WasmBackend.Proofs.Lowering.Underway

/-!
# Assignments read before they write

The code of an assignment locates the target, then evaluates the right-hand side into variables, and
only then writes.  What it evaluates changes no variable that was there before, so the slots of the
target and the pointer to it are what they were when the values are written.  Copies from one part
of a row to another would not do this when the two overlap halfway, but parts of one type never do:
a target and a right-hand side in one local are the same slots or have none in common, as long as
both take the local as one type.
-/

namespace WasmBackend

open Ir (BlockKind Forest Instr Machine Run State Var runInstrs)
open Stage (Ensures)

/-- Where a target and a right-hand side are nestings of members over one local, both take the local
as one type, whose layout is known. -/
def Stmt.AgreesOnLocals (st : Stmt) (frame : Frame) (store : TypeStore) : Prop :=
  ∀ e e', store.program.Over st.target e → store.program.Over st.expr e' → e.kind = .loc →
    e'.kind = .loc → e.loc = e'.loc → ∃ h entries, store.denote e.type frame.scope = some h ∧
      store.denote e'.type frame.scope = some h ∧ store.entries? h = some entries

theorem Frame.Names.below {n : Nat} {frame : Frame} (hframe : frame.Below n) {store : TypeStore}
    {e : Expr} {h : Handle} {row : List Var} (hn : frame.Names store e h row) :
    Lowering.VarsBelow n row := by
  cases hn with
  | loc _ hrow _ => exact hframe.locals _ (Array.mem_of_getElem? hrow)
  | self => exact hframe.self

namespace Lowering

variable {α β : Type} {frame : Frame} {s s' : Lowering} {sub : Sub}

@[simp]
theorem readValue_direct (h : Handle) (slots : List Var) :
    readValue (.direct h slots) = pure slots :=
  rfl

theorem exprStep_into (id : ExprId) {e : Expr} (hkind : e.kind ≠ .construct) (d : Value) :
    exprStep sub id e (some d) = do
      let v ← exprStep sub id e none
      let vars ← readValue v
      writeValue d vars
      return d := by
  unfold exprStep
  simp only [bind_assoc]
  congr 1
  funext h
  congr 1
  funext t
  split
  case h_18 h => exact absurd h hkind
  case h_19 => by_cases hx : e.x = 0 <;> simp [hx, deliver]
  case h_21 => rfl
  all_goals simp [deliver, deliverValue]

/-- Lower the expression that a program has under a number. -/
def lowerIn (p : Program) (id : ExprId) (dst : Option Value) : M Value :=
  match p.expr? id with
  | none => internalHere ("missing expression " ++ Text.ofNat id.toNat)
  | some e => exprStep (lowerWithin p.exprs.size) id e dst

theorem lowerExpr_apply (id : ExprId) (dst : Option Value) :
    lowerExpr id dst frame s = lowerIn s.store.program id dst frame s :=
  rfl

/-- Unless an expression is an aggregate, lowering it into a place writes its value there behind
everything else. -/
theorem lowerExpr_into {id : ExprId}
    (hkind : (s.store.program.expr? id).map Expr.kind ≠ some .construct) (d : Value) :
    discard (lowerExpr id (some d)) frame s = (do
      let vars ← rvalue lowerExpr id
      writeValue d vars) frame s := by
  have hdiscard (x : M Value) : discard x = do
      let _ ← x
      return ⟨⟩ :=
    map_eq_pure_bind (fun _ ↦ PUnit.unit) x
  simp only [hdiscard, rvalue, bind_assoc]
  rw [bind_congr_apply (lowerExpr_apply id (some d)), bind_congr_apply (lowerExpr_apply id none)]
  unfold lowerIn
  cases he : s.store.program.expr? id with
  | none => rfl
  | some e =>
    have hkind : e.kind ≠ .construct := fun h ↦ hkind (by simp [he, h])
    dsimp only
    rw [exprStep_into id hkind d]
    simp

/-- An assignment locates its target, reads its right-hand side into variables, then writes. -/
theorem lowerAssign_eq (st : Stmt) :
    lowerAssign st frame s = (do
      let target ← assignTarget st.target
      let vars ← rvalue lowerExpr st.expr
      writeValue target vars) frame s := by
  have hwrite (target : Value) (s : Lowering) : (do
      let value := (← program).expr? st.expr
      if value.map Expr.kind = some .construct then
        writeValue target (← readValue (← lowerExpr st.expr none))
      else
        discard (lowerExpr st.expr (some target)) : M Unit) frame s = (do
      let vars ← rvalue lowerExpr st.expr
      writeValue target vars) frame s := by
    show (if (s.store.program.expr? st.expr).map Expr.kind = some .construct then
        do writeValue target (← readValue (← lowerExpr st.expr none))
      else
        discard (lowerExpr st.expr (some target)) : M Unit) frame s = _
    split
    · simp only [rvalue, bind_assoc]
    · exact lowerExpr_into ‹_› target
  show (assignTarget st.target frame >>= fun target ↦ _) s = (assignTarget st.target frame >>= _) s
  rw [Stage.bind_apply, Stage.bind_apply]
  rcases assignTarget st.target frame s with ⟨_ | target, t⟩
  · rfl
  · exact hwrite target t

/-! ## Targets and right-hand sides -/

variable {σ : Scope} {us : Forest}

/-- A target in variables and the variables that the right-hand side is read into are the same or
have none in common. -/
theorem Underway.eq_or_disjoint (hready : Underway σ us frame s) {store : TypeStore}
    (hg : s.store.Gains store) {st : Stmt} (htypes : st.AgreesOnLocals frame s.store) {k : Nat}
    {g g' : Handle} {slots vars : List Var} (hbelow : VarsBelow k slots)
    (htarget : (Value.direct g slots).Stands frame s.vars.size store st.target)
    (hvalue : (Value.direct g' vars).Stands frame k store st.expr)
    (hlength : slots.length = vars.length) : slots = vars ∨ slots.Disjoint vars := by
  have htiled := (hg.steady hready.steady).tiled
  obtain hmade | ⟨e', h', row', hover', hnames', hinside'⟩ := hvalue
  · -- the right-hand side has variables of its own
    exact .inr fun v hv hv' ↦ Nat.not_le_of_lt (hbelow v hv) (hmade v hv')
  have hold (v : Var) (hv : v ∈ vars) : v < s.vars.size :=
    hnames'.below hready.below v (hinside'.subset hv)
  obtain hmade | ⟨e, h, row, hover, hnames, hinside⟩ := htarget
  · exact .inr fun v hv hv' ↦ Nat.not_le_of_lt (hold v hv') (hmade v hv)
  -- both stand in rows of the function
  have hrows (hrows : row.Disjoint row') : slots = vars ∨ slots.Disjoint vars :=
    .inr fun v hv hv' ↦ hrows (hinside.subset hv) (hinside'.subset hv')
  cases hnames with
  | loc hkind hrow hdenote =>
    cases hnames' with
    | loc hkind' hrow' hdenote' =>
      by_cases hsame : e.loc = e'.loc
      · rw [hg.toKeeps.program] at hover hover'
        obtain ⟨type, entries, htype, htype', hentries⟩ :=
          htypes e e' hover hover' hkind hkind' hsame
        cases hdenote.symm.trans (hg.toKeeps.denote htype)
        cases hdenote'.symm.trans (hg.toKeeps.denote htype')
        rw [hsame] at hrow
        cases hrow.symm.trans hrow'
        exact hinside.eq_or_disjoint htiled (hready.apart.nodup _ _ hrow)
          (hg.lays.toExtends.entries? hentries) hinside' hlength
      · refine hrows (hready.apart.apart _ _ _ _ (fun heq ↦ hsame ?_) hrow hrow')
        exact UInt32.toNat_inj.1 heq
    | self => exact hrows (hready.apart.apart_receiver _ _ hrow)
  | self =>
    cases hnames' with
    | loc _ hrow' _ => exact hrows (hready.apart.apart_receiver _ _ hrow').symm
    | self =>
      by_cases hself : frame.self = []
      · exact .inr fun v hv ↦ absurd (hinside.subset hv) (hself ▸ List.not_mem_nil)
      obtain ⟨entries, hentries⟩ := hready.self_laid hself
      exact hinside.eq_or_disjoint htiled hready.apart.nodup_receiver
        (hg.lays.toExtends.entries? hentries) hinside' hlength

/-- A target in variables of the function has every slot once. -/
theorem Underway.nodup_target (hready : Underway σ us frame s) {store : TypeStore} {id : ExprId}
    {g : Handle} {slots : List Var}
    (htarget : (Value.direct g slots).Stands frame s.vars.size store id)
    (hold : ∀ v ∈ slots, v < s.vars.size) : slots.Nodup := by
  obtain hmade | ⟨e, h, row, -, hnames, hinside⟩ := htarget
  · have hnil : slots = [] :=
      List.eq_nil_iff_forall_not_mem.2 fun v hv ↦ Nat.not_le_of_lt (hold v hv) (hmade v hv)
    exact hnil ▸ List.nodup_nil
  · refine hinside.nodup ?_
    cases hnames with
    | loc _ hrow _ => exact hready.apart.nodup _ _ hrow
    | self => exact hready.apart.nodup_receiver

/-! ## Assignments -/

/-- **Assignments read before they write.**  The code of an assignment locates the target, evaluates
the right-hand side into variables, and puts their values into the target.  A target in variables of
the function has its slots untouched until then, and holds those values afterwards. -/
theorem lowerAssign_reads_first (hready : Underway σ us frame s) {st : Stmt}
    (htypes : st.AgreesOnLocals frame s.store) (hx : lowerAssign st frame s = (.ok ⟨⟩, s')) :
    ∃ target s₁ vars s₂, assignTarget st.target frame s = (.ok target, s₁) ∧
      rvalue lowerExpr st.expr frame s₁ = (.ok vars, s₂) ∧ target.Below s₁.vars.size ∧
      Enlarged frame s.vars.size s.blocks.size s s₁ ∧
      Enlarged frame s₁.vars.size s₁.blocks.size s₁ s₂ ∧
      ∀ {V W : Type} (m : Machine V W), m.Copies → ∀ budget,
        Run.Confined (frame.Sees s.vars.size) (s.vars.size ≤ ·) (fun _ ↦ False)
          (runAdded m budget s s₁) ∧
        Run.Confined (frame.Sees s₁.vars.size) (s₁.vars.size ≤ ·) (fun _ ↦ False)
          (runAdded m budget s₁ s₂) ∧
        ∃ put, Puts m s'.store s₂.vars.size vars target put ∧
          (∀ g slots, target = .direct g slots → (∀ v ∈ slots, v < s.vars.size) →
            ∀ st : State V W, slots.map (put st).1.vars = vars.map st.vars) ∧
          runAdded m budget s s' =
            (runAdded m budget s s₁).andThen ((runAdded m budget s₁ s₂).andThen put) := by
  rw [lowerAssign_eq] at hx
  obtain ⟨target, s₁, hlocate, hx⟩ := exists_of_bind hx
  obtain ⟨vars, s₂, hread, hwrite⟩ := exists_of_bind hx
  have hcurrent := hready.writing.hasCurrent
  obtain ⟨us₁, hp₁, hbelow, -⟩ := exists_progress hready.writing (Nat.le_refl _) (Nat.le_refl _)
    (writes_assignTarget hready.below st.target) (enlarges_assignTarget st.target) hlocate
  obtain ⟨hg₁, -, htarget⟩ := (tracks_assignTarget st.target s (.refl _) hready.steady
    hready.scope hcurrent (Nat.le_refl _) (Nat.le_refl _)).of_eq hlocate
  have hready₁ := hready.later hp₁.after hp₁.enlarged.vars_le hg₁
  obtain ⟨us₂, hp₂, hvars, -⟩ := exists_progress hp₁.after (Nat.le_refl _) (Nat.le_refl _)
    (writes_rvalue subWrites_lowerExpr hready₁.below st.expr)
    (enlarges_rvalue subEnlarges_lowerExpr st.expr) hread
  obtain ⟨hg₂, -, g, hvalue⟩ := (tracks_rvalue st.expr s₁ (.refl _) hready₁.steady hready₁.scope
    hp₁.after.hasCurrent (Nat.le_refl _) (Nat.le_refl _)).of_eq hread
  have hbelow₂ := hbelow.mono hp₂.enlarged.vars_le
  have hstands := htarget.stands.mono hg₂
  -- what is written to is seen from the first variable on
  have hon : target.On (0 ≤ ·) True := by
    cases target <;> simp [Value.On]
  obtain ⟨us₃, hp₃, -⟩ := exists_progress (n := 0) (b := 0) hp₂.after (Nat.zero_le _)
    (Nat.zero_le _) (writes_writeValue hbelow₂ hvars)
    (show Enlarges frame 0 0 _ _ from enlarges_writeValue hon fun v _ ↦ .inr (Nat.zero_le v)) hwrite
  have happ (g' : Handle) (slots : List Var) (heq : target = .direct g' slots)
      (hlength : slots.length = vars.length) : slots = vars ∨ slots.Disjoint vars := by
    subst heq
    exact hready.eq_or_disjoint (hg₁.trans hg₂) htypes hbelow hstands hvalue hlength
  refine ⟨target, s₁, vars, s₂, hlocate, hread, hbelow, hp₁.enlarged, hp₂.enlarged, ?_⟩
  intro V W m hm budget
  obtain ⟨is, hemits, hputs⟩ := exists_puts hm (hg₂.steady hready₁.steady)
    (htarget.fits.mono hg₂.lays.toExtends) hvars happ hwrite
  refine ⟨hp₁.confined (Nat.le_refl _), hp₂.confined (Nat.le_refl _), _, hputs, ?_, ?_⟩
  · rintro g' slots rfl hold st
    generalize runInstrs m is = put at hputs
    cases hputs with
    | slots hlength =>
      exact Ir.State.map_vars_setAll (hready.nodup_target hstands hold)
        (hlength.trans (List.length_map _).symm) st
  · rw [hp₁.run_trans ((hp₂.mono (Nat.zero_le _) (Nat.zero_le _)).trans hp₃), hp₂.run_trans hp₃,
      (hp₃.run_of_emits hemits).2]

end Lowering

/-! ## A pair in front of a number, and one behind -/

/-- Structs that hold a pair at different slots, and expressions over one local. -/
def pairStructs : Program where
  types := #[{ kind := .prim, prim := .i32 }, { kind := .named, decl := 1 },
    { kind := .named, decl := 2 }, { kind := .named, decl := 3 }]
  decls := #[
    { kind := .struct, name := "Pair", aggregate := some {
      fields := [{ name := "x", type := 1 }, { name := "y", type := 1 }] } },
    { kind := .struct, name := "Front", aggregate := some {
      fields := [{ name := "pair", type := 2 }, { name := "z", type := 1 }] } },
    { kind := .struct, name := "Back", aggregate := some {
      fields := [{ name := "z", type := 1 }, { name := "pair", type := 2 }] } }]
  exprs := #[{ kind := .loc, type := 3 }, { kind := .member, type := 2, x := 1, name := "pair" },
    { kind := .member, type := 1, x := 2, name := "y" },
    { kind := .member, type := 1, x := 2, name := "x" },
    { kind := .construct, type := 2, args := [3, 4] },
    { kind := .loc, type := 4 }, { kind := .member, type := 2, x := 6, name := "pair" }]

namespace Layouts

/-- Both structs are named. -/
def namedPairs : Layouts :=
  ((onStore (TypeStore.Call.specialize "decl#3" []).run : M Unit)
    ((onStore (TypeStore.Call.specialize "decl#2" []).run : M Unit)
      { store := .ofProgram pairStructs }).2).2

/-- Both structs have a layout. -/
def laidPairs : Layouts :=
  (resolve (add 2 (add 1 namedPairs).2).2).2

theorem reached_laidPairs : Reached pairStructs laidPairs := by
  have hcalled {x : M Unit} {l : Layouts} (h : (x l).1 = .ok ⟨⟩) : x l = (.ok ⟨⟩, (x l).2) :=
    Prod.ext h rfl
  let start : Layouts := { store := .ofProgram pairStructs }
  let named : Layouts := (onStore (TypeStore.Call.specialize "decl#2" []).run start).2
  obtain ⟨hfront, hback, hsize, hadd, hsize', hadd', hresolve⟩ :
      (onStore (TypeStore.Call.specialize "decl#2" []).run start).1 = .ok ⟨⟩ ∧
        (onStore (TypeStore.Call.specialize "decl#3" []).run named).1 = .ok ⟨⟩ ∧
        1 < namedPairs.store.size ∧ (add 1 namedPairs).1 = .ok ⟨⟩ ∧
        2 < (add 1 namedPairs).2.store.size ∧ (add 2 (add 1 namedPairs).2).1 = .ok ⟨⟩ ∧
        (resolve (add 2 (add 1 namedPairs).2).2).1 = .ok [] := by
    decide +kernel
  have hnamed : Reached pairStructs named :=
    .prepare .start (.inr ⟨.specialize "decl#2" [], by simp [TypeStore.Call.given], hcalled hfront⟩)
  have hboth : Reached pairStructs namedPairs :=
    .prepare hnamed (.inr ⟨.specialize "decl#3" [], by simp [TypeStore.Call.given], hcalled hback⟩)
  have hadded : Reached pairStructs (add 2 (add 1 namedPairs).2).2 :=
    .prepare (.prepare hboth (.inl ⟨1, hsize, hcalled hadd⟩)) (.inl ⟨2, hsize', hcalled hadd'⟩)
  exact .resolve hadded (Prod.ext hresolve rfl)

end Layouts

namespace Lowering

/-- A function with one local, in three variables. -/
def frontFrame : Frame where
  name := "f"
  locals := #[[0, 1, 2]]

/-- Its first block has been opened. -/
def inFront : Lowering :=
  pushBasic {
    store := Layouts.laidPairs.store, vars := #[.i32, .i32, .i32], nesting := [[]] }

/-- The pair gets its own numbers the other way round. -/
def swapPair : Stmt where
  kind := .assign
  target := 2
  expr := 5

/-- A pair that the local has as one struct gets the pair that it has as the other. -/
def shiftPair : Stmt where
  kind := .assign
  target := 7
  expr := 2

theorem underway_inFront : Underway [] [.basic inFront.current] frontFrame inFront := by
  have hlaid := Layouts.reached_laidPairs
  exact Blank.underway ⟨rfl, rfl, rfl, rfl⟩
    ⟨by simp [VarsBelow, frontFrame], by simp [VarsBelow, frontFrame]⟩
    ⟨hlaid.consistent.proper, hlaid.allTiled⟩ nofun rfl (rowsApart_of_nodup (by decide))

/-- Evaluation of both assignments after the first block has been opened. -/
theorem evaluations_inFront :
    inFront.store.program.expr? swapPair.expr
        = some { kind := .construct, type := 2, args := [3, 4] } ∧
      ((lowerAssign swapPair frontFrame inFront).1 = .ok ⟨⟩ ∧
        [0, 1, 2].map (runAdded Ir.mover 0 inFront (lowerAssign swapPair frontFrame inFront).2
          ⟨fun v ↦ v + 5, ⟨⟩, []⟩).1.vars = [6, 5, 7]) ∧
      (assignTarget shiftPair.target frontFrame inFront).1 = .ok (.direct 3 [1, 2]) ∧
      (rvalue lowerExpr shiftPair.expr frontFrame inFront).1 = .ok [0, 1] ∧
      (lowerAssign shiftPair frontFrame inFront).1 = .ok ⟨⟩ ∧
      [1, 2].map (runAdded Ir.mover 0 inFront (lowerAssign shiftPair frontFrame inFront).2
        ⟨fun v ↦ v + 5, ⟨⟩, []⟩).1.vars = [5, 5] := by
  decide +kernel

/-- The right-hand side is no nesting of members, and so names no local. -/
theorem agreesOnLocals_swapPair : swapPair.AgreesOnLocals frontFrame inFront.store := by
  obtain ⟨hconstruct, -, -⟩ := evaluations_inFront
  intro e e' _ hover _ hkind
  cases hover with
  | root he =>
    cases hconstruct.symm.trans he
    cases hkind
  | member he hmember _ =>
    cases hconstruct.symm.trans he
    cases hmember

/-- A constructor whose arguments mention the target sees none of it assigned. -/
theorem lowerAssign_swapPair :
    Underway [] [.basic inFront.current] frontFrame inFront ∧
      swapPair.AgreesOnLocals frontFrame inFront.store ∧
      ∃ s', lowerAssign swapPair frontFrame inFront = (.ok ⟨⟩, s') ∧
        [0, 1, 2].map (runAdded Ir.mover 0 inFront s' ⟨fun v ↦ v + 5, ⟨⟩, []⟩).1.vars = [6, 5, 7] ∧
        ∃ locate read put, runAdded Ir.mover 0 inFront s' =
          Run.andThen locate (Run.andThen read put) := by
  obtain ⟨-, ⟨hok, hvars⟩, -⟩ := evaluations_inFront
  have hx : lowerAssign swapPair frontFrame inFront
      = (.ok ⟨⟩, (lowerAssign swapPair frontFrame inFront).2) :=
    Prod.ext hok rfl
  obtain ⟨_, _, _, _, -, -, -, -, -, hruns⟩ :=
    lowerAssign_reads_first underway_inFront agreesOnLocals_swapPair hx
  obtain ⟨-, -, put, -, -, hrun⟩ := hruns Ir.mover Ir.copies_mover 0
  exact ⟨underway_inFront, agreesOnLocals_swapPair, _, hx, hvars, _, _, _, hrun⟩

/-- Slots of one local that are taken as different types overlap halfway, and the first copy
overwrites what the second one reads. -/
theorem lowerAssign_shiftPair_overwrites :
    Underway [] [.basic inFront.current] frontFrame inFront ∧
      (assignTarget shiftPair.target frontFrame inFront).1 = .ok (.direct 3 [1, 2]) ∧
      (rvalue lowerExpr shiftPair.expr frontFrame inFront).1 = .ok [0, 1] ∧
      ∃ s', lowerAssign shiftPair frontFrame inFront = (.ok ⟨⟩, s') ∧
        ∃ st : State Nat Unit, [0, 1].map st.vars = [5, 6] ∧
          [1, 2].map (runAdded Ir.mover 0 inFront s' st).1.vars = [5, 5] := by
  obtain ⟨-, -, htarget, hvalue, hok, hafter⟩ := evaluations_inFront
  exact ⟨underway_inFront, htarget, hvalue, _, Prod.ext hok rfl, ⟨fun v ↦ v + 5, ⟨⟩, []⟩, rfl,
    hafter⟩

end Lowering

end WasmBackend
