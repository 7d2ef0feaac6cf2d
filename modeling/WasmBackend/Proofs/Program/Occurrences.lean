import WasmBackend.Program.Visit
import WasmBackend.Proofs.Stage

/-!
# What occurs in a program tree

An expression occurs in another when operands lead from the one to the other, and in a statement
when it occurs in the target or the expression of a statement nested in it.  A walk that comes to
its end meets exactly the expressions that occur.
-/

namespace WasmBackend.Program

open Relation (ReflTransGen)
open Stage (Ensures)

variable {p : Program}

/-- The second expression is an operand or argument of the first. -/
def Operand (p : Program) (id child : ExprId) : Prop :=
  ∃ e, p.expr? id = some e ∧ child ∈ e.x :: e.y :: e.args

/-- The second statement stands directly inside the first. -/
def Nested (p : Program) (id child : StmtId) : Prop :=
  ∃ s, p.stmt? id = some s ∧ child ∈ s.body ++ s.otherwise

/-- The expression with a number occurs in an expression tree. -/
def OccursInExpr (p : Program) (root id : ExprId) (e : Expr) : Prop :=
  ReflTransGen p.Operand root id ∧ p.expr? id = some e

/-- The expression with a number occurs in the statement tree of a root. -/
def OccursInStmt (p : Program) (root : StmtId) (id : ExprId) (e : Expr) : Prop :=
  ∃ j s, ReflTransGen p.Nested root j ∧ p.stmt? j = some s ∧
    (p.OccursInExpr s.target id e ∨ p.OccursInExpr s.expr id e)

/-- The expression with a number occurs in one of several statement trees. -/
def OccursInStmts (p : Program) (roots : List StmtId) (id : ExprId) (e : Expr) : Prop :=
  ∃ root ∈ roots, p.OccursInStmt root id e

theorem occursInExpr_iff {root id : ExprId} {e : Expr} :
    p.OccursInExpr root id e ↔ (root = id ∧ p.expr? id = some e) ∨
      ∃ child, p.Operand root child ∧ p.OccursInExpr child id e := by
  unfold OccursInExpr
  rw [ReflTransGen.cases_head_iff]
  constructor
  · rintro ⟨rfl | ⟨child, hchild, hbelow⟩, he⟩
    · exact .inl ⟨rfl, he⟩
    · exact .inr ⟨child, hchild, hbelow, he⟩
  · rintro (⟨rfl, he⟩ | ⟨child, hchild, hbelow, he⟩)
    · exact ⟨.inl rfl, he⟩
    · exact ⟨.inr ⟨child, hchild, hbelow⟩, he⟩

theorem occursInStmt_iff {root : StmtId} {id : ExprId} {e : Expr} :
    p.OccursInStmt root id e ↔
      (∃ s, p.stmt? root = some s ∧ (p.OccursInExpr s.target id e ∨ p.OccursInExpr s.expr id e)) ∨
        ∃ child, p.Nested root child ∧ p.OccursInStmt child id e := by
  constructor
  · rintro ⟨j, s, hbelow, hs, he⟩
    obtain rfl | ⟨child, hchild, hbelow⟩ := ReflTransGen.cases_head_iff.1 hbelow
    · exact .inl ⟨s, hs, he⟩
    · exact .inr ⟨child, hchild, j, s, hbelow, hs, he⟩
  · rintro (⟨s, hs, he⟩ | ⟨child, hchild, j, s, hbelow, hs, he⟩)
    · exact ⟨root, s, .refl, hs, he⟩
    · exact ⟨j, s, .head hchild hbelow, hs, he⟩

/-- Walking over several trees one after the other meets what walking over each meets. -/
theorem ensures_forM_walk {α : Type} {f : α → Walk Unit} {occurs : α → ExprId → Expr → Prop}
    {l : List α} {met : List Visit}
    (step : ∀ a met, Ensures (f a) met fun _ met' ↦
      ∀ id e, Visit.expr id e ∈ met' ↔ Visit.expr id e ∈ met ∨ occurs a id e) :
    Ensures (l.forM f) met fun _ met' ↦
      ∀ id e, Visit.expr id e ∈ met' ↔ Visit.expr id e ∈ met ∨ ∃ a ∈ l, occurs a id e := by
  refine Stage.meets_forM (fun done met' ↦
    ∀ id e, Visit.expr id e ∈ met' ↔ Visit.expr id e ∈ met ∨ ∃ a ∈ done, occurs a id e) (by simp) ?_
  rintro done a rest met' - hmet
  refine (step a met').imp ?_
  intro _ met'' hmet'' id e
  rw [hmet'', hmet, or_assoc]
  simp [or_and_right, exists_or]

theorem ensures_walkExpr (depth : Nat) (root : ExprId) (met : List Visit) :
    Ensures (p.walkExpr {} depth root) met fun _ met' ↦
      ∀ id e, Visit.expr id e ∈ met' ↔ Visit.expr id e ∈ met ∨ p.OccursInExpr root id e := by
  induction depth generalizing root met with
  | zero => trivial
  | succ depth ih =>
    unfold walkExpr
    cases hroot : p.expr? root with
    | none =>
      intro id e
      rw [occursInExpr_iff]
      have : ∀ child, ¬p.Operand root child := by
        rintro child ⟨e, he, -⟩
        rw [hroot] at he
        cases he
      refine ⟨.inl, ?_⟩
      rintro (h | ⟨rfl, he⟩ | ⟨child, hchild, -⟩)
      · exact h
      · rw [hroot] at he
        cases he
      · exact absurd hchild (this child)
    | some node =>
      simp only [Ensures, Stage.meets_bind, Stage.meets_modify, List.not_mem_nil, not_false_eq_true,
        if_true]
      refine (ensures_forM_walk ih).imp ?_
      intro _ met' hmet id e
      rw [hmet, occursInExpr_iff, List.mem_cons, or_assoc, or_left_comm]
      have hhead : Visit.expr id e = .expr root node ↔ root = id ∧ p.expr? id = some e := by
        constructor
        · rintro ⟨⟩
          exact ⟨rfl, hroot⟩
        · rintro ⟨rfl, he⟩
          rw [hroot] at he
          cases he
          rfl
      have hbelow : (∃ a ∈ node.x :: node.y :: node.args, p.OccursInExpr a id e) ↔
          ∃ child, p.Operand root child ∧ p.OccursInExpr child id e := by
        unfold Operand
        simp [hroot]
      rw [hhead, hbelow]

theorem ensures_walkStmt (depth : Nat) (root : StmtId) (met : List Visit) :
    Ensures (p.walkStmt {} depth root) met fun _ met' ↦
      ∀ id e, Visit.expr id e ∈ met' ↔ Visit.expr id e ∈ met ∨ p.OccursInStmt root id e := by
  induction depth generalizing root met with
  | zero => trivial
  | succ depth ih =>
    unfold walkStmt
    cases hroot : p.stmt? root with
    | none =>
      intro id e
      rw [occursInStmt_iff]
      refine ⟨.inl, ?_⟩
      rintro (h | ⟨s, hs, -⟩ | ⟨child, ⟨s, hs, -⟩, -⟩)
      · exact h
      · rw [hroot] at hs
        cases hs
      · rw [hroot] at hs
        cases hs
    | some node =>
      simp only [Ensures, Stage.meets_bind, Stage.meets_modify, List.not_mem_nil, not_false_eq_true,
        if_true]
      refine (ensures_forM_walk (ensures_walkExpr p.exprDepth)).imp ?_
      intro _ met₁ hmet₁
      refine (ensures_forM_walk ih).imp ?_
      intro _ met₂ hmet₂ id e
      rw [hmet₂, hmet₁, occursInStmt_iff]
      have hbelow : (∃ a ∈ node.body ++ node.otherwise, p.OccursInStmt a id e) ↔
          ∃ child, p.Nested root child ∧ p.OccursInStmt child id e := by
        unfold Nested
        simp [hroot]
      rw [hbelow]
      simp [hroot, or_assoc]

theorem mem_ofWalk {w : Walk Unit} {occurs : ExprId → Expr → Prop}
    (hw : Ensures w [] fun _ met ↦ ∀ id e, Visit.expr id e ∈ met ↔ Visit.expr id e ∈ [] ∨ occurs id e)
    (hended : (Walked.ofWalk w).ended = .ok ()) (id : ExprId) (e : Expr) :
    Visit.expr id e ∈ (Walked.ofWalk w).visits ↔ occurs id e := by
  have hrun : w [] = (.ok (), (w []).2) := Prod.ext hended rfl
  have hmem := hw.of_eq hrun id e
  show _ ∈ ((w []).2).reverse ↔ _
  rw [List.mem_reverse, hmem]
  simp

/-- A walk over an expression tree that comes to its end meets what occurs in it. -/
theorem mem_visitExpr {root id : ExprId} {e : Expr} (hended : (p.visitExpr root).ended = .ok ()) :
    Visit.expr id e ∈ (p.visitExpr root).visits ↔ p.OccursInExpr root id e :=
  mem_ofWalk (ensures_walkExpr _ root []) hended id e

/-- A walk over statement trees that comes to its end meets what occurs in them. -/
theorem mem_visitStmts {roots : List StmtId} {id : ExprId} {e : Expr}
    (hended : (p.visitStmts roots).ended = .ok ()) :
    Visit.expr id e ∈ (p.visitStmts roots).visits ↔ p.OccursInStmts roots id e :=
  mem_ofWalk (ensures_forM_walk (ensures_walkStmt _)) hended id e

end WasmBackend.Program
