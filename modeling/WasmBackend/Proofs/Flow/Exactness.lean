import WasmBackend.Proofs.Flow.Control
import WasmBackend.Proofs.Flow.Totality

/-!
# The graph is exact

Wherever a block of a valid function stands, the edges that leave it are the ways control may move
on from there.  The context that a point carries determines the targets that wiring knows at the
same place, so the two are compared block by block; that control only gets to points of the
function then makes the breadth-first order the set of blocks that control can reach.
-/

namespace WasmBackend.Flow

open Ir (BlockId)

/-- The position of the branch instruction that an edge leaves through. -/
def Edge.through (e : Edge) : Option Nat :=
  if e.site = .branch then some e.instr else none

end WasmBackend.Flow

namespace WasmBackend.Ir

open WasmBackend.Flow (Edge Graph Site)

/-! ## Branches in a basic block -/

/-- A basic block is left at its end, unless an instruction ends it before, and through every
branch that control gets to. -/
theorem mem_instrEdges {d : Targets} {id next : BlockId} {n : Nat} {is : List Instr} {e : Edge} :
    e ∈ instrEdges d id next n is ↔
      (e = { src := id, dst := next, site := .fallthrough } ∧ next ≠ 0 ∧ ∀ i ∈ is, ¬i.terminates)
        ∨ ∃ before i after, is = before ++ i :: after ∧ (∀ j ∈ before, ¬j.terminates)
          ∧ i.isBranch ∧ d.destination i ≠ 0
          ∧ e = { src := id, dst := d.destination i, site := .branch, instr := n + before.length }
    := by
  induction is generalizing n with
  | nil => simp [instrEdges]
  | cons i rest ih =>
    rw [instrEdges, List.mem_append]
    constructor
    · rintro (he | he) <;> split at he
      · obtain ⟨rfl, hdst⟩ := Edge.mem_proper.1 he
        exact .inr ⟨[], i, rest, rfl, by simp, ‹_›, hdst, rfl⟩
      · cases he
      · cases he
      · rename_i hi
        rcases ih.1 he with ⟨rfl, hnext, hopen⟩ | ⟨before, j, after, rfl, hopen, hj, hdst, rfl⟩
        · exact .inl ⟨rfl, hnext, List.forall_mem_cons.2 ⟨hi, hopen⟩⟩
        · refine .inr ⟨i :: before, j, after, rfl, List.forall_mem_cons.2 ⟨hi, hopen⟩, hj, hdst, ?_⟩
          rw [List.length_cons, Nat.add_assoc, Nat.add_comm 1]
    · rintro (⟨rfl, hnext, hopen⟩ | ⟨before, j, after, hsplit, hopen, hj, hdst, rfl⟩)
      · rw [List.forall_mem_cons] at hopen
        rw [if_neg hopen.1]
        exact .inr (ih.2 (.inl ⟨rfl, hnext, hopen.2⟩))
      · cases before with
        | nil =>
          cases hsplit
          rw [if_pos hj]
          exact .inl (Edge.mem_proper.2 ⟨rfl, hdst⟩)
        | cons k before =>
          cases hsplit
          rw [List.forall_mem_cons] at hopen
          rw [if_neg hopen.1]
          refine .inr (ih.2 (.inr ⟨before, j, after, rfl, hopen.2, hj, hdst, ?_⟩))
          rw [List.length_cons, Nat.add_assoc, Nat.add_comm 1]

/-- Every branch of a block has an edge of its own. -/
theorem pairwise_instrEdges (d : Targets) (id next : BlockId) (n : Nat) (is : List Instr) :
    (instrEdges d id next n is).Pairwise fun e e' ↦
      e.site = .branch → e'.site = .branch → e.instr ≠ e'.instr := by
  induction is generalizing n with
  | nil =>
    rw [instrEdges, Edge.proper]
    split <;> simp
  | cons i rest ih =>
    rw [instrEdges, List.pairwise_append]
    refine ⟨?_, ?_, ?_⟩
    · rw [Edge.proper]
      split <;> [split; skip] <;> simp
    · split
      · exact List.Pairwise.nil
      · exact ih (n + 1)
    · intro e he e' he' _ hbranch heq
      split at he
      · split at he'
        · cases he'
        · rw [(Edge.mem_proper.1 he).1] at heq
          rcases mem_instrEdges.1 he' with ⟨rfl, -⟩ | ⟨before, _, _, _, _, _, _, rfl⟩
          · cases hbranch
          · simp only at heq
            omega
      · cases he

/-! ## Targets and places -/

namespace Function

section

variable {f : Function}

/-- The block where control arrives, 0 outside the function. -/
def landing (f : Function) (ids : List BlockId) (levels : List Level) : BlockId :=
  ((f.arrive ids levels).map Point.block).getD 0

/-- Where branches to the constructs around a point go. -/
def targets (f : Function) : List Level → Targets
  | [] => {}
  | l :: levels =>
    match (f.blockAt l.id).kind with
    | .loop => (f.targets levels).loop l.id (f.landing l.behind levels) (f.restart l levels).block
    | .breakable => (f.targets levels).breakable l.id (f.landing l.behind levels)
    | .basic | .cond | .branch | .unknown _ _ => f.targets levels

/-- The constructs around a point, as validation sees them. -/
def scope (f : Function) (levels : List Level) : List (BlockId × BlockKind) :=
  levels.map fun l ↦ (l.id, (f.blockAt l.id).kind)

theorem scope_cons (l : Level) (levels : List Level) :
    f.scope (l :: levels) = (l.id, (f.blockAt l.id).kind) :: f.scope levels := rfl

theorem landing_eq_iff {ids : List BlockId} {levels : List Level} {b : BlockId} (hb : b ≠ 0) :
    f.landing ids levels = b ↔ ∃ q, f.arrive ids levels = some q ∧ q.block = b := by
  unfold landing
  cases f.arrive ids levels with
  | none => simpa using hb.symm
  | some q => simp

theorem first_landing (ts : Forest) (levels : List Level) :
    Forest.first ts (f.landing [] levels) = f.landing (Forest.roots ts) levels := by
  cases ts <;> simp [Forest.first, Forest.roots, landing]

theorem landing_nil_cons {l : Level} {levels : List Level} (hl : (f.blockAt l.id).kind ≠ .loop) :
    f.landing [] (l :: levels) = f.landing l.behind levels := by
  unfold landing
  rw [arrive_nil_cons, if_neg hl]

theorem landing_nil_loop {l : Level} {levels : List Level} (hl : (f.blockAt l.id).kind = .loop) :
    f.landing [] (l :: levels) = (f.restart l levels).block := by
  unfold landing
  rw [arrive_nil_cons, if_pos hl]
  rfl

theorem restart_block {l : Level} {levels : List Level} {ts : Forest}
    (hbody : (f.blockAt l.id).body = Forest.roots ts) :
    (f.restart l levels).block = Forest.first ts l.id := by
  unfold restart
  rw [hbody]
  cases ts <;> rfl

/-- Control enters an arm at its first block, or goes on behind the construct when it is empty. -/
theorem landing_arm (f : Function) (p : Point) (us : Forest)
    (hkind : (f.blockAt p.block).kind ≠ .loop) :
    f.landing (Forest.roots us) (⟨p.block, p.rest⟩ :: p.levels) =
      Forest.first us (f.landing p.rest p.levels) := by
  rw [← first_landing, landing_nil_cons hkind]

/-- In a loop control begins at its head. -/
theorem landing_loop (p : Point) {us : Forest} (hkind : (f.blockAt p.block).kind = .loop)
    (hbody : (f.blockAt p.block).body = Forest.roots us) :
    f.landing (Forest.roots us) (⟨p.block, p.rest⟩ :: p.levels) = Forest.first us p.block := by
  rw [← first_landing, landing_nil_loop hkind, restart_block hbody]
  cases us <;> rfl

/-- Constructs with other numbers do not change where a branch goes. -/
theorem destination_targets_cons {l : Level} {levels : List Level} {i : Instr}
    (hl : l.id ≠ i.target) :
    (f.targets (l :: levels)).destination i = (f.targets levels).destination i := by
  rw [targets]
  split <;> simp [Targets.destination, Targets.loop, Targets.breakable, hl.symm]

/-- A branch that passes validation goes where the constructs around its point say. -/
theorem destination_targets {levels : List Level} {b : BlockId} {i : Instr}
    (h : branchViolations b (f.scope levels) i = []) :
    ∃ l around, enclosing i.target levels = some (l, around)
      ∧ (i.op = .next → (f.blockAt l.id).kind = .loop
          ∧ (f.targets levels).destination i = (f.restart l around).block)
      ∧ (i.op ≠ .next → ((f.blockAt l.id).kind = .loop ∨ (f.blockAt l.id).kind = .breakable)
          ∧ (f.targets levels).destination i = f.landing l.behind around) := by
  induction levels with
  | nil => simp [branchViolations, scope] at h
  | cons l levels ih =>
    by_cases hl : l.id = i.target
    · have hfind : (f.scope (l :: levels)).find? (fun s ↦ s.1 = i.target) =
          some (l.id, (f.blockAt l.id).kind) := by simp [scope, hl]
      rw [branchViolations, hfind] at h
      simp only [List.append_eq_nil_iff, ite_eq_right_iff, List.cons_ne_nil, imp_false, not_and,
        not_not] at h
      refine ⟨l, levels, by rw [enclosing, if_pos hl], fun hnext ↦ ?_, fun hnext ↦ ?_⟩
      · have hkind := h.1 hnext
        rw [targets, hkind]
        exact ⟨rfl, by simp [Targets.destination, hnext, Targets.loop, hl]⟩
      · by_cases hkind : (f.blockAt l.id).kind = .loop
        · rw [targets, hkind]
          exact ⟨.inl rfl, by simp [Targets.destination, hnext, Targets.loop, hl]⟩
        · have hkind' := h.2 hkind
          rw [targets, hkind']
          exact ⟨.inr rfl, by simp [Targets.destination, hnext, Targets.breakable, hl]⟩
    · -- validation looks past a construct with another number as well
      have hskip : branchViolations b (f.scope levels) i = [] := by
        simpa [branchViolations, scope, List.find?_cons, hl] using h
      obtain ⟨m, around, henclosing, hnext, hexit⟩ := ih hskip
      refine ⟨m, around, by rw [enclosing, if_neg hl, henclosing], ?_⟩
      rw [destination_targets_cons hl]
      exact ⟨hnext, hexit⟩

end

/-- A forest of the function stands inside some constructs, and the graph knows the same about its
blocks. -/
structure Stands (f : Function) (g : Graph) (ts : Forest) (levels : List Level) : Prop where
  stored : Forest.Stored f ts
  wired : Forest.Wired f g (f.targets levels) (f.landing [] levels) ts
  checked : Forest.Checked f (f.scope levels) ts

section

variable {f : Function} {g : Graph} {levels : List Level} {ts : Forest}

theorem Stands.tail {t : Tree} (h : f.Stands g (t :: ts) levels) : f.Stands g ts levels :=
  ⟨h.stored.2, h.wired.2, h.checked.2⟩

/-- The end of a list of trees stands where the list stands. -/
theorem Stands.suffix {before rest : List BlockId} (h : f.Stands g ts levels)
    (hroots : Forest.roots ts = before ++ rest) :
    ∃ us, Forest.roots us = rest ∧ f.Stands g us levels := by
  induction before generalizing ts with
  | nil => exact ⟨ts, hroots, h⟩
  | cons id before ih =>
    cases ts with
    | nil => cases hroots
    | cons t ts => exact ih h.tail (List.cons.inj hroots).2

/-- A tree that stands at a point. -/
structure Rooted (f : Function) (g : Graph) (t : Tree) (p : Point) : Prop where
  id_eq : t.id = p.block
  stored : t.Stored f
  wired : t.Wired f g (f.targets p.levels) (f.landing p.rest p.levels)
  checked : t.Checked f (f.scope p.levels)

theorem Stands.rooted {id : BlockId} {rest : List BlockId} (h : f.Stands g ts levels)
    (hroots : Forest.roots ts = id :: rest) : ∃ t, f.Rooted g t ⟨id, rest, levels⟩ := by
  cases ts with
  | nil => cases hroots
  | cons t ts =>
    obtain ⟨hid, hrest⟩ := List.cons.inj hroots
    have hwired := h.wired.1
    rw [first_landing, show Forest.roots ts = rest from hrest] at hwired
    exact ⟨t, hid, h.stored.1, hwired, h.checked.1⟩

/-- The lists inside a block stand inside the construct. -/
theorem Rooted.arms {t : Tree} {p : Point} (h : f.Rooted g t p) {arm : List BlockId}
    (harm : arm ∈ (f.blockAt p.block).arms) :
    ∃ us, Forest.roots us = arm ∧ f.Stands g us (⟨p.block, p.rest⟩ :: p.levels) := by
  obtain ⟨hid, hstored, hwired, hchecked⟩ := h
  obtain ⟨id, rest, levels⟩ := p
  obtain rfl : t.id = id := hid
  cases t with
  | basic id =>
    rw [Tree.id, Node.arms_eq hstored] at harm
    cases harm
  | cond id body =>
    have hkind : (f.blockAt (Level.mk id rest).id).kind = .cond := hstored.1.kind_eq
    rw [Tree.id, hstored.1.arms_eq] at harm
    refine ⟨body, (List.mem_singleton.1 harm).symm, hstored.2, ?_, ?_⟩
    · rw [Tree.id, landing_nil_cons (by simp [hkind]), targets, hkind]
      exact hwired.2
    · rw [Tree.id, scope_cons, hkind]
      exact hchecked.2.2
  | branch id body other =>
    have hkind : (f.blockAt (Level.mk id rest).id).kind = .branch := hstored.1.kind_eq
    have hplace : f.landing [] (⟨id, rest⟩ :: levels) = f.landing rest levels :=
      landing_nil_cons (by simp [hkind])
    have htargets : f.targets (⟨id, rest⟩ :: levels) = f.targets levels := by rw [targets, hkind]
    have hscope : f.scope (⟨id, rest⟩ :: levels) = (id, .branch) :: f.scope levels := by
      rw [scope_cons, hkind]
    rw [Tree.id, hstored.1.arms_eq] at harm
    rcases List.mem_pair.1 harm with rfl | rfl
    · exact ⟨body, rfl, hstored.2.1, by rw [Tree.id, hplace, htargets]; exact hwired.2.1,
        by rw [Tree.id, hscope]; exact hchecked.2.2.1⟩
    · exact ⟨other, rfl, hstored.2.2, by rw [Tree.id, hplace, htargets]; exact hwired.2.2,
        by rw [Tree.id, hscope]; exact hchecked.2.2.2⟩
  | loop id body =>
    have hkind : (f.blockAt (Level.mk id rest).id).kind = .loop := hstored.1.kind_eq
    have hbody : (f.blockAt (Level.mk id rest).id).body = Forest.roots body := hstored.1.body_eq
    rw [Tree.id, hstored.1.arms_eq] at harm
    refine ⟨body, (List.mem_singleton.1 harm).symm, hstored.2, ?_, ?_⟩
    · rw [Tree.id, landing_nil_loop hkind, targets, hkind, restart_block hbody]
      exact hwired.2
    · rw [Tree.id, scope_cons, hkind]
      exact hchecked.2
  | breakable id body =>
    have hkind : (f.blockAt (Level.mk id rest).id).kind = .breakable := hstored.1.kind_eq
    rw [Tree.id, hstored.1.arms_eq] at harm
    refine ⟨body, (List.mem_singleton.1 harm).symm, hstored.2, ?_, ?_⟩
    · rw [Tree.id, landing_nil_cons (by simp [hkind]), targets, hkind]
      exact hwired.2
    · rw [Tree.id, scope_cons, hkind]
      exact hchecked.2

/-- Wherever a block of the function stands, a tree stands there. -/
theorem Occurs.rooted (hf : f.Stands g ts []) (hbody : f.body = Forest.roots ts) {p : Point}
    (h : f.Occurs p) : ∃ t, f.Rooted g t p := by
  induction h with
  | @body before rest id h =>
    obtain ⟨us, hroots, hstands⟩ := hf.suffix (hbody.symm.trans h)
    exact hstands.rooted hroots
  | @arm l levels before rest id _ harm ih =>
    obtain ⟨t, ht⟩ := ih
    obtain ⟨us, hroots, hstands⟩ := ht.arms harm
    obtain ⟨vs, hroots', hstands'⟩ := hstands.suffix hroots
    exact hstands'.rooted hroots'

end

/-! ## Edges and moves of one block -/

section

variable {f : Function} {g : Graph} {t : Tree} {p : Point} {through : Option Nat} {b : BlockId}

theorem Rooted.succs_eq (h : f.Rooted g t p) :
    g.succs p.block = t.ownEdges f (f.targets p.levels) (f.landing p.rest p.levels) := by
  have hwired := h.wired
  rw [← h.id_eq]
  cases t with
  | basic => exact hwired
  | _ => exact hwired.1

/-- Out of a structured block control goes into its arms, or around its body. -/
theorem moves_iff_of_structured {q : Point} (hkind : (f.blockAt p.block).kind ≠ .basic) :
    f.Moves p through q ↔ through = none ∧
      ((∃ arm ∈ (f.blockAt p.block).arms, f.arrive arm (⟨p.block, p.rest⟩ :: p.levels) = some q)
        ∨ (f.blockAt p.block).kind = .cond ∧ f.arrive p.rest p.levels = some q) := by
  constructor
  · intro h
    cases h with
    | fall hbasic | leave hbasic | again hbasic => exact absurd hbasic hkind
    | skip hcond hq => exact ⟨rfl, .inr ⟨hcond, hq⟩⟩
    | enter harm hq => exact ⟨rfl, .inl ⟨_, harm, hq⟩⟩
  · rintro ⟨rfl, ⟨arm, harm, hq⟩ | ⟨hcond, hq⟩⟩
    · exact .enter harm hq
    · exact .skip hcond hq

/-- An edge that is no branch, alone. -/
theorem exists_mem_proper {src dst : BlockId} {site : Site} (hsite : site ≠ .branch)
    (hb : b ≠ 0) :
    (∃ e ∈ Edge.proper { src, dst, site }, e.through = through ∧ e.dst = b) ↔
      through = none ∧ dst = b := by
  simp only [Edge.mem_proper]
  constructor
  · rintro ⟨_, ⟨rfl, -⟩, rfl, rfl⟩
    exact ⟨by rw [Edge.through, if_neg hsite], rfl⟩
  · rintro ⟨rfl, rfl⟩
    exact ⟨_, ⟨rfl, hb⟩, by rw [Edge.through, if_neg hsite], rfl⟩

theorem exists_mem_append {P : Edge → Prop} {xs ys : List Edge} :
    (∃ e ∈ xs ++ ys, P e) ↔ (∃ e ∈ xs, P e) ∨ ∃ e ∈ ys, P e := by
  simp only [List.mem_append, or_and_right, exists_or]

/-- The edges that a structured block makes go where its arms and what is behind it begin. -/
theorem Rooted.exists_ownEdges_of_structured (h : f.Rooted g t p)
    (hkind : (f.blockAt p.block).kind ≠ .basic) (hb : b ≠ 0) :
    (∃ e ∈ g.succs p.block, e.through = through ∧ e.dst = b) ↔ through = none ∧
      ((∃ arm ∈ (f.blockAt p.block).arms, f.landing arm (⟨p.block, p.rest⟩ :: p.levels) = b)
        ∨ (f.blockAt p.block).kind = .cond ∧ f.landing p.rest p.levels = b) := by
  rw [h.succs_eq]
  obtain ⟨hid, hstored, -, -⟩ := h
  obtain ⟨id, rest, levels⟩ := p
  obtain rfl : t.id = id := hid
  cases t with
  | basic id => exact absurd (Node.kind_eq hstored) hkind
  | cond id body =>
    have hkind : (f.blockAt id).kind = .cond := hstored.1.kind_eq
    have harms : (f.blockAt id).arms = [Forest.roots body] := hstored.1.arms_eq
    have hbody := f.landing_arm ⟨id, rest, levels⟩ body (by simp [hkind])
    simp only [Tree.id, Tree.ownEdges, harms, hkind, hbody, exists_mem_append,
      List.mem_singleton, exists_eq_left, true_and]
    rw [exists_mem_proper (show Site.around ≠ .branch by decide) hb]
    -- an empty body has no edge of its own: entering it and going around it are one
    cases body with
    | nil => simp [Forest.first]
    | cons t ts =>
      rw [exists_mem_proper (show Site.enter ≠ .branch by decide) hb, ← and_or_left]
      exact Iff.rfl
  | branch id body other =>
    have hkind : (f.blockAt id).kind = .branch := hstored.1.kind_eq
    have harms : (f.blockAt id).arms = [Forest.roots body, Forest.roots other] :=
      hstored.1.arms_eq
    have harm := fun us ↦ f.landing_arm ⟨id, rest, levels⟩ us (by simp [hkind])
    simp only [Tree.id, Tree.ownEdges, harms, hkind, harm, exists_mem_append, List.mem_cons,
      List.not_mem_nil, or_false, exists_eq_or_imp, exists_eq_left, reduceCtorEq, false_and]
    rw [exists_mem_proper (by decide) hb, exists_mem_proper (by decide) hb, ← and_or_left]
  | loop id body =>
    have hkind : (f.blockAt id).kind = .loop := hstored.1.kind_eq
    have harms : (f.blockAt id).arms = [Forest.roots body] := hstored.1.arms_eq
    have hbody := landing_loop ⟨id, rest, levels⟩ hkind hstored.1.body_eq
    simp only [Tree.id, Tree.ownEdges, harms, hkind, hbody, List.mem_singleton,
      exists_eq_left, reduceCtorEq, false_and, or_false]
    exact exists_mem_proper (by decide) hb
  | breakable id body =>
    have hkind : (f.blockAt id).kind = .breakable := hstored.1.kind_eq
    have harms : (f.blockAt id).arms = [Forest.roots body] := hstored.1.arms_eq
    have hbody := f.landing_arm ⟨id, rest, levels⟩ body (by simp [hkind])
    simp only [Tree.id, Tree.ownEdges, harms, hkind, hbody, List.mem_singleton,
      exists_eq_left, reduceCtorEq, false_and, or_false]
    exact exists_mem_proper (by decide) hb

/-- A basic block stands as a basic tree. -/
theorem Rooted.basic_of_kind (h : f.Rooted g t p) (hkind : (f.blockAt p.block).kind = .basic) :
    t = .basic p.block := by
  obtain ⟨hid, hstored, -, -⟩ := h
  rw [← hid] at hkind ⊢
  cases t with
  | basic id => rfl
  | _ => exact absurd (hstored.1.kind_eq.symm.trans hkind) (by simp)

/-- Where a branch of a basic block goes. -/
theorem Rooted.destination (h : f.Rooted g t p) (hkind : (f.blockAt p.block).kind = .basic)
    {i : Instr} (hi : i ∈ (f.blockAt p.block).instrs) (hbranch : i.isBranch) :
    ∃ l around, enclosing i.target p.levels = some (l, around)
      ∧ (i.op = .next → (f.blockAt l.id).kind = .loop
          ∧ (f.targets p.levels).destination i = (f.restart l around).block)
      ∧ (i.op ≠ .next → ((f.blockAt l.id).kind = .loop ∨ (f.blockAt l.id).kind = .breakable)
          ∧ (f.targets p.levels).destination i = f.landing l.behind around) := by
  have hchecked := h.checked
  rw [h.basic_of_kind hkind] at hchecked
  have hviolations := List.flatMap_eq_nil_iff.1 hchecked.1 i hi
  exact destination_targets ((f.instrViolations_eq_nil.1 hviolations).2 hbranch p.block)

theorem op_of_isBranch {i : Instr} (h : i.isBranch) (hnext : i.op ≠ .next) :
    i.op = .exit ∨ i.op = .exitIf := by
  unfold Instr.isBranch at h
  split at h
  · exact .inl ‹_›
  · exact absurd ‹_› hnext
  · exact .inr ‹_›
  · cases h

/-- The edges that a basic block makes are the ways control may leave it. -/
theorem Rooted.exists_ownEdges_of_basic (h : f.Rooted g t p)
    (hkind : (f.blockAt p.block).kind = .basic) (hb : b ≠ 0) :
    (∃ e ∈ g.succs p.block, e.through = through ∧ e.dst = b) ↔
      ∃ q, f.Moves p through q ∧ q.block = b := by
  rw [h.succs_eq, h.basic_of_kind hkind, Tree.ownEdges]
  constructor
  · rintro ⟨e, he, rfl, rfl⟩
    rcases mem_instrEdges.1 he with ⟨rfl, -, hopen⟩ | ⟨before, i, after, hsplit, hopen, hi, -, rfl⟩
    · obtain ⟨q, hq, hblock⟩ := (landing_eq_iff hb).1 rfl
      exact ⟨q, .fall hkind hopen hq, hblock⟩
    · obtain ⟨l, around, htarget, hnext, hexit⟩ := h.destination hkind (by simp [hsplit]) hi
      simp only [Edge.through, if_true, Nat.zero_add]
      by_cases hop : i.op = .next
      · obtain ⟨hl, hdst⟩ := hnext hop
        exact ⟨_, .again hkind hsplit hopen hop htarget hl, hdst.symm⟩
      · obtain ⟨hl, hdst⟩ := hexit hop
        obtain ⟨q, hq, hblock⟩ := (landing_eq_iff hb).1 hdst.symm
        exact ⟨q, .leave hkind hsplit hopen (op_of_isBranch hi hop) htarget hl hq, hblock⟩
  · rintro ⟨q, hmoves, rfl⟩
    cases hmoves with
    | fall _ hopen hq =>
      have hnext := (landing_eq_iff hb).2 ⟨q, hq, rfl⟩
      exact ⟨_, mem_instrEdges.2 (.inl ⟨rfl, by rwa [hnext], hopen⟩), rfl, hnext⟩
    | @leave _ before after i l around _ hsplit hopen hop htarget hl hq =>
      have hbranch : i.isBranch := by rcases hop with hop | hop <;> simp [Instr.isBranch, hop]
      -- the construct that is left is the one that validation has found
      obtain ⟨l', around', htarget', -, hexit⟩ := h.destination hkind (by simp [hsplit]) hbranch
      rw [htarget] at htarget'
      cases htarget'
      have hdst := (hexit (by rcases hop with hop | hop <;> simp [hop])).2.trans
        ((landing_eq_iff hb).2 ⟨q, hq, rfl⟩)
      refine ⟨_, mem_instrEdges.2 (.inr ⟨before, i, after, hsplit, hopen, hbranch, by rwa [hdst],
        rfl⟩), ?_, hdst⟩
      simp [Edge.through]
    | @again before after i l around _ hsplit hopen hop htarget hl =>
      have hbranch : i.isBranch := by simp [Instr.isBranch, hop]
      obtain ⟨l', around', htarget', hnext, -⟩ := h.destination hkind (by simp [hsplit]) hbranch
      rw [htarget] at htarget'
      cases htarget'
      have hdst := (hnext hop).2
      refine ⟨_, mem_instrEdges.2 (.inr ⟨before, i, after, hsplit, hopen, hbranch, by rwa [hdst],
        rfl⟩), ?_, hdst⟩
      simp [Edge.through]
    | skip hcond => exact absurd (hkind.symm.trans hcond) (by simp)
    | enter harm => simp [Block.arms, hkind] at harm

/-- The edges out of a block are the ways control may go on from where the block stands. -/
theorem Rooted.exists_succs_iff (h : f.Rooted g t p) (hb : b ≠ 0) :
    (∃ e ∈ g.succs p.block, e.through = through ∧ e.dst = b) ↔
      ∃ q, f.Moves p through q ∧ q.block = b := by
  by_cases hkind : (f.blockAt p.block).kind = .basic
  · exact h.exists_ownEdges_of_basic hkind hb
  · rw [h.exists_ownEdges_of_structured hkind hb]
    simp only [landing_eq_iff hb, moves_iff_of_structured hkind]
    constructor
    · rintro ⟨rfl, ⟨arm, harm, q, hq, hblock⟩ | ⟨hcond, q, hq, hblock⟩⟩
      · exact ⟨q, ⟨rfl, .inl ⟨arm, harm, hq⟩⟩, hblock⟩
      · exact ⟨q, ⟨rfl, .inr ⟨hcond, hq⟩⟩, hblock⟩
    · rintro ⟨q, ⟨rfl, ⟨arm, harm, hq⟩ | ⟨hcond, hq⟩⟩, hblock⟩
      · exact ⟨rfl, .inl ⟨arm, harm, q, hq, hblock⟩⟩
      · exact ⟨rfl, .inr ⟨hcond, q, hq, hblock⟩⟩

/-- No two edges leave a block through one branch instruction. -/
theorem Rooted.pairwise_succs (h : f.Rooted g t p) :
    (g.succs p.block).Pairwise fun e e' ↦
      e.site = .branch → e'.site = .branch → e.instr ≠ e'.instr := by
  rw [h.succs_eq]
  have hplain : ∀ es : List Edge, (∀ e ∈ es, e.site ≠ .branch) → es.Pairwise fun e e' ↦
      e.site = .branch → e'.site = .branch → e.instr ≠ e'.instr := fun es hes ↦
    List.pairwise_of_forall_mem_list fun e he _ _ hsite ↦ absurd hsite (hes e he)
  cases t with
  | basic id => exact pairwise_instrEdges _ _ _ _ _
  | cond id body =>
    refine hplain _ fun e he ↦ ?_
    rcases List.mem_append.1 he with he | he
    · split at he
      · cases he
      · simp [(Edge.mem_proper.1 he).1]
    · simp [(Edge.mem_proper.1 he).1]
  | branch id body other =>
    refine hplain _ fun e he ↦ ?_
    rcases List.mem_append.1 he with he | he <;> simp [(Edge.mem_proper.1 he).1]
  | loop id body | breakable id body =>
    refine hplain _ fun e he ↦ ?_
    simp [(Edge.mem_proper.1 he).1]

end

/-! ## All blocks and all edges -/

/-- Every block of a list stands at a point inside the same constructs. -/
def Listed (f : Function) (ids : List BlockId) (levels : List Level) : Prop :=
  ∀ before id rest, ids = before ++ id :: rest → f.Occurs ⟨id, rest, levels⟩

section

variable {f : Function}

theorem listed_arm {p : Point} {arm : List BlockId} (h : f.Occurs p)
    (harm : arm ∈ (f.blockAt p.block).arms) : f.Listed arm (⟨p.block, p.rest⟩ :: p.levels) := by
  rintro before id rest rfl
  exact .arm h harm

/-- Every block of a tree stands somewhere. -/
theorem exists_occurs (f : Function) :
    (∀ t : Tree, ∀ p, t.Stored f → f.Occurs p → p.block = t.id →
        ∀ x ∈ t.ids, ∃ q, f.Occurs q ∧ q.block = x) ∧
      ∀ ts : Forest, ∀ levels, Forest.Stored f ts → f.Listed (Forest.roots ts) levels →
        ∀ x ∈ Forest.ids ts, ∃ q, f.Occurs q ∧ q.block = x := by
  refine Tree.induction ?basic ?cond ?branch ?loop ?breakable ?nil ?cons
  case basic =>
    intro id p _ hp hid x hx
    exact ⟨p, hp, hid.trans (List.mem_singleton.1 hx).symm⟩
  case cond | loop | breakable =>
    intro id body ih p h hp hid x hx
    rcases List.mem_cons.1 hx with rfl | hx
    · exact ⟨p, hp, hid⟩
    · refine ih _ h.2 (listed_arm hp ?_) x hx
      rw [hid, Tree.id, h.1.arms_eq]
      exact List.mem_singleton_self _
  case branch =>
    intro id body other ih ih' p h hp hid x hx
    have harms : (f.blockAt p.block).arms = [Forest.roots body, Forest.roots other] := by
      rw [hid]
      exact h.1.arms_eq
    rcases List.mem_cons.1 hx with rfl | hx
    · exact ⟨p, hp, hid⟩
    · rcases List.mem_append.1 hx with hx | hx
      · exact ih _ h.2.1 (listed_arm hp (by simp [harms])) x hx
      · exact ih' _ h.2.2 (listed_arm hp (by simp [harms])) x hx
  case nil =>
    intro levels _ _ x hx
    cases hx
  case cons =>
    intro t ts ih ihs levels h hlisted x hx
    rcases List.mem_append.1 hx with hx | hx
    · exact ih _ h.1 (hlisted [] t.id (Forest.roots ts) rfl) rfl x hx
    · refine ihs levels h.2 (fun before id rest heq ↦ ?_) x hx
      exact hlisted (t.id :: before) id rest (congrArg (t.id :: ·) heq)

end

end Function

end WasmBackend.Ir

namespace WasmBackend.Flow.Graph

open Ir (BlockId Forest Function Point)

/-- The graph has an edge exactly where control may pass from block to block, one for each branch
instruction that control gets to, and its order lists exactly the blocks that control gets to. -/
structure Exact (g : Graph) (f : Function) : Prop where
  entry_eq : g.entry = f.body.headD 0
  edge_iff : ∀ a through b,
    (∃ e ∈ g.edges, e.src = a ∧ e.through = through ∧ e.dst = b) ↔ f.Passes a through b
  separate : ∀ a, (g.succs a).Pairwise fun e e' ↦
    e.site = .branch → e'.site = .branch → e.instr ≠ e'.instr
  succs_iff : ∀ a e, e ∈ g.succs a ↔ e ∈ g.edges ∧ e.src = a
  preds_iff : ∀ b e, e ∈ g.preds b ↔ e ∈ g.edges ∧ e.dst = b
  count_eq : ∀ e, (g.succs e.src).count e = (g.preds e.dst).count e
  order_nodup : g.order.Nodup
  mem_order_iff : ∀ b, b ∈ g.order ↔ ∃ p, f.Reaches p ∧ p.block = b
  isReachable_iff : ∀ b, g.isReachable b ↔ ∃ p, f.Reaches p ∧ p.block = b

section

variable {f : Function} {g : Graph} {ts : Forest}

/-- The trees of a function stand inside no construct. -/
theorem Describes.stands (h : g.Describes f ts) (hf : f.WellFormed ts) : f.Stands g ts [] where
  stored := hf.stored
  wired := by
    have hwired := h.wired
    rwa [show (0 : BlockId) = f.landing [] [] by simp [Function.landing, Function.arrive]]
      at hwired
  checked := hf.checked

variable (h : g.Describes f ts) (hf : f.WellFormed ts)

include h hf

theorem Describes.rooted {p : Point} (hp : f.Occurs p) : ∃ t, f.Rooted g t p :=
  hp.rooted (h.stands hf) hf.body_eq

theorem Describes.block_ne_zero {p : Point} (hp : f.Occurs p) : p.block ≠ 0 := by
  obtain ⟨t, ht⟩ := h.rooted hf hp
  rw [← ht.id_eq]
  exact Nat.pos_iff_ne_zero.1 (f.mem_range_of_block? ht.stored.block?_id).1

/-- Every way control may move on is an edge. -/
theorem Describes.exists_edge {p q : Point} {through : Option Nat} (hp : f.Occurs p)
    (hmoves : f.Moves p through q) :
    ∃ e ∈ g.succs p.block, e.through = through ∧ e.dst = q.block := by
  obtain ⟨t, ht⟩ := h.rooted hf hp
  exact (ht.exists_succs_iff (h.block_ne_zero hf (hp.moves hmoves))).2 ⟨q, hmoves, rfl⟩

/-- Every edge is a way control may move on from where its source stands. -/
theorem Describes.exists_moves {p : Point} {e : Edge} (hp : f.Occurs p)
    (he : e ∈ g.succs p.block) : ∃ q, f.Moves p e.through q ∧ q.block = e.dst := by
  obtain ⟨t, ht⟩ := h.rooted hf hp
  have hne : e.dst ≠ 0 := by
    have hmem := (mem_succs.1 he).1
    rw [h.edges_eq] at hmem
    have hexists := Ir.Tree.block?_of_mem_ids.2 ts hf.stored _ (dst_mem_ids hmem)
    exact Nat.pos_iff_ne_zero.1 (f.mem_range_of_block? hexists).1
  exact (ht.exists_succs_iff hne).1 ⟨e, he, rfl, rfl⟩

theorem Describes.edge_iff (a : BlockId) (through : Option Nat) (b : BlockId) :
    (∃ e ∈ g.edges, e.src = a ∧ e.through = through ∧ e.dst = b) ↔ f.Passes a through b := by
  constructor
  · rintro ⟨e, he, rfl, rfl, rfl⟩
    have hsrc := he
    rw [h.edges_eq] at hsrc
    have hlisted : f.Listed (Forest.roots ts) [] := fun _ _ _ heq ↦ .body (hf.body_eq.trans heq)
    obtain ⟨p, hp, hblock⟩ := (Function.exists_occurs f).2 ts [] hf.stored hlisted e.src
      ((Ir.Tree.edges_src f).2 ts {} 0 e hsrc)
    obtain ⟨q, hmoves, hq⟩ := h.exists_moves hf hp (mem_succs.2 ⟨he, hblock.symm⟩)
    exact ⟨p, q, hp, hblock, hmoves, hq⟩
  · rintro ⟨p, q, hp, rfl, hmoves, rfl⟩
    obtain ⟨e, he, hthrough, hdst⟩ := h.exists_edge hf hp hmoves
    obtain ⟨hmem, hsrc⟩ := mem_succs.1 he
    exact ⟨e, hmem, hsrc, hthrough, hdst⟩

theorem Describes.pairwise_succs (a : BlockId) : (g.succs a).Pairwise fun e e' ↦
    e.site = .branch → e'.site = .branch → e.instr ≠ e'.instr := by
  by_cases ha : a ∈ Forest.ids ts
  · have hlisted : f.Listed (Forest.roots ts) [] := fun _ _ _ heq ↦ .body (hf.body_eq.trans heq)
    obtain ⟨p, hp, rfl⟩ := (Function.exists_occurs f).2 ts [] hf.stored hlisted a ha
    obtain ⟨t, ht⟩ := h.rooted hf hp
    exact ht.pairwise_succs
  · have hnone : g.succs a = [] := by
      rw [succs, h.edges_eq]
      exact Ir.filter_src_edges f {} 0 ha
    rw [hnone]
    exact List.Pairwise.nil

/-- The order has the blocks that control gets to, and no other. -/
theorem Describes.mem_order_iff (b : BlockId) :
    b ∈ g.order ↔ ∃ p, f.Reaches p ∧ p.block = b := by
  constructor
  · -- the order is the least set that has the entry and is closed under edges
    intro hb
    cases ts with
    | nil => simpa [Forest.ids] using h.order_subset b hb
    | cons t ts =>
      refine h.order_least (fun b ↦ ∃ p, f.Reaches p ∧ p.block = b) ?_ ?_ b hb
      · refine ⟨⟨t.id, Forest.roots ts, []⟩, ⟨_, ?_, .refl⟩, h.entry_eq.symm⟩
        rw [hf.body_eq]
        exact Function.arrive_cons
      · rintro e he ⟨p, hp, hblock⟩
        obtain ⟨q, hmoves, hq⟩ :=
          h.exists_moves hf hp.occurs (mem_succs.2 ⟨he, hblock.symm⟩)
        exact ⟨q, hp.moves hmoves, hq⟩
  · -- by induction on the steps that control takes from the start
    rintro ⟨p, ⟨start, hstart, hsteps⟩, rfl⟩
    induction hsteps with
    | refl =>
      cases ts with
      | nil => simp [hf.body_eq, Forest.roots, Function.arrive] at hstart
      | cons t ts =>
        rw [hf.body_eq, Forest.roots, List.map_cons, Function.arrive_cons,
          Option.some_inj] at hstart
        rw [← hstart]
        show Forest.first (t :: ts) 0 ∈ g.order
        rw [← h.entry_eq]
        exact h.entry_mem (List.cons_ne_nil t ts)
    | @tail p q hsteps hmove ih =>
      obtain ⟨through, hmoves⟩ := hmove
      have hp : f.Reaches p := ⟨start, hstart, hsteps⟩
      obtain ⟨e, he, -, hdst⟩ := h.exists_edge hf hp.occurs hmoves
      exact hdst ▸ h.order_closed _ ih e he

/-- A graph that describes the trees of a function is exact. -/
theorem Describes.exact : g.Exact f where
  entry_eq := by rw [h.entry_eq, Forest.first_eq, hf.body_eq]
  edge_iff := h.edge_iff hf
  separate := h.pairwise_succs hf
  succs_iff _ _ := mem_succs
  preds_iff _ _ := mem_preds
  count_eq e := by
    rw [succs, preds, List.count_filter (by simp), List.count_filter (by simp)]
  order_nodup := h.order_nodup
  mem_order_iff := h.mem_order_iff hf
  isReachable_iff b := by rw [isReachable, decide_eq_true_iff, h.mem_order_iff hf]

end

/-- What control does not look at makes no difference to whether a graph is exact. -/
theorem Exact.of_sameControl {f f' : Function} {g : Graph} (h : g.Exact f)
    (hsame : Function.SameControl f f') : g.Exact f' where
  entry_eq := by rw [h.entry_eq, hsame.body_eq]
  edge_iff a through b :=
    (h.edge_iff a through b).trans ⟨hsame.passes, hsame.symm.passes⟩
  separate := h.separate
  succs_iff := h.succs_iff
  preds_iff := h.preds_iff
  count_eq := h.count_eq
  order_nodup := h.order_nodup
  mem_order_iff b := (h.mem_order_iff b).trans
    (exists_congr fun _ ↦ and_congr_left' ⟨hsame.reaches, hsame.symm.reaches⟩)
  isReachable_iff b := (h.isReachable_iff b).trans
    (exists_congr fun _ ↦ and_congr_left' ⟨hsame.reaches, hsame.symm.reaches⟩)

/-- The control-flow graph of a valid function is exact. -/
theorem exact_of_isValid {f : Function} (hvalid : f.isValid) :
    ∃ g, ofFunction f = .ok g ∧ g.Exact f := by
  obtain ⟨ts, hts⟩ := Function.exists_wellFormed_trimmed hvalid
  obtain ⟨g, hg⟩ := exists_ofFunction hts
  have hexact := (describes_of_ofFunction hts hg).exact hts
  rw [ofFunction_trimmed] at hg
  exact ⟨g, hg, hexact.of_sameControl (Function.sameControl_trimmed f).symm⟩

/-- An `if` whose second list is never entered, two ways out of a breakable block from one basic
block, and a loop with nothing inside. -/
def detours : Function where
  name := "detours"
  vars := #[.bool]
  blocks := #[
    { kind := .breakable, body := [2, 4] },
    { kind := .cond, body := [3], otherwise := [6] },
    { instrs := [{ op := .exitIf, args := [0], target := 1 }, { op := .exit, target := 1 }] },
    { kind := .loop },
    {},
    {}]
  body := [1, 5]

theorem exact_of_isValid_detours :
    detours.isValid ∧ ∃ g, ofFunction detours = .ok g ∧ g.Exact detours
      ∧ g.edges.map (fun e ↦ (e.src, e.through, e.dst)) =
        [(1, none, 2), (2, none, 3), (2, none, 4), (3, some 0, 5), (3, some 1, 5), (4, none, 4)]
      ∧ g.order = [1, 2, 3, 4, 5] := by
  have hvalid : detours.isValid := by decide
  obtain ⟨g, hg, hexact⟩ := exact_of_isValid hvalid
  refine ⟨hvalid, g, hg, hexact, ?_⟩
  have hedges : (ofFunction detours).map (fun g ↦
      (g.edges.map (fun e ↦ (e.src, e.through, e.dst)), g.order)) = .ok
      ([(1, none, 2), (2, none, 3), (2, none, 4), (3, some 0, 5), (3, some 1, 5), (4, none, 4)],
        [1, 2, 3, 4, 5]) := by rfl
  rw [hg] at hedges
  exact ⟨congrArg Prod.fst (Except.ok.inj hedges), congrArg Prod.snd (Except.ok.inj hedges)⟩

end WasmBackend.Flow.Graph
