import WasmBackend.Flow.Graph
import WasmBackend.Proofs.Stage
import WasmBackend.Proofs.Tree

/-!
# Edges of block trees

The control-flow graph of a function as a plain function of its trees: `Forest.edges` lists the
edges in tree order.  Where a branch goes depends on the constructs around it, which are kept in
`Targets`.  Wiring a valid function gives exactly these edges, and since no block occurs twice, the
edges that leave a block are those its own construct makes: this is what `Wired` says.
-/

namespace WasmBackend.Flow

/-- The edge alone; none when it leaves the function. -/
def Edge.proper (e : Edge) : List Edge :=
  if e.dst = 0 then [] else [e]

@[simp]
theorem Edge.mem_proper {e e' : Edge} : e' ∈ e.proper ↔ e' = e ∧ e.dst ≠ 0 := by
  unfold proper
  split <;> simp [*]

theorem Edge.dst_ne_zero {e e' : Edge} (h : e' ∈ e.proper) : e'.dst ≠ 0 := by
  rw [mem_proper] at h
  rw [h.1]
  exact h.2

end WasmBackend.Flow

namespace WasmBackend.Ir

open WasmBackend.Flow (Edge)

/-- Where branches to the enclosing constructs go. -/
structure Targets where
  /-- The block behind a construct. -/
  exits : BlockId → BlockId := fun _ ↦ 0
  /-- The first block inside a loop. -/
  heads : BlockId → BlockId := fun _ ↦ 0

namespace Targets

/-- Inside a loop. -/
def loop (d : Targets) (id next head : BlockId) : Targets where
  exits x := if x = id then next else d.exits x
  heads x := if x = id then head else d.heads x

/-- Inside a breakable block. -/
def breakable (d : Targets) (id next : BlockId) : Targets :=
  { d with exits := fun x ↦ if x = id then next else d.exits x }

/-- The block a branch goes to. -/
def destination (d : Targets) (i : Instr) : BlockId :=
  if i.op = .next then d.heads i.target else d.exits i.target

end Targets

/-- The edges out of a basic block, from the instruction at position `n` on. -/
def instrEdges (d : Targets) (id next : BlockId) : Nat → List Instr → List Edge
  | _, [] => Edge.proper { src := id, dst := next, site := .fallthrough }
  | n, i :: rest =>
    (if i.isBranch then
        Edge.proper { src := id, dst := d.destination i, site := .branch, instr := n }
      else [])
      ++ if i.terminates then [] else instrEdges d id next (n + 1) rest

/-- The edges that a block makes itself, given where control goes behind it. -/
def Tree.ownEdges (f : Function) (d : Targets) (next : BlockId) : Tree → List Edge
  | .basic id => instrEdges d id next 0 (f.blockAt id).instrs
  | .cond id body =>
    (match body with
      | [] => []
      | t :: _ => Edge.proper { src := id, dst := t.id, site := .enter })
      ++ Edge.proper { src := id, dst := next, site := .around }
  | .branch id body other =>
    Edge.proper { src := id, dst := Forest.first body next, site := .enter }
      ++ Edge.proper { src := id, dst := Forest.first other next, site := .enter }
  | .loop id body => Edge.proper { src := id, dst := Forest.first body id, site := .enter }
  | .breakable id body => Edge.proper { src := id, dst := Forest.first body next, site := .enter }

mutual

/-- The edges of a tree in tree order; control goes to `next` behind it. -/
def Tree.edges (f : Function) (d : Targets) (next : BlockId) : Tree → List Edge
  | .basic id => Tree.ownEdges f d next (.basic id)
  | .cond id body => Tree.ownEdges f d next (.cond id body) ++ Forest.edges f d next body
  | .branch id body other =>
    Tree.ownEdges f d next (.branch id body other)
      ++ (Forest.edges f d next body ++ Forest.edges f d next other)
  | .loop id body =>
    Tree.ownEdges f d next (.loop id body)
      ++ Forest.edges f (d.loop id next (Forest.first body id)) (Forest.first body id) body
  | .breakable id body =>
    Tree.ownEdges f d next (.breakable id body) ++ Forest.edges f (d.breakable id next) next body

/-- The edges of a forest in tree order; control goes to `fall` behind the last tree. -/
def Forest.edges (f : Function) (d : Targets) (fall : BlockId) : Forest → List Edge
  | [] => []
  | t :: ts => Tree.edges f d (Forest.first ts fall) t ++ Forest.edges f d fall ts

end

end WasmBackend.Ir

namespace WasmBackend.Flow.Wiring

open Ir
open Stage (Ensures)

/-! ## What wiring finds -/

/-- The constructs around a block are known to the wiring, with the same targets. -/
def Agrees (w : Wiring) (d : Targets) (scope : List (BlockId × BlockKind)) : Prop :=
  ∀ s ∈ scope,
    (s.2 = .loop ∨ s.2 = .breakable → (w.exits.lookup s.1).getD 0 = d.exits s.1)
      ∧ (s.2 = .loop → (w.heads.lookup s.1).getD 0 = d.heads s.1)

/-- What wiring some blocks does: it adds edges, and targets of these blocks only. -/
structure Extends (w w' : Wiring) (edges : List Edge) (ids : List BlockId) : Prop where
  edges_eq : w'.edges = edges.reverse ++ w.edges
  exits_eq : ∀ x ∉ ids, w'.exits.lookup x = w.exits.lookup x
  heads_eq : ∀ x ∉ ids, w'.heads.lookup x = w.heads.lookup x

namespace Extends

variable {w w' w'' : Wiring} {es es' : List Edge} {ids ids' : List BlockId}

theorem refl (w : Wiring) : Extends w w [] [] :=
  ⟨rfl, fun _ _ ↦ rfl, fun _ _ ↦ rfl⟩

theorem trans (h : Extends w w' es ids) (h' : Extends w' w'' es' ids') :
    Extends w w'' (es ++ es') (ids ++ ids') where
  edges_eq := by simp [h'.edges_eq, h.edges_eq]
  exits_eq x hx := by
    rw [List.mem_append, not_or] at hx
    rw [h'.exits_eq x hx.2, h.exits_eq x hx.1]
  heads_eq x hx := by
    rw [List.mem_append, not_or] at hx
    rw [h'.heads_eq x hx.2, h.heads_eq x hx.1]

theorem mono (h : Extends w w' es ids) (hids : ∀ x ∈ ids, x ∈ ids') : Extends w w' es ids' where
  edges_eq := h.edges_eq
  exits_eq x hx := h.exits_eq x fun hx' ↦ hx (hids x hx')
  heads_eq x hx := h.heads_eq x fun hx' ↦ hx (hids x hx')

theorem agrees (h : Extends w w' es ids) {d : Targets} {scope : List (BlockId × BlockKind)}
    (hd : w.Agrees d scope) (hscope : ∀ s ∈ scope, s.1 ∉ ids) : w'.Agrees d scope := by
  intro s hs
  rw [h.exits_eq s.1 (hscope s hs), h.heads_eq s.1 (hscope s hs)]
  exact hd s hs

/-- Wiring goes on behind what is wired already. -/
theorem ensures {x : M Unit} (h : Extends w w' es ids)
    (hx : Stage.Ensures x w' fun _ w'' ↦ Extends w' w'' es' ids') :
    Stage.Ensures x w' fun _ w'' ↦ Extends w w'' (es ++ es') (ids ++ ids') :=
  hx.imp fun _ _ h' ↦ h.trans h'

end Extends

theorem connect_ensures (f : Function) (e : Edge) (w : Wiring) :
    Ensures (connect f e) w fun _ w' ↦ Extends w w' e.proper [] := by
  unfold connect Edge.proper
  split
  · exact Extends.refl w
  · split
    · simp
    · simp only [Stage.meets_modify]
      exact ⟨rfl, fun _ _ ↦ rfl, fun _ _ ↦ rfl⟩

/-- A branch that passes validation goes where the constructs around it say. -/
theorem destination_eq {w : Wiring} {d : Targets} {scope : List (BlockId × BlockKind)}
    (hw : w.Agrees d scope) {b : BlockId} {i : Instr}
    (h : Function.branchViolations b scope i = []) : w.destination i = d.destination i := by
  unfold Function.branchViolations at h
  split at h
  · cases h
  · rename_i target kind hfind
    have hmem := List.mem_of_find?_eq_some hfind
    have htarget : target = i.target := by simpa using List.find?_some hfind
    rw [List.append_eq_nil_iff, ite_eq_right_iff, ite_eq_right_iff] at h
    obtain ⟨hexits, hheads⟩ := hw _ hmem
    unfold destination Targets.destination
    rw [← htarget]
    split
    · rename_i hnext
      exact hheads (by by_contra hkind; simpa using h.1 ⟨hnext, hkind⟩)
    · refine hexits ?_
      by_contra hkind
      rw [not_or] at hkind
      simpa using h.2 hkind

theorem wireInstrs_ensures (f : Function) {d : Targets} {scope : List (BlockId × BlockKind)}
    (id next : BlockId) (is : List Instr) (hchecked : is.flatMap (f.instrViolations id scope) = [])
    (n : Nat) {w : Wiring} (hw : w.Agrees d scope) (hscope : ∀ s ∈ scope, s.1 ≠ id) :
    Ensures (wireInstrs f id next n is) w fun _ w' ↦
      Extends w w' (instrEdges d id next n is) [id] := by
  induction is generalizing n w with
  | nil => exact (connect_ensures f _ w).imp fun _ _ h ↦ h.mono (by simp)
  | cons i rest ih =>
    rw [List.flatMap_cons, List.append_eq_nil_iff] at hchecked
    have hrest {w' : Wiring} {es : List Edge} (hext : Extends w w' es [id]) :
        Ensures (if i.terminates then pure () else wireInstrs f id next (n + 1) rest) w' fun _ w'' ↦
          Extends w w'' (es ++ if i.terminates then [] else instrEdges d id next (n + 1) rest)
            [id] := by
      split
      · simpa using hext
      · have hagrees := hext.agrees hw (by simpa using hscope)
        refine (ih hchecked.2 (n + 1) hagrees).imp ?_
        intro _ w'' hext'
        exact (hext.trans hext').mono (by simp)
    unfold wireInstrs instrEdges
    by_cases hi : i.isBranch
    · have hviolations : Function.branchViolations id scope i = [] := by
        simpa [Function.instrViolations, hi] using (List.append_eq_nil_iff.1 hchecked.1).2
      simp only [hi, if_true, Stage.meets_bind, Stage.meets_get, destination_eq hw hviolations]
      exact (connect_ensures f _ w).imp fun _ _ h ↦ hrest (h.mono (by simp))
    · simp only [hi]
      exact hrest ((Extends.refl w).mono (by simp))

theorem lookup_cons_of_ne {x id : BlockId} (h : x ≠ id) (y : BlockId)
    (l : List (BlockId × BlockId)) : ((id, y) :: l).lookup x = l.lookup x := by
  have hx : (x == id) = false := by simpa using h
  rw [List.lookup_cons, hx]

theorem agrees_cons {w : Wiring} {d : Targets} {scope : List (BlockId × BlockKind)} {id : BlockId}
    {kind : BlockKind} (hw : w.Agrees d scope)
    (hexits : kind = .loop ∨ kind = .breakable → (w.exits.lookup id).getD 0 = d.exits id)
    (hheads : kind = .loop → (w.heads.lookup id).getD 0 = d.heads id) :
    w.Agrees d ((id, kind) :: scope) := by
  intro s hs
  rcases List.mem_cons.1 hs with rfl | hs
  · exact ⟨hexits, hheads⟩
  · exact hw s hs

/-- Entering a loop makes its targets known. -/
theorem agrees_loop {w : Wiring} {d : Targets} {scope : List (BlockId × BlockKind)}
    {id : BlockId} (next head : BlockId) (hw : w.Agrees d scope) (hid : ∀ s ∈ scope, s.1 ≠ id) :
    ({ w with exits := (id, next) :: w.exits, heads := (id, head) :: w.heads } : Wiring).Agrees
      (d.loop id next head) ((id, .loop) :: scope) := by
  refine agrees_cons ?_ (by simp [Targets.loop]) (by simp [Targets.loop])
  intro s hs
  simpa [Targets.loop, lookup_cons_of_ne (hid s hs), hid s hs] using hw s hs

/-- Entering a breakable block makes its target known. -/
theorem agrees_breakable {w : Wiring} {d : Targets} {scope : List (BlockId × BlockKind)}
    {id : BlockId} (next : BlockId) (hw : w.Agrees d scope) (hid : ∀ s ∈ scope, s.1 ≠ id) :
    ({ w with exits := (id, next) :: w.exits } : Wiring).Agrees
      (d.breakable id next) ((id, .breakable) :: scope) := by
  refine agrees_cons ?_ (by simp [Targets.breakable]) (by simp)
  intro s hs
  simpa [Targets.breakable, lookup_cons_of_ne (hid s hs), hid s hs] using hw s hs

theorem zip_roots_cons (t : Tree) (ts : Forest) (fall : BlockId) :
    (Forest.roots (t :: ts)).zip ((Forest.roots (t :: ts)).tail ++ [fall]) =
      (t.id, Forest.first ts fall)
        :: (Forest.roots ts).zip ((Forest.roots ts).tail ++ [fall]) := by
  cases ts <;> simp [Forest.roots, Forest.first]

/-- Wiring valid trees adds exactly their edges. -/
theorem wireBlocks_ensures (f : Function) :
    (∀ t : Tree, ∀ depth d scope next w, t.height ≤ depth → t.Stored f → t.Checked f scope →
        t.ids.Nodup → (∀ s ∈ scope, s.1 ∉ t.ids) → w.Agrees d scope →
        Ensures (wireBlock f (wireBlocks f depth) t.id (f.blockAt t.id) next) w fun _ w' ↦
          Extends w w' (t.edges f d next) t.ids) ∧
      ∀ ts : Forest, ∀ depth d scope fall w, Forest.height ts ≤ depth → Forest.Stored f ts →
        Forest.Checked f scope ts → (Forest.ids ts).Nodup → (∀ s ∈ scope, s.1 ∉ Forest.ids ts) →
        w.Agrees d scope →
        Ensures (wireBlocks f depth (Forest.roots ts) fall) w fun _ w' ↦
          Extends w w' (Forest.edges f d fall ts) (Forest.ids ts) := by
  refine Tree.induction ?basic ?cond ?branch ?loop ?breakable ?nil ?cons
  case basic =>
    intro id depth d scope next w _ h hchecked _ hscope hw
    simp only [Tree.ids, List.mem_singleton] at hscope
    simp only [wireBlock, Tree.id, h.kind_eq]
    exact wireInstrs_ensures f id next _ hchecked.1 0 hw hscope
  case cond =>
    intro id body ih depth d scope next w hd h hchecked hnodup hscope hw
    simp only [Tree.ids, List.nodup_cons, List.mem_cons, not_or] at hnodup hscope
    have hagrees : w.Agrees d ((id, .cond) :: scope) := agrees_cons hw (by simp) (by simp)
    have hrest {w' : Wiring} {es : List Edge} (hext : Extends w w' es []) :
        Ensures
          (do
            connect f { src := id, dst := next, site := .around }
            wireBlocks f depth (Forest.roots body) next) w' fun _ w'' ↦
          Extends w w'' ((es ++ Edge.proper { src := id, dst := next, site := .around })
            ++ Forest.edges f d next body) (id :: Forest.ids body) := by
      rw [Ensures, Stage.meets_bind]
      refine (hext.ensures (connect_ensures f _ w')).imp ?_
      intro _ w'' hext'
      have hbody := ih depth d _ next w'' hd h.2 hchecked.2.2 hnodup.2
        (by simpa [hnodup.1] using fun s k hs ↦ (hscope (s, k) hs).2)
        (hext'.agrees hagrees (by simp))
      refine (hext'.ensures hbody).imp fun _ _ h ↦ h.mono fun x hx ↦ ?_
      exact List.mem_cons_of_mem id (by simpa using hx)
    simp only [wireBlock, Tree.id, h.1.kind_eq, h.1.body_eq]
    cases body with
    | nil => exact hrest (Extends.refl w)
    | cons t ts =>
      simp only [Forest.roots, List.map_cons, List.head?_cons, Stage.meets_bind]
      exact (connect_ensures f _ w).imp fun _ w' hext ↦ Stage.meets_bind.1 (hrest hext)
  case branch =>
    intro id body other ih ih' depth d scope next w hd h hchecked hnodup hscope hw
    simp only [Tree.ids, List.nodup_cons, List.nodup_append, List.mem_cons, List.mem_append,
      not_or] at hnodup hscope
    have hagrees : w.Agrees d ((id, .branch) :: scope) := agrees_cons hw (by simp) (by simp)
    simp only [wireBlock, Tree.id, h.1.kind_eq, h.1.body_eq, h.1.otherwise_eq, ← Forest.first_eq,
      Stage.meets_bind]
    refine (connect_ensures f _ w).imp fun _ w₁ hext₁ ↦ ?_
    refine (hext₁.ensures (connect_ensures f _ w₁)).imp fun _ w₂ hext₂ ↦ ?_
    have hbody := ih depth d _ next w₂ (Nat.max_le.1 hd).1 h.2.1 hchecked.2.2.1 hnodup.2.1
      (by simpa [hnodup.1.1] using fun s k hs ↦ (hscope (s, k) hs).2.1)
      (hext₂.agrees hagrees (by simp))
    refine (hext₂.ensures hbody).imp fun _ w₃ hext₃ ↦ ?_
    have hother := ih' depth d _ next w₃ (Nat.max_le.1 hd).2 h.2.2 hchecked.2.2.2 hnodup.2.2.1
      (by simpa [hnodup.1.2] using fun s k hs ↦ (hscope (s, k) hs).2.2)
      (hext₃.agrees hagrees (by simpa [hnodup.1.1] using fun s k hs ↦ (hscope (s, k) hs).2.1))
    simp only [Tree.edges, Tree.ownEdges, ← List.append_assoc]
    refine (hext₃.ensures hother).imp fun _ _ h ↦ h.mono fun x hx ↦ ?_
    exact List.mem_cons_of_mem id (by simpa using hx)
  case loop =>
    intro id body ih depth d scope next w hd h hchecked hnodup hscope hw
    simp only [Tree.ids, List.nodup_cons, List.mem_cons, not_or] at hnodup hscope
    simp only [wireBlock, Tree.id, h.1.kind_eq, h.1.body_eq, ← Forest.first_eq, Stage.meets_bind,
      Stage.meets_modify]
    set w₁ : Wiring :=
      { w with
        exits := (id, next) :: w.exits
        heads := (id, Forest.first body id) :: w.heads } with hw₁
    have hagrees := agrees_loop next (Forest.first body id) hw
      fun s hs ↦ (hscope s hs).1
    have hext : Extends w w₁ [] [id] :=
      ⟨rfl, fun x hx ↦ lookup_cons_of_ne (by simpa using hx) next w.exits,
        fun x hx ↦ lookup_cons_of_ne (by simpa using hx) _ w.heads⟩
    refine (connect_ensures f _ w₁).imp fun _ w₂ hext₂ ↦ ?_
    have hbody := ih depth _ _ (Forest.first body id) w₂ hd h.2 hchecked.2 hnodup.2
      (by simpa [hnodup.1] using fun s k hs ↦ (hscope (s, k) hs).2)
      (hext₂.agrees hagrees (by simp))
    exact (hext.trans hext₂).ensures hbody
  case breakable =>
    intro id body ih depth d scope next w hd h hchecked hnodup hscope hw
    simp only [Tree.ids, List.nodup_cons, List.mem_cons, not_or] at hnodup hscope
    simp only [wireBlock, Tree.id, h.1.kind_eq, h.1.body_eq, ← Forest.first_eq, Stage.meets_bind,
      Stage.meets_modify]
    set w₁ : Wiring := { w with exits := (id, next) :: w.exits } with hw₁
    have hagrees := agrees_breakable next hw fun s hs ↦ (hscope s hs).1
    have hext : Extends w w₁ [] [id] :=
      ⟨rfl, fun x hx ↦ lookup_cons_of_ne (by simpa using hx) next w.exits, fun _ _ ↦ rfl⟩
    refine (connect_ensures f _ w₁).imp fun _ w₂ hext₂ ↦ ?_
    have hbody := ih depth _ _ next w₂ hd h.2 hchecked.2 hnodup.2
      (by simpa [hnodup.1] using fun s k hs ↦ (hscope (s, k) hs).2)
      (hext₂.agrees hagrees (by simp))
    exact (hext.trans hext₂).ensures hbody
  case nil =>
    intro depth d scope fall w hd _ _ _ _ _
    obtain ⟨depth, rfl⟩ := Nat.exists_eq_add_one_of_ne_zero (Nat.pos_iff_ne_zero.1 hd)
    exact Extends.refl w
  case cons =>
    intro t ts ih ihs depth d scope fall w hd h hchecked hnodup hscope hw
    simp only [Forest.height] at hd
    simp only [Forest.ids, List.nodup_append, List.mem_append, not_or] at hnodup hscope
    obtain ⟨depth, rfl⟩ := Nat.exists_eq_add_one_of_ne_zero (n := depth) (by omega)
    have hblock : f.block t.id = .ok (f.blockAt t.id) := h.1.block_id
    have ht := ih depth d scope (Forest.first ts fall) w (by omega) h.1 hchecked.1 hnodup.1
      (fun s hs ↦ (hscope s hs).1) hw
    rw [wireBlocks, zip_roots_cons]
    simp only [List.forM_eq_forM, List.forM_cons, Stage.meets_bind, Stage.meets_ofExcept, hblock]
    refine ht.imp fun _ w' hext ↦ ?_
    have hts := ihs (depth + 1) d scope fall w' (by omega) h.2 hchecked.2 hnodup.2.1
      (fun s hs ↦ (hscope s hs).2) (hext.agrees hw fun s hs ↦ (hscope s hs).1)
    exact hext.ensures hts

end WasmBackend.Flow.Wiring

namespace WasmBackend.Ir

open WasmBackend.Flow (Edge Graph)

/-! ## Edges by source -/

theorem instrEdges_src {d : Targets} {id next : BlockId} {n : Nat} {is : List Instr} {e : Edge}
    (he : e ∈ instrEdges d id next n is) : e.src = id := by
  induction is generalizing n with
  | nil =>
    rw [instrEdges, Edge.mem_proper] at he
    rw [he.1]
  | cons i rest ih =>
    rw [instrEdges, List.mem_append] at he
    rcases he with he | he <;> split at he
    · rw [(Edge.mem_proper.1 he).1]
    · cases he
    · cases he
    · exact ih he

theorem Tree.ownEdges_src {f : Function} {d : Targets} {next : BlockId} {t : Tree} {e : Edge}
    (he : e ∈ t.ownEdges f d next) : e.src = t.id := by
  cases t with
  | basic id => exact instrEdges_src he
  | cond id body =>
    rcases List.mem_append.1 he with he | he
    · split at he
      · cases he
      · rw [(Edge.mem_proper.1 he).1]
        rfl
    · rw [(Edge.mem_proper.1 he).1]
      rfl
  | branch id body other =>
    rcases List.mem_append.1 he with he | he <;> rw [(Edge.mem_proper.1 he).1] <;> rfl
  | loop id body => rw [(Edge.mem_proper.1 he).1]; rfl
  | breakable id body => rw [(Edge.mem_proper.1 he).1]; rfl

/-- The edges of trees leave their blocks. -/
theorem Tree.edges_src (f : Function) :
    (∀ t : Tree, ∀ d next, ∀ e ∈ t.edges f d next, e.src ∈ t.ids) ∧
      ∀ ts : Forest, ∀ d fall, ∀ e ∈ Forest.edges f d fall ts, e.src ∈ Forest.ids ts := by
  have own (t : Tree) (d : Targets) (next : BlockId) :
      ∀ e ∈ t.ownEdges f d next, e.src ∈ t.ids := by
    intro e he
    rw [ownEdges_src he]
    exact t.id_mem_ids
  refine Tree.induction ?basic ?cond ?branch ?loop ?breakable ?nil ?cons
  case basic =>
    intro id d next e he
    exact own _ d next e he
  case cond | loop | breakable =>
    intro id body ih d next e he
    rcases List.mem_append.1 he with he | he
    · exact own _ d next e he
    · exact List.mem_cons_of_mem id (ih _ _ e he)
  case branch =>
    intro id body other ih ih' d next e he
    rcases List.mem_append.1 he with he | he
    · exact own _ d next e he
    · rcases List.mem_append.1 he with he | he
      · exact List.mem_cons_of_mem id (List.mem_append_left _ (ih _ _ e he))
      · exact List.mem_cons_of_mem id (List.mem_append_right _ (ih' _ _ e he))
  case nil =>
    intro d fall e he
    cases he
  case cons =>
    intro t ts ih ihs d fall e he
    rcases List.mem_append.1 he with he | he
    · exact List.mem_append_left _ (ih _ _ e he)
    · exact List.mem_append_right _ (ihs _ _ e he)

/-! ## Edges by destination -/

theorem instrEdges_proper {d : Targets} {id next : BlockId} {n : Nat} {is : List Instr} {e : Edge}
    (he : e ∈ instrEdges d id next n is) : e.dst ≠ 0 := by
  induction is generalizing n with
  | nil => exact Edge.dst_ne_zero he
  | cons i rest ih =>
    rw [instrEdges, List.mem_append] at he
    rcases he with he | he <;> split at he
    · exact Edge.dst_ne_zero he
    · cases he
    · cases he
    · exact ih he

theorem Tree.ownEdges_proper {f : Function} {d : Targets} {next : BlockId} {t : Tree} {e : Edge}
    (he : e ∈ t.ownEdges f d next) : e.dst ≠ 0 := by
  cases t with
  | basic id => exact instrEdges_proper he
  | cond id body =>
    rcases List.mem_append.1 he with he | he
    · split at he
      · cases he
      · exact Edge.dst_ne_zero he
    · exact Edge.dst_ne_zero he
  | branch id body other =>
    rcases List.mem_append.1 he with he | he <;> exact Edge.dst_ne_zero he
  | loop id body => exact Edge.dst_ne_zero he
  | breakable id body => exact Edge.dst_ne_zero he

namespace Targets

/-- What holds of every block a branch may go to. -/
structure All (d : Targets) (P : BlockId → Prop) : Prop where
  exits : ∀ x, P (d.exits x)
  heads : ∀ x, P (d.heads x)

variable {d : Targets} {P : BlockId → Prop}

theorem All.destination (h : d.All P) (i : Instr) : P (d.destination i) := by
  unfold Targets.destination
  split
  · exact h.heads _
  · exact h.exits _

theorem All.loop (h : d.All P) {id next head : BlockId} (hnext : P next) (hhead : P head) :
    (d.loop id next head).All P where
  exits x := by
    simp only [Targets.loop]
    split
    · exact hnext
    · exact h.exits x
  heads x := by
    simp only [Targets.loop]
    split
    · exact hhead
    · exact h.heads x

theorem All.breakable (h : d.All P) {id next : BlockId} (hnext : P next) :
    (d.breakable id next).All P where
  exits x := by
    simp only [Targets.breakable]
    split
    · exact hnext
    · exact h.exits x
  heads x := h.heads x

end Targets

theorem instrEdges_dst {d : Targets} {P : BlockId → Prop} (hd : d.All P) {id next : BlockId}
    (hnext : P next) {n : Nat} {is : List Instr} {e : Edge} (he : e ∈ instrEdges d id next n is) :
    P e.dst := by
  induction is generalizing n with
  | nil =>
    rw [instrEdges, Edge.mem_proper] at he
    rwa [he.1]
  | cons i rest ih =>
    rw [instrEdges, List.mem_append] at he
    rcases he with he | he <;> split at he
    · rw [(Edge.mem_proper.1 he).1]
      exact hd.destination i
    · cases he
    · cases he
    · exact ih he

theorem Forest.first_of_all {P : BlockId → Prop} {ts : Forest} {fall : BlockId}
    (hts : ∀ x ∈ Forest.ids ts, P x) (hfall : P fall) : P (Forest.first ts fall) := by
  cases ts with
  | nil => exact hfall
  | cons t _ => exact hts t.id (List.mem_append_left _ t.id_mem_ids)

theorem Tree.ownEdges_dst {f : Function} {d : Targets} {P : BlockId → Prop} (hd : d.All P)
    {next : BlockId} (hnext : P next) {t : Tree} (ht : ∀ x ∈ t.ids, P x) {e : Edge}
    (he : e ∈ t.ownEdges f d next) : P e.dst ∧ e.dst ≠ 0 := by
  refine ⟨?_, ownEdges_proper he⟩
  cases t with
  | basic id => exact instrEdges_dst hd hnext he
  | cond id body =>
    rcases List.mem_append.1 he with he | he
    · split at he
      · cases he
      · rw [(Edge.mem_proper.1 he).1]
        exact ht _ (List.mem_cons_of_mem id (List.mem_append_left _ (Tree.id_mem_ids _)))
    · rw [(Edge.mem_proper.1 he).1]
      exact hnext
  | branch id body other =>
    have hbody : ∀ x ∈ Forest.ids body, P x :=
      fun x hx ↦ ht x (List.mem_cons_of_mem id (List.mem_append_left _ hx))
    have hother : ∀ x ∈ Forest.ids other, P x :=
      fun x hx ↦ ht x (List.mem_cons_of_mem id (List.mem_append_right _ hx))
    rcases List.mem_append.1 he with he | he <;> rw [(Edge.mem_proper.1 he).1]
    · exact Forest.first_of_all hbody hnext
    · exact Forest.first_of_all hother hnext
  | loop id body =>
    rw [(Edge.mem_proper.1 he).1]
    exact Forest.first_of_all (fun x hx ↦ ht x (List.mem_cons_of_mem id hx))
      (ht id List.mem_cons_self)
  | breakable id body =>
    rw [(Edge.mem_proper.1 he).1]
    exact Forest.first_of_all (fun x hx ↦ ht x (List.mem_cons_of_mem id hx)) hnext

/-- What holds of the blocks of trees and of all targets holds where the edges go, and edges go to
blocks. -/
theorem Tree.edges_dst (f : Function) (P : BlockId → Prop) :
    (∀ t : Tree, ∀ d next, d.All P → P next → (∀ x ∈ t.ids, P x) →
        ∀ e ∈ t.edges f d next, P e.dst ∧ e.dst ≠ 0) ∧
      ∀ ts : Forest, ∀ d fall, d.All P → P fall → (∀ x ∈ Forest.ids ts, P x) →
        ∀ e ∈ Forest.edges f d fall ts, P e.dst ∧ e.dst ≠ 0 := by
  refine Tree.induction ?basic ?cond ?branch ?loop ?breakable ?nil ?cons
  case basic =>
    intro id d next hd hnext ht e he
    exact Tree.ownEdges_dst hd hnext ht he
  case cond =>
    intro id body ih d next hd hnext ht e he
    rcases List.mem_append.1 he with he | he
    · exact Tree.ownEdges_dst hd hnext ht he
    · exact ih d next hd hnext (fun x hx ↦ ht x (List.mem_cons_of_mem id hx)) e he
  case branch =>
    intro id body other ih ih' d next hd hnext ht e he
    rcases List.mem_append.1 he with he | he
    · exact Tree.ownEdges_dst hd hnext ht he
    · rcases List.mem_append.1 he with he | he
      · exact ih d next hd hnext
          (fun x hx ↦ ht x (List.mem_cons_of_mem id (List.mem_append_left _ hx))) e he
      · exact ih' d next hd hnext
          (fun x hx ↦ ht x (List.mem_cons_of_mem id (List.mem_append_right _ hx))) e he
  case loop =>
    intro id body ih d next hd hnext ht e he
    rcases List.mem_append.1 he with he | he
    · exact Tree.ownEdges_dst hd hnext ht he
    · have hbody : ∀ x ∈ Forest.ids body, P x := fun x hx ↦ ht x (List.mem_cons_of_mem id hx)
      have hhead := Forest.first_of_all hbody (ht id List.mem_cons_self)
      exact ih _ _ (hd.loop hnext hhead) hhead hbody e he
  case breakable =>
    intro id body ih d next hd hnext ht e he
    rcases List.mem_append.1 he with he | he
    · exact Tree.ownEdges_dst hd hnext ht he
    · exact ih _ next (hd.breakable hnext) hnext
        (fun x hx ↦ ht x (List.mem_cons_of_mem id hx)) e he
  case nil =>
    intro d fall _ _ _ e he
    cases he
  case cons =>
    intro t ts ih ihs d fall hd hfall ht e he
    have hts : ∀ x ∈ Forest.ids ts, P x := fun x hx ↦ ht x (List.mem_append_right _ hx)
    rcases List.mem_append.1 he with he | he
    · exact ih d _ hd (Forest.first_of_all hts hfall)
        (fun x hx ↦ ht x (List.mem_append_left _ hx)) e he
    · exact ihs d fall hd hfall hts e he

mutual

/-- The edges out of every block of a tree are those that its construct makes. -/
def Tree.Wired (f : Function) (g : Graph) (d : Targets) (next : BlockId) : Tree → Prop
  | .basic id => g.succs id = Tree.ownEdges f d next (.basic id)
  | .cond id body =>
    g.succs id = Tree.ownEdges f d next (.cond id body) ∧ Forest.Wired f g d next body
  | .branch id body other =>
    g.succs id = Tree.ownEdges f d next (.branch id body other)
      ∧ Forest.Wired f g d next body ∧ Forest.Wired f g d next other
  | .loop id body =>
    g.succs id = Tree.ownEdges f d next (.loop id body)
      ∧ Forest.Wired f g (d.loop id next (Forest.first body id)) (Forest.first body id) body
  | .breakable id body =>
    g.succs id = Tree.ownEdges f d next (.breakable id body)
      ∧ Forest.Wired f g (d.breakable id next) next body

/-- The edges out of every block of a forest are those that its construct makes. -/
def Forest.Wired (f : Function) (g : Graph) (d : Targets) (fall : BlockId) : Forest → Prop
  | [] => True
  | t :: ts => t.Wired f g d (Forest.first ts fall) ∧ Forest.Wired f g d fall ts

end

theorem filter_src_ownEdges (f : Function) (d : Targets) (next : BlockId) (t : Tree)
    (x : BlockId) :
    (t.ownEdges f d next).filter (fun e ↦ e.src = x) =
      if x = t.id then t.ownEdges f d next else [] := by
  split
  · rename_i hx
    refine List.filter_eq_self.2 fun e he ↦ ?_
    simp [Tree.ownEdges_src he, hx]
  · rename_i hx
    refine List.filter_eq_nil_iff.2 fun e he ↦ ?_
    simpa [Tree.ownEdges_src he] using Ne.symm hx

theorem filter_src_edges (f : Function) (d : Targets) (fall : BlockId) {ts : Forest} {x : BlockId}
    (hx : x ∉ Forest.ids ts) : (Forest.edges f d fall ts).filter (fun e ↦ e.src = x) = [] := by
  refine List.filter_eq_nil_iff.2 fun e he hsrc ↦ hx ?_
  rw [← of_decide_eq_true hsrc]
  exact (Tree.edges_src f).2 ts d fall e he

/-- A graph whose edges out of the blocks of a tree are edges of the tree is wired like it. -/
theorem Tree.wired_of_succs (f : Function) (g : Graph) :
    (∀ t : Tree, ∀ d next, t.ids.Nodup →
        (∀ x ∈ t.ids, g.succs x = (t.edges f d next).filter fun e ↦ e.src = x) →
        t.Wired f g d next) ∧
      ∀ ts : Forest, ∀ d fall, (Forest.ids ts).Nodup →
        (∀ x ∈ Forest.ids ts, g.succs x = (Forest.edges f d fall ts).filter fun e ↦ e.src = x) →
        Forest.Wired f g d fall ts := by
  refine Tree.induction ?basic ?cond ?branch ?loop ?breakable ?nil ?cons
  case basic =>
    intro id d next _ h
    have hid := h id (by simp [Tree.ids])
    rwa [Tree.edges, filter_src_ownEdges, if_pos (by simp [Tree.id])] at hid
  case cond | loop | breakable =>
    intro id body ih d next hnodup h
    obtain ⟨hid, hbody⟩ := List.nodup_cons.1 hnodup
    constructor
    · have hhere := h id (by simp [Tree.ids])
      rwa [Tree.edges, List.filter_append, filter_src_ownEdges, if_pos (by simp [Tree.id]),
        filter_src_edges f _ _ hid, List.append_nil] at hhere
    · refine ih _ _ hbody fun x hx ↦ ?_
      have hne : x ≠ id := fun heq ↦ hid (heq ▸ hx)
      rw [h x (List.mem_cons_of_mem id hx), Tree.edges, List.filter_append, filter_src_ownEdges,
        if_neg (by simpa [Tree.id] using hne), List.nil_append]
  case branch =>
    intro id body other ih ih' d next hnodup h
    obtain ⟨hid, hrest⟩ := List.nodup_cons.1 hnodup
    obtain ⟨hbody, hother, hdisjoint⟩ := List.nodup_append.1 hrest
    rw [List.mem_append, not_or] at hid
    refine ⟨?_, ih _ _ hbody fun x hx ↦ ?_, ih' _ _ hother fun x hx ↦ ?_⟩
    · have hhere := h id (by simp [Tree.ids])
      rwa [Tree.edges, List.filter_append, List.filter_append, filter_src_ownEdges,
        if_pos (by simp [Tree.id]), filter_src_edges f _ _ hid.1, filter_src_edges f _ _ hid.2,
        List.append_nil, List.append_nil] at hhere
    · have hne : x ≠ id := fun heq ↦ hid.1 (heq ▸ hx)
      rw [h x (List.mem_cons_of_mem id (List.mem_append_left _ hx)), Tree.edges,
        List.filter_append, List.filter_append, filter_src_ownEdges,
        if_neg (by simpa [Tree.id] using hne), List.nil_append,
        filter_src_edges f _ _ fun hx' ↦ hdisjoint x hx x hx' rfl, List.append_nil]
    · have hne : x ≠ id := fun heq ↦ hid.2 (heq ▸ hx)
      rw [h x (List.mem_cons_of_mem id (List.mem_append_right _ hx)), Tree.edges,
        List.filter_append, List.filter_append, filter_src_ownEdges,
        if_neg (by simpa [Tree.id] using hne), List.nil_append,
        filter_src_edges f _ _ fun hx' ↦ hdisjoint x hx' x hx rfl, List.nil_append]
  case nil =>
    intro d fall _ _
    trivial
  case cons =>
    intro t ts ih ihs d fall hnodup h
    obtain ⟨ht, hts, hdisjoint⟩ := List.nodup_append.1 hnodup
    refine ⟨ih _ _ ht fun x hx ↦ ?_, ihs _ _ hts fun x hx ↦ ?_⟩
    · rw [h x (List.mem_append_left _ hx), Forest.edges, List.filter_append,
        filter_src_edges f _ _ fun hx' ↦ hdisjoint x hx x hx' rfl, List.append_nil]
    · have hnone : (t.edges f d (Forest.first ts fall)).filter (fun e ↦ e.src = x) = [] := by
        refine List.filter_eq_nil_iff.2 fun e he hsrc ↦ ?_
        have hmem := (Tree.edges_src f).1 t _ _ e he
        rw [of_decide_eq_true hsrc] at hmem
        exact hdisjoint x hmem x hx rfl
      rw [h x (List.mem_append_right _ hx), Forest.edges, List.filter_append, hnone,
        List.nil_append]

end WasmBackend.Ir
