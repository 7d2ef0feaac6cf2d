import WasmBackend.Proofs.Flow.Reachability
import WasmBackend.Proofs.Shape

/-!
# Blocks in their places

What validity, wiring and shape say about a function, said about one block: whatever block of a
shaped function one looks at, it is the root of a tree that is stored, wired, checked and shaped.
-/

namespace WasmBackend.Ir

open WasmBackend.Flow (Edge Graph Site)

/-- A tree of a shaped function, at its place in the function. -/
structure Tree.Placed (f : Function) (g : Graph) (t : Tree) (d : Targets) (next : BlockId)
    (scope : List (BlockId × BlockKind)) : Prop where
  stored : t.Stored f
  wired : t.Wired f g d next
  checked : t.Checked f scope
  shaped : t.isShaped f

/-- A forest of a shaped function, at its place in the function. -/
structure Forest.Placed (f : Function) (g : Graph) (ts : Forest) (d : Targets) (fall : BlockId)
    (scope : List (BlockId × BlockKind)) : Prop where
  stored : Forest.Stored f ts
  wired : Forest.Wired f g d fall ts
  checked : Forest.Checked f scope ts
  shaped : Forest.isShaped f ts

section

variable {f : Function} {g : Graph} {d : Targets} {next : BlockId}
  {scope : List (BlockId × BlockKind)}

theorem Forest.Placed.head {t : Tree} {ts : Forest}
    (h : Forest.Placed f g (t :: ts) d next scope) :
    t.Placed f g d (Forest.first ts next) scope := by
  have hshaped := h.shaped
  rw [Forest.isShaped_cons, Bool.and_eq_true] at hshaped
  exact ⟨h.stored.1, h.wired.1, h.checked.1, hshaped.1⟩

theorem Forest.Placed.tail {t : Tree} {ts : Forest}
    (h : Forest.Placed f g (t :: ts) d next scope) : Forest.Placed f g ts d next scope := by
  have hshaped := h.shaped
  rw [Forest.isShaped_cons, Bool.and_eq_true] at hshaped
  exact ⟨h.stored.2, h.wired.2, h.checked.2, hshaped.2⟩

theorem Tree.Placed.cond_body {id : BlockId} {body : Forest}
    (h : (Tree.cond id body).Placed f g d next scope) :
    Forest.Placed f g body d next ((id, .cond) :: scope) ∧ Forest.isArranged body := by
  have hshaped := h.shaped
  simp only [Tree.isShaped_cond, Bool.and_eq_true] at hshaped
  exact ⟨⟨h.stored.2, h.wired.2, h.checked.2.2, hshaped.2⟩, hshaped.1.2⟩

theorem Tree.Placed.branch_body {id : BlockId} {body other : Forest}
    (h : (Tree.branch id body other).Placed f g d next scope) :
    Forest.Placed f g body d next ((id, .branch) :: scope) ∧ Forest.isArranged body := by
  have hshaped := h.shaped
  simp only [Tree.isShaped_branch, Bool.and_eq_true] at hshaped
  exact ⟨⟨h.stored.2.1, h.wired.2.1, h.checked.2.2.1, hshaped.1.2.2⟩, hshaped.1.2.1⟩

theorem Tree.Placed.branch_other {id : BlockId} {body other : Forest}
    (h : (Tree.branch id body other).Placed f g d next scope) :
    Forest.Placed f g other d next ((id, .branch) :: scope) ∧ Forest.isArranged other := by
  have hshaped := h.shaped
  simp only [Tree.isShaped_branch, Bool.and_eq_true] at hshaped
  exact ⟨⟨h.stored.2.2, h.wired.2.2, h.checked.2.2.2, hshaped.2.2⟩, hshaped.2.1⟩

theorem Tree.Placed.loop_body {id : BlockId} {body : Forest}
    (h : (Tree.loop id body).Placed f g d next scope) :
    Forest.Placed f g body (d.loop id next (Forest.first body id)) (Forest.first body id)
      ((id, .loop) :: scope) ∧ Forest.isArranged body := by
  have hshaped := h.shaped
  simp only [Tree.isShaped_loop, Bool.and_eq_true] at hshaped
  exact ⟨⟨h.stored.2, h.wired.2, h.checked.2, hshaped.2⟩, hshaped.1.2⟩

theorem Tree.Placed.breakable_body {id : BlockId} {body : Forest}
    (h : (Tree.breakable id body).Placed f g d next scope) :
    Forest.Placed f g body (d.breakable id next) next ((id, .breakable) :: scope)
      ∧ Forest.isArranged body := by
  have hshaped := h.shaped
  simp only [Tree.isShaped_breakable, Bool.and_eq_true] at hshaped
  exact ⟨⟨h.stored.2, h.wired.2, h.checked.2, hshaped.2⟩, hshaped.1.2⟩

end

/-- Every block of trees in their places is the root of a tree in its place. -/
theorem Tree.exists_placed (f : Function) (g : Graph) :
    (∀ t : Tree, ∀ d next scope, t.Placed f g d next scope → ∀ x ∈ t.ids,
        ∃ t' d' next' scope', t'.id = x ∧ Tree.Placed f g t' d' next' scope') ∧
      ∀ ts : Forest, ∀ d fall scope, Forest.Placed f g ts d fall scope → ∀ x ∈ Forest.ids ts,
        ∃ t' d' next' scope', t'.id = x ∧ Tree.Placed f g t' d' next' scope' := by
  refine Tree.induction ?basic ?cond ?branch ?loop ?breakable ?nil ?cons
  case basic =>
    intro id d next scope h x hx
    exact ⟨.basic id, d, next, scope, (List.mem_singleton.1 hx).symm, h⟩
  case cond =>
    intro id body ih d next scope h x hx
    rcases List.mem_cons.1 hx with rfl | hx
    · exact ⟨_, d, next, scope, rfl, h⟩
    · exact ih _ _ _ h.cond_body.1 x hx
  case branch =>
    intro id body other ih ih' d next scope h x hx
    rcases List.mem_cons.1 hx with rfl | hx
    · exact ⟨_, d, next, scope, rfl, h⟩
    · rcases List.mem_append.1 hx with hx | hx
      · exact ih _ _ _ h.branch_body.1 x hx
      · exact ih' _ _ _ h.branch_other.1 x hx
  case loop =>
    intro id body ih d next scope h x hx
    rcases List.mem_cons.1 hx with rfl | hx
    · exact ⟨_, d, next, scope, rfl, h⟩
    · exact ih _ _ _ h.loop_body.1 x hx
  case breakable =>
    intro id body ih d next scope h x hx
    rcases List.mem_cons.1 hx with rfl | hx
    · exact ⟨_, d, next, scope, rfl, h⟩
    · exact ih _ _ _ h.breakable_body.1 x hx
  case nil =>
    intro d fall scope _ x hx
    cases hx
  case cons =>
    intro t ts ih ihs d fall scope h x hx
    rcases List.mem_append.1 hx with hx | hx
    · exact ih _ _ _ h.head x hx
    · exact ihs _ _ _ h.tail x hx

/-- A shaped function is in its place. -/
theorem Function.Shaped.placed {f : Function} {ts : Forest} {g : Graph} (hf : f.Shaped ts)
    (hg : g.Describes f ts) : Forest.Placed f g ts {} 0 [] :=
  ⟨hf.stored, hg.wired, hf.checked, hf.shaped⟩

/-! ## What a basic block looks like -/

section

variable {f : Function} {g : Graph} {d : Targets} {next : BlockId}
  {scope : List (BlockId × BlockKind)}

theorem Tree.Placed.succs_eq {t : Tree} (h : t.Placed f g d next scope) :
    g.succs t.id = t.ownEdges f d next := by
  have hwired := h.wired
  cases t with
  | basic => exact hwired
  | _ => exact hwired.1

theorem Tree.Placed.kind_basic {t : Tree} (h : t.Placed f g d next scope)
    (hkind : (f.blockAt t.id).kind = .basic) : t = .basic t.id := by
  have hstored := h.stored
  cases t with
  | basic => rfl
  | _ =>
    have hkind' := Function.Node.kind_eq hstored.1
    rw [Tree.id] at hkind
    rw [hkind] at hkind'
    cases hkind'

theorem Function.lt_of_unknownVars {f : Function} {b : BlockId} {vs : List Var}
    (h : f.unknownVars b vs = []) : ∀ v ∈ vs, v < f.vars.size := by
  intro v hv
  simpa using List.filter_eq_nil_iff.1 (List.map_eq_nil_iff.1 h) v hv

/-- The variables of an instruction of a valid function exist. -/
theorem Tree.Placed.instr_vars {id : BlockId} (h : (Tree.basic id).Placed f g d next scope)
    {i : Instr} (hi : i ∈ (f.blockAt id).instrs) :
    (∀ v ∈ i.dst, v < f.vars.size) ∧ ∀ v ∈ i.args, v < f.vars.size := by
  have hviolations := List.flatMap_eq_nil_iff.1 h.checked.1 i hi
  simp only [Function.instrViolations, List.append_eq_nil_iff] at hviolations
  exact ⟨f.lt_of_unknownVars hviolations.1.1.1, f.lt_of_unknownVars hviolations.1.1.2⟩

theorem Tree.Placed.straight {id : BlockId} (h : (Tree.basic id).Placed f g d next scope) :
    isStraight (f.blockAt id).instrs := by
  have hshaped := h.shaped
  rw [Tree.isShaped_basic, Bool.and_eq_true] at hshaped
  exact hshaped.1

theorem Tree.Placed.isCopyFree {t : Tree} (h : t.Placed f g d next scope) :
    (f.blockAt t.id).isCopyFree := by
  have hshaped := h.shaped
  cases t with
  | basic id =>
    rw [Tree.isShaped_basic, Bool.and_eq_true] at hshaped
    exact hshaped.2
  | cond id body | loop id body | breakable id body | branch id body other =>
    simp only [Tree.isShaped_cond, Tree.isShaped_branch, Tree.isShaped_loop,
      Tree.isShaped_breakable, Bool.and_eq_true] at hshaped
    exact hshaped.1.1

theorem Tree.Placed.cond_lt {t : Tree} (h : t.Placed f g d next scope)
    (hkind : (f.blockAt t.id).kind = .cond ∨ (f.blockAt t.id).kind = .branch) :
    (f.blockAt t.id).cond < f.vars.size := by
  have hchecked := h.checked
  have hstored := h.stored
  cases t with
  | cond id body | branch id body other =>
    exact f.lt_of_unknownVars hchecked.1 _ (List.mem_singleton_self _)
  | basic id =>
    rw [Tree.id, hstored.kind_eq] at hkind
    simp at hkind
  | loop id body | breakable id body =>
    rw [Tree.id, hstored.1.kind_eq] at hkind
    simp at hkind

/-- Only basic blocks are left through branch instructions. -/
theorem Tree.Placed.basic_of_branch {t : Tree} (h : t.Placed f g d next scope) {e : Edge}
    (he : e ∈ g.succs t.id) (hsite : e.site = .branch) : t = .basic t.id := by
  rw [h.succs_eq] at he
  have hproper : ∀ e' : Edge, e'.site ≠ .branch → e ∉ e'.proper := by
    intro e' hne hmem
    rw [(Edge.mem_proper.1 hmem).1] at hsite
    exact hne hsite
  cases t with
  | basic => rfl
  | cond id body =>
    rcases List.mem_append.1 he with he | he
    · split at he
      · cases he
      · exact absurd he (hproper _ (by simp))
    · exact absurd he (hproper _ (by simp))
  | branch id body other =>
    rcases List.mem_append.1 he with he | he <;> exact absurd he (hproper _ (by simp))
  | loop id body => exact absurd he (hproper _ (by simp))
  | breakable id body => exact absurd he (hproper _ (by simp))

end

end WasmBackend.Ir
