import WasmBackend.Proofs.Tree
import WasmBackend.SingleAssignment.Renaming

/-!
# Names and where they come from

A table of names is read as a partial map from variables to names.  Every name has a `Birth`: the
variable it stands for and the place that made it.  `Renaming.Named` says that the state of the
renaming agrees with an assignment of births, so two names that were made for different variables
or at different places are different.
-/

namespace WasmBackend.SingleAssignment

open Ir (BlockId Block Function Instr Var)
open WasmBackend.Flow (Graph Edge)

/-! ## Tables of names as maps -/

namespace Names

theorem get?_eq_none_of_size_le {n : Names} {v : Var} (h : n.size ≤ v) : get? n v = none := by
  simp [get?, Array.getElem?_eq_none h]

@[simp]
theorem get?_empty (v : Var) : get? #[] v = none := rfl

/-- Naming a variable changes what that variable is called, and nothing else. -/
theorem get?_set (n : Names) (v name w : Var) :
    get? (set n v name) w = if w = v then some name else get? n w := by
  unfold get? set
  split
  · rename_i hv
    simp only [Array.set!_eq_setIfInBounds, Array.getElem?_setIfInBounds]
    split <;> rename_i hw
    · simp [← hw]
    · rw [if_neg (Ne.symm hw)]
  · rename_i hv
    simp only [Array.getElem?_push, Array.size_append, Array.size_replicate]
    rw [Nat.add_sub_of_le (Nat.not_lt.1 hv)]
    split
    · rfl
    · rw [Array.getElem?_append]
      split
      · rfl
      · rename_i hw
        rw [Array.getElem?_eq_none (Nat.not_lt.1 hw)]
        simp only [Array.getElem?_replicate]
        split <;> rfl

theorem get?_paramNames (f : Function) (v : Var) :
    get? (Renaming.paramNames f) v = if v < f.params.length then some v else none := by
  unfold get? Renaming.paramNames
  simp only [Array.getElem?_map, Array.getElem?_range]
  split <;> rfl

/-- The last variable in a table has a name. -/
def Trim (n : Names) : Prop :=
  ∀ k, n.size = k + 1 → get? n k ≠ none

theorem trim_empty : Trim #[] := by
  intro k hk
  cases hk

theorem size_set (n : Names) (v name : Var) : (set n v name).size = max n.size (v + 1) := by
  unfold set
  split
  · rename_i hv
    rw [Array.set!_eq_setIfInBounds, Array.size_setIfInBounds]
    exact (Nat.max_eq_left hv).symm
  · rename_i hv
    have hle : n.size ≤ v := Nat.not_lt.1 hv
    rw [Array.size_push, Array.size_append, Array.size_replicate, Nat.add_sub_of_le hle]
    exact (Nat.max_eq_right (Nat.le_succ_of_le hle)).symm

theorem Trim.set {n : Names} (h : Trim n) (v name : Var) : Trim (set n v name) := by
  intro k hk
  rw [get?_set]
  split
  · nofun
  · rename_i hne
    rw [size_set] at hk
    obtain hsize | hv := max_choice n.size (v + 1)
    · exact h k (hsize.symm.trans hk)
    · exact absurd (Nat.succ.inj (hv.symm.trans hk)).symm hne

/-- Such a table is decided by the names in it. -/
theorem Trim.eq_of_get?_eq {n n' : Names} (h : Trim n) (h' : Trim n') (hget : get? n = get? n') :
    n = n' := by
  have hle {n n' : Names} (h' : Trim n') (hget : get? n = get? n') : n'.size ≤ n.size := by
    by_contra hlt
    obtain ⟨k, hk⟩ := Nat.exists_eq_succ_of_ne_zero (Nat.ne_zero_of_lt (Nat.not_le.1 hlt))
    refine h' k hk ?_
    rw [← hget]
    exact get?_eq_none_of_size_le (by omega)
  have hsize := Nat.le_antisymm (hle h hget.symm) (hle h' hget)
  refine Array.ext hsize fun i hi hi' ↦ ?_
  have hi'' := congrFun hget i
  unfold get? at hi''
  rwa [Array.getElem?_eq_getElem hi, Array.getElem?_eq_getElem hi', Option.join_some,
    Option.join_some] at hi''

end Names

/-- What variables are called. -/
abbrev Env := Var → Option Var

namespace Env

/-- What a variable is called, or the variable itself when it has no name. -/
def rename (env : Env) (v : Var) : Var :=
  (env v).getD v

/-- Behind definitions of variables under these names. -/
def bind (env : Env) (vs names : List Var) : Env :=
  (vs.zip names).foldl (fun env p ↦ Function.update env p.1 (some p.2)) env

/-- Behind instructions with these definitions. -/
def through (env : Env) (is : List (Instr × List Var)) : Env :=
  is.foldl (fun env p ↦ env.bind p.1.dst p.2) env

@[simp]
theorem through_nil (env : Env) : env.through [] = env := rfl

@[simp]
theorem through_cons (env : Env) (p : Instr × List Var) (is : List (Instr × List Var)) :
    env.through (p :: is) = (env.bind p.1.dst p.2).through is := rfl

end Env

theorem Names.rename_eq (n : Names) : Names.rename n = Env.rename (Names.get? n) := rfl

theorem Names.get?_set_eq_update (n : Names) (v name : Var) :
    Names.get? (Names.set n v name) = Function.update (Names.get? n) v (some name) := by
  funext w
  rw [get?_set, Function.update_apply]

theorem Names.get?_define (n : Names) (i : Instr) (defs : List Var) :
    Names.get? (Renaming.define n i defs) = Env.bind (Names.get? n) i.dst defs := by
  unfold Renaming.define Env.bind
  generalize i.dst.zip defs = pairs
  induction pairs generalizing n with
  | nil => rfl
  | cons p pairs ih => rw [List.foldl_cons, List.foldl_cons, ih, get?_set_eq_update]

theorem Names.get?_through (n : Names) (k : Nat) (is : List (Instr × List Var)) :
    Names.get? (Renaming.through n k is).1 = Env.through (Names.get? n) is := by
  induction is generalizing n k with
  | nil => rfl
  | cons p is ih =>
    obtain ⟨i, defs⟩ := p
    rw [Renaming.through, Env.through_cons, ih, get?_define]

/-! ## Births -/

/-- What makes a name. -/
inductive Place where
  /-- The function itself: a variable that was there before. -/
  | original
  /-- A result of an instruction of a block. -/
  | result (block : BlockId) (position index : Nat)
  /-- A merge at the head of a block. -/
  | head (block : BlockId)
deriving DecidableEq

/-- Where a name comes from. -/
structure Birth where
  var : Var
  place : Place
deriving DecidableEq

/-- A name made for a variable of the function, after the variables that were there before. -/
structure Fresh (f : Function) (vars : Array Prim) (birth : Var → Birth) (v name : Var)
    (place : Place) : Prop where
  var_lt : v < f.vars.size
  le_name : f.vars.size ≤ name
  name_lt : name < vars.size
  birth_eq : birth name = ⟨v, place⟩
  prim_eq : vars[name]? = f.vars[v]?

/-- The name exists and stands for the variable. -/
structure StandsFor (f : Function) (vars : Array Prim) (birth : Var → Birth) (v name : Var) :
    Prop where
  var_lt : v < f.vars.size
  name_lt : name < vars.size
  var_eq : (birth name).var = v

/-- Only variables of the function have names, and the names stand for them. -/
def Env.Faithful (f : Function) (vars : Array Prim) (birth : Var → Birth) (env : Env) : Prop :=
  ∀ v name, env v = some name → StandsFor f vars birth v name

/-- Names for the results of an instruction. -/
structure ResultNames (f : Function) (vars : Array Prim) (birth : Var → Birth) (b : BlockId)
    (k : Nat) (dst names : List Var) : Prop where
  length_eq : names.length = dst.length
  fresh : ∀ (j : Nat) (v name : Var), dst[j]? = some v → names[j]? = some name →
    Fresh f vars birth v name (.result b k j)

/-- What is known about a block agrees with the births. -/
structure BlockNames.Named (f : Function) (vars : Array Prim) (birth : Var → Birth) (b : BlockId)
    (k : BlockNames) : Prop where
  defs_length : ∀ ds, k.defs = some ds → ds.length = (f.blockAt b).instrs.length
  defs_named : ∀ ds, k.defs = some ds → ∀ (n : Nat) (i : Instr) (names : List Var),
    (f.blockAt b).instrs[n]? = some i → ds[n]? = some names →
      ResultNames f vars birth b n i.dst names
  merges_fresh : ∀ p ∈ k.merges, Fresh f vars birth p.1 p.2 (.head b)
  merges_nodup : (k.merges.map Prod.fst).Nodup
  out_faithful : ∀ o, k.out = some o → Env.Faithful f vars birth (Names.get? o)
  branches_faithful : ∀ p ∈ k.branches, Env.Faithful f vars birth (Names.get? p.2)

/-- The state of the renaming agrees with the births. -/
structure Renaming.Named (f : Function) (birth : Var → Birth) (r : Renaming) : Prop where
  blocks_size : r.blocks.size = f.blocks.size + 1
  size_le : f.vars.size ≤ r.vars.size
  vars_eq : ∀ v < f.vars.size, r.vars[v]? = f.vars[v]?
  original : ∀ v < f.vars.size, birth v = ⟨v, .original⟩
  prims_eq : ∀ n < r.vars.size, r.vars[n]? = f.vars[(birth n).var]?
  block : ∀ b, (r.block b).Named f r.vars birth b

/-! ## More names -/

/-- More names, with the births of those that were there before. -/
structure Grows (vars vars' : Array Prim) (birth birth' : Var → Birth) : Prop where
  size_le : vars.size ≤ vars'.size
  vars_eq : ∀ n < vars.size, vars'[n]? = vars[n]?
  birth_eq : ∀ n < vars.size, birth' n = birth n

theorem Grows.refl (vars : Array Prim) (birth : Var → Birth) : Grows vars vars birth birth :=
  ⟨Nat.le_refl _, fun _ _ ↦ rfl, fun _ _ ↦ rfl⟩

theorem Grows.trans {vars vars' vars'' : Array Prim} {birth birth' birth'' : Var → Birth}
    (h : Grows vars vars' birth birth') (h' : Grows vars' vars'' birth' birth'') :
    Grows vars vars'' birth birth'' where
  size_le := Nat.le_trans h.size_le h'.size_le
  vars_eq n hn := by rw [h'.vars_eq n (Nat.lt_of_lt_of_le hn h.size_le), h.vars_eq n hn]
  birth_eq n hn := by rw [h'.birth_eq n (Nat.lt_of_lt_of_le hn h.size_le), h.birth_eq n hn]

theorem grows_push (vars : Array Prim) (p : Prim) (birth : Var → Birth) (x : Birth) :
    Grows vars (vars.push p) birth (Function.update birth vars.size x) where
  size_le := by simp
  vars_eq n hn := by rw [Array.getElem?_push, if_neg (Nat.ne_of_lt hn)]
  birth_eq n hn := Function.update_of_ne (Nat.ne_of_lt hn) _ _

section

variable {f : Function} {vars vars' : Array Prim} {birth birth' : Var → Birth}

theorem Fresh.grow {v name : Var} {place : Place} (h : Fresh f vars birth v name place)
    (hg : Grows vars vars' birth birth') : Fresh f vars' birth' v name place where
  var_lt := h.var_lt
  le_name := h.le_name
  name_lt := Nat.lt_of_lt_of_le h.name_lt hg.size_le
  birth_eq := by rw [hg.birth_eq name h.name_lt, h.birth_eq]
  prim_eq := by rw [hg.vars_eq name h.name_lt, h.prim_eq]

theorem Fresh.standsFor {v name : Var} {place : Place} (h : Fresh f vars birth v name place) :
    StandsFor f vars birth v name :=
  ⟨h.var_lt, h.name_lt, by rw [h.birth_eq]⟩

theorem StandsFor.grow {v name : Var} (h : StandsFor f vars birth v name)
    (hg : Grows vars vars' birth birth') : StandsFor f vars' birth' v name where
  var_lt := h.var_lt
  name_lt := Nat.lt_of_lt_of_le h.name_lt hg.size_le
  var_eq := by rw [hg.birth_eq name h.name_lt, h.var_eq]

theorem Env.Faithful.grow {env : Env} (h : env.Faithful f vars birth)
    (hg : Grows vars vars' birth birth') : env.Faithful f vars' birth' :=
  fun v name hname ↦ (h v name hname).grow hg

theorem ResultNames.grow {b : BlockId} {k : Nat} {dst names : List Var}
    (h : ResultNames f vars birth b k dst names) (hg : Grows vars vars' birth birth') :
    ResultNames f vars' birth' b k dst names where
  length_eq := h.length_eq
  fresh j v name hv hname := (h.fresh j v name hv hname).grow hg

theorem BlockNames.Named.grow {b : BlockId} {k : BlockNames} (h : k.Named f vars birth b)
    (hg : Grows vars vars' birth birth') : k.Named f vars' birth' b where
  defs_length := h.defs_length
  defs_named ds hds n i names hi hnames := (h.defs_named ds hds n i names hi hnames).grow hg
  merges_fresh p hp := (h.merges_fresh p hp).grow hg
  merges_nodup := h.merges_nodup
  out_faithful o ho := (h.out_faithful o ho).grow hg
  branches_faithful p hp := (h.branches_faithful p hp).grow hg

/-! ## Names behind instructions -/

/-- Every definition gives a name to the variable it defines. -/
def ResultsStand (f : Function) (vars : Array Prim) (birth : Var → Birth)
    (is : List (Instr × List Var)) : Prop :=
  ∀ p ∈ is, ∀ q ∈ p.1.dst.zip p.2, StandsFor f vars birth q.1 q.2

theorem Env.Faithful.bind {env : Env} (h : env.Faithful f vars birth) {vs names : List Var}
    (hnames : ∀ q ∈ vs.zip names, StandsFor f vars birth q.1 q.2) :
    (env.bind vs names).Faithful f vars birth := by
  unfold Env.bind
  generalize vs.zip names = pairs at hnames
  induction pairs generalizing env with
  | nil => exact h
  | cons q pairs ih =>
    refine ih (fun v name hname ↦ ?_) fun q' hq' ↦ hnames q' (List.mem_cons_of_mem q hq')
    simp only [Function.update_apply] at hname
    split at hname
    · rename_i hv
      cases hname
      rw [hv]
      exact hnames q List.mem_cons_self
    · exact h v name hname

theorem Env.Faithful.through {env : Env} (h : env.Faithful f vars birth)
    {is : List (Instr × List Var)} (his : ResultsStand f vars birth is) :
    (env.through is).Faithful f vars birth := by
  induction is generalizing env with
  | nil => exact h
  | cons p is ih =>
    exact ih (h.bind (his p List.mem_cons_self)) fun q hq ↦ his q (List.mem_cons_of_mem p hq)

theorem faithful_branches {n : Names} (h : Env.Faithful f vars birth (Names.get? n)) (k : Nat)
    {is : List (Instr × List Var)} (his : ResultsStand f vars birth is) :
    ∀ p ∈ (Renaming.through n k is).2, Env.Faithful f vars birth (Names.get? p.2) := by
  induction is generalizing n k with
  | nil =>
    intro p hp
    cases hp
  | cons q is ih =>
    obtain ⟨i, defs⟩ := q
    have hnames : Env.Faithful f vars birth (Names.get? (Renaming.define n i defs)) := by
      rw [Names.get?_define]
      exact h.bind (his (i, defs) List.mem_cons_self)
    have hrest := ih hnames (k + 1) fun q hq ↦ his q (List.mem_cons_of_mem _ hq)
    intro p hp
    rw [Renaming.through] at hp
    dsimp only at hp
    split at hp
    · rcases List.mem_cons.1 hp with rfl | hp
      · exact hnames
      · exact hrest p hp
    · exact hrest p hp

end

end WasmBackend.SingleAssignment
