import WasmBackend.Proofs.SingleAssignment.Looks

/-!
# The renaming converges

Names may replace each other for a while: a block passes on what arrives until different names meet
there, and then their merge.  They come to rest all the same.  Merges are bounded in number and
never go away.  A name that ever goes along an edge is there because an instruction gives it, which
is always the same one, or because it arrived at the head of the block before, a look earlier.  So,
by induction on the look at which a variable first has a name on an edge, its name there is the same
from some look on: `Looking.eventually_name_eq_some`.  When that has happened on all edges, no look
changes what a block passes on, and the next round is quiet.
-/

namespace WasmBackend.SingleAssignment

open Filter
open Ir (BlockId Block BlockKind Function Instr Var)
open WasmBackend.Flow (Graph Edge)
open Stage (Succeeds)

/-- The name of a variable that leaves a block through an edge. -/
def BlockNames.name? (k : BlockNames) (e : Edge) (v : Var) : Option Var :=
  match e.site with
  | .branch => (k.branches.lookup e.instr).bind (Names.get? · v)
  | _ => k.out.bind (Names.get? · v)

namespace Renaming

variable {f : Function} {g : Graph} {r : Renaming}

theorem bind_along (r : Renaming) (e : Edge) (v : Var) :
    (r.along e).bind (Names.get? · v) = (r.block e.src).name? e v := by
  unfold along BlockNames.name?
  split <;> simp_all

/-- What arrives at a block: parameters at the entry, and what goes along its edges. -/
theorem mem_arriving {b : BlockId} {v name : Var} :
    name ∈ arriving (r.incoming f g b) v ↔
      b = g.entry ∧ v < f.params.length ∧ name = v ∨
        ∃ e ∈ g.preds b, (r.block e.src).name? e v = some name := by
  unfold arriving incoming
  rw [List.filterMap_append, List.mem_append]
  refine or_congr ?_ ?_
  · split
    · rename_i hb
      simp only [List.filterMap_cons, List.filterMap_nil, Names.get?_paramNames]
      by_cases hv : v < f.params.length
      · simp [hb, hv]
      · simp [hv]
    · simp [*]
  · simp only [List.mem_filterMap, ← bind_along, Option.bind_eq_some_iff]
    constructor
    · rintro ⟨n, ⟨e, he, hn⟩, hname⟩
      exact ⟨e, he, n, hn, hname⟩
    · rintro ⟨e, he, n, hn, hname⟩
      exact ⟨n, ⟨e, he, hn⟩, hname⟩

/-! ## Taking turns -/

/-- Blocks take turns at being looked at; every reachable block has its turn again and again. -/
structure Looking (f : Function) (g : Graph) (turn : Nat → BlockId) (s : Nat → Renaming)
    (changed : Nat → Bool) : Prop where
  start : s 0 = ofFunction f
  look : ∀ k, Look f g (turn k) (s k) (changed k) (s (k + 1))
  turn_mem : ∀ k, turn k ∈ g.order
  fair : ∀ b ∈ g.order, ∀ k, ∃ j ≥ k, turn j = b

namespace Looking

variable {turn : Nat → BlockId} {s : Nat → Renaming} {changed : Nat → Bool}

theorem regular (h : Looking f g turn s changed) (k : Nat) : (s k).Regular f := by
  cases k with
  | zero => exact h.start ▸ regular_ofFunction f
  | succ k => exact (h.look k).regular

theorem block_succ (h : Looking f g turn s changed) {k : Nat} {b : BlockId} (hb : turn k ≠ b) :
    (s (k + 1)).block b = (s k).block b :=
  (h.look k).others b (Ne.symm hb)

/-- What holds of a reachable block behind all late looks at it holds from some time on. -/
theorem eventually_of_look (h : Looking f g turn s changed) {b : BlockId} (hb : b ∈ g.order)
    {P : BlockNames → Prop} (hP : ∀ᶠ k in atTop, turn k = b → P ((s (k + 1)).block b)) :
    ∀ᶠ k in atTop, P ((s k).block b) := by
  obtain ⟨first, hfirst⟩ := eventually_atTop.1 hP
  obtain ⟨j, hj, hturn⟩ := h.fair b hb first
  refine eventually_atTop.2 ⟨j + 1, fun k hk ↦ ?_⟩
  induction k, hk using Nat.le_induction with
  | base => exact hfirst j hj hturn
  | succ k hk ih =>
    by_cases hk' : turn k = b
    · exact hfirst k (hj.trans (Nat.le_of_succ_le hk)) hk'
    · rwa [h.block_succ hk']

theorem defs_eq (h : Looking f g turn s changed) {t : Nat} {b : BlockId} {ds : List (List Var)}
    (hds : ((s t).block b).defs = some ds) {k : Nat} (hk : t ≤ k) :
    ((s k).block b).defs = some ds := by
  induction k, hk using Nat.le_induction with
  | base => exact hds
  | succ k _ ih =>
    by_cases hturn : turn k = b
    · subst hturn
      exact (h.look k).defs ds ih
    · rwa [h.block_succ hturn]

theorem merges_prefix (h : Looking f g turn s changed) (b : BlockId) {t k : Nat} (hk : t ≤ k) :
    ((s t).block b).merges <+: ((s k).block b).merges := by
  induction k, hk using Nat.le_induction with
  | base => exact List.prefix_rfl
  | succ k _ ih =>
    by_cases hturn : turn k = b
    · subst hturn
      exact ih.trans (h.look k).merges
    · rwa [h.block_succ hturn]

/-- A block merges every variable of the function once at most. -/
theorem length_merges_le (h : Looking f g turn s changed) (b : BlockId) (k : Nat) :
    ((s k).block b).merges.length ≤ f.vars.size := by
  have hblock := (h.regular k).block b
  have hsubset : ((s k).block b).merges.map Prod.fst ⊆ List.range f.vars.size := by
    intro v hv
    obtain ⟨p, hp, rfl⟩ := List.mem_map.1 hv
    exact List.mem_range.2 (hblock.merges_lt p hp)
  simpa using (hblock.merges_nodup.subperm hsubset).length_le

/-- The merges of a block are the same from some time on. -/
theorem eventually_merges_eq (h : Looking f g turn s changed) (b : BlockId) :
    ∃ merges, ∀ᶠ k in atTop, ((s k).block b).merges = merges := by
  -- the merges at a time when there are the most
  set spare : Nat → Nat := fun k ↦ f.vars.size - ((s k).block b).merges.length with hspare
  set t := Function.argmin spare
  have hmost (k : Nat) : ((s k).block b).merges.length ≤ ((s t).block b).merges.length := by
    have hle : spare t ≤ spare k := Function.argmin_le spare k
    have ht := h.length_merges_le b t
    have hk := h.length_merges_le b k
    simp only [hspare] at hle
    omega
  refine ⟨((s t).block b).merges, eventually_atTop.2 ⟨t, fun k hk ↦ ?_⟩⟩
  exact ((h.merges_prefix b hk).eq_of_length_le (hmost k)).symm

/-! ## Names come to rest -/

/-- The name of a variable at the head of a block, as a look finds it. -/
def head (f : Function) (g : Graph) (s : Nat → Renaming) (k : Nat) (b : BlockId) (v : Var) :
    Option Var :=
  chosen ((s (k + 1)).block b).merges v (arriving ((s k).incoming f g b) v)

/-- From the first look on, a variable leaves a block through an edge under one name, or under its
name at the head. -/
theorem name?_or (h : Looking f g turn s changed) (t : Nat) {e : Edge} (he : turn t = e.src)
    (v : Var) :
    (∃ name?, ∀ k ≥ t, turn k = e.src → ((s (k + 1)).block e.src).name? e v = name?) ∨
      ∀ k ≥ t, turn k = e.src → ((s (k + 1)).block e.src).name? e v = head f g s k e.src v := by
  have hcarried (k : Nat) (hk : turn k = e.src) := hk ▸ (h.look k).carried
  by_cases hkind : (f.blockAt e.src).kind = .basic
  · obtain ⟨names, out, -, -, hcarry⟩ := hcarried t he
    obtain ⟨ds, hds, -⟩ := hcarry.basic hkind
    have hthrough (k : Nat) (hk : k ≥ t) (hturn : turn k = e.src) : ∃ names : Names,
        (∀ v, Names.get? names v = head f g s k e.src v)
          ∧ ((s (k + 1)).block e.src).out =
            some (through names 0 ((f.blockAt e.src).instrs.zip ds)).1
          ∧ ((s (k + 1)).block e.src).branches =
            (through names 0 ((f.blockAt e.src).instrs.zip ds)).2 := by
      obtain ⟨names, out, hnames, hout, hcarry⟩ := hcarried k hturn
      obtain ⟨ds', hds', hthrough⟩ := hcarry.basic hkind
      have heq := h.defs_eq hds (Nat.succ_le_succ hk)
      obtain rfl : ds' = ds := Option.some.inj (hds'.symm.trans heq)
      exact ⟨names, hnames, by rw [hout, hthrough], by rw [hthrough]⟩
    unfold BlockNames.name?
    split
    · obtain ⟨name?, hname⟩ | hkept :=
        Names.get?_lookup_through_or 0 e.instr ((f.blockAt e.src).instrs.zip ds) v
      · refine .inl ⟨name?, fun k hk hturn ↦ ?_⟩
        obtain ⟨names, -, -, hbranches⟩ := hthrough k hk hturn
        rw [hbranches, hname]
      · refine .inr fun k hk hturn ↦ ?_
        obtain ⟨names, hnames, -, hbranches⟩ := hthrough k hk hturn
        rw [hbranches, hkept, hnames]
    · obtain ⟨name, hname⟩ | hkept :=
        Names.get?_through_or 0 ((f.blockAt e.src).instrs.zip ds) v
      · refine .inl ⟨some name, fun k hk hturn ↦ ?_⟩
        obtain ⟨names, -, hout, -⟩ := hthrough k hk hturn
        rw [hout, Option.bind_some, hname]
      · refine .inr fun k hk hturn ↦ ?_
        obtain ⟨names, hnames, hout, -⟩ := hthrough k hk hturn
        rw [hout, Option.bind_some, hkept, hnames]
  · unfold BlockNames.name?
    split
    · refine .inl ⟨none, fun k _ hturn ↦ ?_⟩
      obtain ⟨names, out, -, -, hcarry⟩ := hcarried k hturn
      rw [(hcarry.other hkind).2]
      rfl
    · refine .inr fun k _ hturn ↦ ?_
      obtain ⟨names, out, hnames, hout, hcarry⟩ := hcarried k hturn
      rw [hout, (hcarry.other hkind).1, Option.bind_some, hnames]
      rfl

/-- Where one name of a variable arrives from some time on, the name at the head is the same from
some look on: its merge, or else the only name that arrives. -/
theorem eventually_head_eq (h : Looking f g turn s changed) {b : BlockId} {v name : Var}
    (hname : ∀ᶠ k in atTop, name ∈ arriving ((s k).incoming f g b) v) :
    ∃ name', ∀ᶠ k in atTop, turn k = b → head f g s k b v = some name' := by
  obtain ⟨merges, hmerges⟩ := h.eventually_merges_eq b
  refine ⟨(merges.lookup v).getD name, ?_⟩
  filter_upwards [hname, (tendsto_add_atTop_nat 1).eventually hmerges] with k hk hmerges hturn
  subst hturn
  have hundisputed := (h.look k).undisputed v
  unfold head
  rw [hmerges] at hundisputed ⊢
  generalize arriving ((s k).incoming f g (turn k)) v = arrived at hk hundisputed
  cases arrived with
  | nil => cases hk
  | cons first rest =>
    cases hmerge : merges.lookup v with
    | some merge => simp [chosen, hmerge]
    | none => simp [chosen, hmerge, hundisputed hmerge first List.mem_cons_self name hk]

/-- A name that ever leaves a block through an edge comes to rest there. -/
theorem eventually_name_eq_some (h : Looking f g turn s changed) (t : Nat) :
    ∀ (e : Edge) (v name : Var), ((s t).block e.src).name? e v = some name →
      ∃ name', ∀ᶠ k in atTop, ((s k).block e.src).name? e v = some name' := by
  induction t with
  | zero =>
    intro e v name hname
    rw [h.start, block_ofFunction] at hname
    unfold BlockNames.name? at hname
    split at hname <;> cases hname
  | succ t ih =>
    intro e v name hname
    by_cases hsrc : turn t = e.src
    · have hmem : e.src ∈ g.order := hsrc ▸ h.turn_mem t
      have hlate : ∀ᶠ k in atTop, t ≤ k := eventually_ge_atTop t
      obtain ⟨name?, hconst⟩ | hhead := h.name?_or t hsrc v
      · -- an instruction gives the name, and gives it again at every look
        rw [hconst t le_rfl hsrc] at hname
        refine ⟨name, h.eventually_of_look (P := fun k ↦ k.name? e v = some name) hmem ?_⟩
        filter_upwards [hlate] with k hk hturn
        rw [hconst k hk hturn, hname]
      · -- the name was at the head, so one had arrived there before
        rw [hhead t le_rfl hsrc] at hname
        have harrived : ∃ name', name' ∈ arriving ((s t).incoming f g e.src) v := by
          refine List.exists_mem_of_ne_nil _ fun hnil ↦ ?_
          rw [head, hnil] at hname
          cases hname
        have harrives : ∃ name', ∀ᶠ k in atTop,
            name' ∈ arriving ((s k).incoming f g e.src) v := by
          obtain ⟨name', hname'⟩ := harrived
          obtain ⟨hentry, hv, rfl⟩ | ⟨e', he', hname'⟩ := mem_arriving.1 hname'
          · exact ⟨name', .of_forall fun k ↦ mem_arriving.2 (.inl ⟨hentry, hv, rfl⟩)⟩
          · obtain ⟨name'', hname''⟩ := ih e' v name' hname'
            exact ⟨name'', hname''.mono fun k hk ↦ mem_arriving.2 (.inr ⟨e', he', hk⟩)⟩
        obtain ⟨_, harrives⟩ := harrives
        obtain ⟨name', hname'⟩ := h.eventually_head_eq harrives
        refine ⟨name', h.eventually_of_look (P := fun k ↦ k.name? e v = some name') hmem ?_⟩
        filter_upwards [hlate, hname'] with k hk hname' hturn
        rw [hhead k hk hturn, hname' hturn]
    · rw [h.block_succ hsrc] at hname
      exact ih e v name hname

/-- What a variable is called on an edge comes to rest. -/
theorem eventually_name_eq (h : Looking f g turn s changed) (e : Edge) (v : Var) :
    ∃ name?, ∀ᶠ k in atTop, ((s k).block e.src).name? e v = name? := by
  by_cases hever : ∃ t name, ((s t).block e.src).name? e v = some name
  · obtain ⟨t, name, hname⟩ := hever
    obtain ⟨name', hname'⟩ := h.eventually_name_eq_some t e v name hname
    exact ⟨some name', hname'⟩
  · push Not at hever
    exact ⟨none, .of_forall fun k ↦ Option.eq_none_iff_forall_ne_some.2 (hever k)⟩

/-! ## Quiet looks -/

/-- The names at the end of a block come to rest. -/
theorem eventually_unchanged_of_turn (h : Looking f g turn s changed) {b : BlockId}
    (hb : b ∈ g.order) : ∀ᶠ k in atTop, turn k = b → changed k = false := by
  set last : Edge := { src := b, dst := 0, site := .fallthrough } with hlast
  have hget (k : Nat) (o : Names) (ho : ((s k).block b).out = some o) (v : Var) :
      ((s k).block b).name? last v = Names.get? o v := by
    simp [BlockNames.name?, hlast, ho]
  choose name? hname using h.eventually_name_eq last
  have hnames : ∀ᶠ k in atTop, ∀ v < max f.vars.size f.params.length,
      ((s k).block b).name? last v = name? v :=
    (eventually_all_finite (Set.finite_lt_nat _)).2 fun v _ ↦ hname v
  have hout : ∀ᶠ k in atTop, ((s k).block b).out.isSome := by
    refine h.eventually_of_look (P := fun k ↦ k.out.isSome) hb (.of_forall fun k hk ↦ ?_)
    obtain ⟨_, out, -, hout, -⟩ := (h.look k).carried
    rw [← hk, hout]
    rfl
  filter_upwards [hnames, (tendsto_add_atTop_nat 1).eventually hnames, hout,
    (tendsto_add_atTop_nat 1).eventually hout] with k hk hk' hout hout' hturn
  obtain ⟨o, ho⟩ := Option.isSome_iff_exists.1 hout
  obtain ⟨o', ho'⟩ := Option.isSome_iff_exists.1 hout'
  obtain ⟨htrim, hregular⟩ := ((h.regular k).block b).out o ho
  obtain ⟨htrim', hregular'⟩ := ((h.regular (k + 1)).block b).out o' ho'
  have hsame : o' = o := by
    refine htrim'.eq_of_get?_eq htrim (funext fun v ↦ ?_)
    by_cases hv : v < max f.vars.size f.params.length
    · rw [← hget k o ho, ← hget (k + 1) o' ho', hk v hv, hk' v hv]
    · -- behind the variables and the parameters no variable has a name
      have hnone {env : Env} (henv : env.Regular f) : env v = none := by
        refine Option.eq_none_iff_forall_ne_some.2 fun name hname ↦ hv ?_
        obtain hlt | ⟨hlt, -⟩ := henv v name hname
        · exact hlt.trans_le (le_max_left _ _)
        · exact hlt.trans_le (le_max_right _ _)
      rw [hnone hregular, hnone hregular']
  rw [(h.look k).changed_iff, hturn, ho, ho', hsame]

/-- From some time on no look changes what a block passes on. -/
theorem eventually_unchanged (h : Looking f g turn s changed) :
    ∀ᶠ k in atTop, changed k = false := by
  have hall : ∀ᶠ k in atTop, ∀ b ∈ {b | b ∈ g.order}, turn k = b → changed k = false :=
    (eventually_all_finite g.order.finite_toSet).2 fun b hb ↦ h.eventually_unchanged_of_turn hb
  exact hall.mono fun k hk ↦ hk (turn k) (h.turn_mem k) rfl

end Looking

/-! ## Rounds -/

/-- The block that a round takes at its `k`-th look, counted over all rounds. -/
def turn (g : Graph) (k : Nat) : BlockId :=
  g.order.getD (k % g.order.length) 0

/-- What is known after a number of looks. -/
def looked (f : Function) (g : Graph) : Nat → Renaming
  | 0 => ofFunction f
  | k + 1 => ((visit f g (turn g k)).runFrom (looked f g k)).2

/-- Take a number of rounds, whether or not they change anything. -/
def rounds (f : Function) (g : Graph) : Nat → M Unit
  | 0 => return
  | n + 1 => do
    rounds f g n
    let _ ← round f g

theorem turn_eq {done rest : List BlockId} {id : BlockId} (h : g.order = done ++ id :: rest)
    (n : Nat) : turn g (g.order.length * n + done.length) = id := by
  have hlt : done.length < g.order.length := by simp [h]
  unfold turn
  rw [Nat.mul_add_mod, Nat.mod_eq_of_lt hlt]
  simp [h]

theorem turn_mem (h : g.order ≠ []) (k : Nat) : turn g k ∈ g.order := by
  have hlt := Nat.mod_lt k (List.length_pos_of_ne_nil h)
  unfold turn
  rw [List.getD_eq_getElem _ _ hlt]
  exact List.getElem_mem hlt

theorem exists_turn {b : BlockId} (h : b ∈ g.order) (k : Nat) : ∃ j ≥ k, turn g j = b := by
  obtain ⟨done, rest, hsplit⟩ := List.append_of_mem h
  have hpos : 0 < g.order.length := List.length_pos_of_mem h
  refine ⟨g.order.length * k + done.length, ?_, turn_eq hsplit k⟩
  exact (Nat.le_mul_of_pos_left k hpos).trans (Nat.le_add_right _ _)

/-- The blocks of rounds take turns. -/
theorem exists_looking (hread : ∀ id ∈ g.order, Readable f id) (hne : g.order ≠ []) :
    ∃ changed, Looking f g (turn g) (looked f g) changed
      ∧ ∀ k, visit f g (turn g k) (looked f g k) = (.ok (changed k), looked f g (k + 1)) := by
  have hstep (k : Nat) (hregular : (looked f g k).Regular f) :
      ∃ changed, visit f g (turn g k) (looked f g k) = (.ok changed, looked f g (k + 1))
        ∧ Look f g (turn g k) (looked f g k) changed (looked f g (k + 1)) := by
    obtain ⟨changed, t, hvisit, hlook⟩ :=
      Stage.succeeds_iff.1 (visit_succeeds (g := g) hregular (hread _ (turn_mem hne k)))
    have ht : looked f g (k + 1) = t := congrArg Prod.snd hvisit
    exact ⟨changed, ht ▸ hvisit, ht ▸ hlook⟩
  have hregular (k : Nat) : (looked f g k).Regular f := by
    induction k with
    | zero => exact regular_ofFunction f
    | succ k ih =>
      obtain ⟨changed, -, hlook⟩ := hstep k ih
      exact hlook.regular
  choose changed hvisit hlook using fun k ↦ hstep k (hregular k)
  exact ⟨changed, ⟨rfl, hlook, turn_mem hne, fun b hb ↦ exists_turn hb⟩, hvisit⟩

/-- Rounds return, and after some of them comes one in which no block passes on other names than
before. -/
theorem exists_quiet (hread : ∀ id ∈ g.order, Readable f id) :
    ∃ (s : Nat → Renaming) (changed : Nat → Bool), s 0 = ofFunction f
      ∧ (∀ n, round f g (s n) = (.ok (changed n), s (n + 1)))
      ∧ (∀ n, changed n = false → ∀ b, ((s (n + 1)).block b).out = ((s n).block b).out)
      ∧ ∃ n, changed n = false := by
  by_cases hne : g.order = []
  · refine ⟨fun _ ↦ ofFunction f, fun _ ↦ false, rfl, fun n ↦ ?_, fun _ _ _ ↦ rfl, 0, rfl⟩
    rw [round, hne]
    rfl
  obtain ⟨changed, hlooking, hvisit⟩ := exists_looking hread hne
  set m := g.order.length with hm
  have hround (n : Nat) : Succeeds (round f g) (looked f g (m * n)) fun c t ↦
      t = looked f g (m * (n + 1)) ∧ (c = false ↔ ∀ i < m, changed (m * n + i) = false) := by
    refine Stage.meets_foldlM (fun done c t ↦ t = looked f g (m * n + done.length)
      ∧ (c = false ↔ ∀ i < done.length, changed (m * n + i) = false)) ⟨rfl, by simp⟩ ?_
    rintro done id rest c _ hl ⟨rfl, hc⟩
    have hlook := hvisit (m * n + done.length)
    rw [turn_eq hl n] at hlook
    rw [Stage.meets_bind]
    refine Stage.succeeds_iff.2 ⟨_, _, hlook, ?_⟩
    rw [Stage.meets_pure, List.length_append, List.length_singleton]
    refine ⟨rfl, ?_⟩
    rw [Bool.or_eq_false_iff, hc]
    constructor
    · rintro ⟨hlast, hbefore⟩ i hi
      obtain hi | rfl := Nat.lt_succ_iff_lt_or_eq.1 hi
      · exact hbefore i hi
      · exact hlast
    · intro hall
      exact ⟨hall _ (Nat.lt_succ_self _), fun i hi ↦ hall i (Nat.lt_succ_of_lt hi)⟩
  choose quiet hquiet using fun n ↦ Stage.succeeds_iff.1 (hround n)
  choose t hrun ht hiff using hquiet
  refine ⟨fun n ↦ looked f g (m * n), quiet, rfl, fun n ↦ ?_, fun n hn b ↦ ?_, ?_⟩
  · rw [hrun n, ht n]
  · have hout (i : Nat) (hi : i ≤ m) : ((looked f g (m * n + i)).block b).out =
        ((looked f g (m * n)).block b).out := by
      induction i with
      | zero => rfl
      | succ i ih =>
        rw [← ih (Nat.le_of_succ_le hi)]
        have hunchanged := (hiff n).1 hn i hi
        by_cases hturn : turn g (m * n + i) = b
        · subst hturn
          exact (hlooking.look _).changed_iff.1 hunchanged
        · exact congrArg BlockNames.out (hlooking.block_succ hturn)
    exact hout m le_rfl
  · obtain ⟨k, hk⟩ := eventually_atTop.1 hlooking.eventually_unchanged
    have hpos : 0 < m := List.length_pos_of_ne_nil hne
    refine ⟨k, (hiff k).2 fun i _ ↦ hk _ ?_⟩
    exact (Nat.le_mul_of_pos_left k hpos).trans (Nat.le_add_right _ _)

/-- Settling ends with the first quiet round. -/
theorem settle_of_quiet {s : Nat → Renaming} {changed : Nat → Bool}
    (hround : ∀ n, round f g (s n) = (.ok (changed n), s (n + 1))) {n k : Nat}
    (hchanged : ∀ i < k, changed (n + i) = true) (hquiet : changed (n + k) = false) {limit : Nat}
    (hlimit : k < limit) : settle f g limit (s n) = (.ok (), s (n + k + 1)) := by
  induction k generalizing n limit with
  | zero =>
    obtain ⟨limit, rfl⟩ := Nat.exists_eq_add_one_of_ne_zero (Nat.ne_zero_of_lt hlimit)
    rw [settle, Stage.bind_apply, hround, show changed n = false from hquiet]
    rfl
  | succ k ih =>
    obtain ⟨limit, rfl⟩ := Nat.exists_eq_add_one_of_ne_zero (Nat.ne_zero_of_lt hlimit)
    rw [settle, Stage.bind_apply, hround, show changed n = true from hchanged 0 (Nat.succ_pos k)]
    have hbefore : ∀ i < k, changed (n + 1 + i) = true := fun i hi ↦ by
      rw [Nat.add_right_comm]
      exact hchanged (i + 1) (Nat.succ_lt_succ hi)
    have hafter : changed (n + 1 + k) = false := by
      rw [Nat.add_right_comm]
      exact hquiet
    rw [show n + (k + 1) + 1 = n + 1 + k + 1 by omega]
    exact ih hbefore hafter (Nat.lt_of_succ_lt_succ hlimit)

theorem rounds_eq {s : Nat → Renaming} {changed : Nat → Bool}
    (hround : ∀ n, round f g (s n) = (.ok (changed n), s (n + 1))) (n : Nat) :
    rounds f g n (s 0) = (.ok (), s n) := by
  induction n with
  | zero => rfl
  | succ n ih =>
    rw [rounds, Stage.bind_apply, ih]
    show (round f g >>= fun _ ↦ pure ()) (s n) = _
    rw [Stage.bind_apply, hround]
    rfl

/-- Every reachable block of a valid function can be looked at. -/
theorem readable_of_mem_order (hvalid : f.isValid) (hg : Graph.ofFunction f = .ok g) :
    ∀ id ∈ g.order, Readable f id := by
  obtain ⟨met, haccepts, hnodup⟩ := Function.accepts_of_isValid hvalid
  obtain ⟨ts, hroots, hstored, hchecked, hsub⟩ := haccepts.exists_trees
  have hdescribes := Flow.Graph.describes_of_ofFunction (f := f.trimmed)
    ⟨hroots.symm, hstored, hsub.nodup hnodup, hchecked⟩ (Flow.Graph.ofFunction_trimmed f ▸ hg)
  intro id hid
  have hmet : id ∈ met := hsub.subset (hdescribes.order_subset id hid)
  have hexists := haccepts.exist id hmet
  exact ⟨hexists, (f.mem_range_of_block? hexists).2, haccepts.dst_lt id hmet⟩

/-- **The renaming of a valid function converges.**  After some number of rounds comes one in which
no block passes on other names than before, so settling succeeds for every limit above that number,
always with the same names. -/
theorem exists_quiet_round (hvalid : f.isValid) :
    ∃ g, Graph.ofFunction f = .ok g ∧ ∃ n before names,
      (rounds f g n).runFrom (ofFunction f) = (.ok (), before)
        ∧ (round f g).runFrom before = (.ok false, names)
        ∧ (∀ b, (names.block b).out = (before.block b).out)
        ∧ ∀ limit > n, (settle f g limit).runFrom (ofFunction f) = (.ok (), names) := by
  obtain ⟨ts, hts⟩ := Function.exists_wellFormed_trimmed hvalid
  obtain ⟨g, hg⟩ := Flow.Graph.exists_ofFunction hts
  rw [Flow.Graph.ofFunction_trimmed] at hg
  obtain ⟨s, changed, hstart, hround, hout, hquiet⟩ :=
    exists_quiet (readable_of_mem_order hvalid hg)
  -- the first quiet round
  have hfirst := Nat.find_spec hquiet
  have hbefore (i : Nat) (hi : i < Nat.find hquiet) : changed (0 + i) = true := by
    rw [Nat.zero_add, ← Bool.not_eq_false]
    exact Nat.find_min hquiet hi
  refine ⟨g, hg, Nat.find hquiet, s (Nat.find hquiet), s (Nat.find hquiet + 1), ?_, ?_,
    hout _ hfirst, fun limit hlimit ↦ ?_⟩
  · rw [← hstart]
    exact rounds_eq hround _
  · exact (hround _).trans (by rw [hfirst])
  · have hsettle := settle_of_quiet hround hbefore (by rwa [Nat.zero_add]) hlimit
    rw [hstart, Nat.zero_add] at hsettle
    exact hsettle

/-- The first round of `leftMidway` makes its names. -/
theorem exists_quiet_round_leftMidway :
    leftMidway.isValid ∧ ∃ g, Graph.ofFunction leftMidway = .ok g
      ∧ g.order = [1, 2, 3, 7, 4, 8, 5] ∧ ∃ n before names,
        (rounds leftMidway g n).runFrom (ofFunction leftMidway) = (.ok (), before)
          ∧ (round leftMidway g).runFrom before = (.ok false, names)
          ∧ (∀ b, (names.block b).out = (before.block b).out)
          ∧ ∀ limit > n, (settle leftMidway g limit).runFrom (ofFunction leftMidway)
            = (.ok (), names) := by
  have hvalid : leftMidway.isValid := by decide
  obtain ⟨g, hg, hquiet⟩ := exists_quiet_round hvalid
  have horder : (Graph.ofFunction leftMidway).map Graph.order = .ok [1, 2, 3, 7, 4, 8, 5] := by
    rfl
  rw [hg] at horder
  exact ⟨hvalid, g, hg, Except.ok.inj horder, hquiet⟩

end Renaming

end WasmBackend.SingleAssignment
