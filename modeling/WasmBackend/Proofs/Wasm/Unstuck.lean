import WasmBackend.Proofs.Wasm.Residence
import WasmBackend.Proofs.Wasm.TreeCode

/-!
# Code generation does not get stuck

A value that is only on the stack has one use, in the block that defines it.  So when every
instruction takes its arguments as operands and leaves its results, and none reads what it or a
later instruction of its block defines, then every operand is found and nothing is left over at the
end of a block; and the branches of a valid function name constructs around them.  What remains are
failures in which the stack and the constructs around have no part.
-/

namespace WasmBackend.Wasm.Codegen

open Ir (Block BlockId BlockKind Copy Forest Function Instr Tree Var)

/-- Whether the instruction looks a variable up as an argument. -/
def IsRead (i : Instr) (v : Var) : Prop :=
  i.op ≠ .phi ∧ v ∈ i.args

/-- The first instruction reads nothing that the second one defines. -/
def Spares (i j : Instr) : Prop :=
  i.op ≠ .phi → ∀ v ∈ i.args, v ∉ j.dst

instance : DecidableRel Spares :=
  fun i j ↦ inferInstanceAs (Decidable (i.op ≠ .phi → ∀ v ∈ i.args, v ∉ j.dst))

/-- Every instruction takes its arguments and leaves its results, and what it reads is not defined
by itself or behind it. -/
structure Orderly (is : List Instr) : Prop where
  operands_eq : ∀ i ∈ is, i.op ≠ .phi → operands i = i.args
  results_eq : ∀ i ∈ is, results i = i.dst
  own : ∀ i ∈ is, Spares i i
  behind : is.Pairwise Spares

instance : DecidablePred Orderly := fun is ↦
  decidable_of_iff
    ((∀ i ∈ is, i.op ≠ .phi → operands i = i.args) ∧ (∀ i ∈ is, results i = i.dst)
      ∧ (∀ i ∈ is, Spares i i) ∧ is.Pairwise Spares)
    ⟨fun ⟨hargs, hdst, hown, hbehind⟩ ↦ ⟨hargs, hdst, hown, hbehind⟩,
      fun h ↦ ⟨h.operands_eq, h.results_eq, h.own, h.behind⟩⟩

/-- An intrinsic that promises a result and never comes back leaves none. -/
example : ¬Orderly [{ op := .native, callee := "unreachable", dst := [0] }] := by decide

/-- What lies on the stack of a block is what was defined, is not settled and was not read yet. -/
structure Tracks (c : CodeContext) (id : BlockId) (defs reads : List Instr) (p : Placement) :
    Prop where
  nodup : p.stack.Nodup
  apart : ∀ v ∈ p.spilled, v ∉ p.stack
  unsettled : p.Unsettled c
  unread : ∀ v ∈ p.stack, ∀ i ∈ reads, ¬IsRead i v
  used : ∀ v ∈ p.stack, c.usage.uses.getD v 0 ≠ 0
  /-- What was moved from the stack in this block was defined in it. -/
  defined : ∀ v ∈ p.stack ++ p.spilled, c.usage.home[v]? = some id → ∃ i ∈ defs, v ∈ i.dst
  home : ∀ v ∈ p.stack, c.usage.home[v]? = some id
  found : ∀ i ∈ defs, ∀ v ∈ i.dst, ¬IsSettled c v → c.usage.uses.getD v 0 ≠ 0 →
    (∀ j ∈ reads, ¬IsRead j v) → v ∈ p.stack ++ p.spilled

section

variable {c : CodeContext} {e : CodeState} {ts : Forest} {id : BlockId} {p q : Placement}
  {defs reads done rest : List Instr} {i : Instr} {code : List Instruction} {labels : List Label}
  {fault : CodeFault}

/-- Nothing of a block is there before it starts. -/
theorem tracks_nil {spilled : List Var} (h : ∀ v ∈ spilled, c.usage.home[v]? ≠ some id) :
    Tracks c id [] [] ⟨[], spilled⟩ where
  nodup := List.nodup_nil
  apart _ _ := List.not_mem_nil
  unsettled := unsettled_nil spilled
  unread v hv := by cases hv
  used v hv := by cases hv
  defined v hv hhome := absurd hhome (h v hv)
  home v hv := by cases hv
  found i hi := by cases hi

/-- What is pushed without being on the stack is settled or in a local that it was moved to. -/
theorem mem_of_loads {spilled args : List Var} {loads : List Instruction}
    (hloads : List.Forall₂ (Loads c e spilled) args loads) {v : Var} (hv : v ∈ args)
    (hsettled : ¬IsSettled c v) : v ∈ spilled := by
  induction hloads with
  | nil => cases hv
  | cons hx _ ih =>
    rcases List.mem_cons.1 hv with rfl | hv
    · unfold Loads at hx
      split at hx
      · rename_i hreplay
        exact absurd (.inr (by simp [hreplay])) hsettled
      · exact hx.1.resolve_left fun hkept ↦ hsettled (.inl hkept)
    · exact ih hv

/-- A value that is read comes off the stack, or into a local. -/
theorem Tracks.schedule (h : Tracks c id defs reads p) (hop : i.op ≠ .phi)
    (hs : Schedules c e i.args p code q) : Tracks c id defs (reads ++ [i]) q := by
  generalize hargs : i.args = args at hs
  cases hs with
  | intro high used loaded rest spilled sets loads hlowest hsets hloads =>
    have hrest {v : Var} (hv : v ∈ rest) : v ∈ high ++ (used.reverse ++ rest) := by simp [hv]
    obtain ⟨-, hnodup, hhigh⟩ := List.nodup_append.1 h.nodup
    obtain ⟨-, hnodup, hused⟩ := List.nodup_append.1 hnodup
    have hapart : ∀ v ∈ high.reverse ++ spilled, v ∉ rest := by
      intro v hv hv'
      rcases List.mem_append.1 hv with hv | hv
      · exact hhigh v (List.mem_reverse.1 hv) v (List.mem_append_right _ hv') rfl
      · exact h.apart v hv (hrest hv')
    constructor
    case nodup => exact hnodup
    case apart => exact hapart
    case unsettled => exact fun v hv ↦ h.unsettled v (hrest hv)
    case unread =>
      intro v hv j hj hread
      rcases List.mem_append.1 hj with hj | hj
      · exact h.unread v (hrest hv) j hj hread
      obtain rfl := List.mem_singleton.1 hj
      rcases List.mem_append.1 (hargs ▸ hread.2 : v ∈ used ++ loaded) with hv' | hv'
      · exact hused v (List.mem_reverse.2 hv') v hv rfl
      · exact hapart v (mem_of_loads hloads hv' (h.unsettled v (hrest hv))) hv
    case used => exact fun v hv ↦ h.used v (hrest hv)
    case defined =>
      intro v hv
      refine h.defined v ?_
      simp only [List.mem_append, List.mem_reverse] at hv ⊢
      tauto
    case home => exact fun v hv ↦ h.home v (hrest hv)
    case found =>
      intro j hj v hv hsettled huses hunread
      have hmem := h.found j hj v hv hsettled huses fun k hk ↦
        hunread k (List.mem_append_left _ hk)
      have hnot : v ∉ used := fun hv' ↦
        hunread i (by simp) ⟨hop, hargs ▸ List.mem_append_left _ hv'⟩
      simp only [List.mem_append, List.mem_reverse] at hmem ⊢
      tauto

/-- An instruction that reads nothing takes nothing off the stack. -/
theorem Tracks.readNothing (h : Tracks c id defs reads p) (hi : ∀ v, ¬IsRead i v) :
    Tracks c id defs (reads ++ [i]) p := by
  refine { h with unread := fun v hv j hj ↦ ?_, found := fun j hj v hv hnot huses hunread ↦ ?_ }
  · rcases List.mem_append.1 hj with hj | hj
    · exact h.unread v hv j hj
    · exact List.mem_singleton.1 hj ▸ hi v
  · exact h.found j hj v hv hnot huses fun k hk ↦ hunread k (List.mem_append_left _ hk)

/-- An instruction whose results are settled, or not used, leaves nothing on the stack. -/
theorem Tracks.defineSettled (h : Tracks c id defs reads p)
    (hi : ∀ v ∈ i.dst, ¬IsSettled c v → c.usage.uses.getD v 0 = 0) :
    Tracks c id (defs ++ [i]) reads p := by
  refine { h with defined := fun v hv hhome ↦ ?_, found := fun j hj v hv hnot huses hunread ↦ ?_ }
  · obtain ⟨j, hj, hv⟩ := h.defined v hv hhome
    exact ⟨j, List.mem_append_left _ hj, hv⟩
  · rcases List.mem_append.1 hj with hj | hj
    · exact h.found j hj v hv hnot huses hunread
    · obtain rfl := List.mem_singleton.1 hj
      exact absurd (hi v hv hnot) huses

/-- A result goes onto the stack when it is not settled. -/
theorem Tracks.define (h : Tracks c id defs reads p) (hprepared : Prepared c ts)
    (hid : id ∈ Forest.ids ts) (hi : i ∈ (c.function.blockAt id).instrs)
    (hrepeat : i.isReproducible = false) (hnew : ∀ v ∈ i.dst, ∀ j ∈ defs, v ∉ j.dst)
    (hunread : ∀ v ∈ i.dst, ∀ j ∈ reads, ¬IsRead j v)
    (hd : Defines c e i.dst p code q) : Tracks c id (defs ++ [i]) reads q := by
  generalize hdst : i.dst = dst at hd
  cases hd with
  | nothing => exact h.defineSettled (by simp [hdst])
  | unused v _ huses =>
    refine h.defineSettled fun w hw _ ↦ ?_
    rw [hdst, List.mem_singleton] at hw
    rw [hw, huses]
  | kept v x _ _ hkept => exact h.defineSettled (by simp [hdst, IsSettled, hkept])
  | pushed v stack spilled huses hkept =>
    have hv : v ∈ i.dst := by simp [hdst]
    have hhome := hprepared.home_eq hid hi hv
    have hfresh : v ∉ stack ++ spilled := by
      intro hmem
      obtain ⟨j, hj, hvj⟩ := h.defined v hmem hhome
      exact hnew v hv j hj hvj
    rw [List.mem_append, not_or] at hfresh
    have hsettled : ¬IsSettled c v := by
      have hreplay := hprepared.replay?_of_define hid hi hv
      rw [hrepeat, if_neg Bool.false_ne_true] at hreplay
      simp [IsSettled, hkept, hreplay]
    constructor
    case nodup => exact List.nodup_cons.2 ⟨hfresh.1, h.nodup⟩
    case apart =>
      intro w hw hw'
      rcases List.mem_cons.1 hw' with rfl | hw'
      · exact hfresh.2 hw
      · exact h.apart w hw hw'
    case unsettled => exact List.forall_mem_cons.2 ⟨hsettled, h.unsettled⟩
    case unread => exact List.forall_mem_cons.2 ⟨hunread v hv, h.unread⟩
    case used => exact List.forall_mem_cons.2 ⟨huses, h.used⟩
    case defined =>
      intro w hw hhome'
      rcases List.mem_cons.1 hw with rfl | hw
      · exact ⟨i, by simp, hv⟩
      · obtain ⟨j, hj, hwj⟩ := h.defined w hw hhome'
        exact ⟨j, List.mem_append_left _ hj, hwj⟩
    case home => exact List.forall_mem_cons.2 ⟨hhome, h.home⟩
    case found =>
      intro j hj w hw hsettled' huses' hread
      rcases List.mem_append.1 hj with hj | hj
      · exact List.mem_cons_of_mem v (h.found j hj w hw hsettled' huses' hread)
      · obtain rfl := List.mem_singleton.1 hj
        rw [hdst, List.mem_singleton] at hw
        exact hw ▸ List.mem_cons_self

/-- What has no code where it stands reads nothing, and its results are settled. -/
theorem Tracks.silent (h : Tracks c id defs reads p) (hprepared : Prepared c ts)
    (hid : id ∈ Forest.ids ts) (hi : i ∈ (c.function.blockAt id).instrs) (hsilent : isSilent i)
    (hargs : i.op ≠ .phi → operands i = i.args) :
    Tracks c id (defs ++ [i]) (reads ++ [i]) p := by
  refine (h.readNothing fun v hread ↦ ?_).defineSettled fun v hv hnot ↦ absurd ?_ hnot
  · have hnone : operands i = [] := by
      unfold isSilent at hsilent
      unfold operands
      split at hsilent <;> simp_all
    have hv := hread.2
    rw [← hargs hread.1, hnone] at hv
    cases hv
  · by_cases hop : i.op = .phi
    · exact .inl (hprepared.merge hid hi hop hv)
    · have hrepeat : i.isReproducible := by
        unfold isSilent at hsilent
        unfold Instr.isReproducible
        split at hsilent <;> simp_all
      exact .inr (by rw [hprepared.replay?_of_define hid hi hv, if_pos hrepeat]; rfl)

/-- What an instruction reads is not defined later. -/
theorem Orderly.ahead {is : List Instr} {j k : Instr} {v : Var} (h : Orderly is)
    (his : is = done ++ rest) (hj : j ∈ done) (hk : k ∈ rest) (hread : IsRead j v) : v ∉ k.dst := by
  have hbehind := h.behind
  rw [his, List.pairwise_append] at hbehind
  exact hbehind.2.2 j hj k hk hread.1 v hread.2

/-- An instruction defines what none before it does. -/
theorem Prepared.new (h : Prepared c ts) (hid : id ∈ Forest.ids ts)
    (hinstrs : (c.function.blockAt id).instrs = done ++ i :: rest) {j : Instr} {v : Var}
    (hv : v ∈ i.dst) (hj : j ∈ done) : v ∉ j.dst := by
  intro hvj
  have hnodup := h.nodup_dst hid
  rw [hinstrs, List.flatMap_append, List.nodup_append] at hnodup
  exact hnodup.2.2 v (List.mem_flatMap.2 ⟨j, hj, hvj⟩) v
    (List.mem_flatMap.2 ⟨i, List.mem_cons_self, hv⟩) rfl

/-- **One more instruction keeps track** of what lies on the stack. -/
theorem Tracks.step (h : Tracks c id done done p) (hprepared : Prepared c ts)
    (hid : id ∈ Forest.ids ts) (horderly : Orderly (c.function.blockAt id).instrs)
    (hinstrs : (c.function.blockAt id).instrs = done ++ i :: rest)
    (he : Emits c e labels i p code q) : Tracks c id (done ++ [i]) (done ++ [i]) q := by
  have hi : i ∈ (c.function.blockAt id).instrs := by simp [hinstrs]
  have hargs := horderly.operands_eq i hi
  have hdst := horderly.results_eq i hi
  have hcopies : i.copies ∈ (c.function.blockAt id).copyGroups := copies_mem_copyGroups hi
  have hnone (hresults : results i = []) (v : Var) (hv : v ∈ i.dst) (_ : ¬IsSettled c v) :
      c.usage.uses.getD v 0 = 0 := by
    rw [← hdst, hresults] at hv
    cases hv
  cases he with
  | silent hsilent => exact h.silent hprepared hid hi hsilent hargs
  | operation hoperands hcore hresults =>
    have hop : i.op ≠ .phi := by
      intro hop
      simp [Computes, hop] at hcore
    rw [hargs hop] at hoperands
    rw [hdst] at hresults
    refine (h.schedule hop hoperands).define hprepared hid hi (isReproducible_of_computes hcore)
      ?_ ?_ hresults
    · exact fun v hv j hj ↦ hprepared.new hid hinstrs hv hj
    · intro v hv j hj hread
      rcases List.mem_append.1 hj with hj | hj
      · exact horderly.ahead hinstrs hj List.mem_cons_self hread hv
      · obtain rfl := List.mem_singleton.1 hj
        exact horderly.own j hi hread.1 v hread.2 hv
  | jump hop hc =>
    obtain rfl := hprepared.copies_eq hid hcopies hc h.unsettled
    refine (h.readNothing fun v hread ↦ ?_).defineSettled (hnone ?_)
    · have hv := hread.2
      rw [← hargs hread.1] at hv
      rcases hop with hop | hop <;> simp [operands, hop] at hv
    · rcases hop with hop | hop <;> simp [results, hop]
  | test hop _ hoperands =>
    exact (h.schedule (by simp [hop]) hoperands).defineSettled (hnone (by simp [results, hop]))
  | testCopies hop _ hoperands hc =>
    have hq := h.schedule (by simp [hop]) hoperands
    obtain rfl := hprepared.copies_eq hid hcopies hc hq.unsettled
    exact hq.defineSettled (hnone (by simp [results, hop]))

/-- The instructions of a block keep track one by one. -/
theorem Tracks.steps (hprepared : Prepared c ts) (hid : id ∈ Forest.ids ts)
    (horderly : Orderly (c.function.blockAt id).instrs) {is : List Instr}
    (hinstrs : (c.function.blockAt id).instrs = done ++ (is ++ rest))
    (h : Tracks c id done done p) (he : EmitsAll c e labels is p code q) :
    Tracks c id (done ++ is) (done ++ is) q := by
  induction he generalizing done with
  | nil => rwa [List.append_nil]
  | cons hhead _ ih =>
    have hstep := h.step hprepared hid horderly (by simpa using hinstrs) hhead
    rw [← List.singleton_append, ← List.append_assoc]
    exact ih (by simpa using hinstrs) hstep

/-! ## Nothing is stuck -/

theorem IsSettled.isAvailable {v : Var} (h : IsSettled c v) (spilled : List Var) :
    IsAvailable c spilled v :=
  h.elim (fun hkept ↦ .inr (.inl hkept)) .inl

/-- What is settled is found. -/
theorem not_stuck_of_settled {args : List Var} (h : ∀ v ∈ args, IsSettled c v) :
    ¬Stuck c args p fault := by
  rintro ⟨v, hv, -, -, hnot⟩
  exact hnot ((h v hv).isAvailable _)

theorem Prepared.not_stuck_copies (h : Prepared c ts) (hid : id ∈ Forest.ids ts) {cs : List Copy}
    (hcs : cs ∈ (c.function.blockAt id).copyGroups) : ¬Stuck c (cs.map Copy.src) p fault := by
  refine not_stuck_of_settled fun v hv ↦ ?_
  obtain ⟨copy, hcopy, rfl⟩ := List.mem_map.1 hv
  exact (h.source hid hcs hcopy).1

/-- The operands of an instruction are found. -/
theorem Tracks.not_stuck (h : Tracks c id done done p) (hprepared : Prepared c ts)
    (hid : id ∈ Forest.ids ts) (horderly : Orderly (c.function.blockAt id).instrs)
    (hinstrs : (c.function.blockAt id).instrs = done ++ i :: rest) :
    ¬Stuck c (operands i) p fault := by
  have hi : i ∈ (c.function.blockAt id).instrs := by simp [hinstrs]
  rintro ⟨v, hv, -, hstack, hnot⟩
  have hop : i.op ≠ .phi := by
    intro hop
    simp [operands, hop] at hv
  have hread : IsRead i v := ⟨hop, horderly.operands_eq i hi hop ▸ hv⟩
  have hsettled : ¬IsSettled c v := fun hsettled ↦ hnot (hsettled.isAvailable _)
  obtain ⟨hhome, huses⟩ := hprepared.argument hid hi hop hread.2
  obtain ⟨j, hj, hvj⟩ := hprepared.define_of_home hid (hhome.resolve_left hsettled)
  -- the definition stands before the use, and there is no other use
  have hdone : j ∈ done := by
    rw [hinstrs] at hj
    rcases List.mem_append.1 hj with hj | hj
    · exact hj
    · rcases List.mem_cons.1 hj with rfl | hj
      · exact absurd hvj (horderly.own j hi hread.1 v hread.2)
      · have hsplit : (c.function.blockAt id).instrs = (done ++ [i]) ++ rest := by simp [hinstrs]
        exact absurd hvj (horderly.ahead hsplit (by simp) hj hread)
  have hunread : ∀ k ∈ done, ¬IsRead k v := by
    intro k hk hread'
    obtain ⟨before, between, rfl⟩ := List.append_of_mem hk
    exact hsettled (hprepared.isSettled_of_reads hid (by simpa using hinstrs) hread' hread)
  rcases List.mem_append.1 (h.found j hdone v hvj hsettled huses hunread) with hmem | hmem
  · exact hstack hmem
  · exact hnot (.inr (.inr hmem))

/-- Nothing is left over when all instructions of a block are behind. -/
theorem Tracks.stack_eq_nil (hprepared : Prepared c ts)
    (h : Tracks c id defs (c.function.blockAt id).instrs p) : p.stack = [] := by
  refine List.eq_nil_iff_forall_not_mem.2 fun v hv ↦ ?_
  obtain ⟨id', -, hhome, i, hi, hread⟩ := hprepared.reader (h.used v hv) (h.unsettled v hv)
  obtain rfl : id = id' := Option.some.inj ((h.home v hv).symm.trans hhome)
  exact h.unread v hv i hi hread

/-! ## Branches -/

/-- The constructs that branches can name inside some blocks. -/
def labelsOf : List (BlockId × BlockKind) → List Label
  | [] => []
  | (id, .loop) :: scope => ⟨id, true⟩ :: ⟨id, false⟩ :: labelsOf scope
  | (id, .breakable) :: scope => ⟨id, false⟩ :: labelsOf scope
  | _ :: scope => {} :: labelsOf scope

theorem mem_labelsOf {scope : List (BlockId × BlockKind)} {id : BlockId} {kind : BlockKind}
    (h : (id, kind) ∈ scope) (hkind : kind = .loop ∨ kind = .breakable) :
    ⟨id, false⟩ ∈ labelsOf scope ∧ (kind = .loop → ⟨id, true⟩ ∈ labelsOf scope) := by
  induction scope with
  | nil => cases h
  | cons s scope ih =>
    rcases List.mem_cons.1 h with rfl | h
    · rcases hkind with rfl | rfl <;> simp [labelsOf]
    · obtain ⟨hbehind, hhead⟩ := ih h
      unfold labelsOf
      split <;> simp_all

/-- A branch that nothing is wrong with names a construct around it. -/
theorem labelOf_mem_labelsOf (id : BlockId) {scope : List (BlockId × BlockKind)}
    (h : Function.branchViolations id scope i = []) : labelOf i ∈ labelsOf scope := by
  unfold Function.branchViolations at h
  split at h
  · cases h
  · rename_i target kind hfind
    have hmem := List.mem_of_find?_eq_some hfind
    have htarget : target = i.target := by simpa using List.find?_some hfind
    rw [List.append_eq_nil_iff] at h
    have hkind : kind = .loop ∨ kind = .breakable := by
      by_contra hnot
      rw [not_or] at hnot
      simp [hnot] at h
    obtain ⟨hbehind, hhead⟩ := mem_labelsOf hmem hkind
    rw [htarget] at hbehind hhead
    unfold labelOf
    by_cases hop : i.op = .next
    · have hloop : kind = .loop := by
        by_contra hnot
        simp [hop, hnot] at h
      simpa [hop] using hhead hloop
    · simpa [hop] using hbehind


/-! ## Blocks -/

/-- What is moved from the stack belongs to these blocks, apart from what was moved before. -/
def SpillsOwn (c : CodeContext) (ids : List BlockId) (before behind : List Var) : Prop :=
  ∀ v ∈ behind, v ∈ before ∨ ∃ id ∈ ids, c.usage.home[v]? = some id

/-- These blocks of the function are to come, each once: they are orderly, and nothing that is at
home in them was moved. -/
structure Awaits (c : CodeContext) (ts : Forest) (ids : List BlockId) (before : List Var) :
    Prop where
  subset : ids ⊆ Forest.ids ts
  nodup : ids.Nodup
  orderly : ∀ id ∈ ids, Orderly (c.function.blockAt id).instrs
  foreign : ∀ v ∈ before, ∀ id ∈ ids, c.usage.home[v]? ≠ some id

section

variable {before behind : List Var} {ids ids' : List BlockId}

theorem SpillsOwn.refl (ids : List BlockId) (spilled : List Var) :
    SpillsOwn c ids spilled spilled :=
  fun _ ↦ .inl

theorem SpillsOwn.trans {between : List Var} (h : SpillsOwn c ids before between)
    (h' : SpillsOwn c ids' between behind) : SpillsOwn c (ids ++ ids') before behind := by
  intro v hv
  rcases h' v hv with hv | ⟨id, hid, hhome⟩
  · rcases h v hv with hv | ⟨id, hid, hhome⟩
    · exact .inl hv
    · exact .inr ⟨id, List.mem_append_left _ hid, hhome⟩
  · exact .inr ⟨id, List.mem_append_right _ hid, hhome⟩

theorem SpillsOwn.cons (h : SpillsOwn c ids before behind) (id : BlockId) :
    SpillsOwn c (id :: ids) before behind :=
  fun v hv ↦ (h v hv).imp_right fun ⟨id', hid, hhome⟩ ↦ ⟨id', List.mem_cons_of_mem id hid, hhome⟩

theorem Awaits.tail (h : Awaits c ts (id :: ids) before) : Awaits c ts ids before where
  subset := List.subset_of_cons_subset h.subset
  nodup := (List.nodup_cons.1 h.nodup).2
  orderly id' hid := h.orderly id' (List.mem_cons_of_mem id hid)
  foreign v hv id' hid := h.foreign v hv id' (List.mem_cons_of_mem id hid)

theorem Awaits.left (h : Awaits c ts (ids ++ ids') before) : Awaits c ts ids before where
  subset := (List.append_subset.1 h.subset).1
  nodup := (List.nodup_append.1 h.nodup).1
  orderly id hid := h.orderly id (List.mem_append_left _ hid)
  foreign v hv id hid := h.foreign v hv id (List.mem_append_left _ hid)

/-- What the first blocks move is not at home in those behind them. -/
theorem Awaits.right (h : Awaits c ts (ids ++ ids') before) (hown : SpillsOwn c ids before behind) :
    Awaits c ts ids' behind where
  subset := (List.append_subset.1 h.subset).2
  nodup := (List.nodup_append.1 h.nodup).2.1
  orderly id hid := h.orderly id (List.mem_append_right _ hid)
  foreign v hv id hid hhome := by
    rcases hown v hv with hv | ⟨id', hid', hhome'⟩
    · exact h.foreign v hv id (List.mem_append_right _ hid) hhome
    · obtain rfl : id = id' := Option.some.inj (hhome.symm.trans hhome')
      exact (List.nodup_append.1 h.nodup).2.2 id hid' id hid rfl

theorem Awaits.mem (h : Awaits c ts (id :: ids) before) : id ∈ Forest.ids ts :=
  h.subset List.mem_cons_self

/-- Before a block nothing of it is there. -/
theorem Awaits.tracks (h : Awaits c ts (id :: ids) before) : Tracks c id [] [] ⟨[], before⟩ :=
  tracks_nil fun v hv ↦ h.foreign v hv id List.mem_cons_self

end

/-- What is moved into locals was on the stack. -/
theorem Schedules.spills {args : List Var} (h : Schedules c e args p code q) :
    ∀ v ∈ q.spilled, v ∈ p.stack ∨ v ∈ p.spilled := by
  cases h with
  | intro high used loaded rest spilled sets loads hlowest hsets hloads =>
    intro v hv
    rcases List.mem_append.1 hv with hv | hv
    · exact .inl (List.mem_append_left _ (List.mem_reverse.1 hv))
    · exact .inr hv

theorem Defines.spilled_eq {vs : List Var} (h : Defines c e vs p code q) :
    q.spilled = p.spilled := by
  cases h <;> rfl

/-- Copies of what is settled move nothing, and other steps what was on the stack. -/
theorem Emits.spills (hprepared : Prepared c ts) (hid : id ∈ Forest.ids ts)
    (hi : i ∈ (c.function.blockAt id).instrs) (hp : p.Unsettled c)
    (he : Emits c e labels i p code q) : ∀ v ∈ q.spilled, v ∈ p.stack ∨ v ∈ p.spilled := by
  have hcopies := copies_mem_copyGroups hi
  cases he with
  | silent => exact fun v hv ↦ .inr hv
  | operation hoperands _ hresults =>
    rw [hresults.spilled_eq]
    exact hoperands.spills
  | jump _ hc =>
    obtain rfl := hprepared.copies_eq hid hcopies hc hp
    exact fun v hv ↦ .inr hv
  | test _ _ hoperands => exact hoperands.spills
  | testCopies _ _ hoperands hc =>
    obtain rfl := hprepared.copies_eq hid hcopies hc (hoperands.unsettled hp)
    exact hoperands.spills

/-- What the instructions of a block move into locals is at home there. -/
theorem Tracks.spills (hprepared : Prepared c ts) (hid : id ∈ Forest.ids ts)
    (horderly : Orderly (c.function.blockAt id).instrs) {is : List Instr}
    (hinstrs : (c.function.blockAt id).instrs = done ++ (is ++ rest))
    (h : Tracks c id done done p) (he : EmitsAll c e labels is p code q) :
    SpillsOwn c [id] p.spilled q.spilled := by
  induction he generalizing done with
  | nil => exact fun v hv ↦ .inl hv
  | @cons i is p q r code more hhead _ ih =>
    have hi : i ∈ (c.function.blockAt id).instrs := by simp [hinstrs]
    have hstep := h.step hprepared hid horderly (by simpa using hinstrs) hhead
    intro v hv
    rcases ih (by simpa using hinstrs) hstep v hv with hv | hv
    · rcases hhead.spills hprepared hid hi h.unsettled v hv with hv | hv
      · exact .inr ⟨id, List.mem_cons_self, h.home v hv⟩
      · exact .inl hv
    · exact .inr hv

theorem EmitsBasic.spills (hprepared : Prepared c ts) {before behind : List Var}
    (h : Awaits c ts [id] before)
    (he : EmitsBasic c e labels (c.function.blockAt id) before code behind) :
    SpillsOwn c [id] before behind := by
  have horderly := h.orderly id List.mem_cons_self
  have hall : (c.function.blockAt id).instrs = [] ++ ((c.function.blockAt id).instrs ++ []) := by
    simp
  obtain ⟨body, r, hbody, hends⟩ := he
  have hspills := h.tracks.spills hprepared h.mem horderly hall hbody
  have hr := h.tracks.steps hprepared h.mem horderly hall hbody
  split at hends
  · obtain ⟨-, rfl⟩ := hends
    exact hspills
  · obtain ⟨exits, hexits, -⟩ := hends
    obtain rfl := hprepared.copies_eq h.mem (by simp [Block.copyGroups]) hexits hr.unsettled
    exact hspills

/-- Nothing is wrong with a basic block. -/
theorem not_failsBasic (hprepared : Prepared c ts) {before : List Var}
    (h : Awaits c ts [id] before) {scope : List (BlockId × BlockKind)}
    (hchecked : (c.function.blockAt id).instrs.flatMap (c.function.instrViolations id scope) = []) :
    ¬FailsBasic c (labelsOf scope) id (c.function.blockAt id) before fault := by
  have hid := h.mem
  have horderly := h.orderly id List.mem_cons_self
  rintro (⟨done, i, rest, e, code, q, hinstrs, hdone, hfails⟩ | ⟨q, hstuck⟩
    | ⟨e, body, r, exits, q, -, hbody, hexits, hleft, -⟩)
  · have hi : i ∈ (c.function.blockAt id).instrs := by simp [hinstrs]
    have hq : Tracks c id done done q := by
      simpa using h.tracks.steps hprepared hid horderly (by simpa using hinstrs) hdone
    rcases hfails with hstuck | ⟨q, hstuck⟩ | ⟨hbranch, -, hscope⟩
    · exact hq.not_stuck hprepared hid horderly hinstrs hstuck
    · exact hprepared.not_stuck_copies hid (copies_mem_copyGroups hi) hstuck
    · refine hscope (labelOf_mem_labelsOf id ?_)
      have hnone := List.flatMap_eq_nil_iff.1 hchecked i hi
      simp only [Function.instrViolations, List.append_eq_nil_iff] at hnone
      rw [if_pos hbranch] at hnone
      exact hnone.2
  · exact hprepared.not_stuck_copies hid (by simp [Block.copyGroups]) hstuck
  · have hall : (c.function.blockAt id).instrs = [] ++ ((c.function.blockAt id).instrs ++ []) := by
      simp
    have hr := h.tracks.steps hprepared hid horderly hall hbody
    rw [List.nil_append] at hr
    have hsame := hprepared.copies_eq hid (by simp [Block.copyGroups]) hexits hr.unsettled
    exact hleft (hsame ▸ hr.stack_eq_nil hprepared)

/-- What blocks move into locals is at home in them. -/
theorem spills_blocks (hprepared : Prepared c ts) :
    (∀ t : Tree, ∀ labels before code behind, Awaits c ts t.ids before →
        TreeEmits c e labels t before code behind → SpillsOwn c t.ids before behind) ∧
      ∀ us : Forest, ∀ labels before code behind, Awaits c ts (Forest.ids us) before →
        ForestEmits c e labels us before code behind →
          SpillsOwn c (Forest.ids us) before behind := by
  refine Tree.induction ?basic ?cond ?branch ?loop ?breakable ?nil ?cons
  case basic =>
    intro id labels before code behind h he
    exact EmitsBasic.spills hprepared h he
  case cond =>
    rintro id body ih labels before code behind h ⟨test, inner, -, hinner, -⟩
    exact (ih _ _ _ _ h.tail hinner).cons id
  case branch =>
    rintro id body other ih ih' labels before code behind h
      ⟨test, inner, inner', between, -, hinner, hinner', -⟩
    have hbody := ih _ _ _ _ h.tail.left hinner
    exact (hbody.trans (ih' _ _ _ _ (h.tail.right hbody) hinner')).cons id
  case loop =>
    rintro id body ih labels before code behind h ⟨entry, inner, -, hinner, -⟩
    exact (ih _ _ _ _ h.tail hinner).cons id
  case breakable =>
    rintro id body ih labels before code behind h ⟨inner, hinner, -⟩
    exact (ih _ _ _ _ h.tail hinner).cons id
  case nil =>
    rintro labels before code behind - ⟨-, rfl⟩
    exact .refl _ _
  case cons =>
    rintro t us ih ihs labels before code behind h ⟨head, tail, between, hhead, htail, -⟩
    have hfirst := ih _ _ _ _ h.left hhead
    exact hfirst.trans (ihs _ _ _ _ (h.right hfirst) htail)

/-- **Nothing is wrong with any block.** -/
theorem not_fails_blocks (hprepared : Prepared c ts) :
    (∀ t : Tree, ∀ scope before, Awaits c ts t.ids before → t.Stored c.function →
        t.Checked c.function scope → ¬TreeFails c (labelsOf scope) t before fault) ∧
      ∀ us : Forest, ∀ scope before, Awaits c ts (Forest.ids us) before →
        Forest.Stored c.function us → Forest.Checked c.function scope us →
          ¬ForestFails c (labelsOf scope) us before fault := by
  have hcond {id : BlockId} (hid : id ∈ Forest.ids ts)
      (hkind : (c.function.blockAt id).kind = .cond ∨ (c.function.blockAt id).kind = .branch)
      (q : Placement) : ¬Stuck c [(c.function.blockAt id).cond] q fault :=
    not_stuck_of_settled fun v hv ↦ List.mem_singleton.1 hv ▸ (hprepared.cond hid hkind).1
  refine Tree.induction ?basic ?cond ?branch ?loop ?breakable ?nil ?cons
  case basic =>
    intro id scope before h _ hchecked
    exact not_failsBasic hprepared h hchecked.1
  case cond =>
    rintro id body ih scope before h hstored hchecked (⟨q, hstuck⟩ | hbody | ⟨q, hstuck⟩)
    · exact hcond h.mem (.inl hstored.1.kind_eq) q hstuck
    · exact ih ((id, .cond) :: scope) before h.tail hstored.2 hchecked.2.2 hbody
    · exact hprepared.not_stuck_copies h.mem (by simp [Block.copyGroups]) hstuck
  case branch =>
    rintro id body other ih ih' scope before h hstored hchecked
      (⟨q, hstuck⟩ | hbody | ⟨e, inner, between, hinner, hother⟩)
    · exact hcond h.mem (.inr hstored.1.kind_eq) q hstuck
    · exact ih ((id, .branch) :: scope) before h.tail.left hstored.2.1 hchecked.2.2.1 hbody
    · have hown := (spills_blocks hprepared).2 body _ _ _ _ h.tail.left hinner
      exact ih' ((id, .branch) :: scope) between (h.tail.right hown) hstored.2.2 hchecked.2.2.2
        hother
  case loop =>
    rintro id body ih scope before h hstored hchecked (⟨q, hstuck⟩ | hbody)
    · exact hprepared.not_stuck_copies h.mem (by simp [Block.copyGroups]) hstuck
    · exact ih ((id, .loop) :: scope) before h.tail hstored.2 hchecked.2 hbody
  case breakable =>
    rintro id body ih scope before h hstored hchecked hbody
    exact ih ((id, .breakable) :: scope) before h.tail hstored.2 hchecked.2 hbody
  case nil =>
    rintro scope before - - - hfails
    exact hfails
  case cons =>
    rintro t us ih ihs scope before h hstored hchecked (hfails | ⟨e, code, between, hhead, hfails⟩)
    · exact ih scope before h.left hstored.1 hchecked.1 hfails
    · have hown := (spills_blocks hprepared).1 t _ _ _ _ h.left hhead
      exact ihs scope between (h.right hown) hstored.2 hchecked.2 hfails

end

/-! ## The body -/

/-- **Code generation does not get stuck**: for a valid function whose instructions are orderly it
fails only for reasons that the stack and the constructs around have no part in. -/
theorem meets_body_of_orderly {c : CodeContext} {ts : Forest} (hprepared : Prepared c ts)
    (hvalid : c.function.isValid) (hlabels : c.labels = [])
    (horderly : ∀ id ∈ Forest.ids ts, Orderly (c.function.blockAt id).instrs)
    (types : List FuncType) :
    Stage.Meets (body.run c) { types := types } CodeFault.IsOther fun _ _ ↦ True := by
  have hformed := Function.wellFormed_of_isValid hprepared.laidOut.trees_eq hvalid
  refine (meets_codeOf types hprepared.laidOut.trees_eq).mono ?_ fun _ _ _ ↦ trivial
  rintro fault (hother | hfails)
  · exact hother
  · have hawaits : Awaits c ts (Forest.ids ts) [] :=
      ⟨List.Subset.refl _, hformed.nodup, horderly, fun _ h ↦ absurd h List.not_mem_nil⟩
    rw [hlabels] at hfails
    exact absurd hfails ((not_fails_blocks hprepared).2 ts [] [] hawaits hformed.stored
      hformed.checked)

end WasmBackend.Wasm.Codegen
