import WasmBackend.Proofs.PreparedUnits
import WasmBackend.Proofs.Wasm.Scheduling

/-!
# Where values live

Looking through the blocks of a function leaves marks on its variables, in the order of the blocks:
a use, a definition, a read as an argument, or that the value has to live in a local.  The table of
a function is what its marks make, so every entry has a mark that it comes from.

For a function in single-assignment form this tells where values live.  What an edge assigns or
reads and what a condition tests is settled: it is in a local or can be computed again.  What is not
settled is read in the block that defines it only.
-/

namespace WasmBackend.Ir

/-- The function consists of these trees, which are in single-assignment form. -/
structure Function.AssignedOnce (f : Function) (ts : Forest) : Prop where
  laidOut : f.LaidOut ts
  assigned : SingleAssigned f.params.length ((Forest.ids ts).map f.blockAt)

end WasmBackend.Ir

namespace WasmBackend.DeadCode

/-- Conversion and pruning leave trees in single-assignment form. -/
theorem assignedOnce_of_prune {f f' p : Ir.Function} {g : Flow.Graph} {removed : Removed}
    (hf : f.isShaped) (hplain : f.isPlain) (hconvert : SingleAssignment.convert f = .ok (f', g))
    (hprune : prune f' (some g) = .ok (p, removed)) : ∃ ts, p.AssignedOnce ts := by
  obtain ⟨ts, r, birth, hconverted⟩ := SingleAssignment.converted_of_convert hf hconvert
  obtain ⟨p', removed', drop, hprune', hpruned⟩ := pruned_of_converted hconverted hplain
  obtain ⟨rfl, rfl⟩ : p' = p ∧ removed' = removed := by
    rw [hprune] at hprune'
    cases hprune'
    exact ⟨rfl, rfl⟩
  exact ⟨_, hpruned.sound.toLaidOut,
    (hpruned.assigned_of_converted hconverted hplain).singleAssigned hpruned.sound.toLaidOut⟩

end WasmBackend.DeadCode

namespace WasmBackend.Wasm

open Ir (Block BlockId Copy Forest Function Instr Var)

/-- A mark on a variable. -/
inductive Mark where
  | use (v : Var)
  | force (v : Var)
  | define (block : BlockId) (i : Instr) (v : Var)
  | read (block : BlockId) (v : Var)

namespace Mark

/-- The variable a mark is on. -/
def var : Mark → Var
  | use v | force v | define _ _ v | read _ v => v

/-- Whether a mark counts as a use. -/
def isUse : Mark → Bool
  | use _ | read _ _ => true
  | _ => false

/-- Whether a mark forces its variable into a local. -/
def isForce : Mark → Bool
  | force _ => true
  | define _ i _ => i.op = .phi
  | _ => false

/-- The marks of assignments that are made at once. -/
def ofCopies (cs : List Copy) : List Mark :=
  cs.flatMap fun c ↦ [force c.dst, force c.src, use c.src]

/-- The marks of an instruction. -/
def ofInstr (b : BlockId) (i : Instr) : List Mark :=
  i.dst.map (define b i) ++ (if i.op = .phi then [] else i.args.map (read b)) ++ ofCopies i.copies

/-- The marks of a block. -/
def ofBlock (id : BlockId) (b : Block) : List Mark :=
  (if b.kind = .cond ∨ b.kind = .branch then [use b.cond, force b.cond] else [])
    ++ ofCopies b.exitCopies ++ ofCopies b.aroundCopies ++ ofCopies b.entryCopies
    ++ b.instrs.flatMap (ofInstr id)

/-- The marks of some blocks. -/
def ofBlocks (blocks : List (BlockId × Block)) : List Mark :=
  blocks.flatMap fun p ↦ ofBlock p.1 p.2

end Mark

namespace Usage

/-- Record a mark. -/
def mark (u : Usage) : Mark → Usage
  | .use v => u.use v
  | .force v => u.force v
  | .define b i v =>
    let u := { u with home := u.home.set! v b }
    let u := if i.op = .phi then u.force v else u
    if i.isReproducible then { u with replayed := u.replayed.set! v (some i) } else u
  | .read b v => { u.use v with reads := (v, b) :: u.reads }

/-- Force the variables that are read outside the block that defines them. -/
def forceReads (u : Usage) : Usage :=
  u.reads.foldl (fun u (v, b) ↦ if u.home[v]? = some b then u else u.force v) u

/-! ## The table is what the marks make -/

/-- The step records marks on variables that exist, or fails. -/
def Records (u : Usage) (x : Except Failure Usage) (ms : List Mark) : Prop :=
  ∀ u', x = .ok u' → u' = ms.foldl mark u ∧ ∀ m ∈ ms, m.var < u.uses.size

section

variable {u : Usage} {ms ns : List Mark} {x : Except Failure Usage} {b : BlockId}

@[simp]
theorem size_mark (u : Usage) (m : Mark) : (u.mark m).uses.size = u.uses.size := by
  cases m with
  | define b i v =>
    unfold mark
    dsimp only
    split <;> split <;> rfl
  | _ => simp [mark, use, force]

@[simp]
theorem size_foldl_mark (u : Usage) (ms : List Mark) :
    (ms.foldl mark u).uses.size = u.uses.size := by
  induction ms generalizing u with
  | nil => rfl
  | cons m ms ih => rw [List.foldl_cons, ih, size_mark]

theorem records_pure (u : Usage) : Records u (pure u) [] := by
  rintro u' h
  cases h
  exact ⟨rfl, by simp⟩

theorem Records.bind {k : Usage → Except Failure Usage} (h : Records u x ms)
    (hk : ∀ u', Records u' (k u') ns) : Records u (x >>= k) (ms ++ ns) := by
  intro u' hu'
  cases x with
  | error e => cases hu'
  | ok w =>
    obtain ⟨rfl, hms⟩ := h w rfl
    obtain ⟨rfl, hns⟩ := hk _ u' hu'
    rw [size_foldl_mark] at hns
    exact ⟨(List.foldl_append ..).symm, List.forall_mem_append.2 ⟨hms, hns⟩⟩

/-- A mark on a variable that is looked up first. -/
theorem records_check {v : Var} {u' : Usage} (m : Mark) (hv : m.var = v) (hu : u' = u.mark m) :
    Records u (do u.check v; pure u') [m] := by
  intro w hw
  unfold check at hw
  split at hw
  · rename_i hlt
    cases hw
    exact ⟨hu, by simpa [hv] using hlt⟩
  · cases hw

theorem records_foldlM {α : Type} {step : Usage → α → Except Failure Usage}
    {marks : α → List Mark} (h : ∀ u a, Records u (step u a) (marks a)) (l : List α) :
    Records u (l.foldlM step u) (l.flatMap marks) := by
  induction l generalizing u with
  | nil => exact records_pure u
  | cons a l ih =>
    rw [List.foldlM_cons, List.flatMap_cons]
    exact (h u a).bind fun _ ↦ ih

theorem records_addCopies (u : Usage) (cs : List Copy) :
    Records u (u.addCopies cs) (Mark.ofCopies cs) := by
  refine records_foldlM (fun u c ↦ ?_) cs
  intro w hw
  unfold check at hw
  split at hw <;> rename_i hdst
  · split at hw <;> rename_i hsrc
    · cases hw
      exact ⟨rfl, by simpa [Mark.var] using ⟨hdst, hsrc⟩⟩
    · cases hw
  · cases hw

theorem records_addInstr (b : BlockId) (u : Usage) (i : Instr) :
    Records u (addInstr b u i) (Mark.ofInstr b i) := by
  have hdefine (u : Usage) (v : Var) : Records u (addDef b i u v) [.define b i v] :=
    records_check (.define b i v) rfl rfl
  have hread (u : Usage) (v : Var) : Records u (addRead b u v) [.read b v] :=
    records_check (.read b v) rfl rfl
  unfold addInstr Mark.ofInstr
  rw [List.append_assoc, List.map_eq_flatMap]
  refine (records_foldlM hdefine i.dst).bind fun u ↦ ?_
  dsimp only
  split
  · exact (records_pure u).bind fun u ↦ records_addCopies u i.copies
  · rw [List.map_eq_flatMap]
    exact (records_foldlM hread i.args).bind fun u ↦ records_addCopies u i.copies

theorem records_addBlock (u : Usage) (id : BlockId) (b : Block) :
    Records u (u.addBlock id b) (Mark.ofBlock id b) := by
  have hrest (u : Usage) : Records u (do
      let u ← u.addCopies b.exitCopies
      let u ← u.addCopies b.aroundCopies
      let u ← u.addCopies b.entryCopies
      b.instrs.foldlM (addInstr id) u)
      (Mark.ofCopies b.exitCopies ++ (Mark.ofCopies b.aroundCopies
        ++ (Mark.ofCopies b.entryCopies ++ b.instrs.flatMap (Mark.ofInstr id)))) :=
    (records_addCopies u b.exitCopies).bind fun u ↦
      (records_addCopies u b.aroundCopies).bind fun u ↦
        (records_addCopies u b.entryCopies).bind fun _ ↦ records_foldlM (records_addInstr id) _
  unfold addBlock Mark.ofBlock
  simp only [List.append_assoc]
  split
  · intro w hw
    unfold check at hw
    split at hw <;> rename_i hlt
    · obtain ⟨rfl, hms⟩ := hrest _ w hw
      exact ⟨rfl, by simpa [Mark.var, use, force, hlt] using hms⟩
    · cases hw
  · exact (records_pure u).bind hrest

end

/-! ## What the marks make -/

section

variable {u : Usage} {m : Mark} {ms : List Mark} {v : Var} {n : Nat} {b : BlockId} {i : Instr}

theorem uses_mark (u : Usage) (m : Mark) :
    (u.mark m).uses = if m.isUse then u.uses.modify m.var (· + 1) else u.uses := by
  cases m with
  | define b i v =>
    unfold mark
    dsimp only
    split <;> split <;> rfl
  | _ => rfl

theorem forced_mark (u : Usage) (m : Mark) :
    (u.mark m).forced = if m.isForce then u.forced.set! m.var true else u.forced := by
  cases m with
  | define b i v =>
    unfold mark Mark.isForce
    dsimp only
    split <;> split <;> simp_all [force, Mark.var]
  | _ => rfl

theorem home_mark (u : Usage) (m : Mark) :
    (u.mark m).home = match m with
      | .define b _ v => u.home.set! v b
      | _ => u.home := by
  cases m with
  | define b i v =>
    unfold mark
    dsimp only
    split <;> split <;> rfl
  | _ => rfl

theorem replayed_mark (u : Usage) (m : Mark) :
    (u.mark m).replayed = match m with
      | .define _ i v => if i.isReproducible then u.replayed.set! v (some i) else u.replayed
      | _ => u.replayed := by
  cases m with
  | define b i v =>
    unfold mark
    dsimp only
    split <;> split <;> rfl
  | _ => rfl

theorem reads_mark (u : Usage) (m : Mark) :
    (u.mark m).reads = match m with
      | .read b v => (v, b) :: u.reads
      | _ => u.reads := by
  cases m with
  | define b i v =>
    unfold mark
    dsimp only
    split <;> split <;> rfl
  | _ => rfl

/-- All tables are for `n` variables. -/
structure Sized (n : Nat) (u : Usage) : Prop where
  uses : u.uses.size = n
  forced : u.forced.size = n
  home : u.home.size = n
  replayed : u.replayed.size = n

theorem Sized.mark (h : Sized n u) (m : Mark) : Sized n (u.mark m) where
  uses := by simpa using h.uses
  forced := by
    rw [forced_mark]
    split <;> simpa using h.forced
  home := by
    rw [home_mark]
    split <;> simpa using h.home
  replayed := by
    rw [replayed_mark]
    split
    · split <;> simpa using h.replayed
    · exact h.replayed

theorem Sized.foldl (h : Sized n u) (ms : List Mark) : Sized n (ms.foldl Usage.mark u) := by
  induction ms generalizing u with
  | nil => exact h
  | cons m ms ih => exact ih (h.mark m)

/-- Every use is counted. -/
theorem uses_foldl (h : Sized n u) (hv : v < n) :
    (ms.foldl mark u).uses[v]?.getD 0 =
      u.uses[v]?.getD 0 + ms.countP fun m ↦ m.isUse && decide (m.var = v) := by
  induction ms generalizing u with
  | nil => rfl
  | cons m ms ih =>
    have hv' : v < u.uses.size := h.uses ▸ hv
    rw [List.foldl_cons, ih (h.mark m), uses_mark, List.countP_cons]
    by_cases huse : m.isUse <;> by_cases hm : m.var = v <;>
      simp [huse, hm, Array.getElem_modify, hv']
    omega

/-- A variable is forced when a mark forces it. -/
theorem forced_foldl (h : Sized n u) (hv : v < n) :
    (ms.foldl mark u).forced[v]?.getD false =
      (u.forced[v]?.getD false || ms.any fun m ↦ m.isForce && decide (m.var = v)) := by
  induction ms generalizing u with
  | nil => simp
  | cons m ms ih =>
    have hv' : v < u.forced.size := h.forced ▸ hv
    rw [List.foldl_cons, ih (h.mark m), forced_mark, List.any_cons]
    by_cases hforce : m.isForce <;> by_cases hm : m.var = v <;>
      simp [hforce, hm, hv']

/-- The home of a variable is the block of its definition, when there is only one. -/
theorem home_foldl (h : Sized n u) (hv : v < n)
    (honly : ∀ b' i', .define b' i' v ∈ ms → b' = b)
    (hdef : u.home[v]? = some b ∨ ∃ i, .define b i v ∈ ms) :
    (ms.foldl mark u).home[v]? = some b := by
  induction ms generalizing u with
  | nil => simpa using hdef
  | cons m ms ih =>
    have hv' : v < u.home.size := h.home ▸ hv
    refine ih (h.mark m) (fun b' i' h ↦ honly b' i' (List.mem_cons_of_mem m h)) ?_
    rw [home_mark]
    rcases hdef with hhome | ⟨i, hi⟩
    · left
      split
      · rename_i b' i' w
        rw [Array.set!_eq_setIfInBounds, Array.getElem?_setIfInBounds]
        split
        · rename_i heq
          subst heq
          simp [hv', honly b' i' List.mem_cons_self]
        · exact hhome
      · exact hhome
    · rcases List.mem_cons.1 hi with rfl | hi
      · left
        simp [hv']
      · exact .inr ⟨i, hi⟩

/-- The home of a variable is a block that defines it. -/
theorem define_of_home (hr : (ms.foldl mark u).home[v]? = some b) :
    u.home[v]? = some b ∨ ∃ i, .define b i v ∈ ms := by
  induction ms generalizing u with
  | nil => exact .inl hr
  | cons m ms ih =>
    rcases ih hr with hm | ⟨i, hi⟩
    · rw [home_mark] at hm
      split at hm
      · rename_i b' i' w
        rw [Array.set!_eq_setIfInBounds, Array.getElem?_setIfInBounds] at hm
        split at hm
        · rename_i heq
          subst heq
          split at hm
          · cases hm
            exact .inr ⟨i', List.mem_cons_self⟩
          · cases hm
        · exact .inl hm
      · exact .inl hm
    · exact .inr ⟨i, List.mem_cons_of_mem m hi⟩

/-- What is repeated for a variable is its definition, when there is only one. -/
theorem replayed_foldl (h : Sized n u) (hv : v < n) (hi : i.isReproducible)
    (honly : ∀ b' i', .define b' i' v ∈ ms → i' = i)
    (hdef : u.replayed[v]? = some (some i) ∨ ∃ b, .define b i v ∈ ms) :
    (ms.foldl mark u).replayed[v]? = some (some i) := by
  induction ms generalizing u with
  | nil => simpa using hdef
  | cons m ms ih =>
    have hv' : v < u.replayed.size := h.replayed ▸ hv
    refine ih (h.mark m) (fun b' i' h ↦ honly b' i' (List.mem_cons_of_mem m h)) ?_
    rw [replayed_mark]
    rcases hdef with hreplayed | ⟨b, hb⟩
    · left
      split
      · rename_i b' i' w
        split
        · rw [Array.set!_eq_setIfInBounds, Array.getElem?_setIfInBounds]
          split
          · rename_i heq
            subst heq
            simp [hv', honly b' i' List.mem_cons_self]
          · exact hreplayed
        · exact hreplayed
      · exact hreplayed
    · rcases List.mem_cons.1 hb with rfl | hb
      · left
        simp [hv', hi]
      · exact .inr ⟨b, hb⟩

/-- What is repeated for a variable is a definition that can be. -/
theorem define_of_replayed (hr : (ms.foldl mark u).replayed[v]? = some (some i)) :
    u.replayed[v]? = some (some i) ∨ ∃ b, .define b i v ∈ ms ∧ i.isReproducible := by
  induction ms generalizing u with
  | nil => exact .inl hr
  | cons m ms ih =>
    rcases ih hr with hm | ⟨b, hb, hi⟩
    · rw [replayed_mark] at hm
      split at hm
      · rename_i b' i' w
        split at hm
        · rename_i hi'
          rw [Array.set!_eq_setIfInBounds, Array.getElem?_setIfInBounds] at hm
          split at hm
          · rename_i heq
            subst heq
            split at hm
            · cases hm
              exact .inr ⟨b', List.mem_cons_self, hi'⟩
            · cases hm
          · exact .inl hm
        · exact .inl hm
      · exact .inl hm
    · exact .inr ⟨b, List.mem_cons_of_mem m hb, hi⟩

theorem mem_reads_foldl : (v, b) ∈ (ms.foldl mark u).reads ↔ (v, b) ∈ u.reads ∨ .read b v ∈ ms := by
  induction ms generalizing u with
  | nil => simp
  | cons m ms ih =>
    rw [List.foldl_cons, ih, reads_mark]
    cases m <;> simp [or_assoc, or_left_comm, and_comm, eq_comm]

theorem sized_ofSize (n : Nat) : Sized n (ofSize n) := by
  constructor <;> simp [ofSize]

/-- Forcing the variables that are read elsewhere touches nothing else. -/
theorem forceReads_spec (u : Usage) :
    (u.forceReads.uses = u.uses ∧ u.forceReads.home = u.home
      ∧ u.forceReads.replayed = u.replayed) ∧
      ∀ v < u.forced.size, u.forceReads.forced[v]?.getD false = true ↔
        u.forced[v]?.getD false = true ∨ ∃ b, (v, b) ∈ u.reads ∧ u.home[v]? ≠ some b := by
  suffices h : ∀ (reads : List (Var × BlockId)) (w : Usage), w.home = u.home →
      let w' := reads.foldl (fun u (v, b) ↦ if u.home[v]? = some b then u else u.force v) w
      (w'.uses = w.uses ∧ w'.home = w.home ∧ w'.replayed = w.replayed) ∧
        ∀ v < w.forced.size, w'.forced[v]?.getD false = true ↔
          w.forced[v]?.getD false = true ∨ ∃ b, (v, b) ∈ reads ∧ u.home[v]? ≠ some b from
    h u.reads u rfl
  intro reads
  induction reads with
  | nil =>
    intro w _
    exact ⟨⟨rfl, rfl, rfl⟩, by simp⟩
  | cons p reads ih =>
    obtain ⟨x, b⟩ := p
    intro w hw
    simp only [List.foldl_cons, List.mem_cons, Prod.mk.injEq]
    split
    · rename_i hhome
      obtain ⟨hsame, hforced⟩ := ih w hw
      refine ⟨hsame, fun v hv ↦ (hforced v hv).trans (or_congr_right (exists_congr fun b' ↦ ?_))⟩
      rw [hw] at hhome
      constructor
      · exact fun h ↦ ⟨.inr h.1, h.2⟩
      · rintro ⟨⟨rfl, rfl⟩ | h, hne⟩
        · exact absurd hhome hne
        · exact ⟨h, hne⟩
    · rename_i hhome
      obtain ⟨hsame, hforced⟩ := ih (w.force x) hw
      refine ⟨hsame, fun v hv ↦ (hforced v (by simpa [force] using hv)).trans ?_⟩
      rw [hw] at hhome
      simp only [force, Array.set!_eq_setIfInBounds, Array.getElem?_setIfInBounds]
      split
      · rename_i hx
        subst hx
        simp only [hv, if_true, Option.getD_some, true_or, true_iff]
        exact .inr ⟨b, .inl ⟨trivial, rfl⟩, hhome⟩
      · rename_i hx
        refine or_congr_right (exists_congr fun b' ↦ and_congr_left fun _ ↦ ?_)
        simp [Ne.symm hx]

end

/-! ## The table of a function -/

section

variable {f : Function} {blocks : List (BlockId × Block)} {u : Usage} {v : Var} {id : BlockId}
  {b : Block} {i : Instr}

/-- The marks of a function, whose table is `u`. -/
structure Describes (u : Usage) (f : Function) (ms : List Mark) : Prop where
  table_eq : u = (ms.foldl mark (ofSize f.vars.size)).forceReads
  within : ∀ m ∈ ms, m.var < f.vars.size

variable {ms : List Mark}

/-- **The table of a function is made by its marks**, which are on variables that exist. -/
theorem describes_of_ofFunction (hwalk : f.walk = .ok blocks) (h : ofFunction f = .ok u) :
    Describes u f (Mark.ofBlocks blocks) := by
  have hblocks := records_foldlM (u := ofSize f.vars.size)
    (fun u (p : BlockId × Block) ↦ records_addBlock u p.1 p.2) blocks
  unfold ofFunction at h
  rw [hwalk] at h
  simp only [bind, Except.bind] at h
  split at h
  · cases h
  · rename_i w hw
    cases h
    obtain ⟨rfl, hms⟩ := hblocks w hw
    exact ⟨rfl, by simpa [ofSize, Mark.ofBlocks] using hms⟩

theorem Describes.size_uses (h : Describes u f ms) : u.uses.size = f.vars.size := by
  rw [h.table_eq, (forceReads_spec _).1.1, size_foldl_mark]
  simp [ofSize]

theorem Describes.uses_eq (h : Describes u f ms) (hv : v < f.vars.size) :
    u.uses[v]?.getD 0 = ms.countP fun m ↦ m.isUse && decide (m.var = v) := by
  rw [h.table_eq, (forceReads_spec _).1.1, uses_foldl (sized_ofSize _) hv]
  simp [ofSize, hv]

theorem Describes.forced_iff (h : Describes u f ms) (hv : v < f.vars.size) :
    u.forced[v]?.getD false = true ↔ (∃ m ∈ ms, m.isForce ∧ m.var = v)
      ∨ ∃ b, .read b v ∈ ms ∧ u.home[v]? ≠ some b := by
  have hforced : v < (ms.foldl mark (ofSize f.vars.size)).forced.size := by
    rwa [((sized_ofSize f.vars.size).foldl ms).forced]
  rw [h.table_eq, (forceReads_spec _).2 v hforced, (forceReads_spec _).1.2.1,
    forced_foldl (sized_ofSize _) hv]
  simp only [mem_reads_foldl]
  simp [ofSize, hv]

theorem Describes.home_eq (h : Describes u f ms) (hi : .define id i v ∈ ms)
    (honly : ∀ b' i', .define b' i' v ∈ ms → b' = id) : u.home[v]? = some id := by
  rw [h.table_eq, (forceReads_spec _).1.2.1]
  exact home_foldl (sized_ofSize _) (h.within _ hi) honly (.inr ⟨i, hi⟩)

theorem Describes.define_of_home (h : Describes u f ms) (hhome : u.home[v]? = some id)
    (hid : id ≠ 0) : ∃ i, .define id i v ∈ ms := by
  rw [h.table_eq, (forceReads_spec _).1.2.1] at hhome
  rcases Usage.define_of_home hhome with h | h
  · simp only [ofSize, Array.getElem?_replicate] at h
    split at h
    · exact absurd (Option.some.inj h).symm hid
    · cases h
  · exact h

theorem Describes.replay?_eq (h : Describes u f ms) (hi : .define id i v ∈ ms)
    (hrepeat : i.isReproducible) (honly : ∀ b' i', .define b' i' v ∈ ms → i' = i) :
    u.replay? v = some i := by
  have hreplayed : (ms.foldl mark (ofSize f.vars.size)).replayed[v]? = some (some i) :=
    replayed_foldl (sized_ofSize _) (h.within _ hi) hrepeat honly (.inr ⟨id, hi⟩)
  rw [replay?, h.table_eq, (forceReads_spec _).1.2.2, hreplayed]
  rfl

theorem Describes.define_of_replay? (h : Describes u f ms) (hr : u.replay? v = some i) :
    ∃ b, .define b i v ∈ ms ∧ i.isReproducible := by
  rw [replay?, h.table_eq, (forceReads_spec _).1.2.2] at hr
  have hr : (ms.foldl mark (ofSize f.vars.size)).replayed[v]? = some (some i) := by
    simpa [Option.join_eq_some_iff] using hr
  rcases define_of_replayed hr with h | h
  · simp [ofSize, Array.getElem?_replicate] at h
  · exact h

end

end Usage

namespace Mark

variable {blocks : List (BlockId × Block)} {id : BlockId} {b : Block} {i : Instr} {v : Var}

theorem mem_ofBlocks {m : Mark} :
    m ∈ ofBlocks blocks ↔ ∃ id b, (id, b) ∈ blocks ∧ m ∈ ofBlock id b := by
  simp [ofBlocks]

theorem mem_ofCopies {cs : List Copy} {m : Mark} :
    m ∈ ofCopies cs ↔ ∃ c ∈ cs, m = force c.dst ∨ m = force c.src ∨ m = use c.src := by
  simp [ofCopies]

theorem mem_ofBlock_of_copyGroups (id : BlockId) {cs : List Copy} (hcs : cs ∈ b.copyGroups)
    {m : Mark} (hm : m ∈ ofCopies cs) : m ∈ ofBlock id b := by
  simp only [Block.copyGroups, List.mem_cons, List.mem_map] at hcs
  simp only [ofBlock, ofInstr, List.mem_append, List.mem_flatMap]
  rcases hcs with rfl | rfl | rfl | ⟨i, hi, rfl⟩
  · exact .inl (.inl (.inl (.inr hm)))
  · exact .inl (.inl (.inr hm))
  · exact .inl (.inr hm)
  · exact .inr ⟨i, hi, .inr hm⟩

theorem define_mem_ofBlock {id' : BlockId} :
    define id' i v ∈ ofBlock id b ↔ id' = id ∧ i ∈ b.instrs ∧ v ∈ i.dst := by
  have hcopies (cs : List Copy) : define id' i v ∉ ofCopies cs := by simp [mem_ofCopies]
  have hcond : define id' i v ∉
      (if b.kind = .cond ∨ b.kind = .branch then [use b.cond, force b.cond] else []) := by
    split <;> simp
  have hargs (j : Instr) :
      define id' i v ∉ (if j.op = .phi then [] else j.args.map (read id)) := by
    split <;> simp
  simp only [ofBlock, ofInstr, List.mem_append, hcond, hcopies, hargs, or_false, false_or,
    List.mem_flatMap, List.mem_map, define.injEq]
  constructor
  · rintro ⟨j, hj, w, hw, rfl, rfl, rfl⟩
    exact ⟨rfl, hj, hw⟩
  · rintro ⟨rfl, hi, hv⟩
    exact ⟨i, hi, v, hv, rfl, rfl, rfl⟩

theorem read_mem_ofBlock (id : BlockId) (hi : i ∈ b.instrs) (hop : i.op ≠ .phi) (hv : v ∈ i.args) :
    read id v ∈ ofBlock id b := by
  simp only [ofBlock, ofInstr, List.mem_append, List.mem_flatMap]
  refine .inr ⟨i, hi, .inl (.inr ?_)⟩
  rw [if_neg hop]
  exact List.mem_map_of_mem hv

/-- What is read in a block is an argument of one of its instructions. -/
theorem exists_of_read_mem_ofBlock {id' : BlockId} (h : read id' v ∈ ofBlock id b) :
    id' = id ∧ ∃ i ∈ b.instrs, i.op ≠ .phi ∧ v ∈ i.args := by
  have hcopies (cs : List Copy) : read id' v ∉ ofCopies cs := by simp [mem_ofCopies]
  have hcond : read id' v ∉
      (if b.kind = .cond ∨ b.kind = .branch then [use b.cond, force b.cond] else []) := by
    split <;> simp
  simp only [ofBlock, ofInstr, List.mem_append, hcond, hcopies, or_false, false_or,
    List.mem_flatMap] at h
  obtain ⟨i, hi, hdef | hread⟩ := h
  · simp at hdef
  · split at hread
    · cases hread
    · obtain ⟨w, hw, heq⟩ := List.mem_map.1 hread
      cases heq
      exact ⟨rfl, i, hi, ‹_›, hw⟩

/-- Uses that are no arguments force their variable into a local. -/
theorem force_of_use (h : use v ∈ ofBlock id b) : force v ∈ ofBlock id b := by
  have hcopies {cs : List Copy} (hm : use v ∈ ofCopies cs) : force v ∈ ofCopies cs := by
    obtain ⟨copy, hcopy, hm⟩ := mem_ofCopies.1 hm
    have heq : v = copy.src := by simpa using hm
    exact mem_ofCopies.2 ⟨copy, hcopy, .inr (.inl (congrArg force heq))⟩
  simp only [ofBlock, ofInstr, List.mem_append, List.mem_flatMap] at h ⊢
  rcases h with (((h | h) | h) | h) | ⟨i, hi, (h | h) | h⟩
  · refine .inl (.inl (.inl (.inl ?_)))
    split at h <;> simp_all
  · exact .inl (.inl (.inl (.inr (hcopies h))))
  · exact .inl (.inl (.inr (hcopies h)))
  · exact .inl (.inr (hcopies h))
  · simp at h
  · split at h <;> simp at h
  · exact .inr ⟨i, hi, .inr (hcopies h)⟩

theorem cond_mem_ofBlock (id : BlockId) (hkind : b.kind = .cond ∨ b.kind = .branch) :
    use b.cond ∈ ofBlock id b ∧ force b.cond ∈ ofBlock id b := by
  simp [ofBlock, hkind]

/-- The variables of the definitions are those that the blocks define. -/
theorem map_var_define (blocks : List (BlockId × Block)) :
    ((blocks.flatMap fun p ↦ p.2.instrs.flatMap fun i ↦ i.dst.map (define p.1 i)).map var) =
      (Function.definitions (blocks.map Prod.snd)).map Prod.fst := by
  unfold Function.definitions
  simp only [List.map_flatMap, List.map_map, List.flatMap_map]
  rfl

/-- Where no variable is defined twice, there is one definition of a variable. -/
theorem define_unique {id' : BlockId} {i' : Instr}
    (hnodup : ((Function.definitions (blocks.map Prod.snd)).map Prod.fst).Nodup)
    (h : define id i v ∈ ofBlocks blocks) (h' : define id' i' v ∈ ofBlocks blocks) :
    id = id' ∧ i = i' := by
  have hmem {id : BlockId} {i : Instr} (h : define id i v ∈ ofBlocks blocks) : define id i v ∈
      blocks.flatMap fun p ↦ p.2.instrs.flatMap fun i ↦ i.dst.map (define p.1 i) := by
    obtain ⟨id', b, hb, h⟩ := mem_ofBlocks.1 h
    obtain ⟨rfl, hi, hv⟩ := define_mem_ofBlock.1 h
    exact List.mem_flatMap.2 ⟨_, hb, List.mem_flatMap.2 ⟨i, hi, List.mem_map_of_mem hv⟩⟩
  rw [← map_var_define] at hnodup
  simpa using List.inj_on_of_nodup_map hnodup (hmem h) (hmem h') rfl

end Mark

namespace Codegen

/-- The context knows the variables of its function, which these trees assign once. -/
structure Prepared (c : CodeContext) (ts : Forest) : Prop extends c.function.AssignedOnce ts where
  usage_eq : Usage.ofFunction c.function = .ok c.usage

/-- What a branch assigns is assigned in its block. -/
theorem copies_mem_copyGroups {b : Block} {i : Instr} (hi : i ∈ b.instrs) :
    i.copies ∈ b.copyGroups := by
  simp only [Block.copyGroups, List.mem_cons]
  exact .inr (.inr (.inr (List.mem_map_of_mem hi)))

/-- The value is never on the stack only: it is kept in a local or can be computed again. -/
def IsSettled (c : CodeContext) (v : Var) : Prop :=
  isKept c v ∨ (c.usage.replay? v).isSome

/-! ## Values on the stack -/

/-- Only values that are nowhere else lie on the simulated stack. -/
def Placement.Unsettled (p : Placement) (c : CodeContext) : Prop :=
  ∀ v ∈ p.stack, ¬IsSettled c v

section

variable {c : CodeContext} {e : CodeState} {p q : Placement} {code : List Instruction}

theorem unsettled_nil (spilled : List Var) : Placement.Unsettled ⟨[], spilled⟩ c := by
  intro v hv
  cases hv

/-- Operands are taken off the stack, and nothing comes onto it. -/
theorem Schedules.unsettled {args : List Var} (h : Schedules c e args p code q)
    (hp : p.Unsettled c) : q.Unsettled c := by
  cases h with
  | intro high used loaded rest spilled sets loads hlowest hsets hloads =>
    exact fun v hv ↦ hp v (by simp [hv])

/-- What is settled is not sought on the stack. -/
theorem Schedules.of_settled {args : List Var} (h : Schedules c e args p code q)
    (hargs : ∀ v ∈ args, IsSettled c v) (hp : p.Unsettled c) :
    q = p ∧ List.Forall₂ (Loads c e p.spilled) args code := by
  cases h with
  | intro high used loaded rest spilled sets loads hlowest hsets hloads =>
    obtain rfl : used = [] := by
      refine List.eq_nil_iff_forall_not_mem.2 fun v hv ↦ ?_
      exact hp v (by simp [hv]) (hargs v (by simp [hv]))
    obtain rfl : high = [] := by
      refine List.getLast?_eq_none_iff.1 (Option.eq_none_iff_forall_ne_some.2 fun v hv ↦ ?_)
      refine hp v ?_ (hargs v (hlowest v hv))
      exact List.mem_append_left _ (List.mem_of_getLast? hv)
    cases hsets
    exact ⟨rfl, hloads⟩

end

/-! ## Facts about prepared functions -/

section

variable {c : CodeContext} {ts : Forest} {id : BlockId} {i : Instr} {v : Var}

theorem isSettled_of_forced (h : c.usage.forced[v]?.getD false = true) : IsSettled c v := by
  unfold IsSettled isKept Usage.inLocal
  cases c.usage.replay? v <;> simp [Array.getD_eq_getD_getElem?, h]

/-- A value with several uses is settled. -/
theorem isSettled_of_uses (h : 2 ≤ c.usage.uses.getD v 0) : IsSettled c v := by
  unfold IsSettled isKept Usage.inLocal
  rw [Array.getD_eq_getD_getElem?] at h
  cases c.usage.replay? v <;> simp [Nat.lt_of_succ_le h]

theorem not_isKept_of_replay? (hv : c.function.params.length ≤ v)
    (h : c.usage.replay? v = some i) : isKept c v = false := by
  simp [isKept, Usage.inLocal, h, hv]

namespace Prepared

/-- The marks of the blocks of the function. -/
abbrev marks (c : CodeContext) (ts : Forest) : List Mark :=
  Mark.ofBlocks ((Forest.ids ts).map fun id ↦ (id, c.function.blockAt id))

theorem describes (h : Prepared c ts) : c.usage.Describes c.function (marks c ts) :=
  Usage.describes_of_ofFunction h.laidOut.walk_eq h.usage_eq

theorem mem_marks (hid : id ∈ Forest.ids ts) {m : Mark}
    (hm : m ∈ Mark.ofBlock id (c.function.blockAt id)) : m ∈ marks c ts :=
  Mark.mem_ofBlocks.2 ⟨id, _, List.mem_map_of_mem hid, hm⟩

theorem define_mem_marks :
    .define id i v ∈ marks c ts ↔
      id ∈ Forest.ids ts ∧ i ∈ (c.function.blockAt id).instrs ∧ v ∈ i.dst := by
  rw [Mark.mem_ofBlocks]
  constructor
  · rintro ⟨id', b, hb, hm⟩
    obtain ⟨rfl, hi, hv⟩ := Mark.define_mem_ofBlock.1 hm
    obtain ⟨_, hid, heq⟩ := List.mem_map.1 hb
    cases heq
    exact ⟨hid, hi, hv⟩
  · rintro ⟨hid, hi, hv⟩
    exact ⟨id, _, List.mem_map_of_mem hid, Mark.define_mem_ofBlock.2 ⟨rfl, hi, hv⟩⟩

/-- A variable has one definition. -/
theorem unique (h : Prepared c ts) {id' : BlockId} {i' : Instr}
    (hdef : .define id i v ∈ marks c ts) (hdef' : .define id' i' v ∈ marks c ts) :
    id = id' ∧ i = i' := by
  refine Mark.define_unique ?_ hdef hdef'
  rw [List.map_map]
  exact h.assigned.defs_nodup

theorem forced_of_mark (h : Prepared c ts) {m : Mark} (hm : m ∈ marks c ts) (hforce : m.isForce) :
    c.usage.forced[m.var]?.getD false = true :=
  (h.describes.forced_iff (h.describes.within m hm)).2 (.inl ⟨m, hm, hforce, rfl⟩)

/-- The uses of a variable are counted. -/
theorem uses_eq_countP (h : Prepared c ts) (v : Var) :
    c.usage.uses.getD v 0 = (marks c ts).countP fun m ↦ m.isUse && decide (m.var = v) := by
  rw [Array.getD_eq_getD_getElem?]
  by_cases hv : v < c.function.vars.size
  · exact h.describes.uses_eq hv
  · rw [Array.getElem?_eq_none (by rw [h.describes.size_uses]; exact not_lt.1 hv), Option.getD_none,
      eq_comm, List.countP_eq_zero]
    intro m hm hcount
    rw [Bool.and_eq_true, decide_eq_true_eq] at hcount
    exact hv (hcount.2 ▸ h.describes.within m hm)

theorem uses_of_mark (h : Prepared c ts) {m : Mark} (hm : m ∈ marks c ts) (huse : m.isUse) :
    c.usage.uses.getD m.var 0 ≠ 0 := by
  rw [Array.getD_eq_getD_getElem?, h.describes.uses_eq (h.describes.within m hm)]
  exact (List.countP_pos_iff.2 ⟨m, hm, by simpa using huse⟩).ne'

/-- What a condition tests is settled, and used. -/
theorem cond (h : Prepared c ts) (hid : id ∈ Forest.ids ts)
    (hkind : (c.function.blockAt id).kind = .cond ∨ (c.function.blockAt id).kind = .branch) :
    IsSettled c (c.function.blockAt id).cond
      ∧ c.usage.uses.getD (c.function.blockAt id).cond 0 ≠ 0 := by
  obtain ⟨huse, hforce⟩ := Mark.cond_mem_ofBlock id hkind
  exact ⟨isSettled_of_forced (h.forced_of_mark (mem_marks hid hforce) rfl),
    h.uses_of_mark (mem_marks hid huse) rfl⟩

variable {cs : List Copy} {copy : Copy}

/-- What an edge reads is settled, and used. -/
theorem source (h : Prepared c ts) (hid : id ∈ Forest.ids ts)
    (hcs : cs ∈ (c.function.blockAt id).copyGroups) (hcopy : copy ∈ cs) :
    IsSettled c copy.src ∧ c.usage.uses.getD copy.src 0 ≠ 0 := by
  have hmarks {m : Mark} (hm : m ∈ Mark.ofCopies cs) : m ∈ marks c ts :=
    mem_marks hid (Mark.mem_ofBlock_of_copyGroups id hcs hm)
  have hforce := hmarks (Mark.mem_ofCopies.2 ⟨copy, hcopy, .inr (.inl rfl)⟩)
  have huse := hmarks (Mark.mem_ofCopies.2 ⟨copy, hcopy, .inr (.inr rfl)⟩)
  exact ⟨isSettled_of_forced (h.forced_of_mark hforce rfl), h.uses_of_mark huse rfl⟩

/-- What is repeated for a variable is its definition. -/
theorem replay?_of_define (h : Prepared c ts) (hid : id ∈ Forest.ids ts)
    (hi : i ∈ (c.function.blockAt id).instrs) (hv : v ∈ i.dst) :
    c.usage.replay? v = if i.isReproducible then some i else none := by
  have hdef := define_mem_marks.2 ⟨hid, hi, hv⟩
  split <;> rename_i hrepeat
  · exact h.describes.replay?_eq hdef hrepeat fun _ _ hdef' ↦ (h.unique hdef hdef').2.symm
  · rw [Option.eq_none_iff_forall_ne_some]
    intro j hj
    obtain ⟨id', hdef', hrepeat'⟩ := h.describes.define_of_replay? hj
    obtain ⟨-, rfl⟩ := h.unique hdef hdef'
    exact hrepeat hrepeat'

/-- What is repeated defines the variable. -/
theorem define_of_replay? (h : Prepared c ts) (hr : c.usage.replay? v = some i) :
    i.isReproducible ∧ v ∈ i.dst
      ∧ ∃ id ∈ Forest.ids ts, i ∈ (c.function.blockAt id).instrs := by
  obtain ⟨id, hdef, hrepeat⟩ := h.describes.define_of_replay? hr
  obtain ⟨hid, hi, hv⟩ := define_mem_marks.1 hdef
  exact ⟨hrepeat, hv, id, hid, hi⟩

theorem params_le (h : Prepared c ts) (hid : id ∈ Forest.ids ts)
    (hi : i ∈ (c.function.blockAt id).instrs) (hv : v ∈ i.dst) :
    c.function.params.length ≤ v := by
  refine h.assigned.params_le v ?_
  rw [Function.map_fst_definitions]
  exact List.mem_flatMap.2 ⟨_, List.mem_map_of_mem hid, List.mem_flatMap.2 ⟨i, hi, hv⟩⟩

/-- What an edge assigns is kept in a local, and is not computed again. -/
theorem target (h : Prepared c ts) (hid : id ∈ Forest.ids ts)
    (hcs : cs ∈ (c.function.blockAt id).copyGroups) (hcopy : copy ∈ cs) :
    isKept c copy.dst ∧ c.usage.replay? copy.dst = none := by
  have hforce := mem_marks hid (Mark.mem_ofBlock_of_copyGroups id hcs
    (Mark.mem_ofCopies.2 ⟨copy, hcopy, .inl rfl⟩))
  have hsettled : IsSettled c copy.dst := isSettled_of_forced (h.forced_of_mark hforce rfl)
  have hmerged : (copy.dst, true) ∈
      Function.definitions ((Forest.ids ts).map c.function.blockAt) :=
    h.assigned.merged _ (Function.mem_edgeTargets.2
      ⟨_, List.mem_map_of_mem hid, cs, hcs, copy, hcopy, rfl⟩)
  simp only [Function.definitions, List.mem_flatMap, List.mem_map, Prod.mk.injEq,
    decide_eq_true_eq] at hmerged
  obtain ⟨_, ⟨id', hid', rfl⟩, i, hi, v, hv, rfl, hop⟩ := hmerged
  have hnone : c.usage.replay? copy.dst = none := by
    rw [h.replay?_of_define hid' hi hv, if_neg (by simp [Instr.isReproducible, hop])]
  exact ⟨hsettled.resolve_right (by simp [hnone]), hnone⟩

/-- An argument is settled or defined in the block that reads it, and used. -/
theorem argument (h : Prepared c ts) (hid : id ∈ Forest.ids ts)
    (hi : i ∈ (c.function.blockAt id).instrs) (hop : i.op ≠ .phi) (hv : v ∈ i.args) :
    (IsSettled c v ∨ c.usage.home[v]? = some id) ∧ c.usage.uses.getD v 0 ≠ 0 := by
  have hread := mem_marks hid (Mark.read_mem_ofBlock id hi hop hv)
  refine ⟨?_, h.uses_of_mark hread rfl⟩
  by_cases hhome : c.usage.home[v]? = some id
  · exact .inr hhome
  · exact .inl (isSettled_of_forced ((h.describes.forced_iff (h.describes.within _ hread)).2
      (.inr ⟨id, hread, hhome⟩)))

/-- The home of a variable is the block that defines it. -/
theorem home_eq (h : Prepared c ts) (hid : id ∈ Forest.ids ts)
    (hi : i ∈ (c.function.blockAt id).instrs) (hv : v ∈ i.dst) :
    c.usage.home[v]? = some id := by
  have hdef := define_mem_marks.2 ⟨hid, hi, hv⟩
  exact h.describes.home_eq hdef fun _ _ hdef' ↦ (h.unique hdef hdef').1.symm

/-- A block defines no variable twice. -/
theorem nodup_dst (h : Prepared c ts) (hid : id ∈ Forest.ids ts) :
    ((c.function.blockAt id).instrs.flatMap Instr.dst).Nodup := by
  have hnodup := h.assigned.defs_nodup
  rw [Function.map_fst_definitions, List.nodup_flatMap] at hnodup
  exact hnodup.1 _ (List.mem_map_of_mem hid)

/-- What an edge reads does not have to be sought on the stack. -/
theorem copies_eq (h : Prepared c ts) {e : CodeState} {p q : Placement} {code : List Instruction}
    (hid : id ∈ Forest.ids ts) (hcs : cs ∈ (c.function.blockAt id).copyGroups)
    (hcopies : Copies c e cs p code q) (hp : p.Unsettled c) : q = p := by
  cases hcopies with
  | intro sets hsources =>
    refine (hsources.of_settled (fun v hv ↦ ?_) hp).1
    obtain ⟨copy, hcopy, rfl⟩ := List.mem_map.1 hv
    exact (h.source hid hcs hcopy).1

/-- What is at home in a block is defined there. -/
theorem define_of_home (h : Prepared c ts) (hid : id ∈ Forest.ids ts)
    (hhome : c.usage.home[v]? = some id) : ∃ i ∈ (c.function.blockAt id).instrs, v ∈ i.dst := by
  have hpos := (c.function.mem_range_of_block?
    (Ir.Tree.block?_of_mem_ids.2 ts h.laidOut.stored id hid)).1
  obtain ⟨i, hdef⟩ := h.describes.define_of_home hhome hpos.ne'
  obtain ⟨-, hi, hv⟩ := define_mem_marks.1 hdef
  exact ⟨i, hi, hv⟩

/-- What is used but not settled is an argument in its home. -/
theorem reader (h : Prepared c ts) (huses : c.usage.uses.getD v 0 ≠ 0) (hv : ¬IsSettled c v) :
    ∃ id ∈ Forest.ids ts, c.usage.home[v]? = some id
      ∧ ∃ i ∈ (c.function.blockAt id).instrs, i.op ≠ .phi ∧ v ∈ i.args := by
  have hforced {m : Mark} (hm : m ∈ marks c ts) (hforce : m.isForce) : m.var ≠ v := by
    rintro rfl
    exact hv (isSettled_of_forced (h.forced_of_mark hm hforce))
  obtain ⟨m, hm, huse, rfl⟩ : ∃ m ∈ marks c ts, m.isUse ∧ m.var = v := by
    rw [h.uses_eq_countP, ← Nat.pos_iff_ne_zero, List.countP_pos_iff] at huses
    simpa using huses
  obtain ⟨id, b, hb, hmem⟩ := Mark.mem_ofBlocks.1 hm
  obtain ⟨id, hid, heq⟩ := List.mem_map.1 hb
  cases heq
  cases m with
  | use v =>
    have hforce : Mark.force v ∈ marks c ts := mem_marks hid (Mark.force_of_use hmem)
    exact absurd rfl (hforced (m := .force v) hforce rfl)
  | read b v =>
    obtain ⟨rfl, i, hi, hread⟩ := Mark.exists_of_read_mem_ofBlock hmem
    refine ⟨b, hid, ?_, i, hi, hread⟩
    by_contra hhome
    exact hv (isSettled_of_forced ((h.describes.forced_iff (h.describes.within _ hm)).2
      (.inr ⟨b, hm, hhome⟩)))
  | force | define => cases huse

/-- What is read twice is settled. -/
theorem isSettled_of_reads (h : Prepared c ts) (hid : id ∈ Forest.ids ts) {j : Instr}
    {before between behind : List Instr}
    (hinstrs : (c.function.blockAt id).instrs = before ++ i :: (between ++ j :: behind))
    (hi : i.op ≠ .phi ∧ v ∈ i.args) (hj : j.op ≠ .phi ∧ v ∈ j.args) : IsSettled c v := by
  have hread {k : Instr} (hk : k.op ≠ .phi ∧ v ∈ k.args) :
      [Mark.read id v].Sublist (Mark.ofInstr id k) := by
    rw [List.singleton_sublist, Mark.ofInstr, if_neg hk.1]
    simp [hk.2]
  have hinstr {is : List Instr} {k : Instr} (hk : k.op ≠ .phi ∧ v ∈ k.args) (hmem : k ∈ is) :
      [Mark.read id v].Sublist (is.flatMap (Mark.ofInstr id)) :=
    (hread hk).trans (List.sublist_flatten_of_mem (List.mem_map_of_mem hmem))
  have hblock : [Mark.read id v, Mark.read id v].Sublist
      (Mark.ofBlock id (c.function.blockAt id)) := by
    have hsplit : (c.function.blockAt id).instrs = (before ++ [i]) ++ (between ++ j :: behind) := by
      simp [hinstrs]
    rw [Mark.ofBlock, hsplit, List.flatMap_append]
    refine List.Sublist.trans ?_ (List.sublist_append_right _ _)
    exact (hinstr hi (by simp)).append (hinstr hj (by simp))
  have htwo : 2 ≤ c.usage.uses.getD v 0 := by
    rw [h.uses_eq_countP]
    refine le_trans (by simp [Mark.isUse, Mark.var]) (List.Sublist.countP_le (hblock.trans ?_))
    exact List.sublist_flatten_of_mem (List.mem_map_of_mem (List.mem_map_of_mem hid))
  exact isSettled_of_uses htwo

/-- A merge defines what is settled. -/
theorem merge (h : Prepared c ts) (hid : id ∈ Forest.ids ts)
    (hi : i ∈ (c.function.blockAt id).instrs) (hop : i.op = .phi) (hv : v ∈ i.dst) :
    isKept c v := by
  have hdef := define_mem_marks.2 ⟨hid, hi, hv⟩
  have hsettled : IsSettled c v :=
    isSettled_of_forced (h.forced_of_mark hdef (by simp [Mark.isForce, hop]))
  refine hsettled.resolve_right ?_
  simp [h.replay?_of_define hid hi hv, Instr.isReproducible, hop]

end Prepared

end

end Codegen

end WasmBackend.Wasm
