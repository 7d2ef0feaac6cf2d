import WasmBackend.Lowering.Unit
import WasmBackend.Proofs.Execution
import WasmBackend.Proofs.Wasm.StaticMemory

/-!
# Where allocated blocks lie

A call of the allocator gives the heap pointer and moves it behind the block, up to a multiple of
eight.  It counts in 32 bits and knows no limit: behind the last address it starts again at zero.
So blocks lie apart from one another and above static memory exactly as long as they end inside the
address space when they are laid one behind the other from the start of the heap.
-/

namespace WasmBackend

namespace Lowering

open Ir (Machine Outcome)

/-! ## Blocks one behind the other -/

/-- A block of memory that a call of the allocator gives. -/
structure HeapBlock where
  address : UInt32
  size : UInt32

/-- The addresses of the bytes, counted in 32 bits. -/
def HeapBlock.bytes (b : HeapBlock) : Set UInt32 :=
  {a | ∃ k < b.size, a = b.address + k}

/-- No block starts at address zero, and blocks lie apart from one another and from everything below
the base. -/
structure LieApart (base : UInt32) (blocks : List HeapBlock) : Prop where
  ne_zero : ∀ b ∈ blocks, b.address ≠ 0
  above : ∀ b ∈ blocks, ∀ a ∈ b.bytes, base ≤ a
  disjoint : blocks.Pairwise fun b c ↦ Disjoint b.bytes c.bytes

/-- The first multiple of eight that is no smaller. -/
def nextBlock (n : ℕ) : ℕ :=
  (n + 7) / 8 * 8

/-- Blocks of these sizes, laid one behind the other at multiples of eight from a position on, each
start and end inside the address space. -/
def FitFrom : ℕ → List UInt32 → Prop
  | _, [] => True
  | start, size :: sizes =>
    start < 2 ^ 32 ∧ start + size.toNat ≤ 2 ^ 32 ∧ FitFrom (nextBlock (start + size.toNat)) sizes

theorem le_nextBlock (n : ℕ) : n ≤ nextBlock n := by
  unfold nextBlock
  omega

instance decidableFitFrom : ∀ (start : ℕ) (sizes : List UInt32), Decidable (FitFrom start sizes)
  | _, [] => .isTrue trivial
  | start, size :: sizes =>
    have := decidableFitFrom (nextBlock (start + size.toNat)) sizes
    inferInstanceAs (Decidable (_ ∧ _ ∧ _))

/-- The heap pointer behind a block. -/
def pointerBehind (b : HeapBlock) : UInt32 :=
  (b.address + b.size + 7) &&& 0xFFFFFFF8

/-- The blocks that a heap pointer and sizes lead to. -/
def blocksFrom : UInt32 → List UInt32 → List HeapBlock
  | _, [] => []
  | p, size :: sizes => ⟨p, size⟩ :: blocksFrom (pointerBehind ⟨p, size⟩) sizes

section Blocks

variable {b : HeapBlock} {p base : UInt32} {start : ℕ} {sizes : List UInt32}

theorem HeapBlock.mem_bytes {a : UInt32} : a ∈ b.bytes ↔ a - b.address < b.size := by
  constructor
  · rintro ⟨k, hk, rfl⟩
    rwa [UInt32.add_comm, UInt32.add_sub_cancel]
  · intro h
    exact ⟨a - b.address, h, by rw [UInt32.add_comm, UInt32.sub_add_cancel]⟩

/-- The bytes of a block that ends inside the address space. -/
theorem HeapBlock.mem_bytes_of_le (h : b.address.toNat + b.size.toNat ≤ 2 ^ 32) {a : UInt32} :
    a ∈ b.bytes ↔ b.address ≤ a ∧ a.toNat < b.address.toNat + b.size.toNat := by
  have ha := a.toNat_lt
  have haddress := b.address.toNat_lt
  rw [mem_bytes, UInt32.lt_iff_toNat_lt, UInt32.le_iff_toNat_le, UInt32.toNat_sub]
  omega

/-- A block that does not end inside the address space holds address zero. -/
theorem HeapBlock.zero_mem_bytes (h : 2 ^ 32 < b.address.toNat + b.size.toNat) : 0 ∈ b.bytes := by
  have haddress := b.address.toNat_lt
  have hsize := b.size.toNat_lt
  rw [mem_bytes, UInt32.lt_iff_toNat_lt, UInt32.toNat_sub, UInt32.toNat_zero]
  omega

/-- A block that ends inside the address space and before another starts is apart from it. -/
theorem HeapBlock.disjoint_of_le {c : HeapBlock}
    (h : b.address.toNat + b.size.toNat ≤ c.address.toNat)
    (hc : c.address.toNat + c.size.toNat ≤ 2 ^ 32) : Disjoint b.bytes c.bytes := by
  have haddress := c.address.toNat_lt
  apply Set.disjoint_left.2
  intro a hb hc'
  have hlt := ((mem_bytes_of_le (by omega)).1 hb).2
  have hle := UInt32.le_iff_toNat_le.1 ((mem_bytes_of_le hc).1 hc').1
  omega

/-- Clearing the last three bits rounds down to a multiple of eight. -/
theorem toNat_and_mask (x : UInt32) : (x &&& 0xFFFFFFF8).toNat = x.toNat / 8 * 8 := by
  have hmask : (0xFFFFFFF8 : UInt32).toNat = (2 ^ 29 - 1) <<< 3 := by decide
  have hx : x.toNat >>> 3 < 2 ^ 29 := by
    have := x.toNat_lt
    rw [Nat.shiftRight_eq_div_pow]
    omega
  calc (x &&& 0xFFFFFFF8).toNat
    _ = x.toNat &&& (2 ^ 29 - 1) <<< 3 := by rw [UInt32.toNat_and, hmask]
    _ = (x.toNat >>> 3 &&& 2 ^ 29 - 1) <<< 3 := by
      apply Nat.eq_of_testBit_eq
      intro i
      rw [Nat.testBit_and, Nat.testBit_shiftLeft, Nat.testBit_shiftLeft, Nat.testBit_and,
        Nat.testBit_shiftRight]
      by_cases hi : 3 ≤ i
      · simp [hi, Nat.add_sub_cancel' hi]
      · simp [hi]
    _ = x.toNat / 8 * 8 := by
      rw [Nat.and_two_pow_sub_one_of_lt_two_pow hx, Nat.shiftLeft_eq, Nat.shiftRight_eq_div_pow]

theorem dvd_pointerBehind (b : HeapBlock) : 8 ∣ (pointerBehind b).toNat := by
  rw [pointerBehind, toNat_and_mask]
  exact Nat.dvd_mul_left 8 _

theorem toNat_pointerBehind (b : HeapBlock) :
    (pointerBehind b).toNat = nextBlock (b.address.toNat + b.size.toNat) % 2 ^ 32 := by
  rw [pointerBehind, toNat_and_mask, UInt32.toNat_add, UInt32.toNat_add, nextBlock]
  have hseven : (7 : UInt32).toNat = 7 := rfl
  omega

theorem map_size_blocksFrom : (blocksFrom p sizes).map HeapBlock.size = sizes := by
  induction sizes generalizing p with
  | nil => rfl
  | cons size sizes ih => exact congrArg (size :: ·) ih

theorem dvd_of_mem_blocksFrom (hp : 8 ∣ p.toNat) :
    ∀ b ∈ blocksFrom p sizes, 8 ∣ b.address.toNat := by
  induction sizes generalizing p with
  | nil => nofun
  | cons size sizes ih =>
    intro b hb
    obtain rfl | hb := List.mem_cons.1 hb
    · exact hp
    · exact ih (dvd_pointerBehind _) b hb

/-- Blocks that fit lie inside the address space behind the position they are laid from. -/
theorem within_of_fitFrom (hp : p.toNat = start % 2 ^ 32) (h : FitFrom start sizes) :
    ∀ b ∈ blocksFrom p sizes,
      start ≤ b.address.toNat ∧ b.address.toNat + b.size.toNat ≤ 2 ^ 32 := by
  induction sizes generalizing p start with
  | nil => nofun
  | cons size sizes ih =>
    obtain ⟨hstart, hstop, hrest⟩ := h
    rw [Nat.mod_eq_of_lt hstart] at hp
    subst hp
    intro b hb
    obtain rfl | hb := List.mem_cons.1 hb
    · exact ⟨le_rfl, hstop⟩
    · obtain ⟨hnext, hend⟩ := ih (toNat_pointerBehind ⟨p, size⟩) hrest b hb
      exact ⟨(Nat.le_add_right _ _).trans ((le_nextBlock _).trans hnext), hend⟩

/-- Of two blocks that fit the first ends before the second starts. -/
theorem pairwise_of_fitFrom (hp : p.toNat = start % 2 ^ 32) (h : FitFrom start sizes) :
    (blocksFrom p sizes).Pairwise fun b c ↦ b.address.toNat + b.size.toNat ≤ c.address.toNat := by
  induction sizes generalizing p start with
  | nil => exact .nil
  | cons size sizes ih =>
    obtain ⟨hstart, hstop, hrest⟩ := h
    rw [Nat.mod_eq_of_lt hstart] at hp
    subst hp
    have hp := toNat_pointerBehind ⟨p, size⟩
    apply List.Pairwise.cons _ (ih hp hrest)
    intro c hc
    calc p.toNat + size.toNat
      _ ≤ nextBlock (p.toNat + size.toNat) := le_nextBlock _
      _ ≤ c.address.toNat := (within_of_fitFrom hp hrest c hc).1

theorem lieApart_of_fitFrom (hbase : 0 < base.toNat) (hle : base.toNat ≤ start)
    (hp : p.toNat = start % 2 ^ 32) (h : FitFrom start sizes) :
    LieApart base (blocksFrom p sizes) := by
  have hwithin := within_of_fitFrom hp h
  constructor
  case ne_zero =>
    intro b hb hzero
    have habove : base.toNat ≤ b.address.toNat := hle.trans (hwithin b hb).1
    rw [hzero] at habove
    exact hbase.not_ge habove
  case above =>
    intro b hb a ha
    obtain ⟨hstart, hstop⟩ := hwithin b hb
    have ha := UInt32.le_iff_toNat_le.1 ((HeapBlock.mem_bytes_of_le hstop).1 ha).1
    exact UInt32.le_iff_toNat_le.2 (hle.trans (hstart.trans ha))
  case disjoint =>
    apply (pairwise_of_fitFrom hp h).imp_of_mem
    intro b c hb hc hbc
    exact HeapBlock.disjoint_of_le hbc (hwithin c hc).2

theorem LieApart.tail {blocks : List HeapBlock} (h : LieApart base (b :: blocks)) :
    LieApart base blocks where
  ne_zero c hc := h.ne_zero c (List.mem_cons_of_mem b hc)
  above c hc := h.above c (List.mem_cons_of_mem b hc)
  disjoint := h.disjoint.of_cons

/-- Blocks only lie apart while they fit: the first that does not starts at zero or runs over it. -/
theorem fitFrom_of_lieApart (hbase : 0 < base.toNat) (hstart : start ≤ 2 ^ 32)
    (hp : p.toNat = start % 2 ^ 32) (h : LieApart base (blocksFrom p sizes)) :
    FitFrom start sizes := by
  induction sizes generalizing p start with
  | nil => trivial
  | cons size sizes ih =>
    have hne : p ≠ 0 := h.ne_zero ⟨p, size⟩ List.mem_cons_self
    have hlt : start < 2 ^ 32 := by
      apply hstart.lt_of_ne
      rintro rfl
      exact hne (UInt32.toNat_inj.1 (by rw [hp, Nat.mod_self]; rfl))
    rw [Nat.mod_eq_of_lt hlt] at hp
    have hstop : p.toNat + size.toNat ≤ 2 ^ 32 := by
      by_contra hover
      have hzero := HeapBlock.zero_mem_bytes (b := ⟨p, size⟩) (not_le.1 hover)
      have habove := h.above ⟨p, size⟩ List.mem_cons_self 0 hzero
      exact hbase.not_ge (UInt32.le_iff_toNat_le.1 habove)
    subst hp
    refine ⟨hlt, hstop, ih ?_ (toNat_pointerBehind ⟨p, size⟩) h.tail⟩
    unfold nextBlock
    omega

end Blocks

/-! ## Calls of the allocator -/

section Calls

variable {W : Type}

/-- The low 32 bits of an immediate. -/
def word (imm : Int64) : UInt32 :=
  imm.toUInt64.toUInt32

/-- The machine computes with pointers in 32 bits and keeps the heap pointer in its world. -/
structure CountsPointers (m : Machine UInt32 W) (heapPointer : W → UInt32) : Prop where
  const : ∀ {i : Ir.Instr} {w : W}, i.op = .const → i.storage = .pointer →
    m.step i [] w = .done [word i.imm] w
  add : ∀ {i : Ir.Instr} {a b : UInt32} {w : W}, i.op = .add → i.storage = .pointer →
    m.step i [a, b] w = .done [a + b] w
  and : ∀ {i : Ir.Instr} {a b : UInt32} {w : W}, i.op = .and → i.storage = .pointer →
    m.step i [a, b] w = .done [a &&& b] w
  get : ∀ {i : Ir.Instr} {w : W}, i.op = .globalGet → i.callee = Ir.heapPointerGlobal →
    m.step i [] w = .done [heapPointer w] w
  set : ∀ {i : Ir.Instr} {p : UInt32} {w : W}, i.op = .globalSet →
    i.callee = Ir.heapPointerGlobal → ∃ w', m.step i [p] w = .done [] w' ∧ heapPointer w' = p

/-- A request for memory, and what the program does to the world before the next one. -/
structure Request (W : Type) where
  size : UInt32
  meanwhile : W → W

/-- How calls of the allocator end that serve requests one after another. -/
def served (m : Machine UInt32 W) (budget : ℕ) : List (Request W) → W → List (Outcome UInt32)
  | [], _ => []
  | r :: requests, w =>
    let b := allocator.behavior m budget [r.size] w
    b.outcome :: served m budget requests (r.meanwhile b.world)

variable {m : Machine UInt32 W} {heapPointer : W → UInt32}

/-- The code of the allocator returns the heap pointer and moves it behind the block. -/
theorem runInstrs_allocator (hm : CountsPointers m heapPointer) (s : Ir.State UInt32 W) :
    ∃ s', Ir.runInstrs m (allocator.blockAt 1).instrs s = (s', .ret [heapPointer s.world]) ∧
      heapPointer s'.world = pointerBehind ⟨heapPointer s.world, s.vars 0⟩ := by
  obtain ⟨w', hset, hpointer⟩ := hm.set (w := s.world)
    (p := pointerBehind ⟨heapPointer s.world, s.vars 0⟩)
    (i := { op := .globalSet, callee := Ir.heapPointerGlobal, storage := .pointer }) rfl rfl
  have hseven : word 7 = 7 := rfl
  have hmask : word (-8) = 0xFFFFFFF8 := rfl
  have hblock : (allocator.blockAt 1).instrs = [
      { op := .globalGet, dst := [1], callee := Ir.heapPointerGlobal, storage := .pointer },
      { op := .add, dst := [2], args := [1, 0], storage := .pointer },
      { op := .const, dst := [3], imm := 7, storage := .pointer },
      { op := .add, dst := [4], args := [2, 3], storage := .pointer },
      { op := .const, dst := [5], imm := -8, storage := .pointer },
      { op := .and, dst := [6], args := [4, 5], storage := .pointer },
      { op := .globalSet, args := [6], callee := Ir.heapPointerGlobal, storage := .pointer },
      { op := .ret, args := [1] }] := rfl
  simp only [pointerBehind] at hset
  simp [hblock, Ir.runInstrs, Ir.Run.andThen, Ir.Instr.run, Ir.Instr.isControl, Ir.Instr.direct,
    Ir.Instr.apply, Ir.Instr.operation, Ir.State.setAll, Ir.State.set, hm.const, hm.add, hm.and,
    hm.get, hseven, hmask, hset, hpointer]

/-- A call gives the heap pointer and moves it behind the block. -/
theorem behavior_allocator (hm : CountsPointers m heapPointer) (budget : ℕ) (size : UInt32)
    (w : W) :
    (allocator.behavior m budget [size] w).outcome = .returned [heapPointer w] ∧
      heapPointer (allocator.behavior m budget [size] w).world =
        pointerBehind ⟨heapPointer w, size⟩ := by
  have htrees : allocator.trees? = some [.basic 1] := rfl
  obtain ⟨s', hrun, hworld⟩ := runInstrs_allocator hm (allocator.start m [size] w)
  simp only [Ir.Function.behavior, htrees, Ir.Forest.run, Ir.Tree.run, Ir.Block.run,
    Ir.Run.andThen, hrun]
  exact ⟨rfl, hworld⟩

/-- Requests are served with blocks one behind the other. -/
theorem served_eq (hm : CountsPointers m heapPointer) (budget : ℕ) {requests : List (Request W)}
    (hkeep : ∀ r ∈ requests, ∀ w, heapPointer (r.meanwhile w) = heapPointer w) (w : W) :
    served m budget requests w =
      (blocksFrom (heapPointer w) (requests.map Request.size)).map fun b ↦
        .returned [b.address] := by
  induction requests generalizing w with
  | nil => rfl
  | cons r requests ih =>
    obtain ⟨houtcome, hpointer⟩ := behavior_allocator hm budget r.size w
    have hnext := hkeep r List.mem_cons_self (allocator.behavior m budget [r.size] w).world
    have hrest := ih (fun r' hr' ↦ hkeep r' (List.mem_cons_of_mem r hr'))
      (r.meanwhile (allocator.behavior m budget [r.size] w).world)
    rw [hnext, hpointer] at hrest
    rw [served, houtcome, hrest]
    rfl

/-! ## A machine for small runs -/

/-- A machine that knows only what the allocator needs; its world is the heap pointer.  Operands
that are missing count as zero. -/
def heapOnly : Machine UInt32 UInt32 where
  zero _ := 0
  test x := some (x != 0)
  step i args p :=
    match i.op with
    | .const => .done [word i.imm] p
    | .add => .done [args.getD 0 0 + args.getD 1 0] p
    | .and => .done [args.getD 0 0 &&& args.getD 1 0] p
    | .globalGet => .done [p] p
    | .globalSet => .done [] (args.getD 0 0)
    | _ => .trap (if i.terminates then .unreachable else .malformed)
  world_of_pure := by
    intro i args p results p' hpure h
    split at h
    case h_5 hop => simp [Ir.Instr.isPure, hop] at hpure
    all_goals cases h <;> rfl
  returns_of_pure := by
    intro i args p _
    split <;> nofun
  trap_of_terminates := by
    intro i args p hterminates
    split <;> simp_all [Ir.Instr.terminates]

theorem countsPointers_heapOnly : CountsPointers heapOnly id where
  const hop _ := by simp only [heapOnly, hop]
  add hop _ := by simp only [heapOnly, hop]; rfl
  and hop _ := by simp only [heapOnly, hop]; rfl
  get hop _ := by simp only [heapOnly, hop, id]
  set hop _ := ⟨_, by simp only [heapOnly, hop]; rfl, rfl⟩

/-! ## Where requests are served -/

/-- **Requests from the start of the heap on are served at multiples of eight, with blocks that lie
apart from one another and above static memory exactly as long as they fit.** -/
theorem lieApart_iff_fitFrom (hm : CountsPointers m heapPointer) {u : Ir.CodeUnit}
    (hu : u.Sized) {plan : Wasm.MemoryPlan} (hplan : Wasm.MemoryPlan.ofUnit u = .ok plan)
    (budget : ℕ) (requests : List (Request W))
    (hkeep : ∀ r ∈ requests, ∀ w, heapPointer (r.meanwhile w) = heapPointer w) {w : W}
    (hw : heapPointer w = plan.heapBase) :
    ∃ blocks : List HeapBlock, blocks.map HeapBlock.size = requests.map Request.size ∧
      served m budget requests w = blocks.map (fun b ↦ .returned [b.address]) ∧
      (∀ b ∈ blocks, 8 ∣ b.address.toNat) ∧
      (LieApart plan.heapBase blocks ↔
        FitFrom plan.heapBase.toNat (requests.map Request.size)) := by
  obtain ⟨dataEnd, globalEnd, scratchEnd, hzoned⟩ := Wasm.MemoryPlan.zoned_of_ofUnit hu hplan
  have hlt := plan.heapBase.toNat_lt
  have hpos : 0 < plan.heapBase.toNat := (by decide : 0 < 16).trans_le hzoned.le_heapBase
  have haligned : 8 ∣ plan.heapBase.toNat := by
    rw [hzoned.heapBase]
    exact (by decide : 8 ∣ 16).trans (Wasm.dvd_nextZone scratchEnd)
  have hstart : plan.heapBase.toNat = plan.heapBase.toNat % 2 ^ 32 := (Nat.mod_eq_of_lt hlt).symm
  refine ⟨blocksFrom plan.heapBase (requests.map Request.size), map_size_blocksFrom, ?_,
    dvd_of_mem_blocksFrom haligned, ?_⟩
  · rw [served_eq hm budget hkeep, hw]
  · exact ⟨fitFrom_of_lieApart hpos hlt.le hstart, lieApart_of_fitFrom hpos le_rfl hstart⟩

/-- Three small requests behind no static memory. -/
theorem lieApart_three_requests :
    ∃ blocks : List HeapBlock, blocks.map HeapBlock.size = [5, 0, 16] ∧
      served heapOnly 0 [⟨5, id⟩, ⟨0, id⟩, ⟨16, id⟩] 16 =
        blocks.map (fun b ↦ .returned [b.address]) ∧
      (∀ b ∈ blocks, 8 ∣ b.address.toNat) ∧ LieApart 16 blocks := by
  have hu : ({} : Ir.CodeUnit).Sized := ⟨nofun, nofun, nofun⟩
  have hplan : Wasm.MemoryPlan.ofUnit {} = .ok ⟨[], [], [], 16⟩ := by decide
  obtain ⟨blocks, hsizes, hserved, haligned, hiff⟩ :=
    lieApart_iff_fitFrom countsPointers_heapOnly hu hplan 0 [⟨5, id⟩, ⟨0, id⟩, ⟨16, id⟩]
      (by simp) (w := 16) rfl
  exact ⟨blocks, hsizes, hserved, haligned, hiff.2 (by decide)⟩

/-- Behind two blocks of half the address space each, the third lies on the first. -/
theorem third_block_on_first :
    Wasm.MemoryPlan.ofUnit {} = .ok ⟨[], [], [], 16⟩ ∧
      served heapOnly 0 [⟨0x80000000, id⟩, ⟨0x80000000, id⟩, ⟨8, id⟩] 16 =
        [.returned [16], .returned [0x80000010], .returned [16]] ∧
      ¬ Disjoint (HeapBlock.bytes ⟨16, 0x80000000⟩) (HeapBlock.bytes ⟨16, 8⟩) := by
  refine ⟨by decide, ?_, Set.not_disjoint_iff.2 ⟨16, ?_, ?_⟩⟩
  · rw [served_eq countsPointers_heapOnly 0 (by simp)]
    decide
  · exact ⟨0, by decide, by decide⟩
  · exact ⟨0, by decide, by decide⟩

end Calls

end Lowering

end WasmBackend
