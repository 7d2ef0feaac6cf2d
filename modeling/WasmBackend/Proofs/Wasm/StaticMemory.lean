import Mathlib
import WasmBackend.Wasm.Memory

/-!
# Where static memory lies

The entries of a zone lie one behind the other, and every zone starts at the first multiple of 16
behind the one before.  Positions are counted in 64 bits.  Where sizes make a position wrap around,
it lands so far below zero that the few alignments to come cannot lead back, and the heap would
start at no address; so where there is a plan, every position is the sum it stands for.
-/

namespace WasmBackend

open Ir (CodeUnit GlobalVar Zone)

namespace Ir.CodeUnit

/-- No global has a negative size, and no size is larger than the machine can count. -/
structure Sized (u : CodeUnit) : Prop where
  segments : ∀ bytes ∈ u.segments, bytes.length < 2 ^ 63
  globals_nonneg : ∀ g ∈ u.globals, 0 ≤ g.size
  globals_lt : ∀ g ∈ u.globals, g.size < 2 ^ 63

/-- The sizes of the static entries of a zone. -/
def zoneSizes (u : CodeUnit) : Zone → List ℕ
  | .data => u.segments.map List.length
  | .global => u.globals.map fun g ↦ g.size.toNat
  | .scratch => u.scratch.map fun _ ↦ 8
  | .unknown _ _ => []

variable {u : CodeUnit}

theorem Sized.lt_of_mem_zoneSizes (hu : u.Sized) {zone : Zone} {size : ℕ}
    (h : size ∈ u.zoneSizes zone) : size < 2 ^ 63 := by
  cases zone with
  | data =>
    obtain ⟨bytes, hbytes, rfl⟩ := List.mem_map.mp h
    exact hu.segments bytes hbytes
  | global =>
    obtain ⟨g, hg, rfl⟩ := List.mem_map.mp h
    have hnonneg := hu.globals_nonneg g hg
    have hlt := hu.globals_lt g hg
    omega
  | scratch =>
    obtain ⟨_, _, rfl⟩ := List.mem_map.mp h
    norm_num
  | unknown code hcode => cases h

theorem Sized.map_ofInt_globals (hu : u.Sized) :
    (u.globals.map fun g ↦ Int64.ofInt g.size) = (u.zoneSizes .global).map Int64.ofNat := by
  simp only [zoneSizes, List.map_map]
  refine List.map_congr_left fun g hg ↦ ?_
  rw [Function.comp_apply, ← Int64.ofInt_eq_ofNat, Int.toNat_of_nonneg (hu.globals_nonneg g hg)]

end Ir.CodeUnit

namespace Wasm

/-- So many bytes from an address on. -/
structure Extent where
  start : ℕ
  size : ℕ

/-- The addresses of the bytes. -/
def Extent.addresses (e : Extent) : Set ℕ :=
  Set.Ico e.start (e.start + e.size)

/-- The extents of entries with these addresses and sizes. -/
def extentsOf (addresses : List UInt32) (sizes : List ℕ) : List Extent :=
  addresses.zipWith (fun a n ↦ ⟨a.toNat, n⟩) sizes

/-- The extents of a zone's entries. -/
def MemoryPlan.extents (plan : MemoryPlan) (u : CodeUnit) (zone : Zone) : List Extent :=
  extentsOf (plan.zoneEntries zone) (u.zoneSizes zone)

/-- The extents of everything static. -/
def MemoryPlan.staticExtents (plan : MemoryPlan) (u : CodeUnit) : List Extent :=
  plan.extents u .data ++ plan.extents u .global ++ plan.extents u .scratch

/-! ## Entries one behind the other -/

/-- Entries with these addresses and sizes lie one behind the other between two positions. -/
inductive Placed : ℕ → List UInt32 → List ℕ → ℕ → Prop
  | nil (start : ℕ) : Placed start [] [] start
  | cons {start stop size : ℕ} {address : UInt32} {addresses : List UInt32} {sizes : List ℕ}
      (haddress : address.toNat = start) (rest : Placed (start + size) addresses sizes stop) :
      Placed start (address :: addresses) (size :: sizes) stop

section Placed

variable {start stop : ℕ} {addresses : List UInt32} {sizes : List ℕ}

theorem Placed.le (h : Placed start addresses sizes stop) : start ≤ stop := by
  induction h with
  | nil start => exact le_rfl
  | cons _ _ ih => exact (Nat.le_add_right _ _).trans ih

theorem Placed.length_eq (h : Placed start addresses sizes stop) :
    addresses.length = sizes.length := by
  induction h with
  | nil start => rfl
  | cons _ _ ih => exact congrArg (· + 1) ih

/-- The entries lie between the two positions. -/
theorem Placed.within (h : Placed start addresses sizes stop) :
    ∀ e ∈ extentsOf addresses sizes, start ≤ e.start ∧ e.start + e.size ≤ stop := by
  induction h with
  | nil start => nofun
  | cons haddress rest ih =>
    intro e he
    obtain rfl | he := List.mem_cons.mp he
    · exact ⟨haddress.ge, by simpa [haddress] using rest.le⟩
    · obtain ⟨hstart, hstop⟩ := ih e he
      exact ⟨(Nat.le_add_right _ _).trans hstart, hstop⟩

/-- One entry ends before the next one starts. -/
theorem Placed.pairwise (h : Placed start addresses sizes stop) :
    (extentsOf addresses sizes).Pairwise fun e f ↦ e.start + e.size ≤ f.start := by
  induction h with
  | nil start => exact .nil
  | cons haddress rest ih =>
    refine .cons (fun f hf ↦ ?_) ih
    simpa [haddress] using (rest.within f hf).1

end Placed

/-! ## Positions -/

/-- The first multiple of 16 that is no smaller. -/
def nextZone (n : ℕ) : ℕ :=
  (n + 15) / 16 * 16

theorem le_nextZone (n : ℕ) : n ≤ nextZone n := by
  unfold nextZone
  omega

theorem dvd_nextZone (n : ℕ) : 16 ∣ nextZone n :=
  Nat.dvd_mul_left 16 _

/-- The position has wrapped around, so far that it stays below zero through `count` alignments. -/
def Wrapped (count : ℕ) (position : Int64) : Prop :=
  position.toInt < -(32 * count : ℤ)

section Positions

variable {p : Int64} {n count : ℕ}

/-- A sum in 64 bits is the sum, unless that is too large. -/
theorem bmod_cases {x : ℤ} (hlow : -2 ^ 63 ≤ x) (hhigh : x < 2 ^ 64) :
    x.bmod (2 ^ 64) = x ∧ x < 2 ^ 63 ∨ x.bmod (2 ^ 64) = x - 2 ^ 64 ∧ 2 ^ 63 ≤ x := by
  dsimp only [Int.bmod]
  split <;> omega

theorem toInt_add_ofNat {size : ℕ} (hp : p.toInt = n) (hn : n < 2 ^ 32) (hsize : size < 2 ^ 63)
    (hcount : count ≤ 3) :
    (p + Int64.ofNat size).toInt = (n + size : ℕ) ∨ Wrapped count (p + Int64.ofNat size) := by
  unfold Wrapped
  rw [Int64.toInt_add, Int64.toInt_ofNat_of_lt hsize, hp]
  obtain ⟨hsum, -⟩ | ⟨hsum, -⟩ := bmod_cases (x := n + size) (by omega) (by omega) <;> omega

/-- Division rounds toward zero: down where there is nothing below zero, else up. -/
theorem tdiv_cases (x : ℤ) :
    0 ≤ x ∧ x.tdiv 16 = x / 16 ∨ x < 0 ∧ x.tdiv 16 = -(-x / 16) := by
  obtain hx | hx := le_or_gt 0 x
  · exact .inl ⟨hx, Int.tdiv_eq_ediv_of_nonneg hx⟩
  · refine .inr ⟨hx, ?_⟩
    rw [← Int.tdiv_eq_ediv_of_nonneg (by omega), Int.neg_tdiv, neg_neg]

/-- The alignment of a position in terms of the position behind the rounding. -/
theorem toInt_alignUp_eq (p : Int64) :
    (alignUp p zoneAlign).toInt = ((p.toInt + 15).bmod (2 ^ 64)).tdiv 16 * 16 := by
  have hlow := (p + 16 - 1).le_toInt
  have hhigh := (p + 16 - 1).toInt_lt
  have hsum : (p + 16 - 1).toInt = (p.toInt + 15).bmod (2 ^ 64) := by
    rw [Int64.toInt_sub, Int64.toInt_add, show (16 : Int64).toInt = 16 by decide,
      show (1 : Int64).toInt = 1 by decide, Int.bmod_sub_bmod]
    congr 1
    ring
  have hcases := tdiv_cases (p + 16 - 1).toInt
  have hdiv : ((p + 16 - 1) / 16).toInt = (p + 16 - 1).toInt.tdiv 16 := by
    rw [Int64.toInt_div, show (16 : Int64).toInt = 16 by decide]
    exact Int.bmod_eq_of_le (by omega) (by omega)
  show ((p + 16 - 1) / 16 * 16).toInt = _
  rw [Int64.toInt_mul, hdiv, show (16 : Int64).toInt = 16 by decide, ← hsum]
  exact Int.bmod_eq_of_le (by omega) (by omega)

/-- An alignment leads to the next zone, or the position has wrapped around. -/
theorem toInt_alignUp (hp : p.toInt = n) (hcount : count ≤ 3) :
    (alignUp p zoneAlign).toInt = (nextZone n : ℕ) ∨ Wrapped count (alignUp p zoneAlign) := by
  have hlt := p.toInt_lt
  unfold Wrapped nextZone
  rw [toInt_alignUp_eq, hp]
  have hcases := tdiv_cases ((n + 15 : ℤ).bmod (2 ^ 64))
  obtain ⟨hsum, -⟩ | ⟨hsum, -⟩ := bmod_cases (x := n + 15) (by omega) (by omega) <;> omega

theorem Wrapped.alignUp (h : Wrapped (count + 1) p) : Wrapped count (alignUp p zoneAlign) := by
  have hlow := p.le_toInt
  unfold Wrapped at *
  rw [toInt_alignUp_eq]
  have hcases := tdiv_cases ((p.toInt + 15).bmod (2 ^ 64))
  obtain ⟨hsum, -⟩ | ⟨hsum, -⟩ := bmod_cases (x := p.toInt + 15) (by omega) (by omega) <;> omega

/-- A position is an address where it is not negative and fits into 32 bits. -/
theorem toAddress_eq_ok {address : UInt32} :
    toAddress p = .ok address ↔ p.toInt = address.toNat := by
  have hlt := address.toNat_lt
  unfold toAddress
  split
  · rename_i hrange
    rw [Except.ok.injEq, ← UInt32.toNat_inj, Nat.toUInt32, UInt32.toNat_ofNat']
    omega
  · rename_i hrange
    simp only [reduceCtorEq, false_iff]
    omega

/-! ## Where the entries of a unit are placed -/

/-- Behind a position below zero there is no entry. -/
theorem placeEntries_of_neg {sizes : List Int64} {addresses : List UInt32} {stop : Int64}
    (hp : p.toInt < 0) (h : placeEntries p sizes = .ok (addresses, stop)) : stop = p := by
  cases sizes with
  | nil => exact (Prod.mk.inj (Except.ok.inj h)).2.symm
  | cons size sizes =>
    simp only [placeEntries, bind, Except.bind] at h
    split at h
    · cases h
    · rename_i address haddress
      have hpos := toAddress_eq_ok.mp haddress
      omega

/-- Entries are placed one behind the other, or the last of them makes the position wrap around. -/
theorem placed_of_placeEntries {sizes : List ℕ} {addresses : List UInt32} {stop : Int64}
    (hsizes : ∀ size ∈ sizes, size < 2 ^ 63) (hcount : count ≤ 3) (hp : p.toInt = n)
    (h : placeEntries p (sizes.map Int64.ofNat) = .ok (addresses, stop)) :
    (∃ e : ℕ, stop.toInt = e ∧ Placed n addresses sizes e) ∨ Wrapped count stop := by
  induction sizes generalizing p n addresses with
  | nil =>
    cases h
    exact .inl ⟨n, hp, .nil n⟩
  | cons size sizes ih =>
    simp only [List.map_cons, placeEntries, bind, Except.bind] at h
    split at h
    · cases h
    rename_i address haddress
    have hstart := toAddress_eq_ok.mp haddress
    have hlt := address.toNat_lt
    split at h
    · cases h
    rename_i rest hrest
    cases h
    have hsize := hsizes size List.mem_cons_self
    obtain hnext | hwrapped := toInt_add_ofNat hp (by omega) hsize hcount
    · obtain ⟨e, he, hplaced⟩ | hwrapped :=
        ih (fun m hm ↦ hsizes m (List.mem_cons_of_mem _ hm)) hnext hrest
      · exact .inl ⟨e, he, .cons (by omega) hplaced⟩
      · exact .inr hwrapped
    · rw [placeEntries_of_neg (by unfold Wrapped at hwrapped; omega) hrest]
      exact .inr hwrapped

/-- The position is a number with this property, or it has wrapped around. -/
def Reaches (count : ℕ) (position : Int64) (property : ℕ → Prop) : Prop :=
  (∃ n : ℕ, position.toInt = n ∧ property n) ∨ Wrapped count position

theorem Reaches.place {property : ℕ → Prop} {sizes : List ℕ} {addresses : List UInt32}
    {stop : Int64} (hp : Reaches count p property) (hsizes : ∀ size ∈ sizes, size < 2 ^ 63)
    (hcount : count ≤ 3) (h : placeEntries p (sizes.map Int64.ofNat) = .ok (addresses, stop)) :
    Reaches count stop fun e ↦ ∃ n, property n ∧ Placed n addresses sizes e := by
  obtain ⟨n, hn, hproperty⟩ | hwrapped := hp
  · obtain ⟨e, he, hplaced⟩ | hwrapped := placed_of_placeEntries hsizes hcount hn h
    · exact .inl ⟨e, he, n, hproperty, hplaced⟩
    · exact .inr hwrapped
  · rw [placeEntries_of_neg (by unfold Wrapped at hwrapped; omega) h]
    exact .inr hwrapped

theorem Reaches.align {property : ℕ → Prop} (hp : Reaches (count + 1) p property)
    (hcount : count ≤ 3) :
    Reaches count (alignUp p zoneAlign) fun m ↦ ∃ n, property n ∧ m = nextZone n := by
  obtain ⟨n, hn, hproperty⟩ | hwrapped := hp
  · obtain hnext | hwrapped := toInt_alignUp hn hcount
    · exact .inl ⟨nextZone n, hnext, n, hproperty, rfl⟩
    · exact .inr hwrapped
  · exact .inr hwrapped.alignUp

end Positions

/-- The zones of a plan and where their entries end. -/
structure MemoryPlan.Zoned (plan : MemoryPlan) (u : CodeUnit) (dataEnd globalEnd scratchEnd : ℕ) :
    Prop where
  data : Placed 16 plan.segments (u.zoneSizes .data) dataEnd
  global : Placed (nextZone dataEnd) plan.globals (u.zoneSizes .global) globalEnd
  scratch : Placed (nextZone globalEnd) plan.scratch (u.zoneSizes .scratch) scratchEnd
  heapBase : plan.heapBase.toNat = nextZone scratchEnd

/-- **Where there is a plan, no position has wrapped around.** -/
theorem MemoryPlan.zoned_of_ofUnit {u : CodeUnit} {plan : MemoryPlan} (hu : u.Sized)
    (h : MemoryPlan.ofUnit u = .ok plan) :
    ∃ dataEnd globalEnd scratchEnd, plan.Zoned u dataEnd globalEnd scratchEnd := by
  have hsegments : (u.segments.map fun bytes ↦ Int64.ofNat bytes.length) =
      (u.zoneSizes .data).map Int64.ofNat := by
    rw [CodeUnit.zoneSizes, List.map_map]
    rfl
  have hscratch : (u.scratch.map fun _ ↦ scratchSlotSize) =
      (u.zoneSizes .scratch).map Int64.ofNat := by
    rw [CodeUnit.zoneSizes, List.map_map]
    rfl
  have hsizes (zone : Zone) : ∀ size ∈ u.zoneSizes zone, size < 2 ^ 63 :=
    fun _ ↦ hu.lt_of_mem_zoneSizes
  simp only [MemoryPlan.ofUnit, bind, Except.bind, hsegments, hu.map_ofInt_globals, hscratch] at h
  split at h
  · cases h
  rename_i data hdata
  split at h
  · cases h
  rename_i global hglobal
  split at h
  · cases h
  rename_i scratch hscratch
  split at h
  · cases h
  rename_i heapBase hheapBase
  cases h
  have hstart : Reaches 3 dataBase fun n ↦ n = 16 := .inl ⟨16, by decide, rfl⟩
  have hend := (((hstart.place (hsizes .data) (by omega) hdata).align (by omega)).place
    (hsizes .global) (by omega) hglobal).align (by omega)
  have hheap := (hend.place (hsizes .scratch) (by omega) hscratch).align (by omega)
  rw [toAddress_eq_ok] at hheapBase
  obtain ⟨_, hn, scratchEnd, ⟨_, ⟨globalEnd, ⟨_, ⟨dataEnd, ⟨_, rfl, hdata⟩, rfl⟩, hglobal⟩, rfl⟩,
    hscratch⟩, rfl⟩ | hwrapped := hheap
  · exact ⟨dataEnd, globalEnd, scratchEnd, hdata, hglobal, hscratch, by dsimp only; omega⟩
  · unfold Wrapped at hwrapped
    omega

/-! ## What follows from a plan -/

section Zoned

variable {u : CodeUnit} {plan : MemoryPlan} {dataEnd globalEnd scratchEnd : ℕ}

theorem MemoryPlan.mem_staticExtents {zone : Zone} {e : Extent} (h : e ∈ plan.extents u zone) :
    e ∈ plan.staticExtents u := by
  unfold staticExtents
  cases zone with
  | data => simp [h]
  | global => simp [h]
  | scratch => simp [h]
  | unknown code hcode => exact absurd h List.not_mem_nil

theorem MemoryPlan.Zoned.length_eq (h : plan.Zoned u dataEnd globalEnd scratchEnd) (zone : Zone) :
    (plan.zoneEntries zone).length = (u.zoneSizes zone).length := by
  cases zone with
  | data => exact h.data.length_eq
  | global => exact h.global.length_eq
  | scratch => exact h.scratch.length_eq
  | unknown code hcode => rfl

/-- Everything static lies between the start of data and the heap. -/
theorem MemoryPlan.Zoned.within (h : plan.Zoned u dataEnd globalEnd scratchEnd) :
    ∀ e ∈ plan.staticExtents u, 16 ≤ e.start ∧ e.start + e.size ≤ plan.heapBase.toNat := by
  have hdata := h.data.le
  have hdata' := le_nextZone dataEnd
  have hglobal := h.global.le
  have hglobal' := le_nextZone globalEnd
  have hscratch := h.scratch.le
  have hscratch' := le_nextZone scratchEnd
  have hheap := h.heapBase
  intro e he
  obtain he | he := List.mem_append.mp he
  · obtain he | he := List.mem_append.mp he
    · have hwithin := h.data.within e he
      omega
    · have hwithin := h.global.within e he
      omega
  · have hwithin := h.scratch.within e he
    omega

theorem MemoryPlan.Zoned.le_heapBase (h : plan.Zoned u dataEnd globalEnd scratchEnd) :
    16 ≤ plan.heapBase.toNat :=
  calc 16
    _ ≤ nextZone dataEnd := h.data.le.trans (le_nextZone dataEnd)
    _ ≤ nextZone globalEnd := h.global.le.trans (le_nextZone globalEnd)
    _ ≤ nextZone scratchEnd := h.scratch.le.trans (le_nextZone scratchEnd)
    _ = plan.heapBase.toNat := h.heapBase.symm

/-- Of two static entries the first ends before the second starts. -/
theorem MemoryPlan.Zoned.pairwise (h : plan.Zoned u dataEnd globalEnd scratchEnd) :
    (plan.staticExtents u).Pairwise fun e f ↦ e.start + e.size ≤ f.start := by
  have hdata := le_nextZone dataEnd
  have hglobal := h.global.le
  have hglobal' := le_nextZone globalEnd
  rw [staticExtents, List.pairwise_append, List.pairwise_append]
  refine ⟨⟨h.data.pairwise, h.global.pairwise, fun e he f hf ↦ ?_⟩, h.scratch.pairwise,
    fun e he f hf ↦ ?_⟩
  · have hfirst := h.data.within e he
    have hsecond := h.global.within f hf
    omega
  · have hsecond := h.scratch.within f hf
    obtain he | he := List.mem_append.mp he
    · have hfirst := h.data.within e he
      omega
    · have hfirst := h.global.within e he
      omega

/-- The address some bytes into an entry. -/
theorem MemoryPlan.Zoned.address_eq (h : plan.Zoned u dataEnd globalEnd scratchEnd) {zone : Zone}
    {i k : ℕ} {e : Extent} (he : (plan.extents u zone)[i]? = some e) (hk : k < e.size) :
    ∃ a, plan.address zone i (Int64.ofNat k) = .ok a ∧ a.toNat = e.start + k := by
  have hheap := plan.heapBase.toNat_lt
  have hwithin := h.within e (mem_staticExtents (List.mem_of_getElem? he))
  obtain ⟨start, n, hstart, -, rfl⟩ := List.getElem?_zipWith_eq_some.mp he
  dsimp only at hk hwithin ⊢
  have hoffset : (Int64.ofNat k).toInt = k := Int64.toInt_ofNat_of_lt (by omega)
  refine ⟨start + k.toUInt32, ?_, ?_⟩
  · unfold address
    rw [if_neg (by omega), Int.toNat_natCast, hstart]
    dsimp only
    rw [if_pos (by omega), hoffset, Int.toNat_natCast]
  · rw [UInt32.toNat_add, Nat.toUInt32, UInt32.toNat_ofNat']
    omega

end Zoned

theorem Extent.disjoint_of_le {e f : Extent} (h : e.start + e.size ≤ f.start) :
    Disjoint e.addresses f.addresses :=
  Set.Ico_disjoint_Ico.mpr (by omega)

/-- The static entries of a unit lie apart from one another in front of a heap that starts inside
the memory of so many pages, and addresses into entries are inside of them. -/
structure MemoryPlan.Separates (plan : MemoryPlan) (u : CodeUnit) (pages : ℕ) : Prop where
  /-- Every entry has an address. -/
  length_eq : ∀ zone, (plan.zoneEntries zone).length = (u.zoneSizes zone).length
  disjoint : (plan.staticExtents u).Pairwise fun e f ↦ Disjoint e.addresses f.addresses
  within : ∀ e ∈ plan.staticExtents u, 16 ≤ e.start ∧ e.start + e.size ≤ plan.heapBase.toNat
  aligned : 16 ∣ plan.heapBase.toNat
  heapBase_le : plan.heapBase.toNat ≤ pages * pageSize
  address_mem : ∀ (zone : Zone) (i k : ℕ) (e : Extent), (plan.extents u zone)[i]? = some e →
    k < e.size → ∃ a, plan.address zone i (Int64.ofNat k) = .ok a ∧ a.toNat ∈ e.addresses

/-- A plan that fits into the pages there are keeps the static entries apart. -/
theorem MemoryPlan.separates_of_ofUnit {u : CodeUnit} {plan : MemoryPlan} {pages : UInt32}
    (hu : u.Sized) (h : MemoryPlan.ofUnit u = .ok plan) (hpages : plan.pages ≤ pages) :
    plan.Separates u pages.toNat := by
  obtain ⟨dataEnd, globalEnd, scratchEnd, hzoned⟩ := zoned_of_ofUnit hu h
  constructor
  case length_eq => exact hzoned.length_eq
  case disjoint => exact hzoned.pairwise.imp Extent.disjoint_of_le
  case within => exact hzoned.within
  case aligned => exact hzoned.heapBase ▸ dvd_nextZone scratchEnd
  case heapBase_le =>
    have hheap := plan.heapBase.toNat_lt
    have hle := UInt32.le_iff_toNat_le.mp hpages
    rw [MemoryPlan.pages, Nat.toUInt32, UInt32.toNat_ofNat'] at hle
    unfold pageSize at *
    omega
  case address_mem =>
    intro zone i k e he hk
    obtain ⟨a, haddress, ha⟩ := hzoned.address_eq he hk
    exact ⟨a, haddress, by rw [ha, Extent.addresses, Set.mem_Ico]; omega⟩

end Wasm

end WasmBackend
