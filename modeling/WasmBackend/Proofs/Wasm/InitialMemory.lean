import WasmBackend.Proofs.Wasm.Emitted
import WasmBackend.Proofs.Wasm.StaticMemory

/-!
# The memory a module starts with

A module starts with a memory of the pages its memory section asks for, all zero, into which the
segments of its data section are copied one after the other; a segment that does not fit keeps the
module from starting.  The memory of an emitted module holds every data segment where the plan says
and zeros everywhere else, so in all globals and scratch slots.
-/

namespace WasmBackend.Wasm

open Ir (CodeUnit Zone)

/-- Linear memory; the contents matter below the size only. -/
structure Memory where
  size : ℕ
  byte : ℕ → UInt8

namespace Memory

/-- So many pages of zeros. -/
def zeros (pages : UInt32) : Memory :=
  ⟨pages.toNat * pageSize, fun _ ↦ 0⟩

/-- The memory with the bytes of a segment copied to its address, if they fit. -/
def copy (memory : Memory) (d : DataSegment) : Option Memory :=
  if d.address.toNat + d.bytes.length ≤ memory.size then
    some { memory with
      byte := fun a ↦
        if a < d.address.toNat then memory.byte a
        else (d.bytes[a - d.address.toNat]?).getD (memory.byte a) }
  else none

open Reader in
/-- The memory that the module in some bytes starts with. -/
def ofModule (input : List UInt8) : Option Memory := do
  let found ← Module.sectionsIn input
  let limits ← inSection found 5 Reader.memory none
  let segments ← inSection found 11 (vector dataSegment) (some [])
  segments.foldlM copy (zeros limits.1)

end Memory

/-- The extent of a segment. -/
def DataSegment.extent (d : DataSegment) : Extent :=
  ⟨d.address.toNat, d.bytes.length⟩

theorem Memory.ofModule_encode {m : Module} (h : ∀ s ∈ m.sections, s.2.length < u32Bound) :
    Memory.ofModule m.encode = m.data.foldlM Memory.copy (Memory.zeros m.minPages) := by
  unfold ofModule
  rw [Module.sectionsIn_encode h, Option.bind_eq_bind, Option.bind_some, Module.read_memory,
    Option.bind_eq_bind, Option.bind_some, Module.read_data h, Option.bind_eq_bind,
    Option.bind_some]

/-! ## Copying segments -/

section Copy

variable {memory : Memory} {d : DataSegment}

/-- A segment that fits is copied, and nothing else changes. -/
theorem Memory.copy_of_le (h : d.extent.start + d.extent.size ≤ memory.size) :
    ∃ copied, memory.copy d = some copied ∧ copied.size = memory.size ∧
      (∀ (k : ℕ) (b : UInt8), d.bytes[k]? = some b → copied.byte (d.address.toNat + k) = b) ∧
      ∀ a ∉ d.extent.addresses, copied.byte a = memory.byte a := by
  refine ⟨_, if_pos h, rfl, fun k b hb ↦ ?_, fun a ha ↦ ?_⟩
  · dsimp only
    rw [if_neg (by omega), Nat.add_sub_cancel_left, hb, Option.getD_some]
  · dsimp only
    split
    · rfl
    · have hout : d.bytes.length ≤ a - d.address.toNat := by
        simp only [Extent.addresses, DataSegment.extent, Set.mem_Ico] at ha
        omega
      rw [List.getElem?_eq_none hout, Option.getD_none]

/-- Segments that fit and lie apart are all copied, and nothing else changes. -/
theorem Memory.foldlM_copy {segments : List DataSegment} (memory : Memory)
    (hfits : ∀ d ∈ segments, d.extent.start + d.extent.size ≤ memory.size)
    (hapart : segments.Pairwise fun d e ↦ Disjoint d.extent.addresses e.extent.addresses) :
    ∃ copied, segments.foldlM Memory.copy memory = some copied ∧ copied.size = memory.size ∧
      (∀ d ∈ segments, ∀ (k : ℕ) (b : UInt8), d.bytes[k]? = some b →
        copied.byte (d.address.toNat + k) = b) ∧
      ∀ a, (∀ d ∈ segments, a ∉ d.extent.addresses) → copied.byte a = memory.byte a := by
  induction segments generalizing memory with
  | nil => exact ⟨memory, rfl, rfl, nofun, fun _ _ ↦ rfl⟩
  | cons d segments ih =>
    obtain ⟨hfirst, hrest⟩ := List.pairwise_cons.mp hapart
    obtain ⟨first, hcopy, hsize, hbytes, hsame⟩ :=
      Memory.copy_of_le (hfits d List.mem_cons_self)
    obtain ⟨copied, hcopies, hsize', hbytes', hsame'⟩ := ih first
      (fun e he ↦ hsize ▸ hfits e (List.mem_cons_of_mem d he)) hrest
    refine ⟨copied, by rw [List.foldlM_cons, hcopy]; exact hcopies, hsize'.trans hsize, ?_, ?_⟩
    · intro e he k b hb
      obtain rfl | he := List.mem_cons.mp he
      · -- the segments behind it lie elsewhere
        have hk : k < e.bytes.length := (List.getElem?_eq_some_iff.mp hb).1
        have hin : e.address.toNat + k ∈ e.extent.addresses := by
          simp only [Extent.addresses, DataSegment.extent, Set.mem_Ico]
          omega
        rw [hsame' _ fun f hf ↦ (hfirst f hf).notMem_of_mem_left hin]
        exact hbytes k b hb
      · exact hbytes' e he k b hb
    · intro a ha
      rw [hsame' a fun e he ↦ ha e (List.mem_cons_of_mem d he)]
      exact hsame a (ha d List.mem_cons_self)

end Copy

/-! ## The memory of an emitted module -/

/-- The memory holds every data segment of the unit where the plan says, and zeros in all globals
and scratch slots. -/
structure MemoryPlan.Initializes (plan : MemoryPlan) (u : CodeUnit) (memory : Memory) : Prop where
  data : ∀ (i k : ℕ) (bytes : List UInt8) (b : UInt8), u.segments[i]? = some bytes →
    bytes[k]? = some b → ∃ a, plan.address .data i (Int64.ofNat k) = .ok a ∧ memory.byte a.toNat = b
  zero : ∀ e ∈ plan.extents u .global ++ plan.extents u .scratch, ∀ a ∈ e.addresses,
    memory.byte a = 0

section Emitted

variable {u : CodeUnit} {plan : MemoryPlan}

/-- The data segments as the module has them. -/
def MemoryPlan.segmentsOf (plan : MemoryPlan) (u : CodeUnit) : List DataSegment :=
  (u.segments.zip plan.segments).map fun s ↦ ⟨s.2, s.1⟩

theorem MemoryPlan.map_extent_segmentsOf (plan : MemoryPlan) (u : CodeUnit) :
    (plan.segmentsOf u).map DataSegment.extent = plan.extents u .data := by
  show _ = plan.segments.zipWith _ (u.segments.map List.length)
  rw [segmentsOf, List.map_map, List.zipWith_map_right, List.zipWith_comm, List.zip,
    List.map_zipWith]
  rfl

theorem MemoryPlan.extent_mem {d : DataSegment} (h : d ∈ plan.segmentsOf u) :
    d.extent ∈ plan.extents u .data :=
  map_extent_segmentsOf plan u ▸ List.mem_map_of_mem h

/-- Where every entry has an address, so has every segment. -/
theorem MemoryPlan.Zoned.getElem?_segmentsOf {dataEnd globalEnd scratchEnd i : ℕ}
    {bytes : List UInt8} (h : plan.Zoned u dataEnd globalEnd scratchEnd)
    (hbytes : u.segments[i]? = some bytes) :
    ∃ address, (plan.segmentsOf u)[i]? = some ⟨address, bytes⟩ := by
  have hlength := h.length_eq .data
  have hi := (List.getElem?_eq_some_iff.mp hbytes).1
  simp only [MemoryPlan.zoneEntries, CodeUnit.zoneSizes, List.length_map] at hlength
  rw [← hlength] at hi
  have haddress : plan.segments[i]? = some plan.segments[i] := List.getElem?_eq_getElem hi
  have hpair : (u.segments.zip plan.segments)[i]? = some (bytes, plan.segments[i]) :=
    List.getElem?_zip_eq_some.mpr ⟨hbytes, haddress⟩
  exact ⟨plan.segments[i], by rw [segmentsOf, List.getElem?_map, hpair, Option.map_some]⟩

/-- The segments of a planned unit whose heap starts inside the memory can all be copied. -/
theorem MemoryPlan.Zoned.initializes {dataEnd globalEnd scratchEnd : ℕ} {pages : UInt32}
    (h : plan.Zoned u dataEnd globalEnd scratchEnd)
    (hpages : plan.heapBase.toNat ≤ pages.toNat * pageSize) :
    ∃ memory, (plan.segmentsOf u).foldlM Memory.copy (Memory.zeros pages) = some memory ∧
      memory.size = pages.toNat * pageSize ∧ plan.Initializes u memory := by
  have hpairwise := h.pairwise
  rw [staticExtents, List.append_assoc, List.pairwise_append] at hpairwise
  obtain ⟨hdata, -, hothers⟩ := hpairwise
  rw [← map_extent_segmentsOf, List.pairwise_map] at hdata
  obtain ⟨memory, hcopy, hsize, hbytes, hzero⟩ := Memory.foldlM_copy (Memory.zeros pages)
    (fun d hd ↦ (h.within _ (mem_staticExtents (extent_mem hd))).2.trans hpages)
    (hdata.imp Extent.disjoint_of_le)
  refine ⟨memory, hcopy, hsize, ?_, ?_⟩
  · intro i k bytes b hi hk
    obtain ⟨address, hd⟩ := h.getElem?_segmentsOf hi
    have hextent : (plan.extents u .data)[i]? = some (DataSegment.extent ⟨address, bytes⟩) := by
      rw [← map_extent_segmentsOf, List.getElem?_map, hd, Option.map_some]
    obtain ⟨a, haddress, ha⟩ := h.address_eq hextent (List.getElem?_eq_some_iff.mp hk).1
    exact ⟨a, haddress, ha ▸ hbytes _ (List.mem_of_getElem? hd) k b hk⟩
  · intro e he a ha
    refine hzero a fun d hd hin ↦ ?_
    have hdisjoint := Extent.disjoint_of_le (hothers _ (extent_mem hd) e he)
    exact hdisjoint.notMem_of_mem_left hin ha

end Emitted

/-- **Static memory is laid out without overlap and initialised.**  Where emission gives a module
whose sections can be counted, the static entries of the unit lie apart from one another in front
of the heap, which starts inside the memory; and in the memory the module starts with, the data
segments are where the plan says, and all globals and scratch slots are zero. -/
theorem memory_of_run {u : CodeUnit} {limits : MemoryLimits} {parent : ℕ} {s t : Emission}
    {m : Module} (hu : u.Sized) (hrun : Emission.run u limits parent s = (.ok (some m), t))
    (hs : s.types = []) (hsections : ∀ x ∈ m.sections, x.2.length < u32Bound) :
    ∃ plan memory, MemoryPlan.ofUnit u = .ok plan ∧
      plan.Separates u limits.normalized.min.toNat ∧ Memory.ofModule m.encode = some memory ∧
      memory.size = limits.normalized.min.toNat * pageSize ∧ plan.Initializes u memory := by
  have hnodup : (s.types.map FuncType.key).Nodup := by
    simp [hs]
  obtain ⟨plan, hplan, hm⟩ := (Emission.ensures_run hnodup).of_eq hrun m rfl
  obtain ⟨dataEnd, globalEnd, scratchEnd, hzoned⟩ := MemoryPlan.zoned_of_ofUnit hu hplan
  have hseparates := MemoryPlan.separates_of_ofUnit hu hplan hm.pages
  obtain ⟨memory, hcopy, hsize, hinit⟩ := hzoned.initializes hseparates.heapBase_le
  rw [hm.minPages] at hseparates hcopy hsize
  refine ⟨plan, memory, hplan, hseparates, ?_, hsize, hinit⟩
  rw [Memory.ofModule_encode hsections, hm.data, hm.minPages]
  exact hcopy

/-- A unit with two data segments, a global without bytes between two others, and a slot. -/
def threeZones : CodeUnit where
  segments := [[1, 2, 3], [4]]
  globals := [{ name := "a", size := 20 }, { name := "b", size := 0 }, { name := "c", size := 4 }]
  scratch := [⟨1, .i64⟩]

/-- The zones of the unit start at 16, 32 and 64. -/
example : MemoryPlan.ofUnit threeZones = .ok ⟨[16, 19], [32, 52, 52], [64], 80⟩ := by
  rfl

theorem sections_threeZones : (Emission.run threeZones {} 0 {}).1.toOption.join.map
    (fun m ↦ decide (∀ x ∈ m.sections, x.2.length < u32Bound)) = some true := by
  decide +kernel

/-- The module of the unit starts with its data in memory. -/
theorem memory_of_run_threeZones : ∃ m t plan memory,
    Emission.run threeZones {} 0 {} = (.ok (some m), t) ∧
      MemoryPlan.ofUnit threeZones = .ok plan ∧ plan.Separates threeZones 1 ∧
      Memory.ofModule m.encode = some memory ∧ memory.size = 1 * pageSize ∧
      plan.Initializes threeZones memory := by
  obtain ⟨m, hm, hsections⟩ := Option.map_eq_some_iff.mp sections_threeZones
  have hrun : Emission.run threeZones {} 0 {} =
      (.ok (some m), (Emission.run threeZones {} 0 {}).2) := by
    refine Prod.ext ?_ rfl
    revert hm
    cases (Emission.run threeZones {} 0 {}).1 with
    | error e => exact fun h ↦ by cases h
    | ok a => exact fun h ↦ congrArg Except.ok h
  have hsized : threeZones.Sized := by
    constructor <;> decide
  obtain ⟨plan, memory, h⟩ := memory_of_run hsized hrun rfl (of_decide_eq_true hsections)
  exact ⟨m, _, plan, memory, hrun, h⟩

end WasmBackend.Wasm
