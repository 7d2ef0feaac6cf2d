import WasmBackend.Proofs.Lowering.Fitting

/-!
# Slots and bytes

A layout has its entries numbered twice, as slots and by bytes.  Both numberings name the same
entries wherever lowering goes: down a chain of members the sums of the slots and of the bytes lead
to the same part, and no sum of bytes leaves 32 bits.
-/

namespace WasmBackend

open Ir (Instr Var)
open Stage (Ensures Succeeds)

namespace Lowering

variable {store : TypeStore}

/-- The slots and the bytes of layouts number the same entries, and lowering adds bytes up without
leaving 32 bits. -/
structure SlotsMatchBytes (store : TypeStore) : Prop where
  /-- The entries of every aggregate with a layout tile it. -/
  tiles : ∀ h t, store.type? h = some t → t.kind.isAggregate → t.resolved →
    Tiles 0 t.layout t.size ∧ t.size < 2 ^ 32
  /-- Down every chain of members, the slots that the sum of the slots leads to are the entries of
  the last member, moved by the sum of the bytes. -/
  chain : ∀ h t names place slot g, store.type? h = some t → t.kind = .struct → t.resolved →
    store.Path h names place slot g →
      ∃ entries n, store.Holds t.layout t.size place slot g entries n
  /-- Selecting along a chain takes these slots of a row of variables, and the sum of the bytes from
  a place in memory. -/
  selects : ∀ (frame : Frame) (s : Lowering) (v : Value) t names place slot g, s.store = store →
    store.type? v.type = some t → t.kind = .struct → t.resolved → v.Fits store →
    v.Covers t.layout → store.Path v.type names place slot g →
      Succeeds (names.foldlM selectMember v frame) s fun w s' ↦ s' = s ∧ ∃ entries n,
        store.Holds t.layout t.size place slot g entries n ∧
          w = v.part g place slot entries.length ∧ w.start? = v.start?.map (· + place) ∧
            ∀ start, v.start? = some start → start + place + n < 2 ^ 32
  /-- Whatever member of a value that fits is selected, the offsets have a sum. -/
  member : ∀ (frame : Frame) (s : Lowering) (v : Value) name, s.store = store → v.Fits store →
    Ensures (selectMember v name frame) s fun w s' ↦ store.Gains s'.store ∧ w.Fits s'.store ∧
      ∃ t m, s'.store.type? v.type = some t ∧ t.member? name = some m ∧ w.type = m.type ∧
        w.start? = if t.kind = .cls then some m.offset else v.start?.map (· + m.offset)
  /-- Reading a value in memory loads each entry at the sum of the offsets. -/
  read : ∀ (frame : Frame) (s : Lowering) (v : Value) place, s.store = store → v.Fits store →
    v.start? = some place → Ensures (readValue v frame) s fun vars s' ↦
      ∃ is, Emits s s' is ∧ store.Gains s'.store ∧ UsesEntries s'.store v place loadEntry vars is
  /-- Writing one stores each entry there. -/
  write : ∀ (frame : Frame) (s : Lowering) (v : Value) place vars, s.store = store → v.Fits store →
    v.start? = some place → Ensures (writeValue v vars frame) s fun _ s' ↦
      ∃ is, Emits s s' is ∧ store.Gains s'.store ∧ UsesEntries s'.store v place storeEntry vars is
  /-- The values that expressions give fit. -/
  expr : ∀ (frame : Frame) (s : Lowering) id dst, s.store = store → frame.Scoped store →
    FitsIfAny store dst → Ensures (lowerExpr id dst frame) s fun w s' ↦
      store.Gains s'.store ∧ w.Fits s'.store
  /-- The places that assignments write to fit. -/
  target : ∀ (frame : Frame) (s : Lowering) id, s.store = store → frame.Scoped store →
    Ensures (assignTarget id frame) s fun w s' ↦ store.Gains s'.store ∧ w.Fits s'.store

/-- **Layouts tile, and slots match bytes.**  This holds of the layouts of a program after any use,
and goes on holding while its functions are lowered. -/
theorem slotsMatchBytes_of_reached {p : Program} {l : Layouts} (hl : l.Reached p)
    (hgains : l.store.Gains store) : SlotsMatchBytes store := by
  have hs : store.Steady := hgains.steady ⟨hl.consistent.proper, hl.allTiled⟩
  constructor
  case tiles =>
    intro h t ht hagg hres
    have htiled := hs.tiled.tiled h t ht hagg hres
    exact ⟨htiled.tiles, htiled.size_lt⟩
  case chain =>
    intro h t names place slot g ht hkind hres hpath
    exact hpath.exists_holds hs.tiled (TypeStore.entries?_of_resolved ht hkind hres)
      (TypeStore.valueSize?_of_resolved ht hkind hres)
  case selects =>
    rintro frame s v t names place slot g rfl ht hkind hres hfits hcovers hpath
    have hsize := TypeStore.valueSize?_of_resolved ht hkind hres
    refine (succeeds_selectMembers hs.tiled hpath rfl hfits hcovers
      (TypeStore.entries?_of_resolved ht hkind hres) hsize).imp ?_
    rintro w s' ⟨rfl, entries, n, hhold, rfl⟩
    have hlt (start : Nat) (hstart : v.start? = some start) :=
      hfits.add_lt hs.tiled hsize hhold hstart
    refine ⟨rfl, entries, n, hhold, rfl, ?_, hlt⟩
    refine Value.start?_part g slot _ fun start hstart ↦ ?_
    exact Nat.lt_of_le_of_lt (Nat.le_add_right _ n) (hlt start hstart)
  case member =>
    rintro frame s v name rfl hfits
    refine Stage.Meets.imp (gathers_selectMember hfits name hs) ?_
    rintro w s' ⟨_, -, hg, hw⟩
    exact ⟨hg, hw⟩
  case read =>
    rintro frame s v place rfl hfits hplace
    exact gathers_readPlace hfits hplace hs
  case write =>
    rintro frame s v place vars rfl hfits hplace
    exact gathers_writePlace hfits hplace vars hs
  case expr =>
    rintro frame s id dst rfl hscope hdst
    exact subFits_lowerExpr frame s.store id dst hdst s (.refl _) hs hscope
  case target =>
    rintro frame s id rfl hscope
    exact yields_assignTarget id s (.refl _) hs hscope

end Lowering

namespace Layouts

/-- A struct of a byte and a struct of two numbers. -/
def nestedStructs : Program where
  types := #[{ kind := .prim, prim := .u8 }, { kind := .prim, prim := .i32 },
    { kind := .prim, prim := .i64 }, { kind := .named, decl := 1 }]
  decls := #[
    { kind := .struct, name := "P", aggregate := some {
      fields := [{ name := "x", type := 2 }, { name := "y", type := 3 }] } },
    { kind := .struct, name := "N", aggregate := some {
      fields := [{ name := "tag", type := 1 }, { name := "p", type := 4 }] } }]

/-- The outer struct is added, and the inner one with it. -/
def addedNested : Layouts where
  store := { TypeStore.ofProgram nestedStructs with
    applications := #[
      { template := .aggregate 2, args := [], type := some {
          handle := 1, name := "N", kind := .struct, decl := 2
          members := [{ name := "tag", type := 2 }, { name := "p", type := 3 }], deps := [3] } },
      { template := .prim .u8, args := [] },
      { template := .aggregate 1, args := [], type := some {
          handle := 3, name := "P", kind := .struct, decl := 1
          members := [{ name := "x", type := 4 }, { name := "y", type := 5 }] } },
      { template := .prim .i32, args := [] }, { template := .prim .i64, args := [] }] }
  pending := [(1, [3]), (3, [])]

/-- Both have a layout. -/
def laidNested : Layouts where
  store := { TypeStore.ofProgram nestedStructs with
    applications := #[
      { template := .aggregate 2, args := [], type := some {
          handle := 1, name := "N", kind := .struct, decl := 2
          members := [{ name := "tag", type := 2 },
            { name := "p", type := 3, offset := 1, slotIndex := 1 }]
          deps := [3], resolved := true, size := 13
          layout := [{ prim := .u8, offset := 0 }, { prim := .i32, offset := 1 },
            { prim := .i64, offset := 5 }] } },
      { template := .prim .u8, args := [], type := some {
          handle := 2, name := "u8", kind := .primitive, prim := .u8, resolved := true } },
      { template := .aggregate 1, args := [], type := some {
          handle := 3, name := "P", kind := .struct, decl := 1
          members := [{ name := "x", type := 4 },
            { name := "y", type := 5, offset := 4, slotIndex := 1 }]
          resolved := true, size := 12
          layout := [{ prim := .i32, offset := 0 }, { prim := .i64, offset := 4 }] } },
      { template := .prim .i32, args := [], type := some {
          handle := 4, name := "i32", kind := .primitive, prim := .i32, resolved := true } },
      { template := .prim .i64, args := [], type := some {
          handle := 5, name := "i64", kind := .primitive, prim := .i64, resolved := true } }] }
  pending := [(1, []), (3, [])]

theorem reached_laidNested : Reached nestedStructs laidNested := by
  have hcall : (onStore (TypeStore.Call.specialize "decl#2" []).run).runFrom
      { store := .ofProgram nestedStructs } = (.ok (), { store := { TypeStore.ofProgram
        nestedStructs with applications := #[{ template := .aggregate 2, args := [] }] } }) := by
    decide +kernel
  have hadd : (add 1).runFrom { store := { TypeStore.ofProgram nestedStructs with
      applications := #[{ template := .aggregate 2, args := [] }] } } = (.ok (), addedNested) := by
    decide +kernel
  have hresolve : resolve.runFrom addedNested = (.ok [], laidNested) := by
    decide +kernel
  have hmade : Reached nestedStructs _ :=
    .prepare .start (.inr ⟨.specialize "decl#2" [], by simp [TypeStore.Call.given], hcall⟩)
  exact .resolve (.prepare hmade (.inl ⟨1, by decide, hadd⟩)) hresolve

/-- The second number of the inner struct is the third slot and the sixth byte of the outer one. -/
theorem slotsMatchBytes_laidNested :
    Reached nestedStructs laidNested ∧ Lowering.SlotsMatchBytes laidNested.store ∧
      laidNested.store.Path 1 ["p", "y"] 5 2 5 ∧
      ∃ entries n, laidNested.store.Holds [{ prim := .u8, offset := 0 },
        { prim := .i32, offset := 1 }, { prim := .i64, offset := 5 }] 13 5 2 5 entries n := by
  have hmatch := Lowering.slotsMatchBytes_of_reached reached_laidNested (.refl _)
  have hpath : laidNested.store.Path 1 ["p", "y"] 5 2 5 :=
    .member (m := { name := "p", type := 3, offset := 1, slotIndex := 1 }) rfl rfl rfl
      (.member (m := { name := "y", type := 5, offset := 4, slotIndex := 1 }) rfl rfl rfl (.here 5))
  exact ⟨reached_laidNested, hmatch, hpath, hmatch.chain 1 _ _ _ _ _ rfl rfl rfl hpath⟩

end Layouts

end WasmBackend
