import WasmBackend.Proofs.Layout.Tiling
import WasmBackend.Proofs.Lowering.Results

/-!
# Parts of values

A struct in variables is a row of slots, a struct in memory a place, and selecting a member adds to
the one or to the other.  Layouts number both alike, so down a chain of members the two name the
same entries.  A value in memory that starts at its pointer, or whose end is known to lie in memory,
keeps this down to every part, and so none of the sums of offsets leaves 32 bits.
-/

namespace WasmBackend

open Ir (Instr Var)
open Stage (Ensures Meets Succeeds)

theorem toNat_toUInt32 {n : Nat} (h : n < 2 ^ 32) : n.toUInt32.toNat = n :=
  UInt32.toNat_ofNat_of_lt' h

/-- A sum of offsets is that of the numbers, as long as it fits. -/
theorem add_toUInt32 (a : UInt32) (n : Nat) : a + n.toUInt32 = (a.toNat + n).toUInt32 := by
  apply UInt32.toNat_inj.1
  show (a.toNat + n.toUInt32.toNat) % 2 ^ 32 = (a.toNat + n) % 2 ^ 32
  exact Nat.add_mod_mod _ _ _

theorem TypeStore.ensures_getType {s : TypeStore} (hs : s.Standard) (h : Handle) :
    Ensures (getType h) s fun t s' ↦ s.Gains s' ∧ s'.type? h = some t := by
  by_cases hlt : h < s.size
  · exact (meets_getType hs hlt).ensures
  · -- a handle that was never made has no type
    have hne : h ≠ 0 := by
      rintro rfl
      exact hlt (zero_lt_size s)
    have hnone : s.application? h = none := by
      rw [application?, if_neg hne]
      exact Array.getElem?_eq_none (Nat.le_sub_of_add_le (Nat.not_lt.1 hlt))
    unfold getType
    rw [Ensures, Stage.meets_bind, Stage.meets_get]
    unfold getWithin
    rw [if_neg hne]
    refine Stage.meets_bind.2 ?_
    rw [Stage.meets_get, hnone]
    trivial

namespace Value

/-- Where a value in memory starts, behind its pointer or in its global. -/
def start? : Value → Option Nat
  | direct _ _ => none
  | relative _ _ offset => some offset.toNat
  | global _ _ offset => some offset.toNat

/-- A value in memory starts at its pointer, or its size is known and it ends in memory. -/
def Fits (s : TypeStore) (v : Value) : Prop :=
  ∀ place, v.start? = some place →
    place = 0 ∨ ∃ n, s.valueSize? v.type = some n ∧ place + n < 2 ^ 32

/-- The value of a type that lies so many bytes and slots behind the start of a value. -/
def part (v : Value) (h : Handle) (place slot count : Nat) : Value :=
  match v with
  | direct _ slots => direct h ((slots.drop slot).take count)
  | relative _ base offset => relative h base (offset.toNat + place).toUInt32
  | global _ index offset => global h index (offset.toNat + place).toUInt32

variable {s s' : TypeStore} {v : Value} {h : Handle}

theorem fits_direct (slots : List Var) : (direct h slots).Fits s :=
  nofun

theorem fits_relative_zero (base : Var) : (relative h base 0).Fits s :=
  fun _ hplace ↦ .inl (Option.some.inj hplace).symm

theorem fits_global_zero (index : Nat) : (global h index 0).Fits s :=
  fun _ hplace ↦ .inl (Option.some.inj hplace).symm

theorem Fits.mono (hv : v.Fits s) (hext : s.Extends s') : v.Fits s' :=
  fun place hplace ↦ (hv place hplace).imp_right fun ⟨n, hn, hlt⟩ ↦ ⟨n, hext.valueSize? hn, hlt⟩

/-- Once its size is known, a value that fits ends in memory. -/
theorem Fits.lt (hv : v.Fits s) (hs : s.AllTiled) {place n : Nat} (hplace : v.start? = some place)
    (hn : s.valueSize? v.type = some n) : place + n < 2 ^ 32 := by
  obtain rfl | ⟨n', hn', hlt⟩ := hv place hplace
  · simpa using hs.valueSize_lt hn
  · cases hn.symm.trans hn'
    exact hlt

@[simp]
theorem type_part (h : Handle) (place slot count : Nat) : (v.part h place slot count).type = h := by
  cases v <;> rfl

theorem start?_part (h : Handle) {place : Nat} (slot count : Nat)
    (hplace : ∀ start, v.start? = some start → start + place < 2 ^ 32) :
    (v.part h place slot count).start? = v.start?.map (· + place) := by
  cases v with
  | direct t slots => rfl
  | relative t base offset | global t index offset =>
    exact congrArg some (toNat_toUInt32 (hplace _ rfl))

/-- What lies in a value that fits ends in memory as well. -/
theorem Fits.add_lt (hv : v.Fits s) (hs : s.AllTiled) {entries inner : List Slot}
    {size place slot n : Nat} (hsize : s.valueSize? v.type = some size)
    (hhold : s.Holds entries size place slot h inner n) {start : Nat}
    (hstart : v.start? = some start) : start + place + n < 2 ^ 32 := by
  have hlt := hv.lt hs hstart hsize
  have hle := hhold.bytes_le
  omega

theorem Fits.part (hv : v.Fits s) (hs : s.AllTiled) {entries inner : List Slot}
    {size place slot n : Nat} (hsize : s.valueSize? v.type = some size)
    (hhold : s.Holds entries size place slot h inner n) (count : Nat) :
    (v.part h place slot count).Fits s := by
  intro start' hstart'
  rw [start?_part h slot count fun start hstart ↦
    Nat.lt_of_le_of_lt (Nat.le_add_right _ n) (hv.add_lt hs hsize hhold hstart)] at hstart'
  obtain ⟨start, hstart, rfl⟩ := Option.map_eq_some_iff.1 hstart'
  exact .inr ⟨n, by rw [type_part, hhold.size_eq], hv.add_lt hs hsize hhold hstart⟩

/-- A row of variables has one for every entry. -/
def Covers (v : Value) (entries : List Slot) : Prop :=
  ∀ g slots, v = direct g slots → slots.length = entries.length

theorem Covers.part {entries inner : List Slot} {size place slot n : Nat} (hv : v.Covers entries)
    (hhold : s.Holds entries size place slot h inner n) :
    (v.part h place slot inner.length).Covers inner := by
  intro g slots heq
  cases v with
  | direct t row =>
    obtain ⟨-, rfl⟩ := direct.inj heq
    have := hhold.slots_le
    rw [← hv t row rfl] at this
    rw [List.length_take, List.length_drop]
    omega
  | relative t base offset | global t index offset => cases heq

/-- All of a value is its part at the start. -/
theorem part_self {entries : List Slot} (hv : v.Covers entries) :
    v.part v.type 0 0 entries.length = v := by
  cases v with
  | direct t slots =>
    simp only [part, type, List.drop_zero, ← hv t slots rfl, List.take_length]
  | relative t base offset | global t index offset =>
    simp [part, type]

/-- The part of a part. -/
theorem part_part {h' : Handle} {place place' slot slot' count count' : Nat}
    (hplace : ∀ start, v.start? = some start → start + place < 2 ^ 32)
    (hcount : slot' + count' ≤ count) :
    (v.part h place slot count).part h' place' slot' count' =
      v.part h' (place + place') (slot + slot') count' := by
  cases v with
  | direct t slots =>
    simp only [part, List.drop_take, List.drop_drop, List.take_take]
    rw [Nat.min_eq_left (by omega)]
  | relative t base offset | global t index offset =>
    simp only [part]
    rw [toNat_toUInt32 (hplace _ rfl), Nat.add_assoc]

end Value

/-- The store is in order and its layouts are tiled. -/
structure TypeStore.Steady (s : TypeStore) : Prop where
  proper : s.Proper
  tiled : s.AllTiled

theorem TypeStore.Gains.steady {s s' : TypeStore} (hg : s.Gains s') (hs : s.Steady) : s'.Steady :=
  ⟨hg.lays.proper hs.proper, hg.allTiled hs.tiled⟩

namespace TypeStore.Steady

variable {s : TypeStore} {h : Handle} {t : ConcreteType} {m : Member}

/-- A member of an aggregate starts with it, or lies in it and below the end of memory. -/
theorem offset_member (hs : s.Steady) (ht : s.type? h = some t) (hagg : t.kind.isAggregate)
    (hm : m ∈ t.members) :
    m.offset = 0 ∨ ∃ n, s.valueSize? m.type = some n ∧ m.offset + n < 2 ^ 32 := by
  cases hres : t.resolved with
  | false => exact .inl (hs.tiled.unplaced h t ht hres m hm)
  | true =>
    have htiled := hs.tiled.tiled h t ht hagg hres
    obtain ⟨entries, n, hhold⟩ := htiled.lines.exists_holds hm
    exact .inr ⟨n, hhold.size_eq, Nat.lt_of_le_of_lt hhold.bytes_le htiled.size_lt⟩

/-- A member of a struct in memory starts with it, or lies below the end of memory as the struct
does. -/
theorem place_member (hs : s.Steady) {v : Value} (hv : v.Fits s) (ht : s.type? v.type = some t)
    (hkind : t.kind = .struct) (hm : m ∈ t.members) {place : Nat} (hplace : v.start? = some place) :
    place + m.offset < 2 ^ 32 ∧ (place + m.offset = 0 ∨
      ∃ n, s.valueSize? m.type = some n ∧ place + m.offset + n < 2 ^ 32) := by
  have hagg : t.kind.isAggregate := by
    rw [hkind]
    rfl
  obtain rfl | ⟨size, hsize, -⟩ := hv place hplace
  · obtain hzero | ⟨n, hn, hlt⟩ := hs.offset_member ht hagg hm
    · rw [hzero]
      exact ⟨Nat.two_pow_pos 32, .inl rfl⟩
    · rw [Nat.zero_add]
      exact ⟨Nat.lt_of_le_of_lt (Nat.le_add_right _ n) hlt, .inr ⟨n, hn, hlt⟩⟩
  · -- a struct of known size has a layout
    obtain ⟨t', ht', hsize'⟩ := TypeStore.valueSize?_eq_some.1 hsize
    cases ht.symm.trans ht'
    obtain ⟨entries, hentries⟩ := ConcreteType.exists_entries_iff.2 ⟨_, hsize'⟩
    obtain ⟨inner, n, hhold⟩ := hs.tiled.exists_holds_member ht hkind
      (TypeStore.entries?_eq_some.2 ⟨t, ht, hentries⟩) hsize hm
    have hlt := hv.add_lt hs.tiled hsize hhold hplace
    exact ⟨Nat.lt_of_le_of_lt (Nat.le_add_right _ n) hlt, .inr ⟨n, hhold.size_eq, hlt⟩⟩

/-- A field of a class instance lies in it. -/
theorem start?_instanceMember (hs : s.Steady) (ht : s.type? h = some t)
    (hagg : t.kind.isAggregate) (hm : m ∈ t.members) (pointer : Var) :
    (Value.relative m.type pointer m.offset.toUInt32).start? = some m.offset := by
  refine congrArg some (toNat_toUInt32 ?_)
  obtain hzero | ⟨n, -, hlt⟩ := hs.offset_member ht hagg hm
  · rw [hzero]
    exact Nat.two_pow_pos 32
  · exact Nat.lt_of_le_of_lt (Nat.le_add_right _ n) hlt

theorem fits_instanceMember (hs : s.Steady) (ht : s.type? h = some t) (hagg : t.kind.isAggregate)
    (hm : m ∈ t.members) (pointer : Var) :
    (Value.relative m.type pointer m.offset.toUInt32).Fits s := by
  intro place hplace
  obtain rfl := Option.some.inj ((hs.start?_instanceMember ht hagg hm pointer).symm.trans hplace)
  exact hs.offset_member ht hagg hm

end TypeStore.Steady

namespace Lowering

variable {α β : Type} {frame : Frame} {s s' : Lowering} {v : Value} {h : Handle}
  {t : ConcreteType}

/-! ## Asking for types -/

theorem succeeds_typeOf {Q : ConcreteType → Lowering → Prop} (ht : s.store.type? h = some t)
    (hQ : Q t s) : Succeeds (typeOf h frame) s Q := by
  show Meets (ExceptT.adapt _ _) s _ _
  rw [Stage.meets_adapt, Stage.meets_zoom]
  unfold Meets
  rw [TypeStore.getType_of_type? ht]
  exact hQ

theorem ensures_typeOf (hs : s.store.Standard) (h : Handle) :
    Ensures (typeOf h frame) s fun t s' ↦
      Emits s s' [] ∧ s.store.Gains s'.store ∧ s'.store.type? h = some t := by
  show Meets (ExceptT.adapt _ _) s _ _
  rw [Stage.meets_adapt, Stage.meets_zoom]
  refine (TypeStore.ensures_getType hs h).imp ?_
  rintro t store ⟨hgains, ht⟩
  exact ⟨.of_blocks_eq rfl rfl List.prefix_rfl (fun h ↦ h) fun _ _ h ↦ h, hgains, ht⟩

theorem succeeds_ofLayout {x : Except Failure α} {a : α} {Q : α → Lowering → Prop}
    (hx : x = .ok a) (hQ : Q a s) : Succeeds (ofLayout x frame) s Q := by
  rw [hx]
  exact hQ

theorem succeeds_offset32 {n : Nat} {Q : UInt32 → Lowering → Prop} (hn : n < 2 ^ 32)
    (hQ : Q n.toUInt32 s) : Succeeds (offset32 n frame) s Q := by
  unfold offset32
  rw [if_pos (by simpa using hn)]
  exact hQ

/-! ## Selecting down a chain -/

/-- A member of a struct is its part at the bytes and the slots of the member. -/
theorem succeeds_selectMember (ht : s.store.type? v.type = some t)
    (hkind : t.kind = .struct) {name : Text} {m : Member} (hm : t.member? name = some m)
    {entries inner : List Slot} {size n : Nat}
    (hhold : s.store.Holds entries size m.offset m.slotIndex m.type inner n)
    (hcovers : v.Covers entries) (hsize : size < 2 ^ 32) :
    Succeeds (selectMember v name frame) s fun w s' ↦
      s' = s ∧ w = v.part m.type m.offset m.slotIndex inner.length := by
  refine meets_bind.2 (succeeds_typeOf ht ?_)
  rw [hm]
  simp only [hkind]
  have hoffset : m.offset < 2 ^ 32 := by
    have := hhold.bytes_le
    omega
  cases v with
  | direct g slots =>
    obtain ⟨t', ht', hentries⟩ := TypeStore.entries?_eq_some.1 hhold.entries_eq
    have hcount : t'.slotCount = .ok inner.length := by
      rw [ConcreteType.slotCount, hentries]
      rfl
    refine meets_bind.2 (succeeds_typeOf ht' ?_)
    refine meets_bind.2 (succeeds_ofLayout hcount ?_)
    rw [if_pos (hcovers g slots rfl ▸ hhold.slots_le)]
    exact ⟨rfl, rfl⟩
  | relative g base offset | global g index offset =>
    refine meets_bind.2 (succeeds_offset32 hoffset ⟨rfl, ?_⟩)
    rw [add_toUInt32]
    rfl

/-- Down a chain of members the parts add up. -/
theorem succeeds_selectMembers (hs : s.store.AllTiled) {g : Handle} {names : List Text}
    {place slot : Nat} (hpath : s.store.Path h names place slot g) (hv : v.type = h)
    (hfits : v.Fits s.store) {entries : List Slot} (hcovers : v.Covers entries) {size : Nat}
    (hentries : s.store.entries? h = some entries) (hsize : s.store.valueSize? h = some size) :
    Succeeds (names.foldlM selectMember v frame) s fun w s' ↦ s' = s ∧ ∃ inner n,
      s.store.Holds entries size place slot g inner n ∧ w = v.part g place slot inner.length := by
  induction hpath generalizing v entries size with
  | here h =>
    subst hv
    exact ⟨rfl, entries, size, TypeStore.holds_self hentries hsize, (Value.part_self hcovers).symm⟩
  | @member h g t name m names place slot ht hkind hm hrest ih =>
    subst hv
    obtain ⟨inner, n, hhold⟩ := hs.exists_holds_member ht hkind hentries hsize
      (List.mem_of_find?_eq_some hm)
    rw [List.foldlM_cons]
    refine meets_bind.2 ((succeeds_selectMember ht hkind hm hhold hcovers
      (hs.valueSize_lt hsize)).imp ?_)
    rintro w s' ⟨rfl, rfl⟩
    have hfits' := hfits.part hs hsize hhold inner.length
    refine (ih (Value.type_part ..) hfits' (hcovers.part hhold) hhold.entries_eq
      hhold.size_eq).imp ?_
    rintro w s'' ⟨rfl, inner', n', hhold', rfl⟩
    refine ⟨rfl, inner', n', hhold.trans hhold', ?_⟩
    refine Value.part_part (fun start hstart ↦ ?_) hhold'.slots_le
    exact Nat.lt_of_le_of_lt (Nat.le_add_right _ n) (hfits.add_lt hs hsize hhold hstart)

/-! ## Loading and storing -/

/-- Loads an entry of a value that starts at a place behind the pointer. -/
def loadEntry (base : Var) (place : Nat) (e : Slot) (v : Var) : Instr :=
  { op := .load, dst := [v], args := [base], storage := e.prim,
    offset := (place + e.offset).toUInt32 }

/-- Stores an entry of a value that starts at a place behind the pointer. -/
def storeEntry (base : Var) (place : Nat) (e : Slot) (v : Var) : Instr :=
  { op := .store, args := [base, v], storage := e.prim, offset := (place + e.offset).toUInt32 }

/-- Takes the address of a global. -/
def globalAddress (index : Nat) (base : Var) : Instr :=
  { op := .addr, dst := [base], zone := .global, index := index, storage := .pointer }

/-- The pointer behind which a value in memory lies, and the code that takes it. -/
inductive Pointer : Value → Var → List Instr → Prop
  | relative (h : Handle) (base : Var) (offset : UInt32) : Pointer (.relative h base offset) base []
  | global (h : Handle) (index : Nat) (offset : UInt32) (base : Var) :
      Pointer (.global h index offset) base [globalAddress index base]

/-- From a place on, the code uses every entry of a value in memory, each for its variable and all
of them below the end of memory. -/
def UsesEntries (store : TypeStore) (v : Value) (place : Nat)
    (use : Var → Nat → Slot → Var → Instr) (vars : List Var) (is : List Instr) : Prop :=
  ∃ entries base code, store.entries? v.type = some entries ∧ entries.length = vars.length ∧
    Pointer v base code ∧ is = code ++ List.zipWith (use base place) entries vars ∧
      ∀ e ∈ entries, place + e.offset + e.prim.size < 2 ^ 32

/-- From a steady store the step puts instructions at the end of the current block, and the store
only gains; `post` is told what it gives, these instructions, and the state it leaves. -/
def Gathers (frame : Frame) (s : Lowering) (x : M α) (post : α → List Instr → Lowering → Prop) :
    Prop :=
  s.store.Steady → Adds frame s x fun a is s' ↦ s.store.Gains s'.store ∧ post a is s'

theorem Gathers.bind {x : M α} {f : α → M β} {post : α → List Instr → Lowering → Prop}
    {post' : β → List Instr → Lowering → Prop} (hx : Gathers frame s x post)
    (hf : ∀ a is s', s'.store.Steady → s.store.Gains s'.store → post a is s' →
      Gathers frame s' (f a) fun b js s'' ↦ post' b (is ++ js) s'') :
    Gathers frame s (x >>= f) post' := by
  refine fun hs ↦ (hx hs).bind ?_
  rintro a is s₁ - ⟨hgains, ha⟩
  have hs₁ := hgains.steady hs
  refine (hf a is s₁ hs₁ hgains ha hs₁).imp ?_
  rintro b js s₂ - ⟨hgains', hb⟩
  exact ⟨hgains.trans hgains', hb⟩

theorem Gathers.imp {x : M α} {post post' : α → List Instr → Lowering → Prop}
    (hx : Gathers frame s x post) (hpost : ∀ a is s', post a is s' → post' a is s') :
    Gathers frame s x post' :=
  fun hs ↦ (hx hs).imp fun a is s' _ h ↦ ⟨h.1, hpost a is s' h.2⟩

theorem gathers_pure {a : α} {post : α → List Instr → Lowering → Prop} (h : post a [] s) :
    Gathers frame s (pure a) post :=
  fun _ ↦ adds_pure ⟨.refl _, h⟩

/-- A step that leaves the store alone. -/
theorem Adds.gathers {x : M α} {post : α → List Instr → Lowering → Prop}
    (hx : Adds frame s x post) (hstore : Ensures (x frame) s fun _ s' ↦ s'.store = s.store) :
    Gathers frame s x fun a is s' ↦ s'.store = s.store ∧ post a is s' := by
  intro _
  refine (Meets.and hx hstore).imp ?_
  rintro a s₁ ⟨⟨is, hemits, ha⟩, hsame⟩
  exact ⟨is, hemits, hsame ▸ .refl _, hsame, ha⟩

theorem gathers_emit (i : Instr) :
    Gathers frame s (emit i) fun _ is s' ↦ s'.store = s.store ∧ is = [i] :=
  (adds_emit i).gathers rfl

theorem gathers_newVar (p : Prim) :
    Gathers frame s (newVar p) fun _ is s' ↦ s'.store = s.store ∧ is = [] :=
  ((adds_newVar p).gathers rfl).imp fun _ _ _ h ↦ ⟨h.1, h.2.1⟩

theorem gathers_typeOf (h : Handle) :
    Gathers frame s (typeOf h) fun t is s' ↦ is = [] ∧ s'.store.type? h = some t := by
  intro hs
  refine (ensures_typeOf hs.proper.toStandard h).imp ?_
  rintro t s₁ ⟨hemits, hgains, ht⟩
  exact ⟨[], hemits, hgains, rfl, ht⟩

theorem gathers_ofLayout (x : Except Failure α) :
    Gathers frame s (ofLayout x) fun a is s' ↦ s = s' ∧ is = [] ∧ x = .ok a := by
  cases x with
  | ok a => exact gathers_pure ⟨rfl, rfl, rfl⟩
  | error e => exact fun _ ↦ trivial

theorem gathers_offset32 (n : Nat) :
    Gathers frame s (offset32 n) fun k is s' ↦ s = s' ∧ is = [] ∧ k = n.toUInt32 := by
  unfold offset32
  split
  · exact gathers_pure ⟨rfl, rfl, rfl⟩
  · exact fun _ ↦ trivial

theorem gathers_place? {place : Nat} (hplace : v.start? = some place) :
    Gathers frame s (place? v) fun p code s' ↦ s'.store = s.store ∧ ∃ base offset,
      p = some (base, offset) ∧ offset.toNat = place ∧ Pointer v base code := by
  cases v with
  | direct h slots => cases hplace
  | relative h base offset =>
    exact gathers_pure ⟨rfl, base, offset, rfl, Option.some.inj hplace, .relative ..⟩
  | global h index offset =>
    have haddress : Gathers frame s (address .global index) fun base is s' ↦
        s'.store = s.store ∧ is = [globalAddress index base] := by
      refine (gathers_newVar .pointer).bind ?_
      rintro base _ s₁ - - ⟨hstore, rfl⟩
      refine (gathers_emit _).bind ?_
      rintro _ _ s₂ - - ⟨hstore', rfl⟩
      exact gathers_pure ⟨hstore'.trans hstore, rfl⟩
    refine haddress.bind ?_
    rintro base _ s₁ - - ⟨hstore, rfl⟩
    exact gathers_pure ⟨hstore, base, offset, rfl, Option.some.inj hplace, .global ..⟩

theorem gathers_loads (base : Var) (offset : UInt32) (entries : List Slot) :
    Gathers frame s
      (entries.mapM fun e ↦ do
        let dst ← newVar e.prim
        let at32 ← offset32 e.offset
        emit { op := .load, dst := [dst], args := [base], storage := e.prim,
               offset := offset + at32 }
        return dst)
      fun vars is s' ↦ s'.store = s.store ∧ entries.length = vars.length ∧
        is = List.zipWith (loadEntry base offset.toNat) entries vars := by
  induction entries generalizing s with
  | nil => exact gathers_pure ⟨rfl, rfl, rfl⟩
  | cons e entries ih =>
    rw [List.mapM_cons]
    have hload : Gathers frame s (do
        let dst ← newVar e.prim
        let at32 ← offset32 e.offset
        emit { op := .load, dst := [dst], args := [base], storage := e.prim,
               offset := offset + at32 }
        return dst) fun v is s' ↦ s'.store = s.store ∧ is = [loadEntry base offset.toNat e v] := by
      refine (gathers_newVar e.prim).bind ?_
      rintro v _ s₁ - - ⟨hstore, rfl⟩
      refine (gathers_offset32 e.offset).bind ?_
      rintro _ _ _ - - ⟨rfl, rfl, rfl⟩
      refine (gathers_emit _).bind ?_
      rintro _ _ s₂ - - ⟨hstore', rfl⟩
      refine gathers_pure ⟨hstore'.trans hstore, ?_⟩
      rw [add_toUInt32]
      rfl
    refine hload.bind ?_
    rintro v _ s₁ - - ⟨hstore, rfl⟩
    refine ih.bind ?_
    rintro vars _ s₂ - - ⟨hstore', hlength, rfl⟩
    exact gathers_pure ⟨hstore'.trans hstore, congrArg (· + 1) hlength, by simp⟩

theorem gathers_stores (base : Var) (offset : UInt32) {entries : List Slot} {vars : List Var}
    (hlength : entries.length = vars.length) :
    Gathers frame s
      (forIn (entries.zip vars) PUnit.unit fun (e, v) _ ↦ do
        let at32 ← offset32 e.offset
        emit { op := .store, args := [base, v], storage := e.prim, offset := offset + at32 }
        pure (.yield PUnit.unit))
      fun _ is s' ↦ s'.store = s.store ∧
        is = List.zipWith (storeEntry base offset.toNat) entries vars := by
  induction entries generalizing s vars with
  | nil => exact gathers_pure ⟨rfl, rfl⟩
  | cons e entries ih =>
    cases vars with
    | nil => cases hlength
    | cons v vars =>
      rw [List.zip_cons_cons, List.forIn_cons]
      have hstep : Gathers frame s (do
          let at32 ← offset32 e.offset
          emit { op := .store, args := [base, v], storage := e.prim, offset := offset + at32 }
          pure (ForInStep.yield PUnit.unit)) fun r is s' ↦ s'.store = s.store ∧
            r = .yield ⟨⟩ ∧ is = [storeEntry base offset.toNat e v] := by
        refine (gathers_offset32 e.offset).bind ?_
        rintro _ _ _ - - ⟨rfl, rfl, rfl⟩
        refine (gathers_emit _).bind ?_
        rintro _ _ s₁ - - ⟨hstore, rfl⟩
        refine gathers_pure ⟨hstore, rfl, ?_⟩
        rw [add_toUInt32]
        rfl
      refine hstep.bind ?_
      rintro _ _ s₁ - - ⟨hstore, rfl, rfl⟩
      refine (ih (Nat.succ.inj hlength)).imp ?_
      rintro _ is s₂ ⟨hstore', rfl⟩
      exact ⟨hstore'.trans hstore, rfl⟩

theorem gathers_expect (x : Option α) :
    Gathers frame s (expect x) fun a is s' ↦ s = s' ∧ is = [] ∧ x = some a := by
  cases x with
  | some a => exact gathers_pure ⟨rfl, rfl, rfl⟩
  | none => exact fun _ ↦ trivial

/-- The entries of a value that fits lie in memory. -/
theorem inside_of_fits {store : TypeStore} (hs : store.Steady) (hv : v.Fits store) {place : Nat}
    (hplace : v.start? = some place) (ht : store.type? v.type = some t) {entries : List Slot}
    (hentries : t.entries = .ok entries) :
    ∀ e ∈ entries, place + e.offset + e.prim.size < 2 ^ 32 := by
  intro e he
  obtain ⟨n, hn⟩ := ConcreteType.exists_entries_iff.1 ⟨entries, hentries⟩
  have hsize := TypeStore.valueSize?_eq_some.2 ⟨t, ht, hn⟩
  have htiles := hs.tiled.tiles_entries (TypeStore.entries?_eq_some.2 ⟨t, ht, hentries⟩) hsize
  have hend := htiles.end_le he
  have hlt := hv.lt hs.tiled hplace hsize
  omega

/-- The pointer and the entries of a value in memory. -/
theorem gathers_entries (hv : v.Fits s.store) {place : Nat} (hplace : v.start? = some place)
    {f : Var × UInt32 → List Slot → M β} {post : β → List Instr → Lowering → Prop}
    (hf : ∀ base offset entries code s', offset.toNat = place → Pointer v base code →
      s'.store.entries? v.type = some entries →
      (∀ e ∈ entries, place + e.offset + e.prim.size < 2 ^ 32) →
      Gathers frame s' (f (base, offset) entries) fun b js s'' ↦ post b (code ++ js) s'') :
    Gathers frame s (do
      let p ← expect (← place? v)
      let entries ← ofLayout (← typeOf v.type).entries
      f p entries) post := by
  refine (gathers_place? hplace).bind ?_
  rintro _ code s₁ hs₁ - ⟨hstore, base, offset, rfl, hoffset, hpointer⟩
  refine (gathers_expect _).bind ?_
  rintro _ _ _ - - ⟨rfl, rfl, ⟨⟩⟩
  refine (gathers_typeOf v.type).bind ?_
  rintro t _ s₂ hs₂ hgains ⟨rfl, ht⟩
  refine (gathers_ofLayout t.entries).bind ?_
  rintro entries _ _ - - ⟨rfl, rfl, hentries⟩
  have hv₂ : v.Fits s₂.store := (hstore ▸ hv : v.Fits s₁.store).mono hgains.lays.toExtends
  simpa only [List.nil_append] using hf base offset entries code s₂ hoffset hpointer
    (TypeStore.entries?_eq_some.2 ⟨t, ht, hentries⟩) (inside_of_fits hs₂ hv₂ hplace ht hentries)

/-- Reading a value in memory loads its entries. -/
theorem gathers_readPlace (hv : v.Fits s.store) {place : Nat} (hplace : v.start? = some place) :
    Gathers frame s (readValue v) fun vars is s' ↦
      UsesEntries s'.store v place loadEntry vars is := by
  have hmemory : Gathers frame s (do
      let p ← expect (← place? v)
      let entries ← ofLayout (← typeOf v.type).entries
      entries.mapM fun e ↦ do
        let dst ← newVar e.prim
        let at32 ← offset32 e.offset
        emit { op := .load, dst := [dst], args := [p.1], storage := e.prim,
               offset := p.2 + at32 }
        return dst) fun vars is s' ↦ UsesEntries s'.store v place loadEntry vars is := by
    refine gathers_entries hv hplace ?_
    rintro base offset entries code s₁ rfl hpointer hentries hinside
    refine (gathers_loads base offset entries).imp ?_
    rintro vars _ s₂ ⟨hstore, hlength, rfl⟩
    exact ⟨entries, base, code, hstore ▸ hentries, hlength, hpointer, rfl, hinside⟩
  cases v with
  | direct h slots => cases hplace
  | relative h base offset | global h index offset => exact hmemory

theorem gathers_readValue (hv : v.Fits s.store) :
    Gathers frame s (readValue v) fun _ _ _ ↦ True := by
  cases hplace : v.start? with
  | some place => exact (gathers_readPlace hv hplace).imp fun _ _ _ _ ↦ trivial
  | none =>
    cases v with
    | direct h slots => exact gathers_pure trivial
    | relative h base offset | global h index offset => cases hplace

/-- Writing a value in memory stores its entries. -/
theorem gathers_writePlace (hv : v.Fits s.store) {place : Nat} (hplace : v.start? = some place)
    (vars : List Var) :
    Gathers frame s (writeValue v vars) fun _ is s' ↦
      UsesEntries s'.store v place storeEntry vars is := by
  have hmemory : Gathers frame s (do
      let p ← expect (← place? v)
      let entries ← ofLayout (← typeOf v.type).entries
      if entries.length ≠ vars.length then
        internalHere ("storing " ++ Text.ofNat vars.length ++ " slots into "
          ++ Text.ofNat entries.length)
      for (e, s) in entries.zip vars do
        let at32 ← offset32 e.offset
        emit { op := .store, args := [p.1, s], storage := e.prim, offset := p.2 + at32 })
      fun _ is s' ↦ UsesEntries s'.store v place storeEntry vars is := by
    refine gathers_entries hv hplace ?_
    rintro base offset entries code s₁ rfl hpointer hentries hinside
    dsimp only
    split
    · exact fun _ ↦ trivial
    · rename_i hlength
      refine (gathers_stores base offset (not_not.1 hlength)).bind ?_
      rintro _ _ s₂ - - ⟨hstore, rfl⟩
      exact gathers_pure ⟨entries, base, code, hstore ▸ hentries, not_not.1 hlength, hpointer,
        by simp, hinside⟩
  cases v with
  | direct h slots => cases hplace
  | relative h base offset | global h index offset => exact hmemory

/-- Selecting a member of a value that fits gives one that fits, and the sum of the offsets. -/
theorem gathers_selectMember (hv : v.Fits s.store) (name : Text) :
    Gathers frame s (selectMember v name) fun w _ s' ↦ w.Fits s'.store ∧ ∃ t m,
      s'.store.type? v.type = some t ∧ t.member? name = some m ∧ w.type = m.type ∧
        w.start? = if t.kind = .cls then some m.offset else v.start?.map (· + m.offset) := by
  refine (gathers_typeOf v.type).bind ?_
  rintro t _ s₁ hs₁ hgains ⟨rfl, ht⟩
  have hv₁ := hv.mono hgains.lays.toExtends
  cases hfound : t.member? name with
  | none => exact fun _ ↦ trivial
  | some m =>
    have hm : m ∈ t.members := List.mem_of_find?_eq_some hfound
    dsimp only
    split
    -- of a class instance the value holds the pointer, and the member lies behind that
    case h_1 hkind =>
      refine (gathers_readValue hv₁).bind ?_
      rintro vars _ s₂ hs₂ hgains₂ -
      refine (gathers_expect _).bind ?_
      rintro pointer _ _ - - ⟨rfl, rfl, -⟩
      refine (gathers_offset32 m.offset).bind ?_
      rintro _ _ _ - - ⟨rfl, rfl, rfl⟩
      have ht₂ := hgains₂.type _ _ ht
      have hagg : t.kind.isAggregate := by
        rw [hkind]
        rfl
      exact gathers_pure ⟨hs₂.fits_instanceMember ht₂ hagg hm pointer, t, m, ht₂, hfound, rfl,
        by rw [if_pos hkind, hs₂.start?_instanceMember ht₂ hagg hm pointer]⟩
    -- a struct is there itself, and the member lies in it
    case h_2 hkind =>
      have hne : t.kind ≠ .cls := by
        rw [hkind]
        nofun
      cases v with
      | direct h slots =>
        refine (gathers_typeOf m.type).bind ?_
        rintro t' _ s₂ - hgains₂ ⟨rfl, -⟩
        refine (gathers_ofLayout _).bind ?_
        rintro count _ _ - - ⟨rfl, rfl, -⟩
        split
        · exact gathers_pure ⟨Value.fits_direct _, t, m, hgains₂.type _ _ ht, hfound, rfl,
            (if_neg hne).symm⟩
        · exact fun _ ↦ trivial
      | relative h base offset | global h index offset =>
        refine (gathers_offset32 m.offset).bind ?_
        rintro _ _ _ - - ⟨rfl, rfl, rfl⟩
        obtain ⟨hlt, hfits⟩ := hs₁.place_member hv₁ ht hkind hm rfl
        have hsum : (offset + m.offset.toUInt32).toNat = offset.toNat + m.offset := by
          rw [add_toUInt32, toNat_toUInt32 hlt]
        refine gathers_pure ⟨?_, t, m, ht, hfound, rfl, ?_⟩
        · intro place hplace
          obtain rfl := Option.some.inj hplace
          rw [hsum]
          exact hfits
        · rw [if_neg hne]
          exact congrArg some hsum
    case h_3 => exact fun _ ↦ trivial

end Lowering

end WasmBackend
