import WasmBackend.Proofs.Layout.Histories

/-!
# Layouts without gaps

The layout of an aggregate strings together the layouts of its members, each moved to the place of
its member.  A member has its place twice, as a byte offset and as the position of its first slot,
and both count the same entries.  So the entries tile the value, and going down a chain of members
through nested structs the two numberings go on agreeing.
-/

namespace WasmBackend

open Stage (Ensures Meets)

/-- The entry in a value that starts at a place. -/
def Slot.shift (place : Nat) (e : Slot) : Slot :=
  { e with offset := place + e.offset }

/-- The entries lie one behind the other, from `start` to `stop`. -/
def Tiles : Nat → List Slot → Nat → Prop
  | start, [], stop => start = stop
  | start, e :: entries, stop => e.offset = start ∧ Tiles (start + e.prim.size) entries stop

theorem Slot.shift_zero : Slot.shift 0 = id := by
  funext e
  simp [shift]

theorem Slot.map_shift_shift (place place' : Nat) (entries : List Slot) :
    (entries.map (shift place')).map (shift place) = entries.map (shift (place + place')) := by
  simp [shift, Nat.add_assoc]

namespace Tiles

variable {start stop stop' place : Nat} {entries more : List Slot}

theorem append (h : Tiles start entries stop) (h' : Tiles stop more stop') :
    Tiles start (entries ++ more) stop' := by
  induction entries generalizing start with
  | nil =>
    obtain rfl : start = stop := h
    exact h'
  | cons e entries ih => exact ⟨h.1, ih h.2⟩

theorem shift (h : Tiles start entries stop) (place : Nat) :
    Tiles (place + start) (entries.map (Slot.shift place)) (place + stop) := by
  induction entries generalizing start with
  | nil => exact congrArg (place + ·) h
  | cons e entries ih =>
    refine ⟨congrArg (place + ·) h.1, ?_⟩
    have hrest := ih h.2
    rwa [← Nat.add_assoc] at hrest

theorem le (h : Tiles start entries stop) : start ≤ stop := by
  induction entries generalizing start with
  | nil => exact Nat.le_of_eq h
  | cons e entries ih => exact Nat.le_trans (Nat.le_add_right _ _) (ih h.2)

/-- Every entry lies inside. -/
theorem end_le (h : Tiles start entries stop) {e : Slot} (he : e ∈ entries) :
    e.offset + e.prim.size ≤ stop := by
  induction entries generalizing start with
  | nil => cases he
  | cons d entries ih =>
    obtain ⟨hd, hrest⟩ := h
    rcases List.mem_cons.1 he with rfl | he
    · rw [hd]
      exact hrest.le
    · exact ih hrest he

end Tiles

/-! ## Values whose layout is known -/

namespace ConcreteType

/-- The layout of a value tiles its size; of an aggregate this is asked of its type. -/
theorem tiles_entries {t : ConcreteType} {entries : List Slot} {size : Nat}
    (hstruct : t.kind = .struct → t.resolved → Tiles 0 t.layout t.size)
    (hentries : t.entries = .ok entries) (hsize : t.valueSize = .ok size) :
    Tiles 0 entries size := by
  unfold ConcreteType.entries at hentries
  unfold valueSize at hsize
  cases hk : t.kind with
  | struct =>
    simp only [hk, laidOut] at hentries hsize
    split at hentries
    · rename_i hres
      rw [if_pos hres] at hsize
      cases hentries
      cases hsize
      exact hstruct hk hres
    · cases hentries
  | primitive =>
    simp only [hk] at hentries hsize
    cases hentries
    cases hsize
    exact ⟨rfl, Nat.zero_add _⟩
  | void | unknown =>
    simp only [hk] at hentries hsize
    cases hentries
    cases hsize
    exact rfl
  | cls | pointer | function =>
    simp only [hk] at hentries hsize
    cases hentries
    cases hsize
    exact ⟨rfl, rfl⟩

/-- The layout of a value is known exactly when its size is. -/
theorem exists_entries_iff {t : ConcreteType} :
    (∃ entries, t.entries = .ok entries) ↔ ∃ size, t.valueSize = .ok size := by
  unfold ConcreteType.entries valueSize
  cases hk : t.kind with
  | struct =>
    simp only [laidOut]
    split <;> simp
  | _ => simp

end ConcreteType

namespace TypeStore

variable {s s' : TypeStore} {h g : Handle}

/-- The layout of the values of the type of a handle, if it is known. -/
def entries? (s : TypeStore) (h : Handle) : Option (List Slot) :=
  (s.type? h).bind fun t ↦ t.entries.toOption

theorem entries?_eq_some {entries : List Slot} :
    s.entries? h = some entries ↔ ∃ t, s.type? h = some t ∧ t.entries = .ok entries := by
  unfold entries?
  rw [Option.bind_eq_some_iff]
  refine exists_congr fun t ↦ and_congr_right fun _ ↦ ?_
  cases t.entries <;> simp [Except.toOption]

theorem valueSize?_eq_some {size : Nat} :
    s.valueSize? h = some size ↔ ∃ t, s.type? h = some t ∧ t.valueSize = .ok size := by
  unfold valueSize?
  rw [Option.bind_eq_some_iff]
  refine exists_congr fun t ↦ and_congr_right fun _ ↦ ?_
  cases t.valueSize <;> simp [Except.toOption]

theorem entries?_of_resolved {t : ConcreteType} (ht : s.type? h = some t) (hkind : t.kind = .struct)
    (hres : t.resolved) : s.entries? h = some t.layout := by
  refine entries?_eq_some.2 ⟨t, ht, ?_⟩
  simp [ConcreteType.entries, hkind, ConcreteType.laidOut, hres]

theorem valueSize?_of_resolved {t : ConcreteType} (ht : s.type? h = some t)
    (hkind : t.kind = .struct) (hres : t.resolved) : s.valueSize? h = some t.size := by
  refine valueSize?_eq_some.2 ⟨t, ht, ?_⟩
  simp [ConcreteType.valueSize, hkind, ConcreteType.laidOut, hres]

theorem Extends.entries? (hext : s.Extends s') {entries : List Slot}
    (h' : s.entries? h = some entries) : s'.entries? h = some entries := by
  obtain ⟨t, ht, hentries⟩ := entries?_eq_some.1 h'
  obtain ⟨t', ht', hcore, hsame⟩ := hext.type h t ht
  refine entries?_eq_some.2 ⟨t', ht', ?_⟩
  cases hres : t.resolved with
  | true => rw [hsame hres, hentries]
  | false =>
    have hkind : t'.kind = t.kind := congrArg (fun c ↦ c.kind) hcore
    have hprim : t'.prim = t.prim := congrArg (fun c ↦ c.prim) hcore
    unfold ConcreteType.entries at hentries ⊢
    rw [hkind, hprim]
    cases hk : t.kind with
    | struct =>
      simp only [hk, ConcreteType.laidOut, hres] at hentries
      cases hentries
    | _ => simpa only [hk] using hentries

/-! ## Members in a row -/

/-- The members stand one behind the other.  Each starts, in bytes and in slots, where those before
it end, and what it takes is the layout of its type, moved there. -/
inductive Lines (s : TypeStore) : List Member → List Slot → Nat → Prop
  | nil : Lines s [] [] 0
  | snoc {members : List Member} {layout entries : List Slot} {size n : Nat} {m : Member}
      (hlines : Lines s members layout size) (hentries : s.entries? m.type = some entries)
      (hsize : s.valueSize? m.type = some n) (hoffset : m.offset = size)
      (hslot : m.slotIndex = layout.length) :
      Lines s (members ++ [m]) (layout ++ entries.map (Slot.shift size)) (size + n)

theorem Lines.mono {members : List Member} {layout : List Slot} {size : Nat}
    (hl : s.Lines members layout size) (hext : s.Extends s') : s'.Lines members layout size := by
  induction hl with
  | nil => exact .nil
  | snoc _ hentries hsize hoffset hslot ih =>
    exact ih.snoc (hext.entries? hentries) (hext.valueSize? hsize) hoffset hslot

/-- In a layout of a size stands, at a byte and at a slot, a value of a type: the entries from that
slot on are those of the type, moved to that byte. -/
structure Holds (s : TypeStore) (layout : List Slot) (size place slot : Nat) (h : Handle)
    (entries : List Slot) (n : Nat) : Prop where
  entries_eq : s.entries? h = some entries
  size_eq : s.valueSize? h = some n
  take_eq : (layout.drop slot).take entries.length = entries.map (Slot.shift place)
  slots_le : slot + entries.length ≤ layout.length
  bytes_le : place + n ≤ size

theorem Lines.exists_holds {members : List Member} {layout : List Slot} {size : Nat}
    (hl : s.Lines members layout size) {m : Member} (hm : m ∈ members) :
    ∃ entries n, s.Holds layout size m.offset m.slotIndex m.type entries n := by
  induction hl with
  | nil => cases hm
  | @snoc members layout entries size n m' _ hentries hsize hoffset hslot ih =>
    rcases List.mem_append.1 hm with hm | hm
    · obtain ⟨entries', n', hold⟩ := ih hm
      have hslots := hold.slots_le
      refine ⟨entries', n', hold.entries_eq, hold.size_eq, ?_, ?_,
        Nat.le_trans hold.bytes_le (Nat.le_add_right _ _)⟩
      · rw [List.drop_append_of_le_length (by omega), List.take_append_of_le_length
          (by rw [List.length_drop]; omega), hold.take_eq]
      · rw [List.length_append]
        omega
    · obtain rfl := List.mem_singleton.1 hm
      refine ⟨entries, n, hentries, hsize, ?_, ?_, ?_⟩
      · rw [hslot, hoffset, List.drop_left, List.take_of_length_le (by simp)]
      · simp [hslot]
      · rw [hoffset]

theorem holds_self {entries : List Slot} {n : Nat} (hentries : s.entries? h = some entries)
    (hsize : s.valueSize? h = some n) : s.Holds entries n 0 0 h entries n where
  entries_eq := hentries
  size_eq := hsize
  take_eq := by simp [Slot.shift_zero]
  slots_le := by simp
  bytes_le := by simp

/-- A value inside a value is found by adding up the bytes and the slots. -/
theorem Holds.trans {layout entries entries' : List Slot} {size place slot place' slot' n n' : Nat}
    (hg : s.Holds layout size place slot g entries n)
    (hh : s.Holds entries n place' slot' h entries' n') :
    s.Holds layout size (place + place') (slot + slot') h entries' n' where
  entries_eq := hh.entries_eq
  size_eq := hh.size_eq
  take_eq := by
    have hinner : entries'.length ≤ entries.length - slot' := by
      have := hh.slots_le
      omega
    calc (layout.drop (slot + slot')).take entries'.length
        = ((layout.drop slot).drop slot').take (min entries'.length (entries.length - slot')) := by
          rw [List.drop_drop, Nat.min_eq_left hinner]
      _ = ((((layout.drop slot).take entries.length).drop slot')).take entries'.length := by
          rw [List.drop_take, List.take_take]
      _ = ((entries.drop slot').take entries'.length).map (Slot.shift place) := by
          rw [hg.take_eq, List.map_take, List.map_drop]
      _ = entries'.map (Slot.shift (place + place')) := by
          rw [hh.take_eq, Slot.map_shift_shift]
  slots_le := by
    have := hg.slots_le
    have := hh.slots_le
    omega
  bytes_le := by
    have := hg.bytes_le
    have := hh.bytes_le
    omega

/-- From a type down a chain of members through nested structs, with the bytes and the slots on the
way added up. -/
inductive Path (s : TypeStore) : Handle → List Text → Nat → Nat → Handle → Prop
  | here (h : Handle) : Path s h [] 0 0 h
  | member {h g : Handle} {t : ConcreteType} {name : Text} {m : Member} {names : List Text}
      {place slot : Nat} (ht : s.type? h = some t) (hkind : t.kind = .struct)
      (hm : t.member? name = some m) (hrest : Path s m.type names place slot g) :
      Path s h (name :: names) (m.offset + place) (m.slotIndex + slot) g

/-! ## Stores of tiled layouts -/

/-- The members of a type stand in a row, which is its layout, and its entries tile its size. -/
structure Tiled (s : TypeStore) (t : ConcreteType) : Prop where
  lines : s.Lines t.members t.layout t.size
  tiles : Tiles 0 t.layout t.size
  size_lt : t.size < 2 ^ 32

/-- Every aggregate with a layout is tiled, and without one nothing has a place yet. -/
structure AllTiled (s : TypeStore) : Prop where
  tiled : ∀ h t, s.type? h = some t → t.kind.isAggregate → t.resolved → s.Tiled t
  unplaced : ∀ h t, s.type? h = some t → t.resolved = false → ∀ m ∈ t.members, m.offset = 0

theorem Tiled.mono {t : ConcreteType} (ht : s.Tiled t) (hext : s.Extends s') : s'.Tiled t :=
  ⟨ht.lines.mono hext, ht.tiles, ht.size_lt⟩

/-- What is built has no layout, so building changes nothing. -/
theorem Gains.allTiled (hgains : s.Gains s') (hs : s.AllTiled) : s'.AllTiled := by
  have hbuilt {h : Handle} {t : ConcreteType} (ht : s'.type? h = some t) :
      s.type? h = some t ∨ ∃ a, t.Raw s' a := by
    obtain rfl | hne := eq_or_ne h 0
    · exact .inl ht
    · obtain ⟨a, ha, hat⟩ := exists_of_type? ht hne
      exact (hgains.built h a t ha hat).imp_right fun hraw ↦ ⟨a, hraw⟩
  constructor
  · intro h t ht hagg hres
    obtain hold | ⟨a, hraw⟩ := hbuilt ht
    · exact (hs.tiled h t hold hagg hres).mono hgains.lays.toExtends
    · rw [hraw.unresolved hagg] at hres
      cases hres
  · intro h t ht hres
    obtain hold | ⟨a, hraw⟩ := hbuilt ht
    · exact hs.unplaced h t hold hres
    · exact hraw.unplaced

theorem AllTiled.tiles_entries (hs : s.AllTiled) {entries : List Slot} {size : Nat}
    (hentries : s.entries? h = some entries) (hsize : s.valueSize? h = some size) :
    Tiles 0 entries size := by
  obtain ⟨t, ht, hentries⟩ := entries?_eq_some.1 hentries
  obtain ⟨u, hu, hsize⟩ := valueSize?_eq_some.1 hsize
  cases ht.symm.trans hu
  refine ConcreteType.tiles_entries (fun hstruct hres ↦ ?_) hentries hsize
  exact (hs.tiled h t ht (by rw [hstruct]; rfl) hres).tiles

/-- No value is as large as the memory. -/
theorem AllTiled.valueSize_lt (hs : s.AllTiled) {size : Nat} (hsize : s.valueSize? h = some size) :
    size < 2 ^ 32 := by
  obtain ⟨t, ht, hsize⟩ := valueSize?_eq_some.1 hsize
  unfold ConcreteType.valueSize at hsize
  cases hk : t.kind with
  | struct =>
    simp only [hk, ConcreteType.laidOut] at hsize
    split at hsize
    · rename_i hres
      cases hsize
      exact (hs.tiled h t ht (by rw [hk]; rfl) hres).size_lt
    · cases hsize
  | primitive =>
    simp only [hk] at hsize
    cases hsize
    cases t.prim <;> simp [Prim.size]
  | void | unknown | cls | pointer | function =>
    simp only [hk] at hsize
    cases hsize
    decide

/-- A member of a struct with a layout stands in it. -/
theorem AllTiled.exists_holds_member (hs : s.AllTiled) {t : ConcreteType} {entries : List Slot}
    {size : Nat} (ht : s.type? h = some t) (hkind : t.kind = .struct)
    (hentries : s.entries? h = some entries) (hsize : s.valueSize? h = some size) {m : Member}
    (hm : m ∈ t.members) :
    ∃ entries' n, s.Holds entries size m.offset m.slotIndex m.type entries' n := by
  obtain ⟨t₁, ht₁, hentries⟩ := entries?_eq_some.1 hentries
  obtain ⟨t₂, ht₂, hsize⟩ := valueSize?_eq_some.1 hsize
  cases ht.symm.trans ht₁
  cases ht.symm.trans ht₂
  unfold ConcreteType.entries at hentries
  unfold ConcreteType.valueSize at hsize
  simp only [hkind, ConcreteType.laidOut] at hentries hsize
  split at hentries
  · rename_i hres
    rw [if_pos hres] at hsize
    cases hentries
    cases hsize
    exact (hs.tiled h t ht (by rw [hkind]; rfl) hres).lines.exists_holds hm
  · cases hentries

/-- At the end of a chain of members stands what the sums say. -/
theorem Path.exists_holds (hs : s.AllTiled) {names : List Text} {place slot : Nat}
    (hp : s.Path h names place slot g) {entries : List Slot} {size : Nat}
    (hentries : s.entries? h = some entries) (hsize : s.valueSize? h = some size) :
    ∃ entries' n, s.Holds entries size place slot g entries' n := by
  induction hp generalizing entries size with
  | here h => exact ⟨entries, size, holds_self hentries hsize⟩
  | member ht hkind hm _ ih =>
    obtain ⟨inner, n, hfirst⟩ := hs.exists_holds_member ht hkind hentries hsize
      (List.mem_of_find?_eq_some hm)
    obtain ⟨entries', n', hrest⟩ := ih hfirst.entries_eq hfirst.size_eq
    exact ⟨entries', n', hfirst.trans hrest⟩

theorem allTiled_ofProgram (p : Program) : (ofProgram p).AllTiled := by
  have hvoid {h : Handle} {t : ConcreteType} (ht : (ofProgram p).type? h = some t) : t = .void := by
    obtain rfl | hne := eq_or_ne h 0
    · exact (Option.some.inj ht).symm
    · obtain ⟨a, ha, -⟩ := exists_of_type? ht hne
      simp [application?, ofProgram] at ha
  constructor
  · intro h t ht hagg
    rw [hvoid ht] at hagg
    cases hagg
  · intro h t ht hres
    rw [hvoid ht] at hres
    cases hres

end TypeStore

namespace Layouts

variable {l₀ l l' : Layouts} {h : Handle}

/-! ## Laying out keeps layouts tiled -/

/-- What is placed so far stands in a row. -/
structure Cursor.Tiled (s : TypeStore) (c : Cursor) : Prop where
  lines : s.Lines c.members c.layout c.offset
  tiles : Tiles 0 c.layout c.offset
  slot_eq : c.slot = c.layout.length

theorem ensures_placeMember_tiled (hs : l.store.Proper) (htiled : l.store.AllTiled) {m : Member}
    (hlt : m.type < l.store.size) (owner : Text) {c : Cursor} (hc : c.Tiled l.store) :
    Ensures (placeMember owner c m) l fun c' l' ↦ l.store.Gains l'.store ∧ c'.Tiled l'.store
      ∧ c'.members.map unplaced = c.members.map unplaced ++ [unplaced m] := by
  unfold placeMember
  rw [Ensures, Stage.meets_bind]
  refine (meets_typeOf hs.toStandard hlt).ensures.imp ?_
  rintro t l₁ ⟨hgains, -, ht⟩
  dsimp only
  split
  · trivial
  rw [Stage.meets_bind, Stage.meets_ofExcept]
  cases hentries : t.entries with
  | error e => trivial
  | ok entries =>
    dsimp only
    rw [Stage.meets_bind, Stage.meets_ofExcept]
    cases hsize : t.valueSize with
    | error e => trivial
    | ok n =>
      have hentries' := TypeStore.entries?_eq_some.2 ⟨t, ht, hentries⟩
      have hsize' := TypeStore.valueSize?_eq_some.2 ⟨t, ht, hsize⟩
      have htiles := ((hgains.allTiled htiled).tiles_entries hentries' hsize').shift c.offset
      refine ⟨hgains, ⟨?_, hc.tiles.append htiles, ?_⟩, by simp [unplaced]⟩
      · exact (hc.lines.mono hgains.lays.toExtends).snoc hentries' hsize' rfl hc.slot_eq
      · simp [hc.slot_eq]

theorem ensures_placeMembers_tiled (hs : l.store.Proper) (htiled : l.store.AllTiled)
    {members : List Member} (hlt : ∀ m ∈ members, m.type < l.store.size) (owner : Text) :
    Ensures (members.foldlM (placeMember owner) {}) l fun c l' ↦
      l.store.Gains l'.store ∧ c.Tiled l'.store
        ∧ c.members.map unplaced = members.map unplaced := by
  refine Stage.meets_foldlM (fun done (c : Cursor) (l' : Layouts) ↦
    l.store.Gains l'.store ∧ c.Tiled l'.store ∧ c.members.map unplaced = done.map unplaced)
    ⟨.refl _, ⟨.nil, rfl, rfl⟩, rfl⟩ ?_
  rintro done m rest c l₁ hmembers ⟨hgains, hc, hplaced⟩
  have hm := hgains.toKeeps.lt_size (hlt m (by simp [hmembers]))
  refine (ensures_placeMember_tiled (hgains.lays.proper hs) (hgains.allTiled htiled) hm owner
    hc).imp ?_
  rintro c' l₂ ⟨hgains', hc', hplaced'⟩
  exact ⟨hgains.trans hgains', hc', by rw [hplaced', hplaced, List.map_append]; rfl⟩

theorem ensures_compute_tiled (hs : l.store.Proper) (htiled : l.store.AllTiled)
    {t : ConcreteType} (ht : l.store.type? h = some t) (hres : t.resolved = false) :
    Ensures (compute t) l fun _ l' ↦ l.store.Lays l'.store ∧ l'.store.AllTiled := by
  have hhandle : t.handle = h := hs.faithful.handle ht
  have hne : h ≠ 0 := TypeStore.ne_zero_of_type? ht (by rintro rfl; cases hres)
  obtain ⟨a, ha, hat⟩ := TypeStore.exists_of_type? ht hne
  have hlt (m : Member) (hm : m ∈ t.members) : m.type < l.store.size := by
    obtain ⟨k, hk⟩ := (hs.shaped h a t ha hat).known m hm
    exact TypeStore.lt_size_of_kindOf hk
  unfold compute
  rw [Ensures, Stage.meets_bind]
  refine (ensures_placeMembers_tiled hs htiled hlt t.name).imp ?_
  rintro c l₁ ⟨hgains, hc, hplaced⟩
  set laid : ConcreteType :=
    { t with size := c.offset, members := c.members, layout := c.layout, resolved := true }
  have hcore : laid.core = t.core := by
    show { t with members := c.members.map unplaced, size := 0, layout := [], resolved := false }
      = { t with members := t.members.map unplaced, size := 0, layout := [], resolved := false }
    rw [hplaced]
  dsimp only
  split
  · trivial
  rename_i hrange
  rw [Stage.meets_bind, Stage.meets_modify]
  have hold : l₁.store.type? laid.handle = some t := hhandle ▸ hgains.type h t ht
  obtain ⟨b, hb, -⟩ := TypeStore.exists_of_type? hold (hhandle ▸ hne)
  have hlays := TypeStore.lays_setType hold hcore hres
  have htiled₁ := hgains.allTiled htiled
  -- the type is laid out now, and every other type is what it was
  have hset {g : Handle} {u : ConcreteType} (hu : (l₁.store.setType laid).type? g = some u) :
      u = laid ∨ l₁.store.type? g = some u := by
    rw [TypeStore.type?_setType hb] at hu
    split at hu
    · exact .inl (Option.some.inj hu).symm
    · exact .inr hu
  refine ⟨hgains.lays.trans hlays, ?_, ?_⟩
  · intro g u hu hagg hures
    obtain rfl | hu := hset hu
    · exact ⟨hc.lines.mono hlays.toExtends, hc.tiles, Nat.not_le.1 hrange⟩
    · exact (htiled₁.tiled g u hu hagg hures).mono hlays.toExtends
  · intro g u hu hures
    obtain rfl | hu := hset hu
    · cases hures
    · exact htiled₁.unplaced g u hu hures

theorem ensures_settle_tiled (hs : l.store.Proper) (htiled : l.store.AllTiled)
    (hlt : h < l.store.size) :
    Ensures (settle h) l fun _ l' ↦ l.store.Lays l'.store ∧ l'.store.AllTiled := by
  unfold settle
  rw [Ensures, Stage.meets_bind]
  refine (meets_typeOf hs.toStandard hlt).ensures.imp ?_
  rintro t l₁ ⟨hgains, -, ht⟩
  have htiled₁ := hgains.allTiled htiled
  rw [Stage.meets_bind, Stage.meets_get]
  refine Stage.meets_ite.2 ⟨fun _ ↦ ⟨hgains.lays, htiled₁⟩, fun hwait ↦ ?_⟩
  have hres : t.resolved = false := by simpa using (not_or.1 hwait).1
  show Meets (discard (compute t) >>= _) _ _ _
  rw [Stage.meets_bind]
  show Meets ((fun _ ↦ PUnit.unit) <$> compute t) _ _ _
  rw [Stage.meets_map]
  refine (ensures_compute_tiled (hgains.lays.proper hs) htiled₁ ht hres).imp ?_
  rintro _ l₂ ⟨hlays, htiled₂⟩
  exact ⟨hgains.lays.trans hlays, htiled₂⟩

theorem ensures_settleAll_tiled (hs : l.store.Proper) (htiled : l.store.AllTiled)
    (hlt : ∀ h ∈ l.registered, h < l.store.size) :
    Ensures settleAll l fun _ l' ↦ l.store.Lays l'.store ∧ l'.store.AllTiled := by
  unfold settleAll
  rw [Ensures, Stage.meets_bind, Stage.meets_get]
  refine Stage.meets_foldlM (fun _ _ (l' : Layouts) ↦ l.store.Lays l'.store ∧ l'.store.AllTiled)
    ⟨.refl _, htiled⟩ ?_
  rintro done h rest progress l₁ hall ⟨hlays, htiled₁⟩
  have hh := hlays.toKeeps.lt_size (hlt h (by simp [hall]))
  rw [Stage.meets_bind]
  refine (ensures_settle_tiled (hlays.proper hs) htiled₁ hh).imp ?_
  rintro settled l₂ ⟨hlays', htiled₂⟩
  exact ⟨hlays.trans hlays', htiled₂⟩

theorem Consistent.lt_size (hl : l.Consistent) : ∀ h ∈ l.registered, h < l.store.size := by
  intro h hh
  obtain ⟨t, ht, -⟩ := hl.contained h hh
  exact TypeStore.lt_size_of_type? ht

theorem ensures_settleRounds_tiled (hl₀ : l₀.Consistent) (hp : l₀.Proceeds l)
    (htiled : l.store.AllTiled) (rounds : Nat) :
    Ensures (settleRounds rounds) l fun _ l' ↦ l₀.Proceeds l' ∧ l'.store.AllTiled := by
  induction rounds generalizing l with
  | zero => exact ⟨hp, htiled⟩
  | succ rounds ih =>
    have hl := hp.consistent hl₀
    unfold settleRounds
    rw [Ensures, Stage.meets_bind]
    refine ((meets_settleAll hl₀ hp).ensures.and
      (ensures_settleAll_tiled hl.proper htiled hl.lt_size)).imp ?_
    rintro progress l₁ ⟨⟨hp₁, -⟩, -, htiled₁⟩
    cases progress with
    | false => exact ⟨hp₁, htiled₁⟩
    | true => exact ih hp₁ htiled₁

/-- Resolving keeps layouts tiled. -/
theorem ensures_resolve_tiled (hl : l.Consistent) (htiled : l.store.AllTiled) :
    Ensures resolve l fun _ l' ↦ l'.store.AllTiled := by
  unfold resolve
  simp only [Ensures, Stage.meets_bind, Stage.meets_get]
  refine (ensures_settleRounds_tiled hl (.refl l) htiled _).imp ?_
  rintro _ l₁ ⟨hp, htiled₁⟩
  have hl₁ := hp.consistent hl
  refine (meets_leftOver hl₁.isBuilt_of_waits fun h hreg ↦ hl₁.isBuilt (.inl hreg)).imp ?_
  rintro left l' ⟨rfl, -⟩
  exact htiled₁

/-- Layouts are tiled in any use. -/
theorem Reached.allTiled {p : Program} (hl : Reached p l) : l.store.AllTiled := by
  induction hl with
  | start => exact TypeStore.allTiled_ofProgram p
  | renew _ ih => exact ih
  | prepare hl hp ih => exact (hp.registers hl.consistent.proper).gains.allTiled ih
  | resolve hl hr ih => exact (ensures_resolve_tiled hl.consistent ih).of_eq hr

end Layouts

end WasmBackend
