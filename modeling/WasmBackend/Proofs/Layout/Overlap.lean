import WasmBackend.Proofs.Layout.Tiling

/-!
# Parts of one value

Two parts of a value that are reached down chains of members have no slot in common, or one lies in
the other.  So two parts of the same number of slots are the same slots or have none in common, and
the same holds of the variables where the value is held in a row of them.
-/

namespace WasmBackend.TypeStore

variable {s : TypeStore} {h g g' : Handle}

/-- The slots from `a` on and those from `b` on, so many each: they are apart, or one lies in the
other. -/
def ApartOrNested (a m b n : Nat) : Prop :=
  a + m ≤ b ∨ b + n ≤ a ∨ (a ≤ b ∧ b + n ≤ a + m) ∨ (b ≤ a ∧ a + m ≤ b + n)

theorem ApartOrNested.symm {a m b n : Nat} (h : ApartOrNested a m b n) : ApartOrNested b n a m := by
  unfold ApartOrNested at *
  omega

theorem ApartOrNested.shift {a m b n : Nat} (h : ApartOrNested a m b n) (k : Nat) :
    ApartOrNested (k + a) m (k + b) n := by
  unfold ApartOrNested at *
  omega

/-- Of two members in a row one ends where the other starts, or before. -/
theorem Lines.apart {members : List Member} {layout : List Slot} {size : Nat}
    (hl : s.Lines members layout size) {m m' : Member} (hm : m ∈ members) (hm' : m' ∈ members)
    (hne : m ≠ m') {entries entries' : List Slot} (hentries : s.entries? m.type = some entries)
    (hentries' : s.entries? m'.type = some entries') :
    m.slotIndex + entries.length ≤ m'.slotIndex ∨
      m'.slotIndex + entries'.length ≤ m.slotIndex := by
  -- an earlier member ends before the slots of the last one start
  have hends {layout : List Slot} {size : Nat} {before : List Member} {c : Member}
      {inner : List Slot} (hl : s.Lines before layout size) (hc : c ∈ before)
      (hinner : s.entries? c.type = some inner) : c.slotIndex + inner.length ≤ layout.length := by
    obtain ⟨_, _, hhold⟩ := hl.exists_holds hc
    cases hinner.symm.trans hhold.entries_eq
    exact hhold.slots_le
  induction hl with
  | nil => cases hm
  | @snoc before layout inner size n last hl _ _ _ hslot ih =>
    rcases List.mem_append.1 hm with hm | hm <;> rcases List.mem_append.1 hm' with hm' | hm'
    · exact ih hm hm'
    · rw [List.mem_singleton.1 hm', hslot]
      exact .inl (hends hl hm hentries)
    · rw [List.mem_singleton.1 hm, hslot]
      exact .inr (hends hl hm' hentries')
    · exact absurd ((List.mem_singleton.1 hm).trans (List.mem_singleton.1 hm').symm) hne

theorem valueSize?_of_entries? {entries : List Slot} (hentries : s.entries? h = some entries) :
    ∃ size, s.valueSize? h = some size := by
  obtain ⟨t, ht, hknown⟩ := entries?_eq_some.1 hentries
  obtain ⟨size, hsize⟩ := ConcreteType.exists_entries_iff.1 ⟨entries, hknown⟩
  exact ⟨size, valueSize?_eq_some.2 ⟨t, ht, hsize⟩⟩

/-- A part lies in the value. -/
theorem Path.slots_le (hs : s.AllTiled) {names : List Text} {place slot : Nat}
    (hp : s.Path h names place slot g) {entries inner : List Slot}
    (hentries : s.entries? h = some entries) (hinner : s.entries? g = some inner) :
    slot + inner.length ≤ entries.length := by
  obtain ⟨size, hsize⟩ := valueSize?_of_entries? hentries
  obtain ⟨_, _, hhold⟩ := hp.exists_holds hs hentries hsize
  cases hinner.symm.trans hhold.entries_eq
  exact hhold.slots_le

/-- Two parts of a value have no slot in common, or one lies in the other. -/
theorem Path.apartOrNested (hs : s.AllTiled) {names names' : List Text}
    {place place' slot slot' : Nat} (hp : s.Path h names place slot g)
    (hp' : s.Path h names' place' slot' g') {entries inner inner' : List Slot}
    (hentries : s.entries? h = some entries) (hinner : s.entries? g = some inner)
    (hinner' : s.entries? g' = some inner') :
    ApartOrNested slot inner.length slot' inner'.length := by
  induction hp generalizing names' place' slot' entries with
  | here h =>
    cases hentries.symm.trans hinner
    have hle := hp'.slots_le hs hinner hinner'
    exact .inr (.inr (.inl ⟨Nat.zero_le _, by omega⟩))
  | @member h g t name m names place slot ht hkind hm hrest ih =>
    obtain ⟨size, hsize⟩ := valueSize?_of_entries? hentries
    have hmem := List.mem_of_find?_eq_some hm
    obtain ⟨first, n, hhold⟩ := hs.exists_holds_member ht hkind hentries hsize hmem
    have hle := hrest.slots_le hs hhold.entries_eq hinner
    cases hp' with
    | here =>
      cases hentries.symm.trans hinner'
      have hslots := hhold.slots_le
      exact .inr (.inr (.inr ⟨Nat.zero_le _, by omega⟩))
    | @member _ _ t' name' m' names' place' slot' ht' hkind' hm' hrest' =>
      cases ht.symm.trans ht'
      by_cases hsame : m = m'
      · -- both go on inside one member
        subst hsame
        exact (ih hrest' hhold.entries_eq hinner).shift m.slotIndex
      · have hmem' := List.mem_of_find?_eq_some hm'
        obtain ⟨first', n', hhold'⟩ := hs.exists_holds_member ht hkind hentries hsize hmem'
        have hle' := hrest'.slots_le hs hhold'.entries_eq hinner'
        obtain ⟨t₁, ht₁, hknown⟩ := entries?_eq_some.1 hentries
        cases ht.symm.trans ht₁
        have hres : t.resolved := by
          simp only [ConcreteType.entries, hkind, ConcreteType.laidOut] at hknown
          split at hknown
          · assumption
          · cases hknown
        have hagg : t.kind.isAggregate := by
          rw [hkind]
          rfl
        obtain hapart | hapart := (hs.tiled h t ht hagg hres).lines.apart hmem hmem' hsame
          hhold.entries_eq hhold'.entries_eq
        · exact .inl (by omega)
        · exact .inr (.inl (by omega))

/-- Two stretches of a row without repetition, of the same length, are the same or have no element
in common, unless they overlap halfway. -/
theorem eq_or_disjoint_of_apartOrNested {α : Type} {row : List α} (hrow : row.Nodup) {a b n : Nat}
    (h : ApartOrNested a n b n) :
    (row.drop a).take n = (row.drop b).take n ∨
      List.Disjoint ((row.drop a).take n) ((row.drop b).take n) := by
  have hapart {a b : Nat} (hab : a + n ≤ b) :
      List.Disjoint ((row.drop a).take n) ((row.drop b).take n) := by
    have hsplit : (row.drop a).Nodup := hrow.sublist (List.drop_sublist a row)
    rw [← List.take_append_drop n (row.drop a), List.nodup_append] at hsplit
    intro x hx hx'
    have hlater : x ∈ (row.drop a).drop n := by
      rw [List.drop_drop]
      have hmem := List.mem_of_mem_take hx'
      rw [show b = a + n + (b - (a + n)) by omega, ← List.drop_drop] at hmem
      exact List.mem_of_mem_drop hmem
    exact hsplit.2.2 x hx x hlater rfl
  unfold ApartOrNested at h
  rcases h with h | h | h | h
  · exact .inr (hapart h)
  · exact .inr (List.Disjoint.symm (hapart h))
  · exact .inl (by rw [show a = b by omega])
  · exact .inl (by rw [show a = b by omega])

end WasmBackend.TypeStore
