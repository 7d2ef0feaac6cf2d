import Mathlib
import WasmBackend.Diagnostic.Basic

/-!
# What a bag keeps and what is shown of it

A bag with a limit keeps the first diagnostics and counts the others.  The build fails where some
diagnostic is an error, kept or not, and where the limit turned anything away.

A report shows of every finding the first diagnostic, ordered by place, severity and code.  Neither
message nor notes take part in the order, and severity and notes do not make a finding.  So what is
shown is independent of the order of reporting exactly when no two diagnostics of the bag agree on
the one or the other without being equal: `shown_independent_iff`.
-/

namespace WasmBackend

/-- The diagnostic fails the build. -/
def Diagnostic.IsError (d : Diagnostic) : Prop :=
  Severity.error.level ≤ d.severity.level

instance (d : Diagnostic) : Decidable d.IsError :=
  inferInstanceAs (Decidable (_ ≤ _))

theorem Diagnostic.isError_error (code : Code) (span : Span) (message : Text) (notes : List Note) :
    (error code span message notes).IsError :=
  UInt8.le_refl _

namespace Bag

/-- Report diagnostics one after the other. -/
def addAll (b : Bag) (ds : List Diagnostic) : Bag :=
  ds.foldl add b

/-- A limit that turns none of the diagnostics away. -/
def Keeps (limit : ℤ) (ds : List Diagnostic) : Prop :=
  limit ≤ 0 ∨ ds.length ≤ limit

instance (limit : ℤ) (ds : List Diagnostic) : Decidable (Keeps limit ds) :=
  inferInstanceAs (Decidable (_ ∨ _))

variable {b : Bag} {ds es : List Diagnostic} {limit : ℤ}

theorem addAll_nil : b.addAll [] = b :=
  rfl

theorem addAll_append : b.addAll (ds ++ es) = (b.addAll ds).addAll es :=
  List.foldl_append

theorem Keeps.of_append (h : Keeps limit (ds ++ es)) : Keeps limit ds := by
  unfold Keeps at *
  rw [List.length_append] at h
  omega

/-- What the limit leaves room for is kept in order. -/
theorem addAll_of_keeps (h : Keeps limit ds) : (ofLimit limit).addAll ds = ⟨ds, limit, 0⟩ := by
  induction ds using List.reverseRecOn with
  | nil => rfl
  | append_singleton ds d ih =>
    have hroom : isFull ⟨ds, limit, 0⟩ = false := by
      unfold Keeps at h
      rw [List.length_append, List.length_singleton] at h
      simp only [isFull, Bool.and_eq_false_iff, decide_eq_false_iff_not]
      omega
    rw [addAll_append, ih h.of_append]
    show add _ d = _
    rw [add, hroom, if_neg Bool.false_ne_true]

/-- What the limit leaves no room for is counted. -/
theorem dropped_addAll_pos (h : ¬Keeps limit ds) : 0 < ((ofLimit limit).addAll ds).dropped := by
  induction ds using List.reverseRecOn with
  | nil => exact absurd (by unfold Keeps; rw [List.length_nil]; omega) h
  | append_singleton ds d ih =>
    rw [addAll_append]
    show 0 < (add _ d).dropped
    by_cases hds : Keeps limit ds
    · have hfull : isFull ⟨ds, limit, 0⟩ = true := by
        unfold Keeps at h hds
        rw [List.length_append, List.length_singleton] at h
        simp only [isFull, Bool.and_eq_true, decide_eq_true_eq]
        omega
      rw [addAll_of_keeps hds, add, if_pos hfull]
      exact Nat.succ_pos 0
    · unfold add
      split
      · exact Nat.succ_pos _
      · exact ih hds

theorem keeps_unlimited (ds : List Diagnostic) : Keeps 0 ds :=
  .inl le_rfl

/-- **What the limit turned away fails the build**, and so does an error, kept or not. -/
theorem hasErrors_addAll :
    ((ofLimit limit).addAll ds).hasErrors ↔ (∃ d ∈ ds, d.IsError) ∨ ¬Keeps limit ds := by
  unfold hasErrors
  by_cases h : Keeps limit ds
  · simp [addAll_of_keeps h, h, Diagnostic.IsError]
  · simp [dropped_addAll_pos h, h]

end Bag

end WasmBackend

namespace WasmBackend.Bag

/-- What a report shows of a bag. -/
def shown (b : Bag) : List Diagnostic :=
  b.dedup.sort.items

variable {b b' : Bag} {d x y : Diagnostic} {ds : List Diagnostic}
  {seen : List (Code × Span × Text)} {i : Code × Span × Text}

/-! ## One diagnostic for every finding -/

theorem firstOfEach_cons (seen : List (Code × Span × Text)) (d : Diagnostic)
    (ds : List Diagnostic) : firstOfEach seen (d :: ds) =
      if d.identity ∈ seen then firstOfEach seen ds
      else d :: firstOfEach (d.identity :: seen) ds :=
  rfl

theorem sublist_firstOfEach (seen : List (Code × Span × Text)) (ds : List Diagnostic) :
    (firstOfEach seen ds).Sublist ds := by
  induction ds generalizing seen with
  | nil => exact List.Sublist.refl []
  | cons d ds ih =>
    rw [firstOfEach_cons]
    split
    · exact (ih seen).cons d
    · exact (ih _).cons_cons d

theorem mem_map_identity_firstOfEach :
    i ∈ (firstOfEach seen ds).map Diagnostic.identity ↔
      i ∈ ds.map Diagnostic.identity ∧ i ∉ seen := by
  induction ds generalizing seen with
  | nil => simp [firstOfEach]
  | cons d ds ih =>
    rw [firstOfEach_cons]
    by_cases hd : d.identity ∈ seen
    · rw [if_pos hd, ih, List.map_cons, List.mem_cons]
      constructor
      · rintro ⟨hi, hseen⟩
        exact ⟨.inr hi, hseen⟩
      · rintro ⟨rfl | hi, hseen⟩
        · exact absurd hd hseen
        · exact ⟨hi, hseen⟩
    · rw [if_neg hd, List.map_cons, List.mem_cons, ih, List.map_cons, List.mem_cons, List.mem_cons]
      by_cases hi : i = d.identity
      · simp [hi, hd]
      · simp [hi]

theorem nodup_map_identity_firstOfEach (seen : List (Code × Span × Text)) (ds : List Diagnostic) :
    ((firstOfEach seen ds).map Diagnostic.identity).Nodup := by
  induction ds generalizing seen with
  | nil => exact List.nodup_nil
  | cons d ds ih =>
    rw [firstOfEach_cons]
    split
    · exact ih seen
    · refine List.nodup_cons.2 ⟨fun hmem ↦ ?_, ih _⟩
      exact (mem_map_identity_firstOfEach.1 hmem).2 List.mem_cons_self

/-- Where no finding repeats, nothing is left out. -/
theorem firstOfEach_of_nodup (hnodup : (ds.map Diagnostic.identity).Nodup)
    (hseen : ∀ d ∈ ds, d.identity ∉ seen) : firstOfEach seen ds = ds := by
  induction ds generalizing seen with
  | nil => rfl
  | cons d ds ih =>
    obtain ⟨hd, hnodup⟩ := List.nodup_cons.1 hnodup
    rw [firstOfEach_cons, if_neg (hseen d List.mem_cons_self)]
    congr 1
    refine ih hnodup fun e he hmem ↦ ?_
    obtain heq | hmem := List.mem_cons.1 hmem
    · exact hd (heq ▸ List.mem_map_of_mem he)
    · exact hseen e (List.mem_cons_of_mem d he) hmem

/-! ## In order -/

theorem sorts_iff : (!decide (y.sortKey < x.sortKey)) = true ↔ x.sortKey ≤ y.sortKey := by
  simp

theorem sorts_trans (x y z : Diagnostic) (hxy : (!decide (y.sortKey < x.sortKey)) = true)
    (hyz : (!decide (z.sortKey < y.sortKey)) = true) :
    (!decide (z.sortKey < x.sortKey)) = true :=
  sorts_iff.2 ((sorts_iff.1 hxy).trans (sorts_iff.1 hyz))

theorem sorts_total (x y : Diagnostic) :
    (!decide (y.sortKey < x.sortKey) || !decide (x.sortKey < y.sortKey)) = true := by
  rw [Bool.or_eq_true, sorts_iff, sorts_iff]
  exact le_total _ _

theorem perm_shown (b : Bag) : b.shown.Perm b.dedup.items :=
  List.mergeSort_perm _ _

/-- What is shown is in order. -/
theorem pairwise_shown (b : Bag) : b.shown.Pairwise fun x y ↦ x.sortKey ≤ y.sortKey :=
  (List.pairwise_mergeSort sorts_trans sorts_total b.dedup.items).imp sorts_iff.1

theorem mem_of_mem_shown (hd : d ∈ b.shown) : d ∈ b.items :=
  (sublist_firstOfEach [] b.items).subset (b.perm_shown.mem_iff.1 hd)

theorem nodup_map_identity_shown (b : Bag) : (b.shown.map Diagnostic.identity).Nodup :=
  (b.perm_shown.map _).nodup_iff.2 (nodup_map_identity_firstOfEach [] b.items)

/-- Exactly the findings of the bag are shown. -/
theorem mem_map_identity_shown :
    i ∈ b.shown.map Diagnostic.identity ↔ i ∈ b.items.map Diagnostic.identity := by
  rw [(b.perm_shown.map _).mem_iff]
  exact mem_map_identity_firstOfEach.trans (and_iff_left List.not_mem_nil)

/-- Of two diagnostics of one finding at most one is shown. -/
theorem eq_of_mem_shown (hx : x ∈ b.shown) (hy : y ∈ b.shown) (hxy : x.identity = y.identity) :
    x = y :=
  List.inj_on_of_nodup_map b.nodup_map_identity_shown hx hy hxy

/-- What is shown changes no more: **leaving out repeated findings and sorting a second time has no
effect**. -/
theorem dedup_sort_dedup_sort (b : Bag) : b.dedup.sort.dedup.sort = b.dedup.sort := by
  have hdedup : b.dedup.sort.dedup = b.dedup.sort := by
    show { b.dedup.sort with items := firstOfEach [] b.shown } = b.dedup.sort
    rw [firstOfEach_of_nodup b.nodup_map_identity_shown fun _ _ ↦ List.not_mem_nil]
    rfl
  have hsort : b.shown.mergeSort (fun x y ↦ !decide (y.sortKey < x.sortKey)) = b.shown :=
    List.mergeSort_of_pairwise (b.pairwise_shown.imp sorts_iff.2)
  calc b.dedup.sort.dedup.sort
    _ = b.dedup.sort.sort := by rw [hdedup]
    _ = ⟨b.shown, b.limit, b.dropped⟩ := congrArg (Bag.mk · b.limit b.dropped) hsort
    _ = b.dedup.sort := rfl

/-! ## Reporting in another order -/

/-- The findings that are shown do not depend on the order of reporting. -/
theorem perm_map_identity_shown (h : b'.items.Perm b.items) :
    (b'.shown.map Diagnostic.identity).Perm (b.shown.map Diagnostic.identity) := by
  refine (List.perm_ext_iff_of_nodup b'.nodup_map_identity_shown b.nodup_map_identity_shown).2 ?_
  intro i
  rw [mem_map_identity_shown, mem_map_identity_shown, (h.map _).mem_iff]

/-- What is reported first is shown. -/
theorem mem_shown_of_head (h : b.items = d :: ds) : d ∈ b.shown := by
  refine b.perm_shown.mem_iff.2 ?_
  show d ∈ firstOfEach [] b.items
  rw [h, firstOfEach_cons, if_neg List.not_mem_nil]
  exact List.mem_cons_self

/-- Two findings that are reported first and agree in their place stay in that order. -/
theorem sublist_shown_of_head (h : b.items = x :: y :: ds) (hxy : x.identity ≠ y.identity)
    (hkey : x.sortKey = y.sortKey) : [x, y].Sublist b.shown := by
  refine List.pair_sublist_mergeSort sorts_trans sorts_total (sorts_iff.2 hkey.le) ?_
  show [x, y].Sublist (firstOfEach [] b.items)
  rw [h, firstOfEach_cons, if_neg List.not_mem_nil, firstOfEach_cons,
    if_neg (by simpa using hxy.symm)]
  exact ((List.nil_sublist _).cons_cons y).cons_cons x

/-- In a list without repetitions two elements stand in one order only. -/
theorem eq_of_sublist_of_sublist (hnodup : ds.Nodup) (hxy : [x, y].Sublist ds)
    (hyx : [y, x].Sublist ds) : x = y := by
  -- both are what is left of the list when everything else is dropped
  have hlength : (ds.filter fun d ↦ d = x ∨ d = y).length ≤ 2 := by
    have hsubset : ds.filter (fun d ↦ d = x ∨ d = y) ⊆ [x, y] := fun d hd ↦ by
      simpa using (List.mem_filter.1 hd).2
    exact ((hnodup.filter _).subperm hsubset).length_le
  have hleft := hxy.filter fun d ↦ d = x ∨ d = y
  have hright := hyx.filter fun d ↦ d = x ∨ d = y
  simp only [List.filter_cons, true_or, or_true, decide_true, if_true, List.filter_nil]
    at hleft hright
  have heq := (hleft.eq_of_length_le hlength).trans (hright.eq_of_length_le hlength).symm
  exact (List.cons_eq_cons.1 heq).1

/-- **When what is shown is independent of the order of reporting**: exactly when different
diagnostics of the bag are different findings, at different places of the order. -/
theorem shown_independent_iff (b : Bag) :
    (∀ b' : Bag, b'.items.Perm b.items → b'.shown = b.shown) ↔
      Set.InjOn Diagnostic.identity {d | d ∈ b.items} ∧
        Set.InjOn Diagnostic.sortKey {d | d ∈ b.items} := by
  constructor
  · intro h
    have hshown {ds : List Diagnostic} (hds : b.items.Perm ds) :
        ({ items := ds } : Bag).shown = b.shown := h _ hds.symm
    have hidentity : Set.InjOn Diagnostic.identity {d | d ∈ b.items} := by
      have hmem {d : Diagnostic} (hd : d ∈ b.items) : d ∈ b.shown := by
        rw [← hshown (List.perm_cons_erase hd)]
        exact mem_shown_of_head rfl
      intro x hx y hy hxy
      exact eq_of_mem_shown (hmem hx) (hmem hy) hxy
    refine ⟨hidentity, fun x hx y hy hkey ↦ ?_⟩
    by_contra hne
    have hpair {x y : Diagnostic} (hx : x ∈ b.items) (hy : y ∈ b.items) (hne : x ≠ y)
        (hkey : x.sortKey = y.sortKey) : [x, y].Sublist b.shown := by
      have hy' : y ∈ b.items.erase x := (List.mem_erase_of_ne (Ne.symm hne)).2 hy
      rw [← hshown ((List.perm_cons_erase hx).trans ((List.perm_cons_erase hy').cons x))]
      exact sublist_shown_of_head rfl (fun hxy ↦ hne (hidentity hx hy hxy)) hkey
    exact hne (eq_of_sublist_of_sublist b.nodup_map_identity_shown.of_map
      (hpair hx hy hne hkey) (hpair hy hx (Ne.symm hne) hkey.symm))
  · rintro ⟨hidentity, hkey⟩ b' hb'
    have hall {c : Bag} (hc : c.items.Perm b.items) (d : Diagnostic) :
        d ∈ c.shown ↔ d ∈ b.items := by
      refine ⟨fun hd ↦ hc.mem_iff.1 (mem_of_mem_shown hd), fun hd ↦ ?_⟩
      have hi : d.identity ∈ c.shown.map Diagnostic.identity :=
        mem_map_identity_shown.2 (List.mem_map_of_mem (hc.mem_iff.2 hd))
      obtain ⟨e, he, heq⟩ := List.mem_map.1 hi
      rwa [← hidentity (hc.mem_iff.1 (mem_of_mem_shown he)) hd heq]
    have hperm : b'.shown.Perm b.shown := by
      refine (List.perm_ext_iff_of_nodup b'.nodup_map_identity_shown.of_map
        b.nodup_map_identity_shown.of_map).2 fun d ↦ ?_
      rw [hall hb', hall (List.Perm.refl _)]
    refine hperm.eq_of_pairwise (fun x y hx hy hxy hyx ↦ ?_) b'.pairwise_shown b.pairwise_shown
    exact hkey ((hall hb' x).1 hx) (mem_of_mem_shown hy) (le_antisymm hxy hyx)

/-- A bag with two messages about one place. -/
def twoMessages : Bag :=
  { items := [.error .unsupported {} "a", .error .unsupported {} "b"] }

/-- Two messages about one place are shown in the order they are reported in. -/
example : ¬∀ b' : Bag, b'.items.Perm twoMessages.items → b'.shown = twoMessages.shown := by
  rw [shown_independent_iff]
  rintro ⟨-, hkey⟩
  have ha : .error .unsupported {} "a" ∈ twoMessages.items := List.mem_cons_self
  have hb : .error .unsupported {} "b" ∈ twoMessages.items :=
    List.mem_cons_of_mem _ List.mem_cons_self
  exact absurd (hkey ha hb rfl) (by decide)

end WasmBackend.Bag
