import WasmBackend.Proofs.Flow.Placement

/-!
# Where control joins

In a function of the shape that lowering gives functions, control comes to a structured block one
way only: it falls out of the basic block in front of it.  Everything else that control can go to,
whether behind a construct, at the head of a loop or at the start of a body, is a basic block.

The body of a loop is entered from in front of the loop and from its end.  Every other arm of a
structured block, the body of a conditional or of a breakable block and either side of a branch, is
entered by one edge only: no branch goes to a block in the middle of a list or at the head of
anything but a loop, and nothing falls into a list from outside.  So control never joins at the head
of an arm that is not a loop's.
-/

namespace WasmBackend.Ir

open WasmBackend.Flow (Edge Graph Site)

section

variable {f : Function}

/-- The structured blocks that edges go to, once for every edge. -/
def structuredTargets (f : Function) (es : List Edge) : List BlockId :=
  (es.map Edge.dst).filter fun x ↦ (f.blockAt x).kind ≠ .basic

theorem structuredTargets_append (es es' : List Edge) :
    structuredTargets f (es ++ es') = structuredTargets f es ++ structuredTargets f es' := by
  unfold structuredTargets
  rw [List.map_append, List.filter_append]

theorem structuredTargets_eq_nil {es : List Edge}
    (h : ∀ e ∈ es, (f.blockAt e.dst).kind = .basic) : structuredTargets f es = [] := by
  refine List.filter_eq_nil_iff.2 fun x hx ↦ ?_
  obtain ⟨e, he, rfl⟩ := List.mem_map.1 hx
  simpa using h e he

theorem length_filter_dst_le_one {es : List Edge} (h : (structuredTargets f es).Nodup) {b : BlockId}
    (hb : (f.blockAt b).kind ≠ .basic) : (es.filter fun e ↦ e.dst = b).length ≤ 1 := by
  calc (es.filter fun e ↦ e.dst = b).length
    _ = (es.map Edge.dst).count b := by
      rw [List.count, List.countP_map, List.countP_eq_length_filter]
      congr 2
    _ = (structuredTargets f es).count b := by
      rw [structuredTargets, List.count_filter (by simpa using hb)]
    _ ≤ 1 := List.nodup_iff_count_le_one.1 h b

/-- Whether a list of blocks ends with a basic block, if it has any, and has no two structured
blocks side by side. -/
def Forest.isSpaced (ts : Forest) : Bool :=
  (ts.getLast?.all fun t ↦ !t.isStructured)
    && (ts.zip ts.tail).all fun p ↦ !(p.1.isStructured && p.2.isStructured)

theorem Forest.isSpaced_of_isArranged {ts : Forest} (h : Forest.isArranged ts) :
    Forest.isSpaced ts := by
  simp only [isArranged, isSpaced, Bool.and_eq_true] at h ⊢
  refine ⟨?_, h.2⟩
  cases hlast : ts.getLast? with
  | none => rfl
  | some t => simpa [hlast] using h.1.2

theorem Forest.isSpaced_tail {t : Tree} {ts : Forest} (h : Forest.isSpaced (t :: ts)) :
    Forest.isSpaced ts := by
  cases ts with
  | nil => rfl
  | cons u us =>
    simp only [isSpaced, List.getLast?_cons_cons, List.tail_cons, List.zip_cons_cons, List.all_cons,
      Bool.and_eq_true] at h ⊢
    exact ⟨h.1, h.2.2⟩

/-- A structured block is followed by a basic one. -/
theorem Forest.exists_basic_of_isSpaced {t : Tree} {ts : Forest} (h : Forest.isSpaced (t :: ts))
    (ht : t.isStructured) : ∃ id rest, ts = .basic id :: rest := by
  cases ts with
  | nil => simp [isSpaced, ht] at h
  | cons u us =>
    simp only [isSpaced, List.tail_cons, List.zip_cons_cons, List.all_cons, ht, Bool.true_and,
      Bool.and_eq_true, Bool.not_eq_true'] at h
    have hu : u.isStructured = false := h.2.1
    cases u with
    | basic id => exact ⟨id, us, rfl⟩
    | _ => cases hu

theorem Tree.ids_eq_cons (t : Tree) : t.ids = t.id :: t.ids.tail := by
  cases t <;> rfl

/-- A basic block goes to a structured one by falling through only. -/
theorem structuredTargets_instrEdges {d : Targets} {id next : BlockId}
    (hd : d.All fun x ↦ (f.blockAt x).kind = .basic) (n : Nat) (is : List Instr) :
    (structuredTargets f (instrEdges d id next n is)).Sublist [next] := by
  induction is generalizing n with
  | nil =>
    rw [instrEdges, Edge.proper]
    split
    · exact List.nil_sublist _
    · exact List.filter_sublist
  | cons i rest ih =>
    have hbranch : structuredTargets f (if i.isBranch then
        Edge.proper { src := id, dst := d.destination i, site := .branch, instr := n }
        else []) = [] := by
      refine structuredTargets_eq_nil fun e he ↦ ?_
      split at he
      · rw [(Edge.mem_proper.1 he).1]
        exact hd.destination i
      · cases he
    rw [instrEdges, structuredTargets_append, hbranch, List.nil_append]
    split
    · exact List.nil_sublist _
    · exact ih (n + 1)

variable (f) in
/-- Edges to structured blocks go to different blocks, in tree order, and never to the first block
of a list. -/
theorem Tree.structuredTargets_edges :
    (∀ t : Tree, ∀ d next, t.Stored f → t.isShaped f →
        d.All (fun x ↦ (f.blockAt x).kind = .basic) → (f.blockAt next).kind = .basic →
        (structuredTargets f (t.edges f d next)).Sublist t.ids.tail) ∧
      ∀ ts : Forest, ∀ d fall, Forest.Stored f ts → Forest.isShaped f ts → Forest.isSpaced ts →
        d.All (fun x ↦ (f.blockAt x).kind = .basic) → (f.blockAt fall).kind = .basic →
        (structuredTargets f (Forest.edges f d fall ts)).Sublist (Forest.ids ts).tail := by
  -- a body starts with a basic block, so nothing points to a structured one on the way into it
  have enter {body : Forest} (fall : BlockId) (hstored : Forest.Stored f body)
      (harranged : Forest.isArranged body) : (f.blockAt (Forest.first body fall)).kind = .basic := by
    obtain ⟨id, rest, rfl⟩ := Forest.exists_basic_of_isArranged harranged
    exact Function.Node.kind_eq hstored.1
  have inside {body : Forest} {d : Targets} {fall : BlockId} {own : List Edge}
      (hown : ∀ e ∈ own, (f.blockAt e.dst).kind = .basic)
      (hbody : (structuredTargets f (Forest.edges f d fall body)).Sublist (Forest.ids body).tail) :
      (structuredTargets f (own ++ Forest.edges f d fall body)).Sublist (Forest.ids body) := by
    rw [structuredTargets_append, structuredTargets_eq_nil hown, List.nil_append]
    exact hbody.trans (List.tail_sublist _)
  refine Tree.induction ?basic ?cond ?branch ?loop ?breakable ?nil ?cons
  case basic =>
    intro id d next _ _ hd hnext
    have hnone : structuredTargets f ((Tree.basic id).edges f d next) = [] :=
      structuredTargets_eq_nil fun e he ↦ instrEdges_dst hd hnext he
    rw [hnone]
    exact List.nil_sublist _
  case cond =>
    intro id body ih d next hstored hshaped hd hnext
    simp only [Tree.isShaped_cond, Bool.and_eq_true] at hshaped
    refine inside (fun e he ↦ ?_)
      (ih d next hstored.2 hshaped.2 (Forest.isSpaced_of_isArranged hshaped.1.2) hd hnext)
    obtain ⟨first, rest, rfl⟩ := Forest.exists_basic_of_isArranged hshaped.1.2
    rcases List.mem_append.1 he with he | he <;> rw [(Edge.mem_proper.1 he).1]
    · exact enter next hstored.2 hshaped.1.2
    · exact hnext
  case branch =>
    intro id body other ih ih' d next hstored hshaped hd hnext
    simp only [Tree.isShaped_branch, Bool.and_eq_true] at hshaped
    have hother := ih' d next hstored.2.2 hshaped.2.2
      (Forest.isSpaced_of_isArranged hshaped.2.1) hd hnext
    rw [Tree.edges, ← List.append_assoc, structuredTargets_append]
    refine List.Sublist.append (inside (fun e he ↦ ?_) (ih d next hstored.2.1 hshaped.1.2.2
      (Forest.isSpaced_of_isArranged hshaped.1.2.1) hd hnext))
      (hother.trans (List.tail_sublist _))
    rcases List.mem_append.1 he with he | he <;> rw [(Edge.mem_proper.1 he).1]
    · exact enter next hstored.2.1 hshaped.1.2.1
    · exact enter next hstored.2.2 hshaped.2.1
  case loop =>
    intro id body ih d next hstored hshaped hd hnext
    simp only [Tree.isShaped_loop, Bool.and_eq_true] at hshaped
    have hhead := enter id hstored.2 hshaped.1.2
    refine inside (fun e he ↦ ?_) (ih _ _ hstored.2 hshaped.2
      (Forest.isSpaced_of_isArranged hshaped.1.2) (hd.loop hnext hhead) hhead)
    rw [(Edge.mem_proper.1 he).1]
    exact hhead
  case breakable =>
    intro id body ih d next hstored hshaped hd hnext
    simp only [Tree.isShaped_breakable, Bool.and_eq_true] at hshaped
    refine inside (fun e he ↦ ?_) (ih _ _ hstored.2 hshaped.2
      (Forest.isSpaced_of_isArranged hshaped.1.2) (hd.breakable hnext) hnext)
    rw [(Edge.mem_proper.1 he).1]
    exact enter next hstored.2 hshaped.1.2
  case nil =>
    intro d fall _ _ _ _ _
    exact List.nil_sublist _
  case cons =>
    intro t ts ih ihs d fall hstored hshaped hspaced hd hfall
    simp only [Forest.isShaped_cons, Bool.and_eq_true] at hshaped
    have hrest := ihs d fall hstored.2 hshaped.2 (Forest.isSpaced_tail hspaced) hd hfall
    rw [Forest.edges, structuredTargets_append, Forest.ids, t.ids_eq_cons, List.cons_append,
      List.tail_cons]
    by_cases hnext : (f.blockAt (Forest.first ts fall)).kind = .basic
    · exact (ih d _ hstored.1 hshaped.1 hd hnext).append (hrest.trans (List.tail_sublist _))
    · -- only a basic block stands in front of a structured one, and only it goes there
      cases ts with
      | nil => exact absurd hfall hnext
      | cons u us =>
        have ht : t.isStructured = false := by
          by_contra hstructured
          rw [Bool.not_eq_false] at hstructured
          obtain ⟨id, rest, hu⟩ := Forest.exists_basic_of_isSpaced hspaced hstructured
          rw [hu] at hnext hstored
          exact hnext (Function.Node.kind_eq hstored.2.1)
        cases t with
        | basic id =>
          rw [Forest.ids, u.ids_eq_cons, List.cons_append] at hrest ⊢
          exact (structuredTargets_instrEdges hd 0 _).append hrest
        | _ => cases ht

/-- To a structured block of a shaped function goes at most one edge. -/
theorem Function.Shaped.length_preds_le_one {ts : Forest} {g : Graph} (hf : f.Shaped ts)
    (hg : g.Describes f ts) {b : BlockId} (hb : (f.blockAt b).kind ≠ .basic) :
    (g.preds b).length ≤ 1 := by
  have hnone : (f.blockAt 0).kind = .basic := rfl
  have htargets := (Tree.structuredTargets_edges f).2 ts {} 0 hf.stored hf.shaped
    (Forest.isSpaced_of_isArranged hf.arranged) ⟨fun _ ↦ hnone, fun _ ↦ hnone⟩ hnone
  rw [← hg.edges_eq] at htargets
  exact length_filter_dst_le_one
    ((htargets.trans (List.tail_sublist _)).nodup hf.nodup) hb

/-- A shaped function starts with a basic block. -/
theorem Function.Shaped.kind_entry {ts : Forest} {g : Graph} (hf : f.Shaped ts)
    (hg : g.Describes f ts) : (f.blockAt g.entry).kind = .basic := by
  obtain ⟨id, rest, rfl⟩ := Forest.exists_basic_of_isArranged hf.arranged
  rw [hg.entry_eq]
  exact Function.Node.kind_eq hf.stored.1

/-- Control joins in basic blocks only. -/
theorem Function.Shaped.ways_le_one {ts : Forest} {g : Graph} (hf : f.Shaped ts)
    (hg : g.Describes f ts) {b : BlockId} (hb : (f.blockAt b).kind ≠ .basic) : g.ways b ≤ 1 := by
  have hentry : b ≠ g.entry := by
    intro heq
    exact hb (heq ▸ hf.kind_entry hg)
  unfold Graph.ways
  rw [if_neg hentry, Nat.zero_add]
  exact hf.length_preds_le_one hg hb

/-! ## Where edges do not go -/

theorem filter_dst_eq_nil {es : List Edge} {x : BlockId} (h : ∀ e ∈ es, e.dst ≠ x) :
    (es.filter fun e ↦ e.dst = x) = [] :=
  List.filter_eq_nil_iff.2 fun e he hx ↦ h e he (of_decide_eq_true hx)

theorem Targets.All.mono {d : Targets} {P Q : BlockId → Prop} (h : d.All P) (hPQ : ∀ x, P x → Q x) :
    d.All Q :=
  ⟨fun x ↦ hPQ _ (h.exits x), fun x ↦ hPQ _ (h.heads x)⟩

theorem Edge.proper_dst_ne {e : Edge} {x : BlockId} (h : e.dst ≠ x) : ∀ e' ∈ e.proper, e'.dst ≠ x :=
  fun _ he' ↦ (Edge.mem_proper.1 he').1 ▸ h

/-- No edge of a list goes to a block outside, unless control falls or branches there. -/
theorem Forest.edges_dst_ne {d : Targets} {fall x : BlockId} {ts : Forest} (hx : x ∉ Forest.ids ts)
    (hd : d.All (· ≠ x)) (hfall : fall ≠ x) : ∀ e ∈ Forest.edges f d fall ts, e.dst ≠ x :=
  fun e he ↦ ((Tree.edges_dst f (· ≠ x)).2 ts d fall hd hfall
    (fun _ hy heq ↦ hx (heq ▸ hy)) e he).1

/-- No edge of a list goes to its first block, when that is a basic one. -/
theorem Forest.edges_dst_ne_first {d : Targets} {id fall : BlockId} {rest : Forest}
    (hid : id ∉ Forest.ids rest) (hd : d.All (· ≠ id)) (hfall : fall ≠ id) :
    ∀ e ∈ Forest.edges f d fall (.basic id :: rest), e.dst ≠ id := by
  have hrest : ∀ x ∈ Forest.ids rest, x ≠ id := fun x hx heq ↦ hid (heq ▸ hx)
  intro e he
  obtain he | he := List.mem_append.1 he
  · exact instrEdges_dst (P := (· ≠ id)) hd (Forest.first_of_all hrest hfall) he
  · exact Forest.edges_dst_ne hid hd hfall e he

/-- The first block of a list stands only at its head. -/
theorem Forest.first_notMem_tail {fall : BlockId} {ts : Forest} (hnodup : (Forest.ids ts).Nodup)
    (hfall : fall ∉ (Forest.ids ts).tail) : Forest.first ts fall ∉ (Forest.ids ts).tail := by
  cases ts with
  | nil => exact hfall
  | cons t ts =>
    rw [Forest.ids, t.ids_eq_cons, List.cons_append, List.nodup_cons] at hnodup
    rw [Forest.ids, t.ids_eq_cons, List.cons_append, List.tail_cons]
    exact hnodup.1

theorem instrEdges_site_ne_enter {d : Targets} {id next : BlockId} {n : ℕ} {is : List Instr}
    {e : Edge} (he : e ∈ instrEdges d id next n is) : e.site ≠ .enter := by
  induction is generalizing n with
  | nil =>
    rw [instrEdges, Edge.mem_proper] at he
    rw [he.1]
    exact Site.noConfusion
  | cons i rest ih =>
    rw [instrEdges, List.mem_append] at he
    obtain he | he := he <;> split at he
    · rw [(Edge.mem_proper.1 he).1]
      exact Site.noConfusion
    · cases he
    · cases he
    · exact ih he

/-! ## Edges that enter alone -/

/-- The edge enters an arm that is not the body of a loop. -/
structure Function.EntersArm (f : Function) (e : Edge) : Prop where
  site : e.site = .enter
  kind : (f.blockAt e.src).kind ≠ .loop

/-- Among these edges, one that enters an arm other than a loop's is the only one with its
destination, which is one of the blocks given. -/
def Function.EntersAlone (f : Function) (es : List Edge) (ids : List BlockId) : Prop :=
  ∀ e ∈ es, f.EntersArm e → e.dst ∈ ids ∧ (es.filter fun e' ↦ e'.dst = e.dst).length ≤ 1

namespace Function.EntersAlone

variable {es es' : List Edge} {ids ids' : List BlockId}

theorem mono (h : f.EntersAlone es ids) (hids : ids ⊆ ids') : f.EntersAlone es ids' :=
  fun e he harm ↦ ⟨hids (h e he harm).1, (h e he harm).2⟩

theorem perm (h : f.EntersAlone es ids) (hes : es.Perm es') : f.EntersAlone es' ids := by
  intro e he harm
  obtain ⟨hmem, hone⟩ := h e (hes.mem_iff.2 he) harm
  exact ⟨hmem, (hes.filter _).length_eq ▸ hone⟩

theorem of_none (h : ∀ e ∈ es, ¬f.EntersArm e) : f.EntersAlone es [] :=
  fun e he harm ↦ absurd harm (h e he)

theorem proper (e : Edge) : f.EntersAlone e.proper [e.dst] := by
  intro e' he' _
  rw [(Edge.mem_proper.1 he').1]
  refine ⟨List.mem_singleton_self _, (List.length_filter_le _ _).trans ?_⟩
  unfold Edge.proper
  split
  · exact Nat.zero_le 1
  · exact Nat.le_refl 1

/-- Edges put together enter alone when neither go where the others enter. -/
theorem append (h : f.EntersAlone es ids) (h' : f.EntersAlone es' ids')
    (hapart : ∀ x ∈ ids, ∀ e ∈ es', e.dst ≠ x) (hapart' : ∀ x ∈ ids', ∀ e ∈ es, e.dst ≠ x) :
    f.EntersAlone (es ++ es') (ids ++ ids') := by
  intro e he harm
  rw [List.filter_append, List.length_append]
  obtain he | he := List.mem_append.1 he
  · obtain ⟨hmem, hone⟩ := h e he harm
    rw [filter_dst_eq_nil (hapart _ hmem), List.length_nil, Nat.add_zero]
    exact ⟨List.mem_append_left _ hmem, hone⟩
  · obtain ⟨hmem, hone⟩ := h' e he harm
    rw [filter_dst_eq_nil (hapart' _ hmem), List.length_nil, Nat.zero_add]
    exact ⟨List.mem_append_right _ hmem, hone⟩

/-- A proper edge that is no way into an arm. -/
theorem of_proper {e : Edge} (h : ¬f.EntersArm e) : f.EntersAlone e.proper [] :=
  of_none fun _ he harm ↦ h ((Edge.mem_proper.1 he).1 ▸ harm)

/-- A list of blocks behind the edge into it: nothing else goes to its head, neither from inside
nor from the constructs around. -/
theorem enter {e : Edge} {d : Targets} {fall : BlockId} {body : Forest}
    (he : e.dst = Forest.first body fall) (harranged : Forest.isArranged body)
    (hnodup : (Forest.ids body).Nodup) (hd : d.All (· ∉ Forest.ids body))
    (hfall : fall ∉ Forest.ids body)
    (hbody : f.EntersAlone (Forest.edges f d fall body) (Forest.ids body).tail) :
    f.EntersAlone (e.proper ++ Forest.edges f d fall body) (Forest.ids body) := by
  obtain ⟨id, rest, rfl⟩ := Forest.exists_basic_of_isArranged harranged
  have hmem : id ∈ Forest.ids (.basic id :: rest) := List.mem_append_left _ (Tree.id_mem_ids _)
  rw [Forest.ids, Tree.ids, List.singleton_append] at hnodup hd hfall hbody hmem ⊢
  obtain ⟨hid, -⟩ := List.nodup_cons.1 hnodup
  replace he : e.dst = id := he
  refine append (he ▸ proper e) hbody (fun x hx ↦ ?_) fun x hx ↦ ?_
  · rw [List.mem_singleton.1 hx]
    exact Forest.edges_dst_ne_first hid (hd.mono fun x hx heq ↦ hx (heq ▸ hmem))
      fun heq ↦ hfall (heq ▸ hmem)
  · exact Edge.proper_dst_ne fun heq ↦ hid (he ▸ heq ▸ hx)

end Function.EntersAlone

variable (f) in
/-- Arms other than those of loops are entered alone, and in the middle of a list nowhere is. -/
theorem Tree.entersAlone_edges :
    (∀ t : Tree, ∀ d next, t.Stored f → t.isShaped f → t.ids.Nodup →
        d.All (· ∉ t.ids.tail) → next ∉ t.ids.tail →
        f.EntersAlone (t.edges f d next) t.ids.tail) ∧
      ∀ ts : Forest, ∀ d fall, Forest.Stored f ts → Forest.isShaped f ts → (Forest.ids ts).Nodup →
        d.All (· ∉ (Forest.ids ts).tail) → fall ∉ (Forest.ids ts).tail →
        f.EntersAlone (Forest.edges f d fall ts) (Forest.ids ts).tail := by
  have inner {body : Forest} {d : Targets} {next : BlockId} (hnodup : (Forest.ids body).Nodup)
      (hd : d.All (· ∉ Forest.ids body)) (hnext : next ∉ Forest.ids body)
      (ih : (Forest.ids body).Nodup → d.All (· ∉ (Forest.ids body).tail) →
        next ∉ (Forest.ids body).tail →
        f.EntersAlone (Forest.edges f d next body) (Forest.ids body).tail)
      (harranged : Forest.isArranged body) (id : BlockId) :
      f.EntersAlone (Edge.proper { src := id, dst := Forest.first body next, site := .enter }
        ++ Forest.edges f d next body) (Forest.ids body) :=
    .enter rfl harranged hnodup hd hnext
      (ih hnodup (hd.mono fun x hx hmem ↦ hx (List.mem_of_mem_tail hmem))
        fun hmem ↦ hnext (List.mem_of_mem_tail hmem))
  refine Tree.induction ?basic ?cond ?branch ?loop ?breakable ?nil ?cons
  case basic =>
    intro id d next _ _ _ _ _
    exact .of_none fun e he harm ↦ instrEdges_site_ne_enter he harm.site
  case cond =>
    intro id body ih d next hstored hshaped hnodup hd hnext
    simp only [Tree.isShaped_cond, Bool.and_eq_true] at hshaped
    obtain ⟨-, hnodup⟩ := List.nodup_cons.1 hnodup
    have hbody := inner hnodup hd hnext (ih d next hstored.2 hshaped.2) hshaped.1.2 id
    obtain ⟨first, rest, rfl⟩ := Forest.exists_basic_of_isArranged hshaped.1.2
    have haround : f.EntersAlone (Edge.proper { src := id, dst := next, site := .around }) [] :=
      .of_proper fun harm ↦ Site.noConfusion harm.site
    refine (haround.append hbody (fun _ hx ↦ absurd hx List.not_mem_nil) fun x hx ↦ ?_).perm ?_
    · exact Edge.proper_dst_ne fun (heq : next = x) ↦ hnext (heq ▸ hx)
    · rw [← List.append_assoc]
      exact List.Perm.append_right _ List.perm_append_comm
  case branch =>
    intro id body other ih ih' d next hstored hshaped hnodup hd hnext
    simp only [Tree.isShaped_branch, Bool.and_eq_true] at hshaped
    obtain ⟨-, hnodup⟩ := List.nodup_cons.1 hnodup
    obtain ⟨hbody, hother, hdisjoint⟩ := List.nodup_append.1 hnodup
    have hin (x : BlockId) (hx : x ∈ Forest.ids body) : x ∈ Forest.ids body ++ Forest.ids other :=
      List.mem_append_left _ hx
    have hin' (x : BlockId) (hx : x ∈ Forest.ids other) : x ∈ Forest.ids body ++ Forest.ids other :=
      List.mem_append_right _ hx
    have henter := inner hbody (hd.mono fun x hx hmem ↦ hx (hin x hmem))
      (fun hmem ↦ hnext (hin next hmem)) (ih d next hstored.2.1 hshaped.1.2.2) hshaped.1.2.1 id
    have henter' := inner hother (hd.mono fun x hx hmem ↦ hx (hin' x hmem))
      (fun hmem ↦ hnext (hin' next hmem)) (ih' d next hstored.2.2 hshaped.2.2) hshaped.2.1 id
    -- neither side is entered from the other
    have hapart {ts : Forest} {x : BlockId} (hx : x ∈ Forest.ids body ++ Forest.ids other)
        (hts : x ∉ Forest.ids ts) :
        ∀ e ∈ Edge.proper { src := id, dst := Forest.first ts next, site := .enter }
          ++ Forest.edges f d next ts, e.dst ≠ x := by
      have hne : next ≠ x := fun heq ↦ hnext (heq ▸ hx)
      intro e he
      obtain he | he := List.mem_append.1 he
      · exact Edge.proper_dst_ne (Forest.first_of_all (P := (· ≠ x))
          (fun y hy heq ↦ hts (heq ▸ hy)) hne) e he
      · exact Forest.edges_dst_ne hts (hd.mono fun y hy heq ↦ hy (heq ▸ hx)) hne e he
    refine (henter.append henter'
      (fun x hx ↦ hapart (hin x hx) fun hx' ↦ hdisjoint x hx x hx' rfl)
      fun x hx ↦ hapart (hin' x hx) fun hx' ↦ hdisjoint x hx' x hx rfl).perm ?_
    simp only [Tree.edges, Tree.ownEdges, List.append_assoc]
    exact (List.perm_append_comm_assoc _ _ _).append_left _
  case loop =>
    intro id body ih d next hstored hshaped hnodup hd hnext
    simp only [Tree.isShaped_loop, Bool.and_eq_true] at hshaped
    obtain ⟨-, hnodup⟩ := List.nodup_cons.1 hnodup
    have hhead : Forest.first body id ∉ (Forest.ids body).tail := by
      obtain ⟨first, rest, rfl⟩ := Forest.exists_basic_of_isArranged hshaped.1.2
      exact (List.nodup_cons.1 hnodup).1
    have hd' : d.All fun x ↦ x ∉ (Forest.ids body).tail :=
      hd.mono fun x hx hmem ↦ hx (List.mem_of_mem_tail hmem)
    have hnext' : next ∉ (Forest.ids body).tail := fun hmem ↦ hnext (List.mem_of_mem_tail hmem)
    have hbody := ih (d.loop id next (Forest.first body id)) _ hstored.2 hshaped.2 hnodup
      (hd'.loop hnext' hhead) hhead
    have henter : f.EntersAlone
        (Edge.proper { src := id, dst := Forest.first body id, site := .enter }) [] :=
      .of_proper fun harm ↦ harm.kind hstored.1.kind_eq
    refine (henter.append hbody (fun _ hx ↦ absurd hx List.not_mem_nil) fun x hx ↦ ?_).mono
      (List.tail_subset _)
    exact Edge.proper_dst_ne fun (heq : Forest.first body id = x) ↦ hhead (heq ▸ hx)
  case breakable =>
    intro id body ih d next hstored hshaped hnodup hd hnext
    simp only [Tree.isShaped_breakable, Bool.and_eq_true] at hshaped
    obtain ⟨-, hnodup⟩ := List.nodup_cons.1 hnodup
    exact inner hnodup (hd.breakable hnext) hnext (ih _ next hstored.2 hshaped.2) hshaped.1.2 id
  case nil =>
    intro d fall _ _ _ _ _
    exact .of_none fun e he ↦ absurd he List.not_mem_nil
  case cons =>
    intro t ts ih ihs d fall hstored hshaped hnodup hd hfall
    simp only [Forest.isShaped_cons, Bool.and_eq_true] at hshaped
    obtain ⟨ht, hts, hdisjoint⟩ := List.nodup_append.1 hnodup
    rw [Forest.ids, t.ids_eq_cons, List.cons_append, List.tail_cons] at hd hfall ⊢
    have hnext : Forest.first ts fall ∉ t.ids.tail := by
      cases ts with
      | nil => exact fun hmem ↦ hfall (List.mem_append_left _ hmem)
      | cons u us =>
        exact fun hmem ↦ hdisjoint _ (List.mem_of_mem_tail hmem) u.id
          (List.mem_append_left _ u.id_mem_ids) rfl
    have hrest : fall ∉ (Forest.ids ts).tail :=
      fun hmem ↦ hfall (List.mem_append_right _ (List.mem_of_mem_tail hmem))
    have hhead := ih d _ hstored.1 hshaped.1 ht
      (hd.mono fun x hx hmem ↦ hx (List.mem_append_left _ hmem)) hnext
    have htail := ihs d fall hstored.2 hshaped.2 hts
      (hd.mono fun x hx hmem ↦ hx (List.mem_append_right _ (List.mem_of_mem_tail hmem))) hrest
    refine (hhead.append htail (fun x hx ↦ ?_) fun x hx e he ↦ ?_).mono ?_
    · have hmem := List.mem_append_left (Forest.ids ts) hx
      exact Forest.edges_dst_ne (fun hx' ↦ hdisjoint x (List.mem_of_mem_tail hx) x hx' rfl)
        (hd.mono fun y hy heq ↦ hy (heq ▸ hmem)) fun heq ↦ hfall (heq ▸ hmem)
    · have hmem := List.mem_append_right t.ids.tail (List.mem_of_mem_tail hx)
      refine ((Tree.edges_dst f (· ≠ x)).1 t d _ (hd.mono fun y hy heq ↦ hy (heq ▸ hmem)) ?_ ?_
        e he).1
      · exact fun heq ↦ Forest.first_notMem_tail hts hrest (heq ▸ hx)
      · exact fun y hy heq ↦ hdisjoint y hy x (List.mem_of_mem_tail hx) heq
    · exact List.append_subset.2 ⟨List.subset_append_left _ _,
        List.Subset.trans (List.tail_subset _) (List.subset_append_right _ _)⟩

/-- **Control comes one way only into an arm that is not the body of a loop.** -/
theorem Function.Shaped.ways_le_one_of_enter {ts : Forest} {g : Graph} (hf : f.Shaped ts)
    (hg : g.Describes f ts) {e : Edge} (he : e ∈ g.edges) (harm : f.EntersArm e) :
    g.ways e.dst ≤ 1 := by
  have hzero : 0 ∉ (Forest.ids ts).tail := by
    intro hmem
    have hexists := Tree.block?_of_mem_ids.2 ts hf.stored 0 (List.mem_of_mem_tail hmem)
    exact absurd (f.mem_range_of_block? hexists).1 (Nat.lt_irrefl 0)
  have halone := (Tree.entersAlone_edges f).2 ts {} 0 hf.stored hf.shaped hf.nodup
    ⟨fun _ ↦ hzero, fun _ ↦ hzero⟩ hzero
  rw [← hg.edges_eq] at halone
  obtain ⟨hmem, hone⟩ := halone e he harm
  have hentry : e.dst ≠ g.entry := by
    rw [hg.entry_eq]
    exact fun heq ↦ Forest.first_notMem_tail hf.nodup hzero (heq ▸ hmem)
  rw [Graph.ways, if_neg hentry, Nat.zero_add]
  exact hone

end

end WasmBackend.Ir
