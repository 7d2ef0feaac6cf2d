import WasmBackend.Proofs.Layout.Overlap
import WasmBackend.Proofs.Lowering.Fitting
import WasmBackend.Proofs.Lowering.OwnCode

/-!
# Where values stand

An expression gives a value in memory, in variables that were made for it, or, where it only names
one, in variables of the function: in the row of a local or of the receiver, at the part that its
members lead to.  The place an assignment writes to is one of these as well.  Two values in one row
that stand there as parts of one type are in the same variables or have none in common.
-/

namespace WasmBackend

open Ir (Var)
open Stage (Ensures)

/-- The expression is a nesting of members over `e`. -/
inductive Program.Over (p : Program) : ExprId → Expr → Prop
  | root {id : ExprId} {e : Expr} (he : p.expr? id = some e) : Over p id e
  | member {id : ExprId} {e r : Expr} (he : p.expr? id = some e) (hkind : e.kind = .member)
      (hrest : Over p e.x r) : Over p id r

/-- The expression names variables of the function, which hold a value of a type. -/
inductive Frame.Names (frame : Frame) (store : TypeStore) (e : Expr) : Handle → List Var → Prop
  | loc {h : Handle} {row : List Var} (hkind : e.kind = .loc)
      (hrow : frame.locals[e.loc.toNat]? = some row)
      (hdenote : store.denote e.type frame.scope = some h) : Names frame store e h row
  | self (hkind : e.kind = .self) : Names frame store e frame.selfType frame.self

/-- The value stands in a row of variables, as all of it or as the part of a type that a chain of
members leads to. -/
inductive Value.Inside (store : TypeStore) (h : Handle) (row : List Var) : Value → Prop
  | whole : Inside store h row (.direct h row)
  | part {g : Handle} {names : List Text} {place slot : Nat} {entries : List Slot}
      (hpath : store.Path h names place slot g) (hentries : store.entries? g = some entries)
      (hle : slot + entries.length ≤ row.length) :
      Inside store h row (.direct g ((row.drop slot).take entries.length))

/-- The value of an expression lies in memory or in variables that were made for it, or it stands in
variables of the function that the expression names. -/
def Value.Stands (frame : Frame) (n : Nat) (store : TypeStore) (id : ExprId) (v : Value) : Prop :=
  v.Made n ∨ ∃ e h row, store.program.Over id e ∧ frame.Names store e h row ∧
    v.Inside store h row

namespace TypeStore

variable {s s' : TypeStore} {h g : Handle} {row slots slots' : List Var}

theorem Path.mono {names : List Text} {place slot : Nat} (hp : s.Path h names place slot g)
    (hg : s.Gains s') : s'.Path h names place slot g := by
  induction hp with
  | here h => exact .here h
  | member ht hkind hm _ ih => exact .member (hg.type _ _ ht) hkind hm ih

/-- A chain of members goes on with one more. -/
theorem Path.snoc {names : List Text} {place slot : Nat} (hp : s.Path h names place slot g)
    {t : ConcreteType} (ht : s.type? g = some t) (hkind : t.kind = .struct) {name : Text}
    {m : Member} (hm : t.member? name = some m) :
    s.Path h (names ++ [name]) (place + m.offset) (slot + m.slotIndex) m.type := by
  induction hp with
  | here h =>
    rw [Nat.zero_add, Nat.zero_add]
    exact .member ht hkind hm (.here m.type)
  | member ht' hkind' hm' _ ih =>
    rw [Nat.add_assoc, Nat.add_assoc]
    exact .member ht' hkind' hm' (ih ht)

end TypeStore

open TypeStore (eq_or_disjoint_of_apartOrNested)

variable {frame : Frame} {store store' : TypeStore} {h g g' : Handle} {row slots slots' : List Var}

theorem Value.Inside.mono {v : Value} (hv : v.Inside store h row) (hg : store.Gains store') :
    v.Inside store' h row := by
  cases hv with
  | whole => exact .whole
  | part hpath hentries hle =>
    exact .part (hpath.mono hg) (hg.lays.toExtends.entries? hentries) hle

theorem Value.Inside.subset (hv : (Value.direct g slots).Inside store h row) : slots ⊆ row := by
  cases hv with
  | whole => exact List.Subset.refl _
  | part => exact fun x hx ↦ List.mem_of_mem_drop (List.mem_of_mem_take hx)

theorem Value.Inside.nodup (hv : (Value.direct g slots).Inside store h row) (hrow : row.Nodup) :
    slots.Nodup := by
  cases hv with
  | whole => exact hrow
  | part => exact hrow.sublist ((List.take_sublist _ _).trans (List.drop_sublist _ _))

/-- Two values of one length in a row, as parts of one type whose layout is known. -/
theorem Value.Inside.eq_or_disjoint (hs : store.AllTiled) (hrow : row.Nodup) {entries : List Slot}
    (hentries : store.entries? h = some entries)
    (hv : (Value.direct g slots).Inside store h row)
    (hw : (Value.direct g' slots').Inside store h row) (hlength : slots.length = slots'.length) :
    slots = slots' ∨ slots.Disjoint slots' := by
  -- a part as long as the row is the row
  have hwhole {slot count : Nat} (hle : slot + count ≤ row.length)
      (hcount : row.length = ((row.drop slot).take count).length) :
      row = (row.drop slot).take count := by
    rw [List.length_take, List.length_drop] at hcount
    obtain rfl : slot = 0 := by omega
    rw [List.drop_zero]
    exact (List.take_of_length_le (by omega)).symm
  cases hv with
  | whole =>
    cases hw with
    | whole => exact .inl rfl
    | part _ _ hle => exact .inl (hwhole hle hlength)
  | @part _ _ _ _ inner hpath hinner hle =>
    cases hw with
    | whole => exact .inl (hwhole hle hlength.symm).symm
    | @part _ _ _ _ inner' hpath' hinner' hle' =>
      simp only [List.length_take, List.length_drop] at hlength
      have hcount : inner.length = inner'.length := by omega
      have hapart := hpath.apartOrNested hs hpath' hentries hinner hinner'
      rw [hcount] at hapart ⊢
      exact eq_or_disjoint_of_apartOrNested hrow hapart

theorem Frame.Names.mono {e : Expr} (hn : frame.Names store e h row) (hg : store.Gains store') :
    frame.Names store' e h row := by
  cases hn with
  | loc hkind hrow hdenote => exact .loc hkind hrow (hg.toKeeps.denote hdenote)
  | self hkind => exact .self hkind

theorem Value.made_of_start? {n : Nat} {v : Value} (h : v.start?.isSome) : v.Made n := by
  cases v with
  | direct _ _ => cases h
  | relative _ _ _ | global _ _ _ => trivial

theorem Value.Stands.mono {n : Nat} {id : ExprId} {v : Value} (hv : v.Stands frame n store id)
    (hg : store.Gains store') : v.Stands frame n store' id := by
  refine hv.imp_right fun ⟨e, h, row, hover, hnames, hinside⟩ ↦ ?_
  exact ⟨e, h, row, by rwa [hg.toKeeps.program], hnames.mono hg, hinside.mono hg⟩

namespace Lowering

variable {α β : Type} {n b : Nat}

/-! ## Steps that gain and enlarge -/

/-- The step lets the store gain and adds tame code; its result satisfies `post`, which is told the
store by then. -/
def Tracks (frame : Frame) (n b : Nat) (store : TypeStore) (x : M α)
    (post : α → TypeStore → Prop) : Prop :=
  ∀ s : Lowering, store.Gains s.store → s.store.Steady → frame.Scoped s.store → s.HasCurrent →
    n ≤ s.vars.size → b ≤ s.blocks.size → Ensures (x frame) s fun a s' ↦
      s.store.Gains s'.store ∧ Enlarged frame n b s s' ∧ post a s'.store

variable {x : M α} {post : α → TypeStore → Prop}

theorem Yields.tracks {post' : α → Prop} (hy : Yields frame store x post)
    (he : Enlarges frame n b x post') :
    Tracks frame n b store x fun a st ↦ post a st ∧ post' a := by
  intro s hg hs hscope hcurrent hn hb
  refine ((hy s hg hs hscope).and (he s hcurrent hn hb)).imp ?_
  rintro a s' ⟨⟨hgains, ha⟩, henlarged, ha'⟩
  exact ⟨hgains, henlarged, ha, ha'⟩

theorem Yields.and {post' : α → TypeStore → Prop} (h : Yields frame store x post)
    (h' : Yields frame store x post') : Yields frame store x fun a st ↦ post a st ∧ post' a st :=
  fun s hg hs hscope ↦ ((h s hg hs hscope).and (h' s hg hs hscope)).imp fun _ _ ha ↦
    ⟨ha.1.1, ha.1.2, ha.2.2⟩

theorem Enlarges.and {post post' : α → Prop} (h : Enlarges frame n b x post)
    (h' : Enlarges frame n b x post') : Enlarges frame n b x fun a ↦ post a ∧ post' a :=
  fun s hs hn hb ↦ ((h s hs hn hb).and (h' s hs hn hb)).imp fun _ _ ha ↦
    ⟨ha.1.1, ha.1.2, ha.2.2⟩

theorem Tracks.imp {post' : α → TypeStore → Prop} (h : Tracks frame n b store x post)
    (hpost : ∀ a st, store.Gains st → post a st → post' a st) :
    Tracks frame n b store x post' :=
  fun s hg hs hscope hcurrent hn hb ↦ (h s hg hs hscope hcurrent hn hb).imp fun a s' ha ↦
    ⟨ha.1, ha.2.1, hpost a s'.store (hg.trans ha.1) ha.2.2⟩

theorem tracks_pure {a : α} (h : ∀ st, store.Gains st → post a st) :
    Tracks frame n b store (pure a) post :=
  fun s hg _ _ hcurrent _ _ ↦ ⟨.refl _, .refl hcurrent, h s.store hg⟩

theorem tracks_throw {e : LoweringFault} : Tracks frame n b store (throw e : M α) post :=
  fun _ _ _ _ _ _ _ ↦ trivial

theorem tracks_internalHere (message : Text) :
    Tracks frame n b store (internalHere message : M α) post :=
  fun _ _ _ _ _ _ _ ↦ trivial

theorem Tracks.bind {f : α → M β} {post' : β → TypeStore → Prop}
    (hx : Tracks frame n b store x post)
    (hf : ∀ a store', store.Gains store' → post a store' →
      Tracks frame n b store' (f a) post') :
    Tracks frame n b store (x >>= f) post' := by
  intro s hg hs hscope hcurrent hn hb
  refine meets_bind.2 ((hx s hg hs hscope hcurrent hn hb).imp ?_)
  rintro a s₁ ⟨hg₁, he₁, ha⟩
  have hscope₁ : frame.Scoped s₁.store := fun g hmem ↦ hg₁.toKeeps.lt_size (hscope g hmem)
  refine (hf a s₁.store (hg.trans hg₁) ha s₁ (.refl _) (hg₁.steady hs) hscope₁ he₁.hasCurrent
    (Nat.le_trans hn he₁.vars_le) (Nat.le_trans hb he₁.size_le)).imp ?_
  rintro c s₂ ⟨hg₂, he₂, hc⟩
  exact ⟨hg₁.trans hg₂, he₁.trans hcurrent he₂, hc⟩

theorem tracks_read : Tracks frame n b store read fun f _ ↦ f = frame :=
  fun _ _ _ _ hcurrent _ _ ↦ ⟨.refl _, .refl hcurrent, rfl⟩

theorem tracks_program : Tracks frame n b store program fun p st ↦ st.program = p :=
  fun _ _ _ _ hcurrent _ _ ↦ ⟨.refl _, .refl hcurrent, rfl⟩

theorem tracks_resolve (t : TypeId) :
    Tracks frame n b store (resolve t) fun h st ↦ st.denote t frame.scope = some h := by
  refine Tracks.imp (Yields.tracks ?_ (quiet_resolve t).enlarges) fun _ _ _ h ↦ h.1
  refine yields_read (yields_onStore fun st hs hscope ↦ ?_)
  exact ((TypeStore.gains_resolve hs.proper.toStandard t hscope).and
    (TypeStore.ensures_resolve t frame.scope)).imp fun _ _ h ↦ ⟨h.1, h.2.2⟩

theorem tracks_typeOf (h : Handle) :
    Tracks frame n b store (typeOf h) fun t st ↦ st.type? h = some t :=
  ((yields_typeOf h).tracks (quiet_typeOf h).enlarges).imp fun _ _ _ ht ↦ ht.1

theorem tracks_localVars (id : LocalId) :
    Tracks frame n b store (localVars id) fun row _ ↦
      frame.locals[id.toNat]? = some row ∧ ∀ v ∈ row, frame.Sees n v :=
  Yields.tracks (yields_read (yields_expect _)) (enlarges_localVars id)

/-! ## Members -/

/-- What is selected in memory lies in memory. -/
theorem yields_selectMember_place {v : Value} (hv : v.Fits store) (hplace : v.start?.isSome)
    (name : Text) : Yields frame store (selectMember v name) fun w _ ↦ w.start?.isSome := by
  refine yields_of_gathers fun s hg ↦ (gathers_selectMember (fits_gains hv hg) name).imp ?_
  rintro w _ s' ⟨-, t, m, -, -, -, hw⟩
  rw [hw]
  split
  · rfl
  · simpa using hplace

/-- What is selected in a row lies in memory, behind a reference in the row, or in the row. -/
theorem yields_selectMember_inside {v : Value} (hv : v.Inside store h row) (name : Text) :
    Yields frame store (selectMember v name) fun w st ↦ w.start?.isSome ∨ w.Inside st h row := by
  obtain ⟨g, slots, rfl⟩ : ∃ g slots, v = .direct g slots := by
    cases hv with
    | whole => exact ⟨_, _, rfl⟩
    | part => exact ⟨_, _, rfl⟩
  refine (yields_typeOf g).bind fun t store₁ hg₁ ht ↦ ?_
  have hv₁ := hv.mono hg₁
  cases hm : t.member? name with
  | none => exact yields_throw
  | some m =>
    dsimp only
    split
    case h_1 =>
      refine (grows_readValue (Value.fits_direct slots)).andThen fun vars _ ↦ ?_
      refine (grows_first vars).andThen fun pointer _ ↦ ?_
      have hoffset (st : TypeStore) : Grows frame st (offset32 m.offset) :=
        yields_of_gathers fun s _ ↦ (gathers_offset32 m.offset).imp fun _ _ _ _ ↦ trivial
      exact (hoffset _).andThen fun offset _ ↦ yields_pure fun _ _ ↦ .inl rfl
    case h_2 hkind =>
      refine (yields_typeOf m.type).bind fun type store₂ hg₂ htype ↦ ?_
      refine (yields_ofLayout type.slotCount).bind fun count store₃ hg₃ hcount ↦ ?_
      obtain ⟨entries, hentries, rfl⟩ : ∃ entries, type.entries = .ok entries ∧
          entries.length = count := by
        unfold ConcreteType.slotCount at hcount
        cases hknown : type.entries with
        | error e =>
          rw [hknown] at hcount
          cases hcount
        | ok entries =>
          rw [hknown] at hcount
          cases hcount
          exact ⟨entries, rfl, rfl⟩
      split
      case isTrue hle =>
        refine yields_pure fun store₄ hg₄ ↦ .inr ?_
        have hg := (hg₂.trans hg₃).trans hg₄
        have ht₄ := hg.type _ _ ht
        have hentries₄ := TypeStore.entries?_eq_some.2
          ⟨type, (hg₃.trans hg₄).type _ _ htype, hentries⟩
        cases hv₁ with
        | whole =>
          have hpath : store₄.Path h [name] (m.offset + 0) m.slotIndex m.type :=
            .member ht₄ hkind hm (.here m.type)
          exact .part hpath hentries₄ hle
        | @part _ names place slot inner hpath hinner hrow =>
          have hpath₄ := (hpath.mono hg).snoc ht₄ hkind hm
          rw [List.length_take, List.length_drop] at hle
          rw [List.drop_take, List.drop_drop, List.take_take, Nat.min_eq_left (by omega)]
          exact .part hpath₄ hentries₄ (by omega)
      case isFalse => exact yields_throw
    case h_3 => exact yields_throw

/-- What is known of the value of an expression that goes to no given place. -/
structure Located (frame : Frame) (n : Nat) (id : ExprId) (v : Value) (store : TypeStore) :
    Prop where
  seen : v.Seen frame n
  fits : v.Fits store
  stands : v.Stands frame n store id

/-- A member of a value stands where the value does. -/
theorem tracks_selectMember {id : ExprId} {e : Expr} (he : store.program.expr? id = some e)
    (hkind : e.kind = .member) {v : Value} (hv : Located frame n e.x v store) :
    Tracks frame n b store (selectMember v e.name) (Located frame n id) := by
  have hseen := enlarges_selectMember (b := b) (fun _ ↦ Frame.sees_of_le) (fun _ h ↦ h) hv.seen
    e.name
  have hfits : Yields frame store (selectMember v e.name) _ := yields_selectMember hv.fits e.name
  -- whatever is said of where the member stands goes with these two
  have hlocated {post : Value → TypeStore → Prop} {post' : Value → Prop}
      (hy : Yields frame store (selectMember v e.name) post)
      (he' : Enlarges frame n b (selectMember v e.name) post')
      (hstands : ∀ w st, store.Gains st → post w st → post' w → w.Stands frame n st id) :
      Tracks frame n b store (selectMember v e.name) (Located frame n id) := by
    refine Tracks.imp (Yields.tracks (hy.and hfits) (he'.and hseen)) ?_
    rintro w st hg ⟨⟨hpost, hfits⟩, hpost', hseen⟩
    exact ⟨hseen, hfits, hstands w st hg hpost hpost'⟩
  obtain hmade | ⟨r, h, row, hover, hnames, hinside⟩ := hv.stands
  · cases v with
    | direct g slots =>
      exact hlocated (yields_selectMember hv.fits e.name)
        (enlarges_selectMember (g := True) (fun _ h ↦ h) (fun _ ↦ Frame.sees_of_le)
          (v := .direct g slots) hmade e.name) fun _ _ _ _ hon ↦ .inl hon.made
    | relative g base offset | global g index offset =>
      exact hlocated (yields_selectMember_place hv.fits rfl e.name) hseen
        fun _ _ _ hplace _ ↦ .inl (Value.made_of_start? hplace)
  · refine hlocated (yields_selectMember_inside hinside e.name) hseen fun w st hg hw _ ↦ ?_
    refine hw.imp Value.made_of_start? fun hw ↦ ?_
    exact ⟨r, h, row, hg.toKeeps.program ▸ .member he hkind hover, hnames.mono hg, hw⟩

/-! ## Expressions and targets -/

/-- A name of a local gives its row. -/
theorem located_loc {id : ExprId} {e : Expr} (he : store.program.expr? id = some e)
    (hkind : e.kind = .loc) (hrow : frame.locals[e.loc.toNat]? = some row)
    (hsees : ∀ v ∈ row, frame.Sees n v) (hdenote : store.denote e.type frame.scope = some h) :
    Located frame n id (.direct h row) store :=
  ⟨hsees, Value.fits_direct row, .inr ⟨e, h, row, .root he, .loc hkind hrow hdenote, .whole⟩⟩

/-- A name of the receiver gives its row. -/
theorem located_self {id : ExprId} {e : Expr} (he : store.program.expr? id = some e)
    (hkind : e.kind = .self) :
    Located frame n id (.direct frame.selfType frame.self) store :=
  ⟨sees_self, Value.fits_direct _,
    .inr ⟨e, frame.selfType, frame.self, .root he, .self hkind, .whole⟩⟩

/-- Without a place to go to, the value of an expression stands where its members lead. -/
theorem tracks_lowerWithin (depth : Nat) (id : ExprId) :
    Tracks frame n b store (lowerWithin depth id none) (Located frame n id) := by
  induction depth generalizing id store with
  | zero => exact tracks_throw
  | succ depth ih =>
    refine tracks_program.bind fun p store₁ hg₁ hp ↦ ?_
    subst hp
    cases he : store₁.program.expr? id with
    | none => exact tracks_internalHere _
    | some e =>
      dsimp only
      by_cases hname : IsName e
      · refine (tracks_resolve e.type).bind fun h store₂ hg₂ hdenote ↦ ?_
        refine (tracks_typeOf h).bind fun t store₃ hg₃ _ ↦ ?_
        have he₃ : store₃.program.expr? id = some e := by
          rw [(hg₂.trans hg₃).toKeeps.program, he]
        obtain hkind | hkind | hkind := hname <;> simp only [hkind]
        · refine (tracks_localVars e.loc).bind fun row store₄ hg₄ ⟨hrow, hsees⟩ ↦ ?_
          refine tracks_pure fun st hg ↦ ?_
          have hg₄ := hg₄.trans hg
          exact located_loc (by rw [hg₄.toKeeps.program, he₃]) hkind hrow hsees
            ((hg₃.trans hg₄).toKeeps.denote hdenote)
        · refine tracks_read.bind ?_
          rintro _ store₄ hg₄ rfl
          refine tracks_pure fun st hg ↦ ?_
          exact located_self (by rw [(hg₄.trans hg).toKeeps.program, he₃]) hkind
        · refine (ih e.x).bind fun v store₄ hg₄ hv ↦ ?_
          have he₄ : store₄.program.expr? id = some e := by rw [hg₄.toKeeps.program, he₃]
          refine (tracks_selectMember he₄ hkind hv).bind fun w store₅ _ hw ↦ ?_
          exact tracks_pure fun st hg ↦ ⟨hw.seen, fits_gains hw.fits hg, hw.stands.mono hg⟩
      · have hnone {st : TypeStore} : FitsIfAny st none := nofun
        refine ((yields_exprStep (subFits_lowerWithin depth) e id hnone).tracks
          (enlarges_exprStep (subEnlarges_lowerWithin depth) id e ownIfAny_none)).imp ?_
        rintro v st - ⟨hfits, hseen, hmade⟩
        exact ⟨hseen, hfits, .inl (hmade rfl hname)⟩

theorem tracks_lowerExpr (id : ExprId) :
    Tracks frame n b store (lowerExpr id none) (Located frame n id) :=
  tracks_program.bind fun _ _ _ _ ↦ tracks_lowerWithin _ id

/-- The variables that an expression is read into are its own, or a part of a row of the function
that the expression names. -/
theorem tracks_rvalue (id : ExprId) :
    Tracks frame n b store (rvalue lowerExpr id) fun vars st ↦
      ∃ g, (Value.direct g vars).Stands frame n st id := by
  refine (tracks_lowerExpr id).bind fun v store₁ hg₁ hv ↦ ?_
  have hmade (hmade : v.Made n) : Tracks frame n b store₁ (readValue v) fun vars st ↦
      ∃ g, (Value.direct g vars).Stands frame n st id := by
    refine ((grows_readValue hv.fits).tracks
      (enlarges_readMade (fun _ ↦ Frame.sees_of_le) (fun _ h ↦ h) hv.seen hmade)).imp ?_
    rintro vars st - ⟨-, hvars⟩
    exact ⟨0, .inl hvars⟩
  cases v with
  | direct g slots => exact tracks_pure fun st hg ↦ ⟨g, hv.stands.mono hg⟩
  | relative g base offset | global g index offset => exact hmade trivial

/-- The place that an assignment writes to stands where its members lead. -/
theorem tracks_targetWithin (depth : Nat) (id : ExprId) :
    Tracks frame n b store (targetWithin depth id) (Located frame n id) := by
  induction depth generalizing id store with
  | zero => exact tracks_throw
  | succ depth ih =>
    refine tracks_program.bind fun p store₁ hg₁ hp ↦ ?_
    subst hp
    refine ((yields_expect (store₁.program.expr? id)).tracks
      (quiet_expect _).enlarges).bind fun e store₂ hg₂ ⟨he, _⟩ ↦ ?_
    refine (tracks_resolve e.type).bind fun h store₃ hg₃ hdenote ↦ ?_
    have he₃ : store₃.program.expr? id = some e := by
      rw [(hg₂.trans hg₃).toKeeps.program, he]
    split
    case h_1 hkind =>
      refine (tracks_localVars e.loc).bind fun row store₄ hg₄ ⟨hrow, hsees⟩ ↦ ?_
      refine tracks_pure fun st hg ↦ ?_
      have hg₄ := hg₄.trans hg
      exact located_loc (by rw [hg₄.toKeeps.program, he₃]) hkind hrow hsees
        (hg₄.toKeeps.denote hdenote)
    case h_2 hkind =>
      refine tracks_read.bind ?_
      rintro _ store₄ hg₄ rfl
      refine tracks_pure fun st hg ↦ ?_
      exact located_self (by rw [(hg₄.trans hg).toKeeps.program, he₃]) hkind
    case h_3 =>
      refine ((grows_globalIndex e.decl).tracks (quiet_globalIndex e.decl).enlarges).bind
        fun index store₄ hg₄ _ ↦ tracks_pure fun st hg ↦ ?_
      exact ⟨trivial, Value.fits_global_zero index, .inl trivial⟩
    case h_4 =>
      refine ((grows_rvalue subFits_lowerExpr e.x).tracks
        (enlarges_rvalue subEnlarges_lowerExpr e.x)).bind fun vars store₄ hg₄ ⟨_, hvars⟩ ↦ ?_
      refine ((grows_first vars).tracks (enlarges_first hvars)).bind
        fun base store₅ hg₅ ⟨_, hbase⟩ ↦ tracks_pure fun st hg ↦ ?_
      exact ⟨hbase, Value.fits_relative_zero base, .inl trivial⟩
    case h_5 hkind =>
      refine ((grows_exprType e.x).tracks (quiet_exprType e.x).enlarges).bind
        fun owner store₄ hg₄ _ ↦ ?_
      refine (tracks_typeOf owner).bind fun t store₅ hg₅ _ ↦ ?_
      have hselect {store₆ : TypeStore} (hg₆ : store₅.Gains store₆) {v : Value}
          (hv : Located frame n e.x v store₆) :
          Tracks frame n b store₆ (selectMember v e.name) (Located frame n id) := by
        refine tracks_selectMember ?_ hkind hv
        rw [((hg₄.trans hg₅).trans hg₆).toKeeps.program, he₃]
      split
      · exact (tracks_lowerExpr e.x).bind fun v _ hg₆ hv ↦ hselect hg₆ hv
      · exact (ih e.x).bind fun v _ hg₆ hv ↦ hselect hg₆ hv
    case h_6 => exact tracks_internalHere _

theorem tracks_assignTarget (id : ExprId) :
    Tracks frame n b store (assignTarget id) (Located frame n id) :=
  tracks_program.bind fun _ _ _ _ ↦ tracks_targetWithin _ id

end Lowering

end WasmBackend
