import WasmBackend.Proofs.Layout.Cycles

/-!
# What is found about circular layouts

A finding about a type without a layout follows, from type to type, the first member that is waited
for, and ends at the first type that repeats.  That type lies on a cycle of members, so the finding
does not say of a type that contains itself by value unless it does, and otherwise it names a cycle
that the type reaches.  A type on a cycle of its own is still said to depend on another one where the
first members lead there; it is not where each type on the way waits for one type only.
-/

namespace WasmBackend

open Relation (ReflTransGen TransGen)
open Stage (Ensures)

namespace Layouts

variable {l₀ l : Layouts} {h : Handle} {t last : ConcreteType}

/-! ## Chains -/

/-- The first type waits for the layout of the second. -/
def Waits (l : Layouts) (h g : Handle) : Prop :=
  g ∈ l.waitsFor h

theorem waits_of_first {m : Member}
    (h : t.members.find? (fun m ↦ m.type ∈ l.waitsFor t.handle) = some m) :
    m ∈ t.members ∧ l.Waits t.handle m.type :=
  ⟨List.mem_of_find?_eq_some h, by simpa [Waits] using List.find?_some h⟩

/-- A step from a type to that of one of its members. -/
structure Link where
  owner : ConcreteType
  member : Member

def Link.text (link : Link) : Text :=
  link.owner.name ++ "." ++ link.member.name

/-- The types that links start from. -/
def owners (links : List Link) : List Handle :=
  links.map fun link ↦ link.owner.handle

/-- The links from a type to the first one that repeats, each by the first member that is waited for;
the types in `seen` came before. -/
inductive Chain (l : Layouts) : List Handle → ConcreteType → List Link → ConcreteType → Prop
  | repeats {seen : List Handle} {t : ConcreteType} (hseen : t.handle ∈ seen) : Chain l seen t [] t
  | follow {seen : List Handle} {t next last : ConcreteType} {m : Member} {links : List Link}
      (hnew : t.handle ∉ seen)
      (hfirst : t.members.find? (fun m ↦ m.type ∈ l.waitsFor t.handle) = some m)
      (hnext : l.store.type? m.type = some next)
      (hrest : Chain l (t.handle :: seen) next links last) : Chain l seen t (⟨t, m⟩ :: links) last

namespace Chain

variable {seen : List Handle} {links : List Link}

/-- Each link is by a member that is waited for. -/
theorem waits (hc : l.Chain seen t links last) {link : Link} (hlink : link ∈ links) :
    link.member ∈ link.owner.members ∧ l.Waits link.owner.handle link.member.type := by
  induction hc with
  | repeats => cases hlink
  | follow _ hfirst _ _ ih =>
    obtain _ | ⟨_, hlink⟩ := hlink
    · exact waits_of_first hfirst
    · exact ih hlink

theorem not_mem_seen (hc : l.Chain seen t links last) {g : Handle} (hg : g ∈ owners links) :
    g ∉ seen := by
  induction hc with
  | repeats => cases hg
  | follow hnew _ _ _ ih =>
    obtain _ | ⟨_, hg⟩ := hg
    · exact hnew
    · exact fun hmem ↦ ih hg (List.mem_cons_of_mem _ hmem)

/-- No two links start from one type. -/
theorem nodup (hc : l.Chain seen t links last) : (owners links).Nodup := by
  induction hc with
  | repeats => exact .nil
  | follow _ _ _ hrest ih => exact .cons (fun hmem ↦ hrest.not_mem_seen hmem List.mem_cons_self) ih

/-- The chain starts at its first link, if there is one. -/
theorem start (hc : l.Chain seen t links last) :
    (t = last ∧ last.handle ∈ seen) ∨ t.handle ∈ owners links := by
  cases hc with
  | repeats hseen => exact .inl ⟨rfl, hseen⟩
  | follow => exact .inr List.mem_cons_self

/-- The type at the end came before. -/
theorem last_mem (hc : l.Chain seen t links last) :
    last.handle ∈ seen ∨ last.handle ∈ owners links := by
  induction hc with
  | repeats hseen => exact .inl hseen
  | follow _ _ _ _ ih =>
    obtain hmem | hmem := ih
    · obtain heq | hmem := List.mem_cons.1 hmem
      · exact .inr (heq ▸ List.mem_cons_self)
      · exact .inl hmem
    · exact .inr (List.mem_cons_of_mem _ hmem)

section

variable (hs : l.store.Faithful)

include hs

/-- A link leads to the next one or to the end. -/
theorem closed (hc : l.Chain seen t links last) {link : Link} (hlink : link ∈ links) :
    link.member.type = last.handle ∨ link.member.type ∈ owners links := by
  induction hc with
  | repeats => cases hlink
  | follow _ _ hnext hrest ih =>
    obtain _ | ⟨_, hlink⟩ := hlink
    · rw [← hs.handle hnext]
      exact hrest.start.imp (fun hend ↦ congrArg _ hend.1) (List.mem_cons_of_mem _)
    · exact (ih hlink).imp_right (List.mem_cons_of_mem _)

theorem type_owner (hc : l.Chain seen t links last) (ht : l.store.type? t.handle = some t)
    {link : Link} (hlink : link ∈ links) :
    l.store.type? link.owner.handle = some link.owner := by
  induction hc with
  | repeats => cases hlink
  | follow _ _ hnext _ ih =>
    obtain _ | ⟨_, hlink⟩ := hlink
    · exact ht
    · exact ih (hs.handle hnext ▸ hnext) hlink

theorem reaches (hc : l.Chain seen t links last) :
    ReflTransGen l.Waits t.handle last.handle := by
  induction hc with
  | repeats => exact .refl
  | follow _ hfirst hnext _ ih =>
    exact .head (hs.handle hnext ▸ (waits_of_first hfirst).2) ih

theorem owner_reaches (hc : l.Chain seen t links last) {g : Handle} (hg : g ∈ owners links) :
    TransGen l.Waits g last.handle := by
  induction hc with
  | repeats => cases hg
  | follow _ hfirst hnext hrest ih =>
    obtain _ | ⟨_, hg⟩ := hg
    · exact .head' (hs.handle hnext ▸ (waits_of_first hfirst).2) (hrest.reaches hs)
    · exact ih hg

/-- The type at the end of a chain lies on a cycle. -/
theorem cycle (hc : l.Chain [] t links last) : TransGen l.Waits last.handle last.handle :=
  hc.owner_reaches hs (hc.last_mem.resolve_left List.not_mem_nil)

/-- Where each type on the way waits for one type only, a chain comes back to a type that lies on a
cycle. -/
theorem last_eq (hc : l.Chain [] t links last)
    (honly : ∀ g a b, ReflTransGen l.Waits t.handle g → l.Waits g a → l.Waits g b → a = b)
    (hcycle : TransGen l.Waits t.handle t.handle) : last.handle = t.handle := by
  by_contra hne
  cases hc with
  | repeats hseen => cases hseen
  | @follow _ _ next _ m links hnew hfirst hnext hrest =>
    have hlast : last.handle ∈ owners links :=
      hrest.last_mem.resolve_left fun hmem ↦ hne (List.mem_singleton.1 hmem)
    have hwaits := (waits_of_first hfirst).2
    obtain ⟨g, hg, hback⟩ := TransGen.head'_iff.1 hcycle
    obtain rfl := honly _ _ _ .refl hg hwaits
    -- behind the first link the types wait for each other only
    have hstart : m.type ∈ owners links := by
      rw [← hs.handle hnext]
      refine hrest.start.resolve_left fun ⟨heq, hmem⟩ ↦ ?_
      exact hne (List.mem_singleton.1 hmem)
    have hinside {a : Handle} (hpath : ReflTransGen l.Waits m.type a) : a ∈ owners links := by
      induction hpath with
      | refl => exact hstart
      | @tail a b hpath hstep ih =>
        obtain ⟨link, hlink, rfl⟩ := List.mem_map.1 ih
        obtain rfl := honly _ _ _ (hpath.head hwaits) hstep (hrest.waits hlink).2
        exact (hrest.closed hs hlink).elim (fun heq ↦ heq ▸ hlast) id
    exact hrest.not_mem_seen (hinside hback) List.mem_cons_self

end

end Chain

/-! ## When the passes are over -/

/-- Layouts in which no registered aggregate can be laid out: those without a layout wait, and for such
only. -/
structure Idle (l : Layouts) : Prop extends l.Consistent where
  waiting : ∀ h ∈ l.registered, ¬l.store.LaidOut h → l.waitsFor h ≠ []
  waits_open : ∀ h g, l.Waits h g → g ∈ l.registered ∧ ¬l.store.LaidOut g

theorem Idle.exists_first (hl : l.Idle) (ht : l.store.type? t.handle = some t)
    (hreg : t.handle ∈ l.registered) (hopen : ¬l.store.LaidOut t.handle) :
    ∃ m, t.members.find? (fun m ↦ m.type ∈ l.waitsFor t.handle) = some m := by
  obtain ⟨d, hd⟩ := List.exists_mem_of_ne_nil _ (hl.waiting _ hreg hopen)
  obtain ⟨t', ht', hdeps, -⟩ := hl.contained _ hreg
  cases ht.symm.trans ht'
  obtain ⟨t', ht', m, hm, rfl, -⟩ := (hl.proper.contains_iff ht).2 (hdeps d hd)
  cases ht.symm.trans ht'
  exact Option.isSome_iff_exists.1 (List.find?_isSome.2 ⟨m, hm, by simpa using hd⟩)

/-- Following the first members that are waited for gives a chain. -/
theorem Idle.exists_chain (hl : l.Idle) {seen : List Handle} (hnodup : seen.Nodup)
    (hseen : ∀ g ∈ seen, g < l.store.size) (ht : l.store.type? t.handle = some t)
    (hreg : t.handle ∈ l.registered) (hopen : ¬l.store.LaidOut t.handle) (steps : List Text)
    {fuel : Nat} (hfuel : l.store.size < fuel + seen.length) :
    ∃ links last, l.Chain seen t links last ∧ chainFrom fuel seen steps t l
      = (.ok (steps ++ links.map Link.text ++ [last.name], last), l) := by
  induction fuel generalizing seen steps t with
  | zero => exact absurd (length_le_size hnodup hseen) (by omega)
  | succ fuel ih =>
    unfold chainFrom
    by_cases hmem : t.handle ∈ seen
    · rw [if_pos hmem]
      exact ⟨[], t, .repeats hmem, by rw [List.map_nil, List.append_nil]; rfl⟩
    · obtain ⟨m, hfirst⟩ := hl.exists_first ht hreg hopen
      obtain ⟨hreg', hopen'⟩ := hl.waits_open _ _ (waits_of_first hfirst).2
      obtain ⟨next, hnext⟩ := hl.isBuilt (.inl hreg')
      have hhandle := hl.proper.faithful.handle hnext
      have hseen' : ∀ g ∈ t.handle :: seen, g < l.store.size := by
        rintro g (_ | ⟨_, hg⟩)
        · exact TypeStore.lt_size_of_type? ht
        · exact hseen g hg
      obtain ⟨links, last, hc, hrun⟩ := ih (.cons (by simpa using hmem) hnodup) hseen'
        (hhandle ▸ hnext) (hhandle ▸ hreg') (hhandle ▸ hopen') (steps ++ [t.name ++ "." ++ m.name])
        (by rw [List.length_cons]; omega)
      refine ⟨⟨t, m⟩ :: links, last, .follow hmem hfirst hnext hc, ?_⟩
      rw [if_neg hmem, Stage.bind_apply, Stage.get_apply]
      dsimp only
      rw [hfirst]
      dsimp only
      rw [Stage.bind_apply, typeOf_of_type? hnext]
      dsimp only
      rw [hrun]
      simp [Link.text]

/-- What is found about a type with this chain. -/
def finding (t : ConcreteType) (links : List Link) (last : ConcreteType) : Diagnostic :=
  let steps := Text.join " -> " (links.map Link.text ++ [last.name])
  let message :=
    if last.handle = t.handle then "type " ++ t.name ++ " contains itself by value: " ++ steps
    else "type " ++ t.name ++ " depends on value cycle through " ++ last.name ++ ": " ++ steps
  .error .circularLayout t.span message
    [⟨t.span, "store one of the members behind a pointer or class reference"⟩]

theorem Idle.exists_finding (hl : l.Idle) (ht : l.store.type? t.handle = some t)
    (hreg : t.handle ∈ l.registered) (hopen : ¬l.store.LaidOut t.handle) :
    ∃ links last, l.Chain [] t links last ∧ circular t l = (.ok (finding t links last), l) := by
  obtain ⟨links, last, hc, hrun⟩ := hl.exists_chain .nil (by simp) ht hreg hopen []
    (Nat.lt_succ_self l.store.size)
  refine ⟨links, last, hc, ?_⟩
  unfold circular chain
  simp only [Stage.bind_apply, Stage.get_apply, hrun]
  rfl

/-! ## Resolving -/

/-- When the passes are over, aggregates wait for those they contain that reach a cycle. -/
theorem Complete.waits_iff_of_proceeds (hl₀ : l₀.Complete) (hp : l₀.Proceeds l)
    (hwaits : ∀ h ∈ l₀.registered, l.store.LaidOut h ∨ l.waitsFor h ≠ []) {g : Handle} :
    l.Waits h g ↔ h ∈ l₀.registered ∧ l₀.store.Contains h g ∧ l₀.store.ReachesCycle g := by
  by_cases hreg : h ∈ l₀.registered
  · rw [Waits, hp.waits h hreg, hl₀.waits_iff h hreg, and_iff_right hreg]
    refine and_congr_right fun hcontains ↦ ?_
    have hreg' := hl₀.closed h hreg g hcontains
    rw [and_iff_left (hl₀.opened g hreg'), hp.laidOut_iff hwaits hreg',
      or_iff_right (hl₀.opened g hreg'), hl₀.settleable_iff hreg', not_not]
  · have hnil : l.waitsFor h = [] := waitsFor_eq_nil (hp.registered ▸ hreg)
    simp [Waits, hnil, hreg]

theorem Complete.idle (hl₀ : l₀.Complete) (hp : l₀.Proceeds l)
    (hwaits : ∀ h ∈ l₀.registered, l.store.LaidOut h ∨ l.waitsFor h ≠ []) : l.Idle where
  toConsistent := hp.consistent hl₀.toConsistent
  waiting h hreg hopen := (hwaits h (hp.registered ▸ hreg)).resolve_left hopen
  waits_open h g hw := by
    obtain ⟨hreg, hcontains, hcycle⟩ := (hl₀.waits_iff_of_proceeds hp hwaits).1 hw
    have hreg' := hl₀.closed h hreg g hcontains
    refine ⟨hp.registered ▸ hreg', ?_⟩
    rw [hp.laidOut_iff hwaits hreg', or_iff_right (hl₀.opened g hreg'), hl₀.settleable_iff hreg']
    exact not_not.2 hcycle

/-- A cycle of members is one of types that wait for each other. -/
theorem Complete.transGen_waits (hl₀ : l₀.Complete) (hp : l₀.Proceeds l)
    (hwaits : ∀ h ∈ l₀.registered, l.store.LaidOut h ∨ l.waitsFor h ≠ [])
    (hreg : h ∈ l₀.registered) :
    TransGen l.Waits h h ↔ TransGen l₀.store.Contains h h := by
  have hiff {a b : Handle} := hl₀.waits_iff_of_proceeds hp hwaits (h := a) (g := b)
  refine ⟨TransGen.mono (fun a b hab ↦ (hiff.1 hab).2.1) h h, fun hcycle ↦ ?_⟩
  have hback (a : Handle) (hpath : TransGen l₀.store.Contains a h) :
      a ∈ l₀.registered → TransGen l.Waits a h := by
    induction hpath using TransGen.head_induction_on with
    | single hstep => exact fun hreg ↦ .single (hiff.2 ⟨hreg, hstep, h, .refl, hcycle⟩)
    | head hstep hpath ih =>
      intro hreg
      have hreg' := hl₀.closed _ hreg _ hstep
      exact .head (hiff.2 ⟨hreg, hstep, h, hpath.to_reflTransGen, hcycle⟩) (ih hreg')
  exact hback h hcycle hreg

/-- **What the findings say.**  Each has the chain of first members that are waited for; these are
members by value of types without a layout, and the chain ends at the first type that repeats.  That
type lies on a cycle, which the type of the finding reaches; it is that type itself only if that
contains itself by value, and so if every type on the way has one member type only that reaches a
cycle. -/
theorem resolve_findings {p : Program} (hl₀ : Reached p l₀)
    (hprepared : ReflTransGen Prepares { store := l₀.store } l)
    (hopen : ∀ h ∈ l.registered, ∀ g, l.store.Contains h g → ¬l.store.LaidOut g) :
    Ensures resolve l fun left l' ↦ ∀ x ∈ left, ∃ t links last,
      l'.store.type? x.1 = some t ∧ x.2 = finding t links last ∧ l'.Chain [] t links last ∧
      (owners links).Nodup ∧ last.handle ∈ owners links ∧
      (∀ link ∈ links, l'.store.type? link.owner.handle = some link.owner ∧
        link.member ∈ link.owner.members ∧
        l.store.Contains link.owner.handle link.member.type ∧
        ¬l'.store.LaidOut link.member.type) ∧
      ReflTransGen l.store.Contains x.1 last.handle ∧
      TransGen l.store.Contains last.handle last.handle ∧
      ((∀ g a b, ReflTransGen l.store.Contains x.1 g → l.store.Contains g a →
          l.store.Contains g b → l.store.ReachesCycle a → l.store.ReachesCycle b → a = b) →
        (last.handle = x.1 ↔ TransGen l.store.Contains x.1 x.1)) := by
  have hproper := hl₀.consistent.proper
  have hregisters := registers_of_prepares (l := { store := l₀.store }) hproper hprepared
  have hl := complete_of_registers hproper hregisters hopen
  refine (meets_resolve_findings hl.toConsistent).mono (fun _ _ ↦ trivial) ?_
  rintro left l' ⟨hp, hwaits, hleft, hfound⟩ ⟨h, d⟩ hx
  have hidle := hl.idle hp hwaits
  have hfaithful := hidle.proper.faithful
  have hiff {a b : Handle} := hl.waits_iff_of_proceeds hp hwaits (h := a) (g := b)
  have hcontains (a b : Handle) (hab : l'.Waits a b) : l.store.Contains a b := (hiff.1 hab).2.1
  obtain ⟨hreg, hunlaid⟩ := mem_unsettled.1 (hleft ▸ List.mem_map_of_mem hx : h ∈ l'.unsettled)
  obtain ⟨t, ht, hcircular⟩ := hfound _ hx
  obtain rfl := hfaithful.handle ht
  obtain ⟨links, last, hc, hrun⟩ := hidle.exists_finding ht hreg hunlaid
  cases hrun.symm.trans hcircular
  have hcycle := hc.cycle hfaithful
  refine ⟨t, links, last, ht, rfl, hc, hc.nodup, hc.last_mem.resolve_left List.not_mem_nil,
    fun link hlink ↦ ?_, ?_, ?_, fun honly ↦ ⟨fun heq ↦ ?_, ?_⟩⟩
  · obtain ⟨hm, hw⟩ := hc.waits hlink
    exact ⟨hc.type_owner hfaithful ht hlink, hm, hcontains _ _ hw, (hidle.waits_open _ _ hw).2⟩
  · exact ReflTransGen.mono hcontains _ _ (hc.reaches hfaithful)
  · exact TransGen.mono hcontains _ _ hcycle
  · exact heq ▸ TransGen.mono hcontains _ _ hcycle
  · intro hself
    refine hc.last_eq hfaithful (fun g a b hpath ha hb ↦ ?_)
      ((hl.transGen_waits hp hwaits (hp.registered ▸ hreg)).2 hself)
    exact honly g a b (ReflTransGen.mono hcontains _ _ hpath) (hiff.1 ha).2.1 (hiff.1 hb).2.1
      (hiff.1 ha).2.2 (hiff.1 hb).2.2

/-- A struct that contains itself behind another one that does. -/
def nestedCycles : Layouts where
  store := { TypeStore.ofProgram {} with
    applications := #[
      { template := .aggregate 1, args := [], type := some {
          handle := 1, name := "A", kind := .struct, decl := 1
          members := [{ name := "b", type := 2 }, { name := "a", type := 1 }], deps := [2, 1] } },
      { template := .aggregate 2, args := [], type := some {
          handle := 2, name := "B", kind := .struct, decl := 2
          members := [{ name := "b", type := 2 }], deps := [2] } }] }
  pending := [(1, [2, 1]), (2, [2])]

/-- The first members lead away from the cycle that the struct lies on. -/
example : (resolve nestedCycles).1.toOption.map (fun left ↦ left.map fun x ↦ x.2.message) =
    some ((["type A depends on value cycle through B: A.b -> B.b -> B",
      "type B contains itself by value: B.b -> B"] : List String).map Text.ofString) := by
  decide +kernel

end Layouts

end WasmBackend
