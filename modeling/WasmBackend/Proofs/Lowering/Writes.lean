import WasmBackend.Proofs.Lowering.Writing

/-!
# Steps that write

`Writes` says of a step of lowering that it goes on writing the row it finds, whatever that row is.
Its postcondition is told how many variables exist behind the step; since variables are only added,
whatever is said about the variables of a value stays true.
-/

namespace WasmBackend.Lowering

open Ir (Block BlockId BlockKind Forest Instr Tree Var)
open Stage (Ensures)

variable {α β : Type} {σ : Scope} {frame : Frame} {n : Nat} {x : M α} {post : α → Nat → Prop}

/-- Where at least `n` variables exist the step goes on writing inside the constructs of `σ`, and
what it gives satisfies `post`, which is told how many variables exist by then. -/
def Writes (σ : Scope) (frame : Frame) (n : Nat) (x : M α) (post : α → Nat → Prop) : Prop :=
  ∀ us s, Writing σ us s → n ≤ s.vars.size → Ensures (x frame) s fun a s' ↦
    ∃ us', Writing σ us' s' ∧ Continues us s us' s' ∧ post a s'.vars.size

/-! ## One rule for every way to put steps together -/

theorem Writes.imp {post' : α → Nat → Prop} (h : Writes σ frame n x post)
    (hpost : ∀ a m, n ≤ m → post a m → post' a m) : Writes σ frame n x post' := by
  intro us s hw hn
  refine (h us s hw hn).imp ?_
  rintro a s' ⟨us', hw', hc, ha⟩
  exact ⟨us', hw', hc, hpost a _ (Nat.le_trans hn hc.vars_le) ha⟩

theorem writes_pure {a : α} (h : ∀ m, n ≤ m → post a m) : Writes σ frame n (pure a) post := by
  intro us s hw hn
  exact ⟨us, hw, Continues.refl us s, h _ hn⟩

theorem Writes.bind {f : α → M β} {post' : β → Nat → Prop} (hx : Writes σ frame n x post)
    (hf : ∀ a m, n ≤ m → post a m → Writes σ frame m (f a) post') :
    Writes σ frame n (x >>= f) post' := by
  intro us s hw hn
  show Ensures (x frame >>= fun a ↦ f a frame) s _
  rw [Ensures, Stage.meets_bind]
  refine (hx us s hw hn).imp ?_
  rintro a s₁ ⟨us₁, hw₁, hc₁, ha⟩
  refine (hf a _ (Nat.le_trans hn hc₁.vars_le) ha us₁ s₁ hw₁ (Nat.le_refl _)).imp ?_
  rintro b s₂ ⟨us₂, hw₂, hc₂, hb⟩
  exact ⟨us₂, hw₂, hc₁.trans hc₂, hb⟩

theorem writes_throw {e : LoweringFault} : Writes σ frame n (throw e : M α) post := by
  intro us s _ _
  exact trivial

theorem writes_get {f : Lowering → M β} {post : β → Nat → Prop}
    (h : ∀ s, Writes σ frame n (f s) post) : Writes σ frame n (get >>= f) post := by
  intro us s hw hn
  exact h s us s hw hn

theorem writes_read {f : Frame → M β} {post : β → Nat → Prop}
    (h : Writes σ frame n (f frame) post) : Writes σ frame n (read >>= f) post :=
  h

theorem writes_discard (h : Writes σ frame n x post) :
    Writes σ frame n (discard x) fun _ _ ↦ True := by
  show Writes σ frame n (Functor.map (fun _ ↦ PUnit.unit) x) _
  rw [map_eq_pure_bind]
  exact h.bind fun _ _ _ _ ↦ writes_pure fun _ _ ↦ trivial

/-- A loop whose body writes, whatever it comes behind. -/
theorem writes_forIn {l : List α} {f : α → PUnit → M (ForInStep PUnit)}
    (h : ∀ a ∈ l, ∀ m, n ≤ m → Writes σ frame m (f a ⟨⟩) fun r _ ↦ r = .yield ⟨⟩) :
    Writes σ frame n (forIn l PUnit.unit f) fun _ _ ↦ True := by
  induction l generalizing n with
  | nil => exact writes_pure fun _ _ ↦ trivial
  | cons a l ih =>
    rw [List.forIn_cons]
    refine (h a List.mem_cons_self n (Nat.le_refl n)).bind ?_
    intro r m hm hr
    subst hr
    exact ih fun b hb k hk ↦ h b (List.mem_cons_of_mem a hb) k (Nat.le_trans hm hk)

theorem writes_mapM {l : List α} {f : α → M β} {post : β → Nat → Prop}
    (hmono : ∀ b m k, m ≤ k → post b m → post b k)
    (h : ∀ a ∈ l, ∀ m, n ≤ m → Writes σ frame m (f a) post) :
    Writes σ frame n (l.mapM f) fun bs m ↦ ∀ b ∈ bs, post b m := by
  induction l generalizing n with
  | nil => exact writes_pure fun _ _ _ hb ↦ absurd hb List.not_mem_nil
  | cons a l ih =>
    rw [List.mapM_cons]
    refine (h a List.mem_cons_self n (Nat.le_refl n)).bind ?_
    intro b m hm hb
    refine (ih fun a' ha' k hk ↦ h a' (List.mem_cons_of_mem a ha') k (Nat.le_trans hm hk)).bind ?_
    intro bs k hk hbs
    refine writes_pure fun i hi b' hb' ↦ ?_
    cases List.mem_cons.1 hb' with
    | inl heq => exact heq ▸ hmono b m i (Nat.le_trans hk hi) hb
    | inr hmem => exact hmono b' k i hi (hbs b' hmem)

/-- A step that touches no block goes on writing any row. -/
theorem writes_of_aside
    (h : ∀ s : Lowering, n ≤ s.vars.size → Ensures (x frame) s fun a s' ↦
      s.Aside s' ∧ post a s'.vars.size) : Writes σ frame n x post := by
  intro us s hw hn
  refine (h s hn).imp ?_
  rintro a s' ⟨hs, ha⟩
  exact ⟨us, hw.aside hs, hs.continues us, ha⟩

/-- A change of something other than the code. -/
theorem writes_modify {g : Lowering → Lowering} (h : ∀ s : Lowering, s.Aside (g s)) :
    Writes σ frame n (modify g) fun _ _ ↦ True :=
  writes_of_aside fun s _ ↦ ⟨h s, trivial⟩

/-! ## Emitting -/

/-- What is said about a list of variables: they exist. -/
def VarsBelow (n : Nat) (vs : List Var) : Prop :=
  ∀ v ∈ vs, v < n

theorem VarsBelow.mono {m : Nat} {vs : List Var} (h : VarsBelow n vs) (hm : n ≤ m) :
    VarsBelow m vs :=
  fun v hv ↦ Nat.lt_of_lt_of_le (h v hv) hm

theorem varsBelow_nil : VarsBelow n [] :=
  fun _ hv ↦ absurd hv List.not_mem_nil

theorem varsBelow_cons {v : Var} {vs : List Var} :
    VarsBelow n (v :: vs) ↔ v < n ∧ VarsBelow n vs :=
  List.forall_mem_cons

theorem varsBelow_singleton {v : Var} : VarsBelow n [v] ↔ v < n :=
  List.forall_mem_singleton

theorem varsBelow_append {vs ws : List Var} :
    VarsBelow n (vs ++ ws) ↔ VarsBelow n vs ∧ VarsBelow n ws :=
  List.forall_mem_append

/-- Instructions that lowering emits: neither branches nor merges, between variables that exist. -/
structure Ordinary (n : Nat) (i : Instr) : Prop where
  not_branch : i.isBranch = false
  not_phi : i.op ≠ .phi
  no_copies : i.copies = []
  dst : VarsBelow n i.dst
  args : VarsBelow n i.args

theorem Ordinary.placeable {i : Instr} (h : Ordinary n i) {m : Nat} (hm : n ≤ m) (σ : Scope) :
    Placeable σ m i where
  within := by
    refine ⟨h.dst.mono hm, h.args.mono hm, ?_⟩
    rw [h.no_copies]
    exact fun _ hc ↦ absurd hc List.not_mem_nil
  aimed hbranch := by
    rw [h.not_branch] at hbranch
    cases hbranch
  not_phi := h.not_phi
  no_copies := h.no_copies

theorem writes_emit {i : Instr} (hi : Ordinary n i) :
    Writes σ frame n (emit i) fun _ _ ↦ True := by
  intro us s hw hn
  obtain ⟨hwritten, hbranch⟩ := hw.append (hi.placeable hn σ)
  exact ⟨us, ⟨hwritten, hbranch hi.not_branch⟩, hw.continues_append i, trivial⟩

/-- A branch ends its block, so a new one is opened behind it. -/
theorem writes_branch {i : Instr} {k : M α} (hbranch : i.Aimed σ) (hphi : i.op ≠ .phi)
    (hcopies : i.copies = []) (hdst : VarsBelow n i.dst) (hargs : VarsBelow n i.args)
    (hk : Writes σ frame n k post) :
    Writes σ frame n (do emit i; openBasic; k) post := by
  intro us s hw hn
  have hi : Placeable σ s.vars.size i := by
    refine ⟨⟨hdst.mono hn, hargs.mono hn, ?_⟩, hbranch, hphi, hcopies⟩
    rw [hcopies]
    exact fun _ hc ↦ absurd hc List.not_mem_nil
  obtain ⟨hw₁, -⟩ := hw.append hi
  obtain ⟨hw₂, hc₂⟩ := hw₁.close hw₁.built_nil (Nat.zero_le 1) Forest.finished_nil
  refine (hk _ _ hw₂ hn).imp ?_
  rintro a s' ⟨us', hw', hc', ha⟩
  exact ⟨us', hw', (hw.continues_append i).trans (hc₂.trans hc'), ha⟩

end WasmBackend.Lowering
