import Mathlib
import WasmBackend.Failure

/-!
# Reasoning about stages

A computation over a state that may fail is described by what it promises: from a start state it
either returns a value and a state that satisfy a postcondition, or it stops with a failure that is
allowed.  `Meets` says so for one start state; there is one rule for every way computations are put
together, and the rules for lists take an invariant over the part that is done.
-/

namespace WasmBackend.Stage

variable {ε σ τ α β γ : Type}

/-- From `s` the computation returns with `post`, or stops with a failure that `err` allows. -/
def Meets (x : ExceptT ε (StateM σ) α) (s : σ) (err : ε → Prop) (post : α → σ → Prop) : Prop :=
  match (x s : Except ε α × σ) with
  | (.ok a, t) => post a t
  | (.error e, _) => err e

/-- What holds of every result, failures aside. -/
abbrev Ensures (x : ExceptT ε (StateM σ) α) (s : σ) (post : α → σ → Prop) : Prop :=
  Meets x s (fun _ ↦ True) post

/-- The computation returns, and its result satisfies the postcondition. -/
abbrev Succeeds (x : ExceptT ε (StateM σ) α) (s : σ) (post : α → σ → Prop) : Prop :=
  Meets x s (fun _ ↦ False) post

variable {x : ExceptT ε (StateM σ) α} {s t : σ} {err : ε → Prop} {post : α → σ → Prop}

theorem Meets.mono {post' : α → σ → Prop} {err' : ε → Prop} (h : Meets x s err post)
    (herr : ∀ e, err e → err' e) (hpost : ∀ a t, post a t → post' a t) :
    Meets x s err' post' := by
  unfold Meets at *
  split <;> rename_i hx <;> rw [hx] at h
  · exact hpost _ _ h
  · exact herr _ h

theorem Meets.imp {post' : α → σ → Prop} (h : Meets x s err post)
    (hpost : ∀ a t, post a t → post' a t) : Meets x s err post' :=
  h.mono (fun _ he ↦ he) hpost

theorem Meets.ensures (h : Meets x s err post) : Ensures x s post :=
  h.mono (fun _ _ ↦ trivial) fun _ _ hp ↦ hp

theorem Meets.and {post' : α → σ → Prop} (h : Meets x s err post) (h' : Ensures x s post') :
    Meets x s err fun a t ↦ post a t ∧ post' a t := by
  unfold Ensures Meets at *
  split <;> rename_i hx <;> rw [hx] at h h'
  · exact ⟨h, h'⟩
  · exact h

theorem ensures_true : Ensures x s fun _ _ ↦ True := by
  unfold Ensures Meets
  split <;> trivial

theorem Ensures.of_eq {a : α} (h : Ensures x s post) (hx : x s = (.ok a, t)) : post a t := by
  unfold Ensures Meets at h
  rw [hx] at h
  exact h

theorem ensures_iff : Ensures x s post ↔ ∀ a t, x s = (.ok a, t) → post a t := by
  constructor
  · intro h a t hx
    exact h.of_eq hx
  · intro h
    unfold Ensures Meets
    split
    · exact h _ _ ‹_›
    · trivial

theorem succeeds_iff : Succeeds x s post ↔ ∃ a t, x s = (.ok a, t) ∧ post a t := by
  unfold Succeeds Meets
  split <;> rename_i hx
  · constructor
    · intro h
      exact ⟨_, _, hx, h⟩
    · rintro ⟨a, t, h, hp⟩
      rw [hx] at h
      cases h
      exact hp
  · constructor
    · exact False.elim
    · rintro ⟨a, t, h, -⟩
      rw [hx] at h
      cases h

/-! ## One rule for every way to put computations together -/

@[simp]
theorem meets_pure {a : α} :
    Meets (pure a : ExceptT ε (StateM σ) α) s err post ↔ post a s := Iff.rfl

@[simp]
theorem meets_bind {f : α → ExceptT ε (StateM σ) β} {post : β → σ → Prop} :
    Meets (x >>= f) s err post ↔ Meets x s err fun a t ↦ Meets (f a) t err post := by
  show Meets (ExceptT.bind x f) s err post ↔ _
  unfold Meets ExceptT.bind ExceptT.mk
  simp only [bind, StateT.bind]
  rcases x s with ⟨_ | _, _⟩ <;> rfl

@[simp]
theorem meets_map {f : α → β} {post : β → σ → Prop} :
    Meets (f <$> x) s err post ↔ Meets x s err fun a t ↦ post (f a) t := by
  rw [map_eq_pure_bind, meets_bind]
  rfl

@[simp]
theorem meets_throw {e : ε} :
    Meets (throw e : ExceptT ε (StateM σ) α) s err post ↔ err e := Iff.rfl

@[simp]
theorem meets_get {post : σ → σ → Prop} :
    Meets (get : ExceptT ε (StateM σ) σ) s err post ↔ post s s := Iff.rfl

@[simp]
theorem meets_set {post : PUnit → σ → Prop} :
    Meets (set t : ExceptT ε (StateM σ) PUnit) s err post ↔ post ⟨⟩ t := Iff.rfl

@[simp]
theorem meets_modify {f : σ → σ} {post : PUnit → σ → Prop} :
    Meets (modify f : ExceptT ε (StateM σ) PUnit) s err post ↔ post ⟨⟩ (f s) := Iff.rfl

@[simp]
theorem meets_ofExcept {y : Except Failure α} {err : Failure → Prop} :
    Meets (ofExcept y : Stage σ α) s err post ↔
      match y with
      | .ok a => post a s
      | .error e => err e := by
  cases y <;> rfl

@[simp]
theorem meets_internal {message : Text} {err : Failure → Prop} :
    Meets (internal message : Stage σ α) s err post ↔ err (.internal message) := Iff.rfl

@[simp]
theorem meets_zoom {view : σ → τ} {update : τ → σ → σ} {y : Stage τ α} {err : Failure → Prop} :
    Meets (zoom view update y) s err post ↔
      Meets y (view s) err fun a t ↦ post a (update t s) := by
  unfold Meets zoom
  rcases y (view s) with ⟨_ | _, t⟩ <;> rfl

@[simp]
theorem meets_adapt {ε' : Type} {f : ε → ε'} {err : ε' → Prop} :
    Meets (ExceptT.adapt f x) s err post ↔ Meets x s (fun e ↦ err (f e)) post := by
  show Meets (ExceptT.mk (Except.mapError f <$> x)) s err post ↔ _
  unfold Meets ExceptT.mk
  simp only [Functor.map, StateT.map]
  rcases x s with ⟨_ | _, _⟩ <;> rfl

theorem meets_ite {c : Prop} [Decidable c] {y : ExceptT ε (StateM σ) α} :
    Meets (if c then x else y) s err post ↔
      (c → Meets x s err post) ∧ (¬c → Meets y s err post) := by
  split <;> simp [*]

/-! ## Lists -/

theorem meets_forM {f : α → ExceptT ε (StateM σ) PUnit} {l : List α} (inv : List α → σ → Prop)
    (start : inv [] s)
    (step : ∀ done a rest t, l = done ++ a :: rest → inv done t →
      Meets (f a) t err fun _ t' ↦ inv (done ++ [a]) t') :
    Meets (l.forM f) s err fun _ t ↦ inv l t := by
  suffices h : ∀ rest done t, l = done ++ rest → inv done t →
      Meets (rest.forM f) t err fun _ t' ↦ inv l t' from h l [] s rfl start
  intro rest
  induction rest with
  | nil =>
    intro done t hl hinv
    rw [List.append_nil] at hl
    subst hl
    exact hinv
  | cons a rest ih =>
    intro done t hl hinv
    show Meets (f a >>= fun _ ↦ rest.forM f) t err _
    rw [meets_bind]
    refine (step done a rest t hl hinv).imp ?_
    intro _ t' hinv'
    exact ih (done ++ [a]) t' (by simpa using hl) hinv'

theorem meets_forIn {f : α → β → ExceptT ε (StateM σ) (ForInStep β)} {l : List α} {b : β}
    (inv : List α → β → σ → Prop) (start : inv [] b s)
    (step : ∀ done a rest c t, l = done ++ a :: rest → inv done c t →
      Meets (f a c) t err fun r t' ↦ ∃ c', r = .yield c' ∧ inv (done ++ [a]) c' t') :
    Meets (forIn l b f) s err fun c t ↦ inv l c t := by
  suffices h : ∀ rest done c t, l = done ++ rest → inv done c t →
      Meets (forIn rest c f) t err fun c' t' ↦ inv l c' t' from h l [] b s rfl start
  intro rest
  induction rest with
  | nil =>
    intro done c t hl hinv
    rw [List.append_nil] at hl
    subst hl
    exact hinv
  | cons a rest ih =>
    intro done c t hl hinv
    rw [List.forIn_cons, meets_bind]
    refine (step done a rest c t hl hinv).imp ?_
    rintro _ t' ⟨c', rfl, hinv'⟩
    exact ih (done ++ [a]) c' t' (by simpa using hl) hinv'

theorem meets_foldlM {f : β → α → ExceptT ε (StateM σ) β} {l : List α} {b : β}
    (inv : List α → β → σ → Prop) (start : inv [] b s)
    (step : ∀ done a rest c t, l = done ++ a :: rest → inv done c t →
      Meets (f c a) t err fun c' t' ↦ inv (done ++ [a]) c' t') :
    Meets (l.foldlM f b) s err fun c t ↦ inv l c t := by
  suffices h : ∀ rest done c t, l = done ++ rest → inv done c t →
      Meets (rest.foldlM f c) t err fun c' t' ↦ inv l c' t' from h l [] b s rfl start
  intro rest
  induction rest with
  | nil =>
    intro done c t hl hinv
    rw [List.append_nil] at hl
    subst hl
    exact hinv
  | cons a rest ih =>
    intro done c t hl hinv
    rw [List.foldlM_cons, meets_bind]
    refine (step done a rest c t hl hinv).imp ?_
    intro c' t' hinv'
    exact ih (done ++ [a]) c' t' (by simpa using hl) hinv'

theorem meets_mapM {f : α → ExceptT ε (StateM σ) β} {l : List α}
    (inv : List α → List β → σ → Prop) (start : inv [] [] s)
    (step : ∀ done a rest bs t, l = done ++ a :: rest → inv done bs t →
      Meets (f a) t err fun b t' ↦ inv (done ++ [a]) (bs ++ [b]) t') :
    Meets (l.mapM f) s err fun bs t ↦ inv l bs t := by
  suffices h : ∀ rest done bs t, l = done ++ rest → inv done bs t →
      Meets (rest.mapM f) t err fun cs t' ↦ inv l (bs ++ cs) t' from
    (h l [] [] s rfl start).imp fun _ _ h ↦ by simpa using h
  intro rest
  induction rest with
  | nil =>
    intro done bs t hl hinv
    rw [List.append_nil] at hl
    subst hl
    simpa using hinv
  | cons a rest ih =>
    intro done bs t hl hinv
    rw [List.mapM_cons, meets_bind]
    refine (step done a rest bs t hl hinv).imp ?_
    intro b t' hinv'
    rw [meets_bind]
    refine (ih (done ++ [a]) (bs ++ [b]) t' (by simpa using hl) hinv').imp ?_
    intro cs t'' h
    simpa using h

/-- A step for each of some items, where the state only grows and what a step gives stays right. -/
theorem ensures_mapM_of_mono {f : α → ExceptT ε (StateM σ) β} {l : List α} {le : σ → σ → Prop}
    {rel : σ → α → β → Prop} (start : le s s) (trans : ∀ t u, le s t → le t u → le s u)
    (mono : ∀ t u a b, le t u → rel t a b → rel u a b)
    (step : ∀ a ∈ l, ∀ t, le s t → Ensures (f a) t fun b u ↦ le t u ∧ rel u a b) :
    Ensures (l.mapM f) s fun bs t ↦ le s t ∧ List.Forall₂ (rel t) l bs := by
  refine meets_mapM (fun done bs t ↦ le s t ∧ List.Forall₂ (rel t) done bs) ⟨start, .nil⟩ ?_
  rintro done a rest bs t rfl ⟨hle, hall⟩
  refine (step a (by simp) t hle).imp ?_
  rintro b u ⟨hle', hb⟩
  refine ⟨trans t u hle hle', ?_⟩
  exact List.rel_append (hall.imp fun a b h ↦ mono t u a b hle' h) (.cons hb .nil)

theorem exists_of_mem_right {α β : Type} {rel : α → β → Prop} {xs : List α} {ys : List β} {y : β}
    (h : List.Forall₂ rel xs ys) (hy : y ∈ ys) : ∃ x ∈ xs, rel x y := by
  induction h with
  | nil => cases hy
  | cons hxy _ ih =>
    obtain rfl | hy := List.mem_cons.mp hy
    · exact ⟨_, List.mem_cons_self, hxy⟩
    · obtain ⟨x, hx, hrel⟩ := ih hy
      exact ⟨x, List.mem_cons_of_mem _ hx, hrel⟩

theorem forall₂_imp_of_mem {α β : Type} {rel rel' : α → β → Prop} {xs : List α} {ys : List β}
    (h : List.Forall₂ rel xs ys) (himp : ∀ x ∈ xs, ∀ y, rel x y → rel' x y) :
    List.Forall₂ rel' xs ys := by
  induction h with
  | nil => exact .nil
  | cons hxy _ ih =>
    exact .cons (himp _ List.mem_cons_self _ hxy) (ih fun x hx ↦ himp x (List.mem_cons_of_mem _ hx))

theorem filterAuxM_eq {m : Type → Type} [Monad m] [LawfulMonad m] (p : α → m Bool)
    (l acc : List α) :
    l.filterAuxM p acc = (fun kept ↦ kept.reverse ++ acc) <$> l.filterM p := by
  unfold List.filterM
  induction l generalizing acc with
  | nil => simp [List.filterAuxM]
  | cons a l ih =>
    simp only [List.filterAuxM, map_bind, bind_assoc]
    congr 1
    funext b
    rw [ih, ih (bif b then [a] else [])]
    cases b <;> simp

theorem filterM_cons {m : Type → Type} [Monad m] [LawfulMonad m] (p : α → m Bool) (a : α)
    (l : List α) :
    (a :: l).filterM p =
      p a >>= fun b ↦ (fun kept ↦ if b then a :: kept else kept) <$> l.filterM p := by
  conv_lhs => unfold List.filterM
  simp only [List.filterAuxM, bind_assoc]
  congr 1
  funext b
  rw [filterAuxM_eq]
  cases b <;> simp

/-! ## What a computation leaves behind -/

/-- From `s` the computation returns with `post`, or stops with a failure that `err` allows; either
way the state it leaves satisfies `left`. -/
def Leaves (x : ExceptT ε (StateM σ) α) (s : σ) (left : σ → Prop) (err : ε → Prop)
    (post : α → σ → Prop) : Prop :=
  left (x s).2 ∧ Meets x s err post

variable {left : σ → Prop}

theorem Leaves.mono {left' : σ → Prop} {err' : ε → Prop} {post' : α → σ → Prop}
    (h : Leaves x s left err post) (hleft : ∀ t, left t → left' t) (herr : ∀ e, err e → err' e)
    (hpost : ∀ a t, post a t → post' a t) : Leaves x s left' err' post' :=
  ⟨hleft _ h.1, h.2.mono herr hpost⟩

theorem Leaves.of_eq {a : α} (h : Leaves x s left err post) (hx : x s = (.ok a, t)) :
    left t ∧ post a t := by
  obtain ⟨hleft, hpost⟩ := h
  unfold Meets at hpost
  rw [hx] at hleft hpost
  exact ⟨hleft, hpost⟩

theorem leaves_pure {a : α} (hs : left s) (hpost : post a s) :
    Leaves (pure a : ExceptT ε (StateM σ) α) s left err post :=
  ⟨hs, hpost⟩

theorem leaves_throw {e : ε} (hs : left s) (he : err e) :
    Leaves (throw e : ExceptT ε (StateM σ) α) s left err post :=
  ⟨hs, he⟩

theorem bind_apply (f : α → ExceptT ε (StateM σ) β) :
    (x >>= f) s =
      match (x s : Except ε α × σ) with
      | (.ok a, t) => f a t
      | (.error e, t) => (.error e, t) := by
  show ExceptT.bind x f s = _
  unfold ExceptT.bind ExceptT.mk
  simp only [bind, StateT.bind]
  rcases x s with ⟨_ | _, _⟩ <;> rfl

theorem get_apply : (get : ExceptT ε (StateM σ) σ) s = (.ok s, s) :=
  rfl

theorem Leaves.bind {f : α → ExceptT ε (StateM σ) β} {post : β → σ → Prop}
    (h : Leaves x s left err fun a t ↦ Leaves (f a) t left err post) :
    Leaves (x >>= f) s left err post := by
  obtain ⟨hleft, hpost⟩ := h
  refine ⟨?_, meets_bind.2 (hpost.imp fun _ _ h ↦ h.2)⟩
  unfold Meets at hpost
  rw [bind_apply]
  rcases hx : x s with ⟨_ | a, t⟩ <;> rw [hx] at hleft hpost
  · exact hleft
  · exact hpost.1

theorem leaves_get_bind {f : σ → ExceptT ε (StateM σ) β} {post : β → σ → Prop}
    (h : Leaves (f s) s left err post) : Leaves (get >>= f) s left err post :=
  h

theorem leaves_modify_bind {g : σ → σ} {f : PUnit → ExceptT ε (StateM σ) β}
    {post : β → σ → Prop} (h : Leaves (f ⟨⟩) (g s) left err post) :
    Leaves (modify g >>= f) s left err post :=
  h

theorem leaves_ofExcept_bind {y : Except Failure α} {f : α → Stage σ β} {err : Failure → Prop}
    {post : β → σ → Prop} (hs : left s) (herr : ∀ e, y = .error e → err e)
    (h : ∀ a, y = .ok a → Leaves (f a) s left err post) :
    Leaves (ofExcept y >>= f) s left err post := by
  cases y with
  | error e => exact ⟨hs, herr e rfl⟩
  | ok a => exact h a rfl

/-- A step for each of some items.  Whatever becomes of a step, `le` leads to the state it leaves;
when it returns, so does the finer `fine`, which keeps what the steps before gave. -/
theorem leaves_mapM {f : α → ExceptT ε (StateM σ) β} {l : List α} (le fine : σ → σ → Prop)
    (rel : σ → α → β → Prop) (refl : ∀ t, le t t ∧ fine t t)
    (follow : ∀ t u v, fine t u → le u v → le t v)
    (trans : ∀ t u v, fine t u → fine u v → fine t v)
    (mono : ∀ t u a b, fine t u → rel t a b → rel u a b)
    (step : ∀ a ∈ l, ∀ t, fine s t → Leaves (f a) t (le t) err fun b u ↦ fine t u ∧ rel u a b) :
    Leaves (l.mapM f) s (le s) err fun bs t ↦ fine s t ∧ List.Forall₂ (rel t) l bs := by
  induction l generalizing s with
  | nil => exact leaves_pure (refl s).1 ⟨(refl s).2, .nil⟩
  | cons a l ih =>
    rw [List.mapM_cons]
    refine Leaves.bind ((step a (by simp) s (refl s).2).mono (fun _ h ↦ h) (fun _ h ↦ h) ?_)
    rintro b t ⟨hst, hb⟩
    refine Leaves.bind ((ih fun a ha u hu ↦ step a (by simp [ha]) u (trans _ _ _ hst hu)).mono
      (fun u hu ↦ follow _ _ _ hst hu) (fun _ h ↦ h) ?_)
    rintro bs u ⟨htu, hbs⟩
    exact leaves_pure (follow _ _ _ (trans _ _ _ hst htu) (refl u).1)
      ⟨trans _ _ _ hst htu, .cons (mono t u a b htu hb) hbs⟩

end WasmBackend.Stage
