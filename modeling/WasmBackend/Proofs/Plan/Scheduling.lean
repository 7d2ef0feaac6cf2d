import WasmBackend.Proofs.Plan.Tasks

/-!
# The tasks of a plan are those the program needs

The work list holds the tasks that have not been followed.  When it is empty, everything a task
refers to is among the tasks, so the tasks are closed under what makes a task needed; and each of
them is needed, since it was found that way.
-/

namespace WasmBackend.Scheduler

open Stage (Ensures Meets)
open Relation (ReflTransGen)

variable {s s' s'' : Scheduler}

/-- What holds between two tasks: all but those on the work list have been followed. -/
structure Explored (s : Scheduler) : Prop where
  sound : s.Sound
  first : ∃ t, s.tasks[0]? = some t ∧ t.identity = TaskId.entry
  followed : ∀ (i : Nat) (t : Task), s.tasks[i]? = some t → i ∈ s.work ∨ s.CoversTask t.identity
  settled : ∀ h ∈ s.required, s.Settled h
  seeded : ∀ id, s.store.program.Seeded id → s.Has (.function id [])

/-- Looking at a task takes it off the work list once it has been followed; but for that every new
task waits once. -/
theorem ensures_step (he : s.Explored) (parent : Nat) :
    Ensures (step parent) s fun more s' ↦ s'.Explored ∧
      s.store.Keeps s'.store ∧ (more = false → s'.work = []) ∧
        s'.tasks.size + s.work.length = s.tasks.size + s'.work.length + more.toNat := by
  unfold step
  rw [Ensures, Stage.meets_bind, Stage.meets_get]
  cases hwork : s.work with
  | nil => exact ⟨he, (TypeStore.Extends.refl _).toKeeps, fun _ ↦ hwork, by simp [hwork]⟩
  | cons i rest =>
    simp only [Stage.meets_bind, Stage.meets_modify, Stage.meets_get]
    cases ht : s.tasks[i]? with
    | none => trivial
    | some t =>
      simp only [Stage.some!, Stage.meets_pure]
      generalize s.tracer.point _ _ _ _ = tracer
      let s₁ : Scheduler := { s with work := rest, tracer := tracer }
      have hg₁ : s.Grows s₁ := { Grows.refl s with }
      have hs₁ : s₁.Sound := { he.sound with }
      refine (ensures_follow (s := s₁) hs₁ (he.sound.reached i t ht)).imp ?_
      rintro _ s₂ ⟨hf₂, hcovers⟩
      have hg₂ := hg₁.trans hf₂.toGrows
      have hcounted : s₂.tasks.size + rest.length = s.tasks.size + s₂.work.length := hf₂.counted
      refine ⟨⟨hf₂.sound, ?_, ?_, ?_, ?_⟩, hg₂.store.toKeeps, nofun, ?_⟩
      · obtain ⟨t₀, ht₀, hid⟩ := he.first
        obtain ⟨t₀', ht₀', hid', -⟩ := hg₂.tasks 0 t₀ ht₀
        exact ⟨t₀', ht₀', hid'.trans hid⟩
      · intro j u hu
        by_cases hj : j < s.tasks.size
        swap
        · exact .inl (hf₂.fresh j (Nat.not_lt.1 hj) (Array.getElem?_eq_some_iff.1 hu).1)
        have hu₀ : s.tasks[j]? = some s.tasks[j] := Array.getElem?_eq_getElem hj
        obtain ⟨u', hu', hid, -⟩ := hg₂.tasks j _ hu₀
        obtain rfl : u = u' := Option.some.inj (hu.symm.trans hu')
        rw [hid]
        obtain hjwork | hcov := he.followed j _ hu₀
        · rw [hwork] at hjwork
          obtain rfl | hjrest := List.mem_cons.1 hjwork
          · rw [hu₀] at ht
            cases ht
            exact .inr hcovers
          · exact .inl (hf₂.work hjrest)
        · exact .inr (hg₂.coversTask hcov)
      · intro h hh
        by_cases hold : h ∈ s.required
        · exact hg₂.settled (he.settled h hold)
        · exact hf₂.closes h hh hold
      · intro id hid
        rw [hg₂.store.program] at hid
        exact hg₂.has (he.seeded id hid)
      · rw [List.length_cons, Bool.toNat_true]
        omega

/-- Draining the work list leaves no task unfollowed. -/
theorem ensures_drain (he : s.Explored) (parent fuel : Nat) :
    Ensures (drain parent fuel) s fun _ s' ↦
      s'.Explored ∧ s.store.Keeps s'.store ∧ s'.work = [] := by
  induction fuel generalizing s with
  | zero => trivial
  | succ fuel ih =>
    unfold drain
    rw [Ensures, Stage.meets_bind]
    refine (ensures_step he parent).imp ?_
    rintro more s₁ ⟨he₁, hkeeps, hdone, -⟩
    cases more with
    | false => exact ⟨he₁, hkeeps, hdone rfl⟩
    | true => exact (ih he₁).imp fun _ _ h ↦ ⟨h.1, hkeeps.trans h.2.1, h.2.2⟩

/-! ## Where scheduling starts -/

theorem follows_report (hs : s.Sound) (d : Diagnostic) :
    s.Follows { s with bag := s.bag.add d } :=
  Grows.follows { Grows.refl s with errors := Bag.hasErrors_add d }
    { hs with rejected := fun h ↦ Bag.hasErrors_add d (hs.rejected h) } rfl rfl rfl

/-- Checking a declaration adds it to the wrong ones when `wrong` holds, and changes nothing else
that matters later. -/
def Checks (s s' : Scheduler) (id : DeclId) (wrong : Prop) : Prop :=
  s.Follows s' ∧ ∀ j, j ∈ s'.badDecls ↔ j ∈ s.badDecls ∨ (j = id ∧ wrong)

theorem Checks.none (hs : s.Sound) {id : DeclId} {wrong : Prop} (hwrong : ¬wrong) :
    s.Checks s id wrong :=
  ⟨.refl hs, by simp [hwrong]⟩

theorem Checks.or {id : DeclId} {wrong wrong' : Prop} (h₁ : s.Checks s' id wrong)
    (h₂ : s'.Checks s'' id wrong') : s.Checks s'' id (wrong ∨ wrong') := by
  refine ⟨h₁.1.trans h₂.1, fun j ↦ ?_⟩
  rw [h₂.2, h₁.2, or_assoc, ← and_or_left]

theorem checks_rejectDecl (hs : s.Sound) {wrong : Prop} (hwrong : wrong) (id : DeclId) (code : Code)
    (span : Span) (message : Text) :
    Ensures (rejectDecl id code span message) s fun _ s' ↦ s.Checks s' id wrong := by
  refine (ensures_rejectDecl hs id code span message).imp ?_
  rintro _ s' ⟨hf, -, hbad, -⟩
  refine ⟨hf, fun j ↦ ?_⟩
  rw [hbad, List.mem_cons, or_comm]
  simp [hwrong]

theorem ensures_checkForeign (hs : s.Sound) (id : DeclId) (d : Decl) (f : FunctionData) :
    Ensures (checkForeign id d f) s fun _ s' ↦
      s.Checks s' id (f.hasBody ∨ d.foreignSymbol = "") := by
  unfold checkForeign
  refine Stage.meets_ite.2 ⟨fun hbody ↦ checks_rejectDecl hs (.inl hbody) .., fun hbody ↦ ?_⟩
  refine Stage.meets_ite.2 ⟨fun hsymbol ↦ checks_rejectDecl hs (.inr hsymbol) .., fun hsymbol ↦ ?_⟩
  exact Checks.none hs (by simp [hbody, hsymbol])

theorem ensures_checkNative (hs : s.Sound) (id : DeclId) (d : Decl) (f : FunctionData) :
    Ensures (checkNative id d f) s fun _ s' ↦
      s.Checks s' id (f.hasBody ∨ isIntrinsic d.nativeName = false) := by
  unfold checkNative
  refine Stage.meets_ite.2 ⟨fun hbody ↦ checks_rejectDecl hs (.inl hbody) .., fun hbody ↦ ?_⟩
  refine Stage.meets_ite.2 ⟨fun hname ↦ checks_rejectDecl hs (.inr (by simpa using hname)) ..,
    fun hname ↦ ?_⟩
  exact Checks.none hs (by simpa [hbody] using hname)

theorem Checks.congr {id : DeclId} {wrong wrong' : Prop} (h : s.Checks s' id wrong)
    (hiff : wrong ↔ wrong') : s.Checks s' id wrong' := by
  simpa only [Checks, hiff] using h

theorem ensures_checkDecl (hs : s.Sound) (id : DeclId) (d : Decl) :
    Ensures (checkDecl id d) s fun _ s' ↦ s.Checks s' id d.Misfit := by
  unfold checkDecl
  by_cases hkind : d.kind = .function
  swap
  · simpa [hkind] using Checks.none hs fun h : d.Misfit ↦ hkind h.1
  simp only [hkind, ne_eq, not_true_eq_false, if_false]
  cases hf : d.function with
  | none =>
    have hfit : ¬d.Misfit := by
      rintro ⟨-, f, hf', -⟩
      rw [hf] at hf'
      cases hf'
    by_cases hforeign : d.has .foreign <;> by_cases hnative : d.has .native <;>
      simp [hforeign, hnative, Stage.some!, Checks.none hs hfit]
  | some f =>
    have hmisfit : (d.has .foreign ∧ (f.hasBody ∨ d.foreignSymbol = "")) ∨
        (d.has .native ∧ (f.hasBody ∨ isIntrinsic d.nativeName = false)) ↔ d.Misfit := by
      simp [Decl.Misfit, hkind, hf]
    have native {s₁ : Scheduler}
        (h₁ : s.Checks s₁ id (d.has .foreign ∧ (f.hasBody ∨ d.foreignSymbol = ""))) :
        Ensures (if d.has .native then checkNative id d f else pure ()) s₁ fun _ s' ↦
          s.Checks s' id d.Misfit := by
      refine Stage.meets_ite.2 ⟨fun hnative ↦ ?_, fun hnative ↦ ?_⟩
      · refine (ensures_checkNative h₁.1.sound id d f).imp fun _ s' h₂ ↦ ?_
        exact (h₁.or (h₂.congr (by simp [hnative]))).congr hmisfit
      · exact h₁.congr (by simpa [hnative] using hmisfit)
    by_cases hforeign : d.has .foreign
    · simp only [hforeign, if_true, Stage.some!, pure_bind, Ensures, Stage.meets_bind]
      refine (ensures_checkForeign hs id d f).imp fun _ s₁ h₁ ↦ ?_
      exact native (h₁.congr (by simp [hforeign]))
    · simp only [hforeign, Bool.false_eq_true, if_false, Stage.some!, pure_bind]
      exact native (Checks.none hs (by simp [hforeign]))

theorem ensures_claimExport (hs : s.Sound) (entryExport : Text) (id : DeclId) (d : Decl) :
    Ensures (claimExport entryExport id d) s fun _ s' ↦
      s.Follows s' ∧ s'.badDecls = s.badDecls := by
  unfold claimExport report
  refine Stage.meets_ite.2 ⟨fun _ ↦ ⟨follows_report hs _, rfl⟩, fun _ ↦ ?_⟩
  rw [Stage.meets_bind, Stage.meets_get]
  cases s.exports.lookup d.exportName with
  | none => exact ⟨Grows.follows { Grows.refl s with } { hs with } rfl rfl rfl, rfl⟩
  | some prev =>
    simp only [Stage.meets_bind, Stage.meets_get]
    cases s.program.decl? prev with
    | none => trivial
    | some first => exact ⟨follows_report hs _, rfl⟩

/-- Seeding a declaration starts from it exactly when it is compiled in any case. -/
theorem ensures_seedDecl (hs : s.Sound) (entryExport : Text) {id : DeclId} {d : Decl}
    (hd : (id, d) ∈ s.store.program.numberedDecls)
    (hbad : ∀ j, j ∈ s.badDecls ↔ s.store.program.Misdecorated j) :
    Ensures (seedDecl entryExport id d) s fun _ s' ↦ s.Follows s' ∧ s'.badDecls = s.badDecls ∧
      (s.store.program.Seeds id d → s'.Has (.function id [])) := by
  unfold seedDecl
  by_cases hkind : d.kind = .function
  swap
  · simp only [hkind, ne_eq, not_false_eq_true, if_true]
    exact ⟨.refl hs, rfl, fun h ↦ absurd h.1 hkind⟩
  cases hf : d.function with
  | none => simp [hkind, Stage.some!]
  | some f =>
    simp only [hkind, ne_eq, not_true_eq_false, if_false, Stage.some!, Ensures, Stage.meets_bind,
      Stage.meets_pure]
    by_cases hplain : f.kind = .plain
    swap
    · simp only [hplain, not_false_eq_true, if_true, Stage.meets_pure]
      refine ⟨.refl hs, trivial, ?_⟩
      rintro ⟨-, ⟨f', hf', hplain'⟩, -⟩
      rw [hf] at hf'
      cases hf'
      exact absurd hplain' hplain
    simp only [hplain, not_true_eq_false, if_false, Stage.meets_bind, Stage.meets_get]
    by_cases hasked : d.has .exported ∨ d.has .compiled ∨ id ∈ s.program.roots
    swap
    · have hnot : (!d.has .exported) = true ∧ (!d.has .compiled) = true ∧ id ∉ s.program.roots := by
        simpa using hasked
      simp only [hnot, and_self, not_false_eq_true, if_true, Stage.meets_pure]
      exact ⟨.refl hs, trivial, fun h ↦ absurd h.2.2.1 hasked⟩
    have hnot : ¬((!d.has .exported) = true ∧ (!d.has .compiled) = true ∧ id ∉ s.program.roots) := by
      simp only [Bool.not_eq_eq_eq_not, Bool.not_true]
      rintro ⟨h₁, h₂, h₃⟩
      simp [h₁, h₂, h₃] at hasked
    rw [if_neg hnot]
    by_cases hgeneric : d.isGeneric
    · simp only [hgeneric, if_true, Stage.meets_bind]
      exact ⟨follows_report hs _, rfl, fun h ↦ by simp [h.2.2.2.1] at hgeneric⟩
    simp only [hgeneric, Bool.false_eq_true, if_false, Stage.meets_bind, Stage.meets_get]
    by_cases hwrong : id ∈ s.badDecls ∨ d.has .native
    · simp only [hwrong, if_true, Stage.meets_pure]
      refine ⟨.refl hs, trivial, fun h ↦ ?_⟩
      obtain hmem | hnative := hwrong
      · exact absurd ((hbad id).1 hmem) h.2.2.2.2.2
      · simp [h.2.2.2.2.1] at hnative
    rw [if_neg hwrong]
    obtain ⟨hgood, hnative⟩ := not_or.1 hwrong
    have hseeds : s.store.program.Seeds id d :=
      ⟨hkind, ⟨f, hf, hplain⟩, hasked, by simpa using hgeneric, by simpa using hnative,
        fun h ↦ hgood ((hbad id).2 h)⟩
    have start {s₁ : Scheduler} (hf₁ : s.Follows s₁) (hbad₁ : s₁.badDecls = s.badDecls) :
        Ensures (push { kind := .function, decl := id }) s₁ fun _ s' ↦
          s.Follows s' ∧ s'.badDecls = s.badDecls ∧
            (s.store.program.Seeds id d → s'.Has (.function id [])) := by
      refine (ensures_push (t := { kind := .function, decl := id }) hf₁.sound
        (.seed ⟨d, ?_, ?_⟩) (by rintro ⟨⟩) (by rintro ⟨⟩)).imp ?_
      · rw [hf₁.store.program]
        exact hd
      · rw [hf₁.store.program]
        exact hseeds
      · rintro _ s₂ ⟨hf₂, hhas, -, hbad₂, -⟩
        exact ⟨hf₁.trans hf₂, hbad₂.trans hbad₁, fun _ ↦ hhas⟩
    refine Stage.meets_ite.2 ⟨fun _ ↦ ?_, fun _ ↦ start (.refl hs) rfl⟩
    rw [Stage.meets_bind]
    refine (ensures_claimExport hs entryExport id d).imp ?_
    rintro _ s₁ ⟨hf₁, hbad₁⟩
    exact start hf₁ hbad₁

/-! ## The whole run -/

/-- What holds of the tasks between the declarations while they are gone through. -/
theorem ensures_checkDecls (hs : s.Sound) (hbad : s.badDecls = []) {l : List (DeclId × Decl)}
    (hl : l = s.store.program.numberedDecls) :
    Ensures
      (forIn l PUnit.unit fun x _ ↦ do
        checkDecl x.1 x.2
        pure (.yield PUnit.unit)) s fun _ s' ↦
      s.Follows s' ∧ ∀ j, j ∈ s'.badDecls ↔ s'.store.program.Misdecorated j := by
  refine (Stage.meets_forIn (fun done _ s' ↦ s.Follows s' ∧
    ∀ j, j ∈ s'.badDecls ↔ ∃ d, (j, d) ∈ done ∧ d.Misfit) ⟨.refl hs, by simp [hbad]⟩ ?_).imp ?_
  · rintro done ⟨id, d⟩ rest _ s₁ - ⟨hf₁, hdone⟩
    rw [Stage.meets_bind]
    refine (ensures_checkDecl hf₁.sound id d).imp ?_
    rintro _ s₂ ⟨hf₂, hbad₂⟩
    refine ⟨_, rfl, hf₁.trans hf₂, fun j ↦ ?_⟩
    rw [hbad₂, hdone]
    simp [or_and_right, exists_or, and_assoc]
  · rintro _ s' ⟨hf, hbad'⟩
    refine ⟨hf, fun j ↦ ?_⟩
    rw [hbad', hl, ← hf.store.program]
    rfl

theorem ensures_seedDecls (hs : s.Sound) (entryExport : Text)
    (hbad : ∀ j, j ∈ s.badDecls ↔ s.store.program.Misdecorated j) {l : List (DeclId × Decl)}
    (hl : l = s.store.program.numberedDecls) :
    Ensures
      (forIn l PUnit.unit fun x _ ↦ do
        seedDecl entryExport x.1 x.2
        pure (.yield PUnit.unit)) s fun _ s' ↦
      s.Follows s' ∧ ∀ id, s'.store.program.Seeded id → s'.Has (.function id []) := by
  refine (Stage.meets_forIn (fun done _ s' ↦ s.Follows s' ∧ s'.badDecls = s.badDecls ∧
    ∀ (id : DeclId) (d : Decl), (id, d) ∈ done → s.store.program.Seeds id d →
      s'.Has (.function id [])) ⟨.refl hs, rfl, fun _ _ h ↦ absurd h List.not_mem_nil⟩ ?_).imp ?_
  · rintro done ⟨id, d⟩ rest _ s₁ hsplit ⟨hf₁, hbad₁, hdone⟩
    have hprogram : s₁.store.program = s.store.program := hf₁.store.program
    have hd : (id, d) ∈ s₁.store.program.numberedDecls := by
      rw [hprogram, ← hl, hsplit]
      simp
    rw [Stage.meets_bind]
    refine (ensures_seedDecl hf₁.sound entryExport hd
      (by rw [hbad₁, hprogram]; exact hbad)).imp ?_
    rintro _ s₂ ⟨hf₂, hbad₂, hhas⟩
    refine ⟨_, rfl, hf₁.trans hf₂, hbad₂.trans hbad₁, fun id' d' hd' hseeds ↦ ?_⟩
    obtain hd' | hd' := List.mem_append.1 hd'
    · exact hf₂.has (hdone id' d' hd' hseeds)
    · obtain ⟨rfl, rfl⟩ := Prod.mk.inj (List.mem_singleton.1 hd')
      exact hhas (by rw [hprogram]; exact hseeds)
  · rintro _ s' ⟨hf, -, hall⟩
    refine ⟨hf, fun id hid ↦ ?_⟩
    rw [hf.store.program] at hid
    obtain ⟨d, hd, hseeds⟩ := hid
    exact hall id d (by rw [hl]; exact hd) hseeds

theorem sound_ofProgram (p : Program) (bag : Bag) (tracer : Trace.Tracer) :
    (ofProgram p bag tracer).Sound := by
  refine ⟨?_, ?_, ?_, ?_, ?_, ?_, nofun⟩
  · intro h a t ha
    obtain ⟨-, ha⟩ := TypeStore.application?_eq_some.1 ha
    simp [ofProgram, TypeStore.ofProgram, store] at ha
  all_goals
    intro i
    intros
    simp [ofProgram] at *

/-- What a run does before it looks at tasks: it starts from the entry, checks the declarations and
seeds the functions that are compiled in any case. -/
def start (entryExport : Text) : M PUnit := do
  push { kind := .entry }
  for (id, d) in (← get).program.numberedDecls do
    checkDecl id d
  for (id, d) in (← get).program.numberedDecls do
    seedDecl entryExport id d

/-- The plan of everything found so far. -/
def found (s : Scheduler) : Plan where
  tasks := s.tasks.toList
  layouts := s.layouts.registered
  needsAlloc := s.needsAlloc
  exports := s.exports

theorem run_eq (entryExport : Text) (parent limit : Nat) :
    run entryExport parent limit = do
      start (if entryExport = "" then defaultEntryExport else entryExport)
      drain parent limit
      return (← get).found := by
  simp only [run, start, found, bind_assoc, pure_bind]

theorem ensures_start (p : Program) (bag : Bag) (tracer : Trace.Tracer) (entryExport : Text) :
    Ensures (start entryExport) (ofProgram p bag tracer) fun _ s ↦
      (ofProgram p bag tracer).Follows s ∧ s.Explored := by
  let s₀ := ofProgram p bag tracer
  have hs₀ : s₀.Sound := sound_ofProgram p bag tracer
  unfold start
  simp only [Ensures, Stage.meets_bind, Stage.meets_get]
  refine (ensures_push (t := { kind := .entry }) hs₀ .entry (by rintro ⟨⟩) (by rintro ⟨⟩)).imp ?_
  rintro _ s₁ ⟨hf₁, hentry, -, hbad₁, hsize⟩
  refine (ensures_checkDecls hf₁.sound hbad₁ rfl).imp ?_
  rintro _ s₂ ⟨hf₂, hbad₂⟩
  refine (ensures_seedDecls hf₂.sound _ hbad₂ rfl).imp ?_
  rintro _ s₃ ⟨hf₃, hseeded⟩
  have hf₀₃ := (hf₁.trans hf₂).trans hf₃
  refine ⟨hf₀₃, hf₃.sound, ?_, ?_, ?_, hseeded⟩
  · obtain ⟨i, t, ht, hid⟩ := hentry
    obtain ⟨hi, -⟩ := Array.getElem?_eq_some_iff.1 ht
    obtain rfl : i = 0 := by
      have : s₁.tasks.size ≤ 1 := hsize
      omega
    obtain ⟨t', ht', hid', -⟩ := (hf₂.trans hf₃).tasks 0 t ht
    exact ⟨t', ht', hid'.trans hid⟩
  · intro i t ht
    exact .inl (hf₀₃.fresh i (Nat.zero_le i) (Array.getElem?_eq_some_iff.1 ht).1)
  · intro h hh
    exact hf₀₃.closes h hh List.not_mem_nil

/-- A run that comes to its end has explored what it found, and its plan is what it found. -/
theorem ensures_run (p : Program) (bag : Bag) (tracer : Trace.Tracer) (entryExport : Text)
    (parent limit : Nat) :
    Ensures (run entryExport parent limit) (ofProgram p bag tracer) fun plan s ↦
      s.Explored ∧ s.work = [] ∧ s.store.program = p ∧ plan.tasks = s.tasks.toList ∧
        plan.layouts = s.layouts.registered ∧ plan.needsAlloc = s.needsAlloc ∧
        (TypeStore.ofProgram p).Keeps s.store := by
  rw [run_eq, Ensures, Stage.meets_bind]
  refine (ensures_start p bag tracer _).imp ?_
  rintro _ s₁ ⟨hf₁, he₁⟩
  rw [Stage.meets_bind]
  refine (ensures_drain he₁ parent limit).imp ?_
  rintro _ s₂ ⟨he₂, hkeeps, hwork⟩
  have hkept := hf₁.store.toKeeps.trans hkeeps
  exact ⟨he₂, hwork, hkept.program, rfl, rfl, rfl, hkept⟩

/-! ## What the tasks are -/

theorem Explored.coversTask (he : s.Explored) (hwork : s.work = []) {x : TaskId} (hx : s.Has x) :
    s.CoversTask x := by
  obtain ⟨i, t, ht, rfl⟩ := hx
  refine (he.followed i t ht).resolve_left ?_
  rw [hwork]
  exact List.not_mem_nil

/-- An aggregate that is required has a layout task. -/
theorem Explored.has_layout (he : s.Explored) {h : Handle} (hh : s.Requires h)
    (hagg : s.store.IsAggregate h) : s.Has (.layout h) := by
  obtain ⟨k, hk, hkagg⟩ := hagg
  have hne : h ≠ 0 := by
    rintro rfl
    cases hk
    cases hkagg
  obtain ⟨a, ha, hlayout, -⟩ := he.settled h (hh.resolve_left hne)
  rw [TypeStore.kindOf_eq ha] at hk
  cases hk
  exact hlayout hkagg

/-- Types that a required type leads to are required, once no task is left to follow. -/
theorem Explored.requires (he : s.Explored) (hwork : s.work = []) {h g : Handle}
    (hh : s.Requires h) (hl : s.store.Leads h g) : s.Requires g := by
  cases hl with
  | pointer ha htemplate =>
    obtain ⟨a, ha', -, hpointer, -⟩ :=
      he.settled h (hh.resolve_left (TypeStore.application?_eq_some.1 ha).1)
    cases ha.symm.trans ha'
    exact hpointer htemplate
  | function ha htemplate hg =>
    obtain ⟨a, ha', -, -, hfunction⟩ :=
      he.settled h (hh.resolve_left (TypeStore.application?_eq_some.1 ha).1)
    cases ha.symm.trans ha'
    exact hfunction htemplate g hg
  | member hagg hf hg =>
    have hlayout := he.has_layout hh (TypeStore.isAggregate_of_field hagg hf)
    obtain ⟨-, agg', args', hagg', hfields⟩ := he.coversTask hwork hlayout
    cases hagg.symm.trans hagg'
    obtain ⟨g', hg', hreq⟩ := hfields _ hf
    cases hg.symm.trans hg'
    exact hreq

theorem Explored.requires_of_path (he : s.Explored) (hwork : s.work = []) {h g : Handle}
    (hh : s.Requires h) (hpath : ReflTransGen s.store.Leads h g) : s.Requires g := by
  induction hpath with
  | refl => exact hh
  | tail _ hl ih => exact he.requires hwork ih hl

theorem Explored.covers (he : s.Explored) (hwork : s.work = []) {x : TaskId} {σ : List Handle}
    {id : ExprId} {e : Expr} (hx : s.Has x) (hσ : s.store.scope? x = some σ)
    (hin : s.store.InCode x id e) : s.Covers σ e := by
  have hcovers := he.coversTask hwork hx
  cases hin with
  | init hd hkind hg hocc =>
    cases hσ
    obtain ⟨g, hg', -, hinit⟩ := CoversEntry.globals hcovers _ _ hd hkind
    cases hg.symm.trans hg'
    exact hinit id e hocc
  | main hocc =>
    cases hσ
    exact CoversEntry.main hcovers id e hocc
  | body hf hbody hocc => exact (hcovers.coversFunction hf hσ).body hbody id e hocc

/-- A type that a task mentions is required. -/
theorem Explored.requires_of_mentions (he : s.Explored) (hwork : s.work = []) {x : TaskId}
    {h : Handle} (hx : s.Has x) (hm : s.store.Mentions x h) : s.Requires h := by
  have only {t : TypeId} {σ : List Handle} (ht : s.RequiresType t σ)
      (hh : s.store.denote t σ = some h) : s.Requires h := by
    obtain ⟨h', hh', hreq⟩ := ht
    cases hh.symm.trans hh'
    exact hreq
  have hcovers := he.coversTask hwork hx
  cases hm with
  | global hx hd hkind hg hh =>
    cases hx
    obtain ⟨g, hg', htype, -⟩ := CoversEntry.globals hcovers _ _ hd hkind
    cases hg.symm.trans hg'
    exact only htype hh
  | code hm =>
    cases hm with
    | owner =>
      obtain ⟨i, t, ht, rfl⟩ := hx
      unfold CoversTask at hcovers
      cases hkind : TaskId.kind t.identity <;> rw [hkind] at hcovers
      case layout => exact .inr (he.sound.laid i t ht hkind)
      case entry =>
        rw [(he.sound.reached i t ht).eq_entry hkind]
        exact .inl rfl
      case function | method | operator | constructor =>
        obtain ⟨f, σ, -, -, hc⟩ := hcovers
        exact hc.required
    | result hσ hf hh => exact only (hcovers.coversFunction hf hσ).result hh
    | loc hσ hf hl hh => exact only ((hcovers.coversFunction hf hσ).locals _ hl) hh
    | mainLocal hx hl hh =>
      cases hx
      exact only (CoversEntry.locals hcovers _ hl) hh
    | expr hσ hin hh => exact only (he.covers hwork hx hσ hin).1 hh

/-- A function that a task uses as a value is there and known to be used so. -/
theorem Explored.hasIndirect (he : s.Explored) (hwork : s.work = []) {x y : TaskId} (hx : s.Has x)
    (hy : s.store.RefersByValue x y) : s.HasIndirect y := by
  obtain ⟨hσ, hin, hkind, hd, hnative, hargs⟩ := hy
  obtain ⟨-, hcovers⟩ := he.covers hwork hx hσ hin
  rw [hkind] at hcovers
  obtain ⟨d, hd', hvalue, -⟩ := hcovers
  cases hd.symm.trans hd'
  obtain ⟨args, hargs', hhas⟩ := hvalue hnative
  cases hargs.symm.trans hargs'
  exact hhas

/-- A function that a task refers to is there. -/
theorem Explored.has_of_refers (he : s.Explored) (hwork : s.work = []) {x y : TaskId}
    (hx : s.Has x) (hy : s.store.Refers x y) : s.Has y := by
  cases hy with
  | value hy =>
    obtain ⟨i, t, ht, hid, -⟩ := he.hasIndirect hwork hx hy
    exact ⟨i, t, ht, hid⟩
  | call hσ hin hkind hd hnative hargs =>
    obtain ⟨-, hcovers⟩ := he.covers hwork hx hσ hin
    rw [hkind] at hcovers
    obtain ⟨d, hd', hcall⟩ := hcovers
    cases hd.symm.trans hd'
    obtain ⟨args, hargs', hhas⟩ := hcall hnative
    cases hargs.symm.trans hargs'
    exact hhas
  | method hσ hin hkind hreceiver hh hdecl =>
    obtain ⟨-, hcovers⟩ := he.covers hwork hx hσ hin
    rw [hkind] at hcovers
    obtain ⟨receiver, h, decl, hreceiver', hh', hdecl', hhas⟩ := hcovers
    cases hreceiver.symm.trans hreceiver'
    cases hh.symm.trans hh'
    cases hdecl.symm.trans hdecl'
    exact hhas
  | operator hσ hin hkind hreceiver hh hdecl =>
    obtain ⟨-, hcovers⟩ := he.covers hwork hx hσ hin
    rw [hkind] at hcovers
    obtain ⟨receiver, h, decl, hreceiver', hh', hdecl', hhas⟩ := hcovers
    cases hreceiver.symm.trans hreceiver'
    cases hh.symm.trans hh'
    cases hdecl.symm.trans hdecl'
    exact hhas
  | constructor hσ hin hkind hh hdecl =>
    obtain ⟨-, hcovers⟩ := he.covers hwork hx hσ hin
    rw [hkind] at hcovers
    obtain ⟨h, agg, args, k, hh', hagg, -, hinit, -⟩ := hcovers
    cases hh.symm.trans hh'
    obtain ⟨r, hr, hdecl⟩ := Option.bind_eq_some_iff.1 hdecl
    cases hagg.symm.trans hr
    by_cases h0 : agg.init = 0
    · simp [h0] at hdecl
    · obtain rfl : agg.init = _ := by simpa [h0] using hdecl
      exact hinit h0

/-- Every task that the program needs is there, once no task is left to follow. -/
theorem Explored.has (he : s.Explored) (hwork : s.work = []) {x : TaskId}
    (hx : s.store.Reached s.store.Mentions x) : s.Has x := by
  induction hx with
  | entry =>
    obtain ⟨t, ht, hid⟩ := he.first
    exact ⟨0, t, ht, hid⟩
  | seed hid => exact he.seeded _ hid
  | layout _ hm hpath hagg ih =>
    exact he.has_layout (he.requires_of_path hwork (he.requires_of_mentions hwork ih hm) hpath) hagg
  | refers _ hy ih => exact he.has_of_refers hwork ih hy

/-- The tasks of a plan are those that the program needs: each once, the entry first, and a task is
indirect exactly when a task uses its function as a value. -/
theorem tasks_eq_reached {p : Program} {bag : Bag} {tracer : Trace.Tracer} {entryExport : Text}
    {parent limit : Nat} {plan : Plan} {s : Scheduler}
    (hrun : (run entryExport parent limit).runFrom (ofProgram p bag tracer) = (.ok plan, s)) :
    (plan.tasks.map Task.identity).Nodup ∧
      (plan.tasks.map Task.identity).head? = some TaskId.entry ∧
      (∀ x, x ∈ plan.tasks.map Task.identity ↔ s.store.Reached s.store.Mentions x) ∧
      ∀ t ∈ plan.tasks, t.indirect ↔
        ∃ x ∈ plan.tasks.map Task.identity, s.store.RefersByValue x t.identity := by
  obtain ⟨he, hwork, -, htasks, -⟩ := (ensures_run p bag tracer entryExport parent limit).of_eq hrun
  have htask (t : Task) : t ∈ plan.tasks ↔ ∃ i : Nat, s.tasks[i]? = some t := by
    rw [htasks, List.mem_iff_getElem?]
    simp
  have hmem (x : TaskId) : x ∈ plan.tasks.map Task.identity ↔ s.Has x := by
    simp only [List.mem_map, htask, Has, ← exists_and_right]
    exact exists_comm
  refine ⟨?_, ?_, ?_, ?_⟩
  · rw [htasks, List.nodup_iff_getElem?_ne_getElem?]
    intro i j hij hj heq
    have hj : j < s.tasks.size := by simpa using hj
    rw [List.getElem?_map, List.getElem?_map, Array.getElem?_toList, Array.getElem?_toList,
      Array.getElem?_eq_getElem hj, Array.getElem?_eq_getElem (hij.trans hj)] at heq
    exact absurd (he.sound.unique i j _ _ (Array.getElem?_eq_getElem (hij.trans hj))
      (Array.getElem?_eq_getElem hj) (Option.some.inj heq)) (Nat.ne_of_lt hij)
  · obtain ⟨t, ht, hid⟩ := he.first
    rw [htasks, List.head?_map, List.head?_eq_getElem?, Array.getElem?_toList, ht, ← hid]
    rfl
  · intro x
    rw [hmem]
    refine ⟨?_, he.has hwork⟩
    rintro ⟨i, t, ht, rfl⟩
    exact he.sound.reached i t ht
  · intro t ht
    obtain ⟨i, ht⟩ := (htask t).1 ht
    simp only [hmem]
    constructor
    · intro hindirect
      obtain ⟨x, hx, hrefers⟩ := he.sound.indirect i t ht hindirect
      exact ⟨x, he.has hwork hx, hrefers⟩
    · rintro ⟨x, hx, hrefers⟩
      obtain ⟨j, u, hu, hid, hindirect⟩ := he.hasIndirect hwork hx hrefers
      obtain rfl := he.sound.unique j i u t hu ht hid
      rw [ht] at hu
      cases hu
      exact hindirect

/-! ## A type that only a global names -/

/-- A global of a struct type without an initial value. -/
def globalOfStruct : Program where
  decls := #[
    { kind := .struct, name := "S", aggregate := some { fields := [⟨"x", 1, {}⟩] } },
    { kind := .global, name := "g", global := some { type := 2 } }]
  types := #[{ kind := .prim, prim := .i32 }, { kind := .named, decl := 1 }]

/-- The tasks of the program with a global of a struct type. -/
theorem run_globalOfStruct : ∃ plan s,
    (run "" 0).runFrom (ofProgram globalOfStruct) = (.ok plan, s) ∧
      plan.tasks.map Task.identity = [TaskId.entry, TaskId.layout 1] := by
  have htasks : (((run "" 0).runFrom (ofProgram globalOfStruct)).1.toOption.map
      fun plan ↦ plan.tasks.map Task.identity) = some [TaskId.entry, TaskId.layout 1] := by
    decide +kernel
  obtain ⟨plan, hplan, htasks⟩ := Option.map_eq_some_iff.1 htasks
  refine ⟨plan, _, Prod.ext ?_ rfl, htasks⟩
  cases hresult : ((run "" 0).runFrom (ofProgram globalOfStruct)).1 <;> rw [hresult] at hplan
  · cases hplan
  · exact congrArg Except.ok (Option.some.inj hplan)

/-- The struct type of the global is needed, as its layout is among the tasks. -/
theorem reached_globalOfStruct : ∃ plan s,
    (run "" 0).runFrom (ofProgram globalOfStruct) = (.ok plan, s) ∧
      s.store.Reached s.store.Mentions (.layout 1) := by
  obtain ⟨plan, s, hrun, htasks⟩ := run_globalOfStruct
  refine ⟨plan, s, hrun, ((tasks_eq_reached hrun).2.2.1 _).1 ?_⟩
  rw [htasks]
  simp

/-- No code mentions the struct type of the global, so the layout would not be a task if only the
types in code counted. -/
theorem layout_not_in_code : ∃ plan s,
    (run "" 0).runFrom (ofProgram globalOfStruct) = (.ok plan, s) ∧
      ∃ x ∈ plan.tasks.map Task.identity, ¬s.store.Reached s.store.MentionsInCode x := by
  obtain ⟨plan, s, hrun, htasks⟩ := run_globalOfStruct
  have hprogram : s.store.program = globalOfStruct :=
    ((ensures_run _ {} {} "" 0 taskLimit).of_eq hrun).2.2.1
  have hcode {x : TaskId} {id : ExprId} {e : Expr} (he : s.store.InCode x id e) : False := by
    have hexpr : ∃ id e, globalOfStruct.expr? id = some e := by
      rw [← hprogram]
      cases he with
      | init _ _ _ he => exact ⟨id, e, he.2⟩
      | main he | body _ _ he =>
        obtain ⟨_, _, _, _, _, _, he | he⟩ := he <;> exact ⟨id, e, he.2⟩
    obtain ⟨id, e, he⟩ := hexpr
    simp [Program.expr?, node?, globalOfStruct] at he
  have honly {x : TaskId} (hx : s.store.Reached s.store.MentionsInCode x) : x = .entry := by
    induction hx with
    | entry => rfl
    | seed hid =>
      obtain ⟨d, hd, hkind, -⟩ := hid
      rw [hprogram] at hd
      obtain ⟨-, rfl⟩ | ⟨-, rfl⟩ : (_ ∧ d = _) ∨ (_ ∧ d = _) := by
        simpa [Program.numberedDecls, globalOfStruct] using hd
      all_goals cases hkind
    | refers _ hy =>
      cases hy with
      | value hy =>
        obtain ⟨_, hin⟩ := hy
        exact (hcode hin).elim
      | _ => exact (hcode ‹_›).elim
    | layout _ hm hpath hagg hx =>
      subst hx
      -- the entry mentions no type but the empty one, and that leads nowhere
      have hvoid : ∀ {h}, s.store.MentionsInCode .entry h → h = 0 := by
        intro h hm
        cases hm with
        | owner => rfl
        | result _ hf | loc _ hf => cases hf
        | mainLocal _ hl =>
          rw [hprogram] at hl
          cases hl
        | expr _ hin => exact (hcode hin).elim
      rw [hvoid hm] at hpath
      obtain rfl | ⟨_, hl, -⟩ := ReflTransGen.cases_head_iff.1 hpath
      · obtain ⟨_, hk, hk'⟩ := hagg
        cases hk
        cases hk'
      · have hnone : s.store.application? 0 = none := rfl
        cases hl with
        | pointer ha | function ha => simp [hnone] at ha
        | member hagg' => simp [TypeStore.declared?, hnone] at hagg'
  exact ⟨plan, s, hrun, TaskId.layout 1, by rw [htasks]; simp, fun h ↦ by cases honly h⟩

end WasmBackend.Scheduler
