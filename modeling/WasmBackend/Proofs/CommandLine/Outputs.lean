import Mathlib.Data.List.Nodup
import WasmBackend.CommandLine.Session
import WasmBackend.Proofs.Files

/-!
# The modules that a build leaves

A build without an output path of its own writes the module of each input under the name of the
input in one directory, one input after the other.  That name forgets the directory of the input, so
two inputs have one output path exactly if the names of their modules are the same.  The last module
of a name is the one that stays, so no module is lost exactly if the inputs that share a name also
share their module.
-/

namespace WasmBackend

namespace Manifest

/-- The name of the file that holds the module of an input. -/
def moduleName (input : Text) : Text :=
  (Path.base input).dropSuffix (Path.ext input) ++ ".wasm"

theorem isName_moduleName {input : Text} (h : Path.base input ≠ "/") :
    Path.IsName (moduleName input) := by
  have hbase := Path.notMem_base h
  have hstem : 47 ∉ ((Path.base input).dropSuffix (Path.ext input)).bytes := by
    unfold Text.dropSuffix
    split
    · exact fun hmem ↦ hbase (List.mem_of_mem_take hmem)
    · exact hbase
  have hext : (Text.ofString ".wasm").bytes = [46, 119, 97, 115, 109] := rfl
  have hlong : 5 ≤ (moduleName input).bytes.length := by
    simp [moduleName, hext]
  refine ⟨?_, ?_, ?_, ?_⟩
  · exact List.ne_nil_of_length_pos (by omega)
  · simp [moduleName, hext, hstem]
  · intro heq
    rw [heq] at hlong
    exact absurd hlong (by decide)
  · intro heq
    rw [heq] at hlong
    exact absurd hlong (by decide)

theorem outputPath_endsIn (c : Manifest) {input : Text} (h : Path.base input ≠ "/") :
    Path.EndsIn (c.outputPath input) (moduleName input) :=
  Path.endsIn_join _ (isName_moduleName h)

/-- **Two inputs share an output path exactly if their modules have one name.** -/
theorem outputPath_eq_iff (c : Manifest) {a b : Text} (ha : Path.base a ≠ "/")
    (hb : Path.base b ≠ "/") : c.outputPath a = c.outputPath b ↔ moduleName a = moduleName b := by
  have heq {p : Text} (h : Path.base p ≠ "/") :
      (c.outputPath p).bytes = (Path.lead (c.resolve c.outputDir)).bytes ++ (moduleName p).bytes :=
    congrArg Text.bytes (Path.join_name _ (isName_moduleName h))
  constructor
  · intro h
    have hbytes := congrArg Text.bytes h
    rw [heq ha, heq hb] at hbytes
    exact congrArg Text.mk (List.append_cancel_left hbytes)
  · intro h
    exact congrArg (Path.join (c.resolve c.outputDir)) h

/-- The directories of the inputs do not count. -/
example : ({} : Manifest).outputPath "a/m.kast" = ({} : Manifest).outputPath "b/m.kast" := by
  decide

end Manifest

end WasmBackend

namespace WasmBackend.Session

open FileTree (Keeps)

variable {α β : Type} {t : FileTree}

/-- If the program ends well from a tree, its result and the tree it leaves are as said. -/
def Leaves (x : Session (StateM FileTree) α) (t : FileTree) (post : α → FileTree → Prop) : Prop :=
  ∀ s a s' t', (x.run.run s).run t = ((.ok a, s'), t') → post a t'

theorem Leaves.mono {x : Session (StateM FileTree) α} {post post' : α → FileTree → Prop}
    (h : Leaves x t post) (hpost : ∀ a t', post a t' → post' a t') : Leaves x t post' :=
  fun s a s' t' hrun ↦ hpost a t' (h s a s' t' hrun)

theorem leaves_pure {a : α} {post : α → FileTree → Prop} (h : post a t) :
    Leaves (pure a) t post := by
  rintro s a' s' t' hrun
  cases hrun
  exact h

theorem Leaves.bind {x : Session (StateM FileTree) α} {f : α → Session (StateM FileTree) β}
    {post : β → FileTree → Prop} (h : Leaves x t fun a t' ↦ Leaves (f a) t' post) :
    Leaves (x >>= f) t post := by
  intro s b s' t' hrun
  rw [ExceptT.run_bind, StateT.run_bind, StateT.run_bind] at hrun
  generalize hx : (x.run.run s).run t = out at hrun
  obtain ⟨⟨_ | a, s₁⟩, t₁⟩ := out
  · cases hrun
  · exact h s a s₁ t₁ hx s₁ b s' t' hrun

theorem leaves_check {ε : Type} {toError : ε → RunError} {x : Except ε α}
    {post : α → FileTree → Prop} (h : ∀ a, x = .ok a → post a t) :
    Leaves (check (m := StateM FileTree) toError x) t post := by
  cases x with
  | error e =>
    intro s b s' t' hrun
    cases hrun
  | ok a => exact leaves_pure (h a rfl)

theorem leaves_lift {x : StateM FileTree α} {post : α → FileTree → Prop}
    (h : post (x t).1 (x t).2) : Leaves (liftM x) t post := by
  rintro s a s' t' hrun
  cases hrun
  exact h

theorem leaves_throw {e : RunError} {post : α → FileTree → Prop} :
    Leaves (throw e) t post := by
  rintro s a s' t' hrun
  cases hrun

theorem leaves_tell {u : Text} {post : Unit → FileTree → Prop} (h : post () t) :
    Leaves (tell u) t post := by
  rintro s a s' t' hrun
  cases hrun
  exact h

theorem leaves_remark {u : Text} {post : Unit → FileTree → Prop} (h : post () t) :
    Leaves (remark u) t post := by
  rintro s a s' t' hrun
  cases hrun
  exact h

theorem leaves_report {o : RunOptions} {colored : Bool} {files : FileTable} {b : Bag}
    {post : Unit → FileTree → Prop} (h : post () t) :
    Leaves (report o colored files b) t post := by
  unfold report
  split
  · exact leaves_pure h
  dsimp only
  split_ifs
  · exact leaves_tell h
  · exact leaves_remark h
  · exact leaves_throw

/-- Writing a module puts it at its path and keeps the files of other names. -/
theorem leaves_writeModule {q m : Text} (hq : Path.EndsIn q m) (bytes : List UInt8) :
    Leaves (writeModule q bytes) t fun _ t' ↦
      t'.content? q = some bytes ∧ ∀ p n, Path.EndsIn p n → n ≠ m → Keeps p t t' := by
  unfold writeModule
  refine Leaves.bind (leaves_lift (Leaves.bind (leaves_check fun _ _ ↦ ?_)))
  refine Leaves.bind (leaves_lift (leaves_check fun _ hwritten ↦ ?_))
  have hwrite := FileTree.ok_of_update hwritten
  exact ⟨FileTree.content?_of_writeFile hq hwrite, fun p n hp hne ↦
    (FileTree.spares_makeDirectories _ t).trans (FileTree.keeps_of_writeFile hp hq hne hwrite)⟩

section Outputs

variable {o : RunOptions} {c : Manifest} {r : BuildResult} {rs : List BuildResult}
  (colored : Bool) (ring : Option Trace.Ring)

/-- The name of the file for the module of an input. -/
abbrev outputName (r : BuildResult) : Text :=
  Manifest.moduleName r.path

theorem leaves_dumpRing {post : Unit → FileTree → Prop} (h : post () t) :
    Leaves (dumpRing ring) t post := by
  cases ring with
  | none => exact leaves_pure h
  | some _ => exact leaves_remark h

/-- What is done about an input: its module, if it yields one, stands at its output path, and the
files of other names are as they were. -/
structure Finished (c : Manifest) (r : BuildResult) (t t' : FileTree) : Prop where
  content : r.failure = none → ∀ bytes, r.module = some bytes →
    t'.content? (c.outputPath r.path) = some bytes
  keeps : ∀ p n, Path.EndsIn p n → n ≠ outputName r → Keeps p t t'

theorem leaves_finishInput (ho : o.output.isEmpty) (hr : Path.base r.path ≠ "/") :
    Leaves (finishInput o colored c ring r) t fun _ t' ↦ Finished c r t t' := by
  unfold finishInput
  refine Leaves.bind (leaves_report ?_)
  split
  · rename_i failure hfailure
    have hdone : Finished c r t t :=
      ⟨fun hnone ↦ by simp [hfailure] at hnone, fun p _ _ _ ↦ Keeps.refl p t⟩
    refine Leaves.bind (leaves_remark ?_)
    dsimp only
    split
    · exact Leaves.bind (leaves_dumpRing ring (leaves_pure hdone))
    · exact leaves_pure hdone
  · rename_i hfailure hmodule
    exact leaves_pure
      ⟨fun _ bytes hbytes ↦ by simp [hmodule] at hbytes, fun p _ _ _ ↦ Keeps.refl p t⟩
  · rename_i module hfailure hmodule
    simp only [ho, if_true]
    refine Leaves.bind ((leaves_writeModule (c.outputPath_endsIn hr) module).mono ?_)
    rintro _ t' ⟨hcontent, hkeeps⟩
    have hdone : Finished c r t t' :=
      ⟨fun _ bytes hbytes ↦ hcontent.trans (hmodule.symm.trans hbytes), hkeeps⟩
    refine Leaves.bind (leaves_tell ?_)
    split
    · exact Leaves.bind (leaves_remark (leaves_pure hdone))
    · exact leaves_pure hdone

/-- Writing modules keeps the files of names that no input gives its module. -/
theorem leaves_outputs (ho : o.output.isEmpty) (hrs : ∀ r ∈ rs, Path.base r.path ≠ "/") :
    Leaves (rs.mapM (finishInput o colored c ring)) t fun _ t' ↦
      ∀ p n, Path.EndsIn p n → (∀ r ∈ rs, n ≠ outputName r) → Keeps p t t' := by
  induction rs generalizing t with
  | nil => exact leaves_pure fun p _ _ _ ↦ Keeps.refl p t
  | cons r rs ih =>
    rw [List.forall_mem_cons] at hrs
    rw [List.mapM_cons]
    refine Leaves.bind ((leaves_finishInput colored ring ho hrs.1).mono fun _ t' hr ↦ ?_)
    refine Leaves.bind ((ih hrs.2).mono fun _ t'' hkeeps ↦ leaves_pure fun p n hp hne ↦ ?_)
    rw [List.forall_mem_cons] at hne
    exact (hr.keeps p n hp hne.1).trans (hkeeps p n hp hne.2)

/-- **The last module of a name stays.** -/
theorem leaves_last {before after : List BuildResult} (ho : o.output.isEmpty)
    (hrs : ∀ r' ∈ before ++ r :: after, Path.base r'.path ≠ "/")
    (hafter : ∀ r' ∈ after, outputName r ≠ outputName r') (hfailure : r.failure = none)
    {bytes : List UInt8} (hmodule : r.module = some bytes) :
    Leaves ((before ++ r :: after).mapM (finishInput o colored c ring)) t fun _ t' ↦
      t'.content? (c.outputPath r.path) = some bytes := by
  obtain ⟨hbefore, hr, hrest⟩ := by simpa [or_imp, forall_and] using hrs
  have hfrom (t : FileTree) : Leaves ((r :: after).mapM (finishInput o colored c ring)) t
      fun _ t' ↦ t'.content? (c.outputPath r.path) = some bytes := by
    rw [List.mapM_cons]
    refine Leaves.bind ((leaves_finishInput colored ring ho hr).mono fun _ t₁ hfinished ↦ ?_)
    refine Leaves.bind ((leaves_outputs colored ring ho hrest).mono fun _ t₂ hkeeps ↦
      leaves_pure ?_)
    exact hkeeps _ _ (c.outputPath_endsIn hr) hafter bytes
      (hfinished.content hfailure bytes hmodule)
  rw [List.mapM_append]
  refine Leaves.bind ((leaves_outputs colored ring ho hbefore).mono fun _ t₁ _ ↦ ?_)
  exact Leaves.bind ((hfrom t₁).mono fun _ _ h ↦ leaves_pure h)

theorem exists_last {α : Type} {P : α → Prop} {xs : List α} (h : ∃ x ∈ xs, P x) :
    ∃ before x after, xs = before ++ x :: after ∧ P x ∧ ∀ y ∈ after, ¬P y := by
  induction xs with
  | nil => simp at h
  | cons x xs ih =>
    by_cases hlater : ∃ y ∈ xs, P y
    · obtain ⟨before, y, after, heq, hy⟩ := ih hlater
      exact ⟨x :: before, y, after, by rw [heq, List.cons_append], hy⟩
    · have hx : P x := by simpa [hlater] using h
      exact ⟨[], x, xs, rfl, hx, by simpa using hlater⟩

/-- **A build loses no module exactly if the inputs whose modules have one name yield one
module.** -/
theorem leaves_modules_iff (ho : o.output.isEmpty) (hrs : ∀ r ∈ rs, Path.base r.path ≠ "/")
    (hyield : ∀ r ∈ rs, r.failure = none ∧ r.module.isSome) :
    Leaves (rs.mapM (finishInput o colored c ring)) t fun _ t' ↦
      (∀ r ∈ rs, t'.content? (c.outputPath r.path) = r.module) ↔
        ∀ r ∈ rs, ∀ r' ∈ rs, outputName r = outputName r' → r.module = r'.module := by
  intro s failures s' t' hrun
  constructor
  · intro hkept r hr r' hr' hname
    have hpath := (c.outputPath_eq_iff (hrs r hr) (hrs r' hr')).2 hname
    rw [← hkept r hr, hpath, hkept r' hr']
  · intro hsame r hr
    obtain ⟨before, last, after, rfl, hname, hafter⟩ :=
      exists_last (P := fun r' ↦ outputName r = outputName r') ⟨r, hr, rfl⟩
    have hlast : last ∈ before ++ last :: after := by simp
    obtain ⟨hfailure, hsome⟩ := hyield last hlast
    obtain ⟨bytes, hmodule⟩ := Option.isSome_iff_exists.1 hsome
    have hstays := leaves_last colored ring ho hrs (fun r' h heq ↦ hafter r' h (hname.trans heq))
      hfailure hmodule s failures s' t' hrun
    rw [(c.outputPath_eq_iff (hrs r hr) (hrs last hlast)).2 hname, hstays, ← hmodule]
    exact (hsame r hr last hlast hname).symm

/-- A build of inputs whose modules have different names loses none. -/
theorem leaves_modules_of_nodup (ho : o.output.isEmpty) (hrs : ∀ r ∈ rs, Path.base r.path ≠ "/")
    (hyield : ∀ r ∈ rs, r.failure = none ∧ r.module.isSome) (hnames : (rs.map outputName).Nodup) :
    Leaves (rs.mapM (finishInput o colored c ring)) t fun _ t' ↦
      ∀ r ∈ rs, t'.content? (c.outputPath r.path) = r.module :=
  (leaves_modules_iff colored ring ho hrs hyield).mono fun _ _ hiff ↦ hiff.2 fun _ hr _ hr' hname ↦
    congrArg BuildResult.module (List.inj_on_of_nodup_map hnames hr hr' hname)

end Outputs

end WasmBackend.Session
