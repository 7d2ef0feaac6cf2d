import WasmBackend.Proofs.Lowering.LinkingCode

/-!
# Units that are linked

Every task with code gives a function or an import of its name, so whatever the code calls is in the
unit that lowering returns.  The table is filled before the first function is lowered, in the order
in which the functions used as values were discovered, and nothing is ever added to it.
-/

namespace WasmBackend

open Ir (CodeUnit Function Import)
open Scheduler (indirectNames indirectNames_concat)
open Stage (Meets)

/-- The names of everything that the code of the unit may call. -/
def Ir.CodeUnit.symbols (u : CodeUnit) : List Text :=
  u.imports.map Import.name ++ u.funcs.map Function.name

theorem Ir.CodeUnit.mem_symbols {u : CodeUnit} {n : Text} :
    n ∈ u.symbols ↔ (∃ i ∈ u.imports, i.name = n) ∨ ∃ f ∈ u.funcs, f.name = n := by
  simp [symbols]

/-- The code of a function refers to what is there. -/
def Scheduler.SuppliesFunction (σ : Scheduler) (f : Function) : Prop :=
  ∀ b ∈ f.blocks, ∀ i ∈ b.instrs, σ.Supplies i

namespace Lowering

variable {α β : Type} {σ : Scheduler} {frame : Frame} {s s' s'' : Lowering} {n : Text}

/-! ## Opening functions -/

theorem links_hasReceiver : Links σ frame hasReceiver fun _ ↦ True := by
  refine links_read ?_
  split <;> exact links_pure trivial

section

variable (hσ : σ.Finished) (hframe : CoversFrame σ frame)

include hσ

theorem links_receiverSlots {owner : Handle} (howner : σ.Requires owner) :
    Links σ frame (receiverSlots owner) fun _ ↦ True := by
  refine links_hasReceiver.bind fun b _ ↦ ?_
  split
  · exact links_slotsOf hσ howner
  · exact links_pure trivial

theorem links_declareLocals (kind : LocalKind) {locals : List Local}
    (hlocals : ∀ l ∈ locals, σ.RequiresType l.type frame.scope) (vars : Array (List Ir.Var)) :
    Links σ frame (declareLocals kind locals vars) fun _ ↦ True := by
  refine links_foldlM ?_
  rintro ⟨l, i⟩ hq vars
  have hl : σ.RequiresType l.type frame.scope := hlocals l (List.fst_mem_of_mem_zipIdx hq)
  dsimp only
  split
  · refine (links_resolve hl).bind fun h hh ↦ (links_slotsOf hσ hh.2).bind fun slots _ ↦ ?_
    exact (links_newVars slots).bind fun _ _ ↦ links_pure trivial
  · exact links_pure trivial

include hframe

theorem links_paramSlots : Links σ frame paramSlots fun _ ↦ True := by
  refine (links_frameLocals hframe).bind fun locals hlocals ↦ links_read (links_each fun p _ ↦ ?_)
  refine Links.bind (links_expect fun l hl ↦ hlocals l (List.mem_of_getElem? hl)) fun l hl ↦ ?_
  exact (links_resolve hl).bind fun _ hh ↦ links_slotsOf hσ hh.2

theorem links_frameVars (receiver : Nat) (params : List (List Prim)) :
    Links σ frame (frameVars receiver params) fun _ ↦ True := by
  refine (links_frameLocals hframe).bind fun locals hlocals ↦ links_read ?_
  exact (links_declareLocals hσ .fixed hlocals _).bind fun _ _ ↦
    links_declareLocals hσ .mutable hlocals _

/-- A function is opened under its name, with the scope of its task. -/
theorem links_openFunction {owner result : Handle} (howner : σ.Requires owner)
    (hresult : σ.Requires result) :
    Links σ frame (openFunction owner result) fun r ↦
      CoversFrame σ r.1 ∧ r.1.scope = frame.scope ∧ r.2.name = frame.name := by
  have hreset : Links σ frame (modify fun s ↦ { s with
      vars := #[], blocks := #[], nesting := [[]], current := 0, loops := [] }) fun _ ↦ True :=
    links_modify (fun _ hs ↦ ⟨hs.laid, hs.table, by simp⟩) fun _ ↦ ⟨rfl, rfl⟩
  refine hreset.bind fun _ _ ↦ links_hasReceiver.bind fun hasSelf _ ↦ ?_
  refine (links_receiverSlots hσ howner).bind fun selfSlots _ ↦ ?_
  refine (links_paramSlots hσ hframe).bind fun params _ ↦ ?_
  refine (links_slotsOf hσ hresult).bind fun resultSlots _ ↦ ?_
  have hvars : Links σ frame (modify fun s ↦ { s with
      vars := (selfSlots ++ params.flatten).toArray }) fun _ ↦ True :=
    links_modify (fun _ hs ↦ ⟨hs.laid, hs.table, hs.code⟩) fun _ ↦ ⟨rfl, rfl⟩
  refine hvars.bind fun _ _ ↦ (links_frameVars hσ hframe _ params).bind fun vars _ ↦ ?_
  refine links_openBasic.bind fun _ _ ↦ links_read (links_pure ⟨⟨?_, ?_, ?_⟩, rfl, rfl⟩)
  · show σ.Requires (if hasSelf then owner else 0)
    split
    · exact howner
    · exact .inl rfl
  · exact hframe.locals
  · exact hframe.mainLocals

end

/-! ## Bodies -/

/-- What the statements of a body refer to is there. -/
theorem coversStmts_body {owner : Handle} {f : FunctionData} {scope : List Handle}
    (hc : σ.CoversFunction owner f scope) (hbody : f.body ≠ [] → f.hasBody) :
    σ.CoversStmts scope f.body := by
  intro j e he
  refine hc.body (hbody ?_) j e he
  rintro hnil
  obtain ⟨root, hroot, -⟩ := he
  rw [hnil] at hroot
  exact absurd hroot List.not_mem_nil

theorem links_finishBody (data : FunctionData) (result : Prim) :
    Links σ frame (finishBody data result) fun _ ↦ True := by
  have hterminated : Links σ frame currentTerminated fun _ ↦ True :=
    links_get fun s _ ↦ links_pure trivial s
  refine hterminated.bind fun terminated _ ↦ ?_
  split
  · exact links_pure trivial
  · split
    · exact links_read (links_lowerReturn frame.self)
    · split
      · exact links_emit ⟨nofun, nofun⟩
      · exact links_pure trivial

theorem links_resetHeap : Links σ frame resetHeap fun _ ↦ True :=
  (links_newVar .pointer).bind fun _ _ ↦
    Links.bind (links_emit ⟨nofun, nofun⟩) fun _ _ ↦ links_emit ⟨nofun, nofun⟩

section

variable (hσ : σ.Finished)

include hσ

/-- A constructor of a class allocates, and the plan knows. -/
theorem links_constructorSelf {owner : Handle} (howner : σ.Requires owner) {k : TypeKind}
    (hk : σ.store.kindOf owner = .ok k) (halloc : k = .cls → σ.needsAlloc) :
    Links σ frame (constructorSelf owner) fun _ ↦ True := by
  refine (links_typeOf owner).bind fun t ht ↦ ?_
  split
  · rename_i hcls
    refine (links_allocate hσ (halloc ((ht.kind_eq hσ hk).symm.trans hcls)) t.size).bind fun _ _ ↦ ?_
    exact links_pure trivial
  · refine (links_ofLayout (ht.usable hσ howner).slots).bind fun slots _ ↦ ?_
    refine (links_newVars slots).bind fun vars _ ↦ (links_clear vars).bind fun _ _ ↦ ?_
    exact links_pure trivial

theorem links_lowerBody (hframe : CoversFrame σ frame) {owner : Handle} {data : FunctionData}
    (hc : σ.CoversFunction owner data frame.scope) (hbody : data.body ≠ [] → data.hasBody)
    (result : Prim) : Links σ frame (lowerBody owner data result) fun _ ↦ True := by
  have hstatements (inner : Frame) (hinner : CoversFrame σ inner)
      (hscope : inner.scope = frame.scope) :
      Links σ inner (do lowerStmts data.body; finishBody data result) fun _ ↦ True := by
    refine (listLinks_lowerStmts hσ hinner data.body ?_).bind fun _ _ ↦ links_finishBody data result
    rw [hscope]
    exact coversStmts_body hc hbody
  unfold lowerBody
  dsimp only
  split
  · rename_i hctor
    obtain ⟨k, hk, halloc⟩ := hc.self hctor
    refine (links_constructorSelf hσ hc.required hk halloc).bind fun self _ ↦ ?_
    refine links_withReader (hstatements { frame with self := self, selfType := owner } ?_ rfl)
    exact ⟨hc.required, hframe.locals, hframe.mainLocals⟩
  · exact hstatements frame hframe rfl

/-- The entry runs over every global, none of which needs to be known beforehand. -/
theorem links_lowerEntry (hframe : CoversFrame σ frame) (hscope : frame.scope = [])
    (hc : σ.CoversEntry) (needsAlloc : Bool) :
    Links σ frame (lowerEntry needsAlloc) fun _ ↦ True := by
  have hinit {q : DeclId × Decl} (hq : q ∈ σ.store.program.numberedDecls) :
      Links σ frame (initGlobal q.1 q.2) fun _ ↦ True := by
    unfold initGlobal
    split
    · rename_i hkind
      obtain ⟨g, hg, htype, hcovers⟩ := hc.globals q.1 q.2 hq hkind
      rw [← hscope] at htype hcovers
      have hexpect : Links σ frame (expect q.2.global) (· = g) := by
        rw [hg]
        exact links_pure rfl
      refine hexpect.bind ?_
      rintro _ rfl
      split
      · refine (links_resolve htype).bind fun h hh ↦ (links_globalIndex q.1).bind fun index _ ↦ ?_
        exact links_into (subLinks_lowerExpr hσ) hframe.self hcovers (d := .global h index 0) hh.2
      · exact links_pure trivial
    · exact links_pure trivial
  have hrest : Links σ frame (do
      let p ← program
      for q in p.numberedDecls do
        initGlobal q.1 q.2
      lowerStmts p.main) fun _ ↦ True := by
    refine links_program.bind ?_
    rintro _ rfl
    refine Links.bind (links_forIn fun q hq ↦ (hinit hq).bind fun _ _ ↦ links_pure rfl) fun _ _ ↦ ?_
    refine listLinks_lowerStmts hσ hframe _ ?_
    rw [hscope]
    exact hc.main
  unfold lowerEntry
  dsimp only
  split
  · exact links_resetHeap.bind fun _ _ ↦ hrest
  · exact hrest

end

/-! ## Tasks -/

/-- The code of every function in the unit refers to what is there. -/
structure LinkedUnit (σ : Scheduler) (s : Lowering) : Prop extends Linked σ s where
  funcs : ∀ f ∈ s.unit.funcs, σ.SuppliesFunction f

theorem LinkedUnit.of_same (h : LinkedUnit σ s) (hs : Linked σ s') (hsame : s.SameFunctions s') :
    LinkedUnit σ s' :=
  ⟨hs, hsame.funcs ▸ h.funcs⟩

/-- The step leaves a linked unit in which the name may be called, as may what was there before. -/
structure Defines (σ : Scheduler) (n : Text) (s s' : Lowering) : Prop where
  unit : LinkedUnit σ s'
  keeps : s.unit.symbols ⊆ s'.unit.symbols
  symbol : n ∈ s'.unit.symbols

/-- Steps that link, then one that changes the unit. -/
theorem Links.andThen {x : M α} {f : α → M β} {post : α → Prop} {Q : β → Lowering → Prop}
    (hx : Links σ frame x post) (hs : Linked σ s)
    (hf : ∀ a s', Linked σ s' → s.SameFunctions s' → post a →
      Meets (f a frame) s' LoweringFault.IsOther Q) :
    Meets ((x >>= f) frame) s LoweringFault.IsOther Q := by
  exact meets_bind.2 ((hx s hs).imp fun a s' h ↦ hf a s' h.1 h.2.1 h.2.2)

theorem symbols_of_same (h : s.SameFunctions s') : s'.unit.symbols = s.unit.symbols := by
  unfold CodeUnit.symbols
  rw [h.imports, h.funcs]

/-- What the steps before did not change is not told apart. -/
theorem Defines.congr_left (h : s.SameFunctions s') : Defines σ n s = Defines σ n s' := by
  funext s''
  rw [propext_iff]
  constructor <;> rintro ⟨hunit, hkeeps, hsymbol⟩ <;> refine ⟨hunit, ?_, hsymbol⟩
  · rwa [symbols_of_same h]
  · rwa [← symbols_of_same h]

/-- A function whose body links is put into the unit under the name of its task. -/
theorem meets_lowerFunction (hσ : σ.Finished) (hframe : CoversFrame σ frame) {owner result : Handle}
    (howner : σ.Requires owner) (hresult : σ.Requires result) {body : Function → M Unit}
    {close : Function → Function} (hclose : ∀ f, (close f).name = f.name)
    (hbody : ∀ opened f, CoversFrame σ opened → opened.scope = frame.scope →
      Links σ opened (body f) fun _ ↦ True) (hs : LinkedUnit σ s) :
    Meets (lowerFunction owner result body close frame) s LoweringFault.IsOther
      fun _ ↦ Defines σ frame.name s := by
  refine Links.andThen (links_openFunction hσ hframe howner hresult) hs.toLinked ?_
  rintro ⟨opened, f⟩ s₁ hs₁ hsame₁ ⟨hopened, hscope, hname⟩
  refine Links.andThen (links_withReader (hbody opened f hopened hscope)) hs₁ ?_
  rintro _ s₂ hs₂ hsame₂ -
  have hsame := hsame₁.trans hsame₂
  refine ⟨⟨⟨hs₂.laid, hs₂.table, hs₂.code⟩, fun g hg ↦ ?_⟩, fun m hm ↦ ?_, ?_⟩
  · obtain hold | hnew := List.mem_append.1 hg
    · exact hs.funcs g (hsame.funcs ▸ hold)
    · rw [List.mem_singleton.1 hnew]
      exact hs₂.code
  · rw [← symbols_of_same hsame] at hm
    refine CodeUnit.mem_symbols.2 ((CodeUnit.mem_symbols.1 hm).imp_right ?_)
    rintro ⟨g, hg, hn⟩
    exact ⟨g, List.mem_append_left _ hg, hn⟩
  · exact CodeUnit.mem_symbols.2
      (.inr ⟨_, List.mem_append_right _ (List.mem_singleton_self _), (hclose f).trans hname⟩)

/-- A foreign function is put into the unit as an import under the name of its task. -/
theorem meets_lowerForeign (hσ : σ.Finished) (t : Task) (d : Decl) {data : FunctionData}
    {owner : Handle} (hc : σ.CoversFunction owner data frame.scope) (hs : LinkedUnit σ s) :
    Meets (lowerForeign t d data frame) s LoweringFault.IsOther fun _ ↦ Defines σ t.name s := by
  have hparams : Links σ frame (data.params.mapM fun p ↦ do
      let l ← expect data.locals[p.toNat]?
      resolve l.type) fun hs ↦ ∀ h ∈ hs, σ.Requires h := by
    refine links_mapM fun p _ ↦ ?_
    refine Links.bind (links_expect fun l hl ↦ hc.locals l (List.mem_of_getElem? hl)) fun l hl ↦ ?_
    exact (links_resolve hl).imp fun _ hh ↦ hh.2
  refine hparams.andThen hs.toLinked fun params s₁ hs₁ hsame₁ hps ↦ ?_
  refine Links.andThen (links_resolve hc.result) hs₁ ?_
  rintro result s₂ hs₂ hsame₂ ⟨-, hresult⟩
  refine (links_typeOf result).andThen hs₂ fun type s₃ hs₃ hsame₃ htype ↦ ?_
  refine (links_ofLayout (htype.usable hσ hresult).slotCount).andThen hs₃ fun n s₄ hs₄ hsame₄ _ ↦ ?_
  have hparts : ∀ g ∈ params ++ [result], σ.Requires g := by
    intro g hg
    obtain hg | hg := List.mem_append.1 hg
    · exact hps g hg
    · exact List.mem_singleton.1 hg ▸ hresult
  have himport {s' : Lowering} (hs' : Linked σ s') (hsame' : s.SameFunctions s') : Meets ((do
      let sig ← signatureOf params result
      modify fun s =>
        { s with
          unit :=
            { s.unit with
              imports := s.unit.imports
                ++ [{ name := t.name, symbol := d.foreignSymbol, sig := sig,
                      inTable := t.indirect }] } } : M Unit) frame) s' LoweringFault.IsOther
      fun _ ↦ Defines σ t.name s := by
    refine (links_signatureOf hσ hparts).andThen hs' fun sig s₅ hs₅ hsame₅ _ ↦ ?_
    have hsame := hsame'.trans hsame₅
    refine ⟨⟨⟨hs₅.laid, hs₅.table, hs₅.code⟩, ?_⟩, fun m hm ↦ ?_, ?_⟩
    · show ∀ f ∈ s₅.unit.funcs, σ.SuppliesFunction f
      rw [hsame.funcs]
      exact hs.funcs
    · rw [← symbols_of_same hsame] at hm
      refine CodeUnit.mem_symbols.2 ((CodeUnit.mem_symbols.1 hm).imp_left ?_)
      rintro ⟨i, hi, hn⟩
      exact ⟨i, List.mem_append_left _ hi, hn⟩
    · exact CodeUnit.mem_symbols.2
        (.inl ⟨_, List.mem_append_right _ (List.mem_singleton_self _), rfl⟩)
  have hsame := ((hsame₁.trans hsame₂).trans hsame₃).trans hsame₄
  dsimp only
  split
  · exact (links_report _).andThen hs₄ fun _ s₅ hs₅ hsame₅ _ ↦ himport hs₅ (hsame.trans hsame₅)
  · exact himport hs₄ hsame

/-- The function of a declaration is put into the unit under the name of its task. -/
theorem meets_lowerDeclared (hσ : σ.Finished) (hframe : CoversFrame σ frame) (t : Task) (d : Decl)
    {data : FunctionData} (hc : σ.CoversFunction t.owner data frame.scope)
    (hbody : data.body ≠ [] → data.hasBody) (hs : LinkedUnit σ s) :
    Meets (lowerDeclared t d data frame) s LoweringFault.IsOther
      fun _ ↦ Defines σ frame.name s := by
  refine Links.andThen (links_resolve hc.result) hs.toLinked ?_
  rintro result s₁ hs₁ hsame ⟨-, hresult⟩
  have hreturned : σ.Requires (if data.kind = .constructor then t.owner else result) := by
    split
    · exact hc.required
    · exact hresult
  have hbodies (opened : Frame) (f : Function) (hopened : CoversFrame σ opened)
      (hscope : opened.scope = frame.scope) :
      Links σ opened (lowerBody t.owner data f.result) fun _ ↦ True := by
    rw [← hscope] at hc
    exact links_lowerBody hσ hopened hc hbody f.result
  rw [Defines.congr_left hsame]
  exact meets_lowerFunction hσ hframe hc.required hreturned (fun _ ↦ rfl) hbodies
    (hs.of_same hs₁ hsame)

/-- Lowering a task of the plan defines its symbol. -/
theorem meets_lowerTask (hσ : σ.Finished)
    (hbodies : ∀ id d f, σ.store.program.decl? id = some d → d.function = some f →
      f.body ≠ [] → f.hasBody)
    (globals : List (DeclId × Nat)) (needsAlloc : Bool) {t : Task} (ht : t ∈ σ.tasks)
    (hemits : t.emits) (hs : LinkedUnit σ s) :
    Meets (lowerTask globals needsAlloc t) s LoweringFault.IsOther
      fun _ ↦ Defines σ t.name s := by
  obtain ⟨i, hi⟩ := Array.mem_iff_getElem?.1 ht
  have hcovers : σ.CoversTask t.identity := hσ.explored.coversTask hσ.work ⟨i, t, hi, rfl⟩
  have hscope {scope : List Handle} (h : σ.store.scope? t.identity = some scope) :
      t.scope s.store = scope :=
    Scheduler.scope_eq (hs.laid.advances.scope? h)
  unfold lowerTask
  rw [Stage.meets_bind, Stage.meets_get]
  split
  · rename_i hkind
    have hentry : t.identity = TaskId.entry := (hσ.explored.sound.reached i t hi).eq_entry hkind
    rw [hentry] at hcovers
    have hnone : t.scope s.store = [] := hscope (by rw [hentry]; rfl)
    have hframe : CoversFrame σ
        { name := t.name, scope := t.scope s.store, globals := globals } := by
      refine ⟨.inl rfl, (fun _ h ↦ nomatch h), fun _ l hl ↦ ?_⟩
      rw [hnone]
      exact hcovers.locals l hl
    refine meets_lowerFunction hσ hframe (.inl rfl) (.inl rfl) (fun _ ↦ rfl) ?_ hs
    exact fun opened _ hopened hsame ↦
      links_lowerEntry hσ hopened (hsame.trans hnone) hcovers needsAlloc
  · rename_i hentry
    have hlayout : t.kind ≠ .layout := of_decide_eq_true hemits
    obtain ⟨data, scope, hf, hsc, hc⟩ := hcovers.function hlayout hentry
    obtain ⟨d, hd, hdata⟩ : ∃ d, σ.store.program.decl? t.decl = some d ∧ d.function = some data :=
      Option.bind_eq_some_iff.1 (Scheduler.function_eq hf)
    have hframe : CoversFrame σ
        { name := t.name, function := some data, scope := t.scope s.store, globals := globals } := by
      refine ⟨.inl rfl, ?_, nofun⟩
      rintro _ ⟨⟩ l hl
      rw [hscope hsc]
      exact hc.locals l hl
    rw [← hscope hsc] at hc
    rw [hs.laid.advances.program, hd]
    dsimp only
    rw [hdata]
    dsimp only
    split
    · exact meets_lowerForeign hσ t d hc hs
    · exact meets_lowerDeclared hσ hframe t d hc (hbodies _ d data hd hdata) hs

/-! ## The plan -/

/-- While the globals are numbered there is nothing in the unit but globals. -/
structure Numbering (σ : Scheduler) (s : Lowering) : Prop where
  laid : σ.Laid s.store
  imports : s.unit.imports = []
  funcs : s.unit.funcs = []
  table : s.unit.table = []
  blocks : s.blocks = #[]

theorem meets_declareGlobal (hσ : σ.Finished) (globals : List (DeclId × Nat)) (id : DeclId)
    {d : Decl} (hd : d.kind = .global → ∃ g, d.global = some g ∧ σ.RequiresType g.type frame.scope)
    (hs : Numbering σ s) :
    Meets (declareGlobal globals id d frame) s LoweringFault.IsOther
      fun _ s' ↦ Numbering σ s' := by
  unfold declareGlobal
  split
  · rename_i hkind
    obtain ⟨g, hg, h, hh, hreq⟩ := hd hkind
    rw [hg]
    show Meets (onStore (TypeStore.resolve g.type frame.scope) frame >>= fun h ↦
      (typeOf h >>= fun t ↦ ofLayout t.valueSize >>= fun size ↦ _ : M _) frame) s _ _
    rw [Stage.meets_bind]
    refine meets_onStore ((TypeStore.ensures_resolve g.type frame.scope).imp ?_)
    rintro h' store ⟨hadv, hh'⟩
    obtain rfl : h' = h :=
      Option.some.inj (hh'.symm.trans ((hs.laid.mono hadv).advances.denote hh))
    show Meets (onStore (TypeStore.getType h') frame >>= _) _ _ _
    rw [Stage.meets_bind]
    refine meets_onStore ((TypeStore.builds_getType h' _).imp ?_)
    rintro t store' ⟨hadv', ht⟩
    have hlaid : σ.Laid store' := (hs.laid.mono hadv).mono hadv'
    obtain ⟨size, hsize⟩ := (Scheduler.Ready.usable hσ hreq ⟨store', hlaid, ht⟩).valueSize
    simp only [hsize]
    exact ⟨hlaid, hs.imports, hs.funcs, hs.table, hs.blocks⟩
  · exact hs

/-- Numbering the globals uses no layout but those of their types. -/
theorem meets_declareGlobals (hσ : σ.Finished) (hs : Numbering σ s) :
    Meets (outside declareGlobals) s LoweringFault.IsOther fun _ s' ↦ Numbering σ s' := by
  obtain ⟨t, ht, hentry⟩ := hσ.explored.first
  have hcovers : σ.CoversEntry := hσ.explored.coversTask hσ.work ⟨0, t, ht, hentry⟩
  have hdecl (q : DeclId × Decl) (hq : q ∈ σ.store.program.numberedDecls)
      (hkind : q.2.kind = .global) : ∃ g, q.2.global = some g ∧ σ.RequiresType g.type [] := by
    obtain ⟨g, hg, htype, -⟩ := hcovers.globals q.1 q.2 hq hkind
    exact ⟨g, hg, htype⟩
  have hloop (l : List (DeclId × Decl)) (hl : ∀ q ∈ l, q ∈ σ.store.program.numberedDecls) :
      ∀ (globals : List (DeclId × Nat)) (s : Lowering), Numbering σ s →
        Meets (l.foldlM (m := M) (fun globals q ↦ declareGlobal globals q.1 q.2) globals
          { name := "" }) s LoweringFault.IsOther fun _ s' ↦ Numbering σ s' := by
    induction l with
    | nil => exact fun _ _ hs ↦ hs
    | cons q rest ih =>
      intro globals s hs
      rw [List.foldlM_cons]
      have hq : Meets (declareGlobal globals q.1 q.2 { name := "" }) s LoweringFault.IsOther
          fun _ s' ↦ Numbering σ s' :=
        meets_declareGlobal hσ globals q.1 (hdecl q (hl q List.mem_cons_self)) hs
      exact meets_bind.2 (hq.imp (ih fun q' hq' ↦ hl q' (List.mem_cons_of_mem q hq')))
  refine hloop s.store.program.numberedDecls ?_ [] s hs
  rw [hs.laid.advances.program]
  exact fun _ hq ↦ hq

/-- The state with another table. -/
def withTable (s : Lowering) (table : List Text) : Lowering :=
  { s with unit := { s.unit with table := table } }

/-- The table has the functions used as values in the order of their tasks, each once. -/
theorem meets_fillTable (tasks : List Task) (hs : s.unit.table = []) :
    Meets (fillTable tasks) s LoweringFault.IsOther fun _ s' ↦
      s' = s.withTable (indirectNames tasks) := by
  unfold fillTable
  rw [Stage.meets_bind]
  refine (Stage.meets_forIn (fun (done : List Task) (_ : PUnit) t ↦
    t = s.withTable (indirectNames done)) ?_ ?_).imp fun _ _ h ↦ h
  · show s = s.withTable []
    rw [← hs]
    rfl
  · rintro done t rest _ _ - rfl
    rw [indirectNames_concat]
    split
    · rename_i hindirect
      refine ⟨_, rfl, ?_⟩
      simp only [CodeUnit.snd_internTable]
      by_cases hmem : t.name ∈ indirectNames done <;> simp [withTable, hmem, hindirect]
    · rename_i hdirect
      exact ⟨_, rfl, by rw [if_neg fun h ↦ hdirect h.1]⟩

theorem meets_lowerTasks (hσ : σ.Finished)
    (hbodies : ∀ id d f, σ.store.program.decl? id = some d → d.function = some f →
      f.body ≠ [] → f.hasBody)
    (globals : List (DeclId × Nat)) (needsAlloc : Bool) (parent : Nat) {tasks : List Task}
    (htasks : ∀ t ∈ tasks, t ∈ σ.tasks) (hs : LinkedUnit σ s) :
    Meets (lowerTasks globals needsAlloc parent tasks) s LoweringFault.IsOther fun _ s' ↦
      LinkedUnit σ s' ∧ ∀ t ∈ tasks, t.emits → t.name ∈ s'.unit.symbols := by
  unfold lowerTasks
  rw [Stage.meets_bind]
  refine (Stage.meets_forIn (fun (done : List Task) (_ : PUnit) st ↦ LinkedUnit σ st ∧
    ∀ t ∈ done, t.emits → t.name ∈ st.unit.symbols)
    ⟨hs, fun _ h ↦ absurd h List.not_mem_nil⟩ ?_).imp fun _ _ h ↦ h
  rintro done t rest _ st htask ⟨hst, hdone⟩
  have ht : t ∈ σ.tasks := htasks t (by simp [htask])
  split
  · rename_i hemits
    rw [Stage.meets_bind, Stage.meets_modify, Stage.meets_bind]
    have hnext : LinkedUnit σ { st with tracer := st.tracer.point .task "lower" t.name parent } :=
      ⟨⟨hst.laid, hst.table, hst.code⟩, hst.funcs⟩
    refine (meets_lowerTask hσ hbodies globals needsAlloc ht hemits hnext).imp ?_
    rintro _ s' h
    refine ⟨_, rfl, h.unit, fun t' ht' hemits' ↦ ?_⟩
    obtain ht' | ht' := List.mem_append.1 ht'
    · exact h.keeps (hdone t' ht' hemits')
    · rw [List.mem_singleton.1 ht']
      exact h.symbol
  · rename_i hnone
    refine ⟨_, rfl, hst, fun t' ht' hemits' ↦ ?_⟩
    obtain ht' | ht' := List.mem_append.1 ht'
    · exact hdone t' ht' hemits'
    · rw [List.mem_singleton.1 ht'] at hemits'
      exact absurd hemits' hnone

end Lowering

/-- What the code of the unit refers to is in it: the callee of a call among the imports and
functions, the function of a reference in the table. -/
def Ir.CodeUnit.Closed (u : CodeUnit) : Prop :=
  ∀ f ∈ u.funcs, ∀ b ∈ f.blocks, ∀ i ∈ b.instrs,
    (i.op = .call → i.callee ∈ u.symbols) ∧ (i.op = .funcRef → i.callee ∈ u.table)

namespace Lowering

variable {σ : Scheduler} {s : Lowering}

/-- The allocator calls nothing. -/
theorem suppliesFunction_allocator : σ.SuppliesFunction allocator := by
  have hplain : ∀ b ∈ allocator.blocks.toList, ∀ i ∈ b.instrs, i.op ≠ .call ∧ i.op ≠ .funcRef := by
    decide
  intro b hb i hi
  obtain ⟨hcall, href⟩ := hplain b (Array.mem_toList_iff.2 hb) i hi
  exact ⟨fun h ↦ absurd h hcall, fun h ↦ absurd h href⟩

/-- A unit in which every symbol of the plan is defined is closed. -/
theorem closed_of_supplies {u : CodeUnit} (hfuncs : ∀ f ∈ u.funcs, σ.SuppliesFunction f)
    (htable : u.table = σ.table) (htasks : ∀ t ∈ σ.tasks, t.emits → t.name ∈ u.symbols)
    (halloc : σ.needsAlloc → allocFunction ∈ u.symbols) : u.Closed := by
  intro f hf b hb i hi
  obtain ⟨hcall, href⟩ := hfuncs f hf b hb i hi
  refine ⟨fun hop ↦ ?_, fun hop ↦ ?_⟩
  · obtain ⟨t, ht, hemits, hname⟩ | ⟨hneeds, hname⟩ := hcall hop
    · exact hname ▸ htasks t ht hemits
    · exact hname ▸ halloc hneeds
  · rw [htable]
    exact href hop

/-- Lowering a finished plan whose types are laid out gives a closed unit with the table of the
plan. -/
theorem meets_lowerPlan (hσ : σ.Finished) (hlaid : σ.Laid s.store) (hblocks : s.blocks = #[])
    (hbodies : ∀ id d f, σ.store.program.decl? id = some d → d.function = some f →
      f.body ≠ [] → f.hasBody)
    {plan : Plan} (htasks : plan.tasks = σ.tasks.toList) (halloc : plan.needsAlloc = σ.needsAlloc)
    (entryExport : Text) (parent : Nat) :
    Meets (lowerPlan plan entryExport parent) s LoweringFault.IsOther fun unit _ ↦
      unit.Closed ∧ unit.table = σ.table := by
  unfold lowerPlan
  dsimp only
  rw [Stage.meets_bind, Stage.meets_modify, Stage.meets_bind]
  have hstart (u : CodeUnit) (himports : u.imports = []) (hfuncs : u.funcs = [])
      (htable : u.table = []) : Numbering σ { s with unit := u } :=
    ⟨hlaid, himports, hfuncs, htable, hblocks⟩
  refine (meets_declareGlobals hσ (hstart _ rfl rfl rfl)).imp ?_
  intro globals s₁ hs₁
  rw [Stage.meets_bind]
  refine (meets_fillTable plan.tasks hs₁.table).imp ?_
  rintro _ _ rfl
  have hlinked : LinkedUnit σ (s₁.withTable (indirectNames plan.tasks)) := by
    refine ⟨⟨hs₁.laid, ?_, ?_⟩, ?_⟩
    · rw [htasks]
      rfl
    · show ∀ b ∈ s₁.blocks, _
      simp [hs₁.blocks]
    · show ∀ f ∈ s₁.unit.funcs, _
      simp [hs₁.funcs]
  have hmem : ∀ t ∈ plan.tasks, t ∈ σ.tasks := by
    rw [htasks]
    exact fun t ht ↦ Array.mem_toList_iff.1 ht
  rw [Stage.meets_bind]
  refine (meets_lowerTasks hσ hbodies globals plan.needsAlloc parent hmem hlinked).imp ?_
  rintro _ s₂ ⟨hs₂, hdefined⟩
  have hall : ∀ t ∈ σ.tasks, t.emits → t.name ∈ s₂.unit.symbols := by
    intro t ht
    refine hdefined t ?_
    rw [htasks]
    exact Array.mem_toList_iff.2 ht
  rw [halloc]
  split
  · rw [Stage.meets_bind, Stage.meets_modify]
    refine ⟨closed_of_supplies ?_ hs₂.table ?_ ?_, hs₂.table⟩
    · intro f hf
      obtain hf | hf := List.mem_append.1 hf
      · exact hs₂.funcs f hf
      · rw [List.mem_singleton.1 hf]
        exact suppliesFunction_allocator
    · intro t ht hemits
      refine CodeUnit.mem_symbols.2 ((CodeUnit.mem_symbols.1 (hall t ht hemits)).imp_right ?_)
      rintro ⟨f, hf, hname⟩
      exact ⟨f, List.mem_append_left _ hf, hname⟩
    · exact fun _ ↦ CodeUnit.mem_symbols.2
        (.inr ⟨allocator, List.mem_append_right _ (List.mem_singleton_self _), rfl⟩)
  · rename_i hnone
    exact ⟨closed_of_supplies hs₂.funcs hs₂.table hall fun h ↦ absurd h hnone, hs₂.table⟩

/-- Lowering what scheduling and layout leave, where neither reports an error: no layout is used
before it is resolved, all callees are in the unit, and so are the functions used as values. -/
theorem lowerPlan_closed {p : Program} {bag : Bag} {tracer : Trace.Tracer}
    {entryExport : Text} {parent limit : Nat} {plan : Plan} {σ : Scheduler} {layouts : Layouts}
    (hbodies : ∀ d ∈ p.decls, ∀ f, d.function = some f → f.body ≠ [] → f.hasBody)
    (hrun : (Scheduler.run entryExport parent limit).runFrom (Scheduler.ofProgram p bag tracer) =
      (.ok plan, σ))
    (herrors : σ.bag.hasErrors = false)
    (hresolve : Layouts.resolve.runFrom σ.layouts = (.ok [], layouts))
    (bag' : Bag) (tracer' : Trace.Tracer) (entryExport' : Text) (parent' : Nat) :
    Meets (lowerPlan plan entryExport' parent')
      { store := layouts.store, bag := bag', tracer := tracer' } LoweringFault.IsOther fun unit _ ↦
        unit.Closed ∧ unit.table = ((plan.tasks.filter Task.indirect).map Task.name).eraseDups := by
  obtain ⟨-, -, hprogram, htasks, -, halloc, -⟩ :=
    (Scheduler.ensures_run p bag tracer entryExport parent limit).of_eq hrun
  have hσ := Scheduler.finished_of_run hrun herrors
  have hdecls : ∀ id d f, σ.store.program.decl? id = some d → d.function = some f →
      f.body ≠ [] → f.hasBody := by
    intro id d f hd
    rw [hprogram, Program.decl?, node?] at hd
    refine hbodies d (Array.mem_of_getElem? (i := id.toNat - 1) ?_) f
    split at hd
    · cases hd
    · exact hd
  rw [htasks]
  exact meets_lowerPlan hσ (hσ.laid hresolve) rfl hdecls htasks halloc entryExport' parent'

/-- Main statements that use a function as a value and make an instance of a class. -/
def callbackAndInstance : Program where
  decls := #[
    { kind := .cls, name := "C", aggregate := some { fields := [⟨"x", 1, {}⟩] } },
    { name := "f", function := some { result := 1, body := [3], hasBody := true } }]
  types := #[
    { kind := .prim, prim := .i32 }, { kind := .named, decl := 1 }, { kind := .function, elem := 1 }]
  exprs := #[
    { kind := .int, type := 1, int := 7 }, { kind := .funcRef, type := 3, decl := 2 },
    { kind := .construct, type := 2, args := [1] }]
  stmts := #[{ expr := 2 }, { expr := 3 }, { kind := .ret, expr := 1 }]
  main := [1, 2]

/-- All phases before code generation succeed on the program. -/
theorem lowered_callbackAndInstance : ∃ plan σ layouts,
    (Scheduler.run "" 0).runFrom (Scheduler.ofProgram callbackAndInstance) = (.ok plan, σ) ∧
      σ.bag.hasErrors = false ∧ Layouts.resolve.runFrom σ.layouts = (.ok [], layouts) ∧
      (plan.tasks.filter Task.indirect).map Task.name = ["f"] ∧
      Stage.Succeeds (lowerPlan plan "" 0) { store := layouts.store } fun _ _ ↦ True := by
  obtain ⟨run, hrun⟩ : ∃ r, (Scheduler.run "" 0).runFrom
      (Scheduler.ofProgram callbackAndInstance) = r := ⟨_, rfl⟩
  obtain ⟨resolved, hresolve⟩ : ∃ r, Layouts.resolve.runFrom run.2.layouts = r := ⟨_, rfl⟩
  have h : run.1.toOption.map (fun plan ↦
      (run.2.bag.hasErrors, resolved.1.toOption.map List.isEmpty,
        (plan.tasks.filter Task.indirect).map Task.name,
        (lowerPlan plan "" 0 { store := resolved.2.store } : Except _ CodeUnit × Lowering).1.isOk)) =
      some (false, some true, [("f" : Text)], true) := by
    subst hresolve hrun
    decide +kernel
  have ok {ε α : Type} {x : Except ε α} {a : α} (hx : x.toOption = some a) : x = .ok a := by
    cases x with
    | error e => cases hx
    | ok b => exact congrArg Except.ok (Option.some.inj hx)
  obtain ⟨plan, hplan, hall⟩ := Option.map_eq_some_iff.1 h
  simp only [Prod.mk.injEq] at hall
  obtain ⟨herrors, hleft, hnames, hlowered⟩ := hall
  obtain ⟨left, hleft, hempty⟩ := Option.map_eq_some_iff.1 hleft
  obtain rfl := List.isEmpty_iff.1 hempty
  refine ⟨plan, run.2, resolved.2, hrun.trans (Prod.ext (ok hplan) rfl), herrors,
    hresolve.trans (Prod.ext (ok hleft) rfl), hnames, ?_⟩
  cases hunit : (lowerPlan plan "" 0 { store := resolved.2.store } : Except _ CodeUnit × Lowering).1 with
  | error e =>
    rw [hunit] at hlowered
    cases hlowered
  | ok unit => exact Stage.succeeds_iff.2 ⟨unit, _, Prod.ext hunit rfl, trivial⟩

/-- The unit of the program is closed, with the allocator for the instance, and its table has the
function. -/
theorem lowerPlan_callbackAndInstance : ∃ plan σ layouts,
    (Scheduler.run "" 0).runFrom (Scheduler.ofProgram callbackAndInstance) = (.ok plan, σ) ∧
      Layouts.resolve.runFrom σ.layouts = (.ok [], layouts) ∧
      Stage.Succeeds (lowerPlan plan "" 0) { store := layouts.store } fun unit _ ↦
        unit.Closed ∧ unit.table = ["f"] := by
  obtain ⟨plan, σ, layouts, hrun, herrors, hresolve, hnames, hlowered⟩ :=
    lowered_callbackAndInstance
  have hbodies : ∀ d ∈ callbackAndInstance.decls, ∀ f, d.function = some f → f.body ≠ [] →
      f.hasBody := by
    simp [callbackAndInstance]
  refine ⟨plan, σ, layouts, hrun, hresolve, ?_⟩
  obtain ⟨unit, s, hunit, -⟩ := Stage.succeeds_iff.1 hlowered
  have hclosed := lowerPlan_closed hbodies hrun herrors hresolve {} {} "" 0
  obtain ⟨hrefers, htable⟩ :=
    Stage.Ensures.of_eq (hclosed.mono (fun _ _ ↦ trivial) fun _ _ h ↦ h) hunit
  refine Stage.succeeds_iff.2 ⟨unit, s, hunit, hrefers, ?_⟩
  rw [htable, hnames]
  decide

end Lowering

end WasmBackend
