import WasmBackend.Proofs.SingleAssignment.Naming
import WasmBackend.SingleAssignment.Conversion

/-!
# The converted function

Once the names are found, conversion does to every reachable block what `rewritten` says: uses and
definitions take their names, merges stand at the head, and the assignments of every edge into a
reachable block are stored where the edge leaves its source.
-/

namespace WasmBackend.SingleAssignment

open Ir (BlockId Block Copy Forest Function Instr Tree Var)
open WasmBackend.Flow (Graph Edge Site)
open Stage (Ensures)

namespace Renaming

theorem fresh_congr {f f' : Function} (hname : f'.name = f.name) : fresh f' = fresh f := by
  funext v
  unfold fresh Function.varPrim
  simp only [hname]

theorem headNames_congr {f f' : Function} (hname : f'.name = f.name) (hparams : f'.params = f.params)
    (g : Graph) (b : BlockId) : headNames f' g b = headNames f g b := by
  unfold headNames headName incoming paramNames
  simp only [fresh_congr hname, hparams]

/-- The names at the head of a settled block are found again, and nothing else happens. -/
theorem headNames_of_settled {f : Function} {g : Graph} {r : Renaming} {birth : Var → Birth}
    {id : BlockId} (h : r.Named f birth) (hid : id ≤ f.blocks.size)
    (hparams : f.params.length ≤ f.vars.size) (hsettled : Settled f g r id) :
    Ensures (headNames f g id) r fun names r' ↦ r' = r ∧ Names.get? names = headEnv f g r id := by
  refine (headNames_ensures h hid hparams).imp ?_
  rintro names r' ⟨birth', hhead⟩
  have hr := hhead.stable hsettled.undisputed
  subst hr
  exact ⟨rfl, hhead.get?_eq⟩

end Renaming

/-! ## What conversion makes of a block -/

/-- Instructions under the names before the first of them. -/
def Env.rewrite (env : Env) : List (Instr × List Var) → List Instr
  | [] => []
  | (i, defs) :: rest =>
    { i with args := i.args.map env.rename, dst := defs } :: (env.bind i.dst defs).rewrite rest

theorem Env.renameInstrs_eq (names : Names) (is : List (Instr × List Var)) :
    Conversion.renameInstrs names is = Env.rewrite (Names.get? names) is := by
  induction is generalizing names with
  | nil => rfl
  | cons p is ih =>
    obtain ⟨i, defs⟩ := p
    rw [Conversion.renameInstrs, Env.rewrite, ih, Names.get?_define, Names.rename_eq]

/-- The assignments of an edge. -/
def copiesOf (f : Function) (r : Renaming) (e : Edge) : List Copy :=
  let s : Conversion := { function := f, names := r }
  s.edgeCopies e (s.mergesOf e.dst)

/-- A block under its new names, with its merges at the head. -/
def renamed (f : Function) (g : Graph) (r : Renaming) (id : BlockId) (b : Block) : Block :=
  let env := Renaming.headEnv f g r id
  match b.kind with
  | .basic =>
    { b with
      instrs := Conversion.mergeInstrs g { function := f, names := r } id
        ++ env.rewrite (b.instrs.zip ((r.block id).defs.getD [])) }
  | .cond | .branch => { b with cond := env.rename b.cond }
  | .loop | .breakable | .unknown _ _ => b

/-- The number of merges at the head of a block. -/
def headCount (r : Renaming) (id : BlockId) (b : Block) : Nat :=
  if b.kind = .basic then (r.block id).merges.length else 0

/-- The assignments of those edges that leave at a site. -/
def copiesAt (f : Function) (r : Renaming) (es : List Edge) (site : Site) : List Copy :=
  (es.filter fun e ↦ e.site = site).flatMap (copiesOf f r)

/-- The assignments of those edges that leave through the branch at a position. -/
def branchCopies (f : Function) (r : Renaming) (es : List Edge) (count position : Nat) :
    List Copy :=
  (es.filter fun e ↦ e.site = .branch ∧ e.instr + count = position).flatMap (copiesOf f r)

/-- A block with the assignments of edges that leave it, behind `count` merges. -/
def Conversion.placed (f : Function) (r : Renaming) (es : List Edge) (count : Nat) (b : Block) :
    Block :=
  { b with
    instrs := b.instrs.mapIdx fun k i ↦
      { i with copies := i.copies ++ branchCopies f r es count k }
    exitCopies := b.exitCopies ++ copiesAt f r es .fallthrough
    aroundCopies := b.aroundCopies ++ copiesAt f r es .around
    entryCopies := b.entryCopies ++ copiesAt f r es .enter }

@[simp]
theorem Conversion.placed_nil (f : Function) (r : Renaming) (count : Nat) (b : Block) :
    Conversion.placed f r [] count b = b := by
  simp [Conversion.placed, copiesAt, branchCopies, List.mapIdx_eq_zipIdx_map]

theorem Conversion.placed_append (f : Function) (r : Renaming) (es es' : List Edge) (count : Nat)
    (b : Block) :
    Conversion.placed f r (es ++ es') count b
      = Conversion.placed f r es' count (Conversion.placed f r es count b) := by
  simp [Conversion.placed, copiesAt, branchCopies, List.mapIdx_mapIdx, Function.comp_def]

theorem copiesAt_singleton (f : Function) (r : Renaming) (e : Edge) (site : Site) :
    copiesAt f r [e] site = if e.site = site then copiesOf f r e else [] := by
  unfold copiesAt
  split <;> simp [*]

/-- Placing the assignments of an edge into the block it leaves. -/
theorem Conversion.placed_of_nil {f : Function} {r : Renaming} {e : Edge}
    (h : copiesOf f r e = []) (count : Nat) (b : Block) :
    Conversion.placed f r [e] count b = b := by
  have hcopies (site : Site) : copiesAt f r [e] site = [] := by
    rw [copiesAt_singleton, h, ite_self]
  have hbranch (k : Nat) : branchCopies f r [e] count k = [] := by
    unfold branchCopies
    refine List.flatMap_eq_nil_iff.2 fun e' he' ↦ ?_
    rw [List.mem_singleton.1 (List.mem_filter.1 he').1, h]
  simp [Conversion.placed, hcopies, hbranch, List.mapIdx_eq_zipIdx_map]

namespace Conversion

/-! ## Renaming blocks -/

/-- Conversion changes nothing but blocks, and keeps the names. -/
structure Keeps (f : Function) (r : Renaming) (change : BlockId → Block → Block)
    (s : Conversion) : Prop where
  names_eq : s.names = r
  frame : s.function = { f with blocks := s.function.blocks }
  size_eq : s.function.blocks.size = f.blocks.size
  block?_eq : ∀ c, s.function.block? c = (f.block? c).map (change c)

theorem Keeps.congr {f : Function} {r : Renaming} {change change' : BlockId → Block → Block}
    {s : Conversion} (h : Keeps f r change s)
    (hchange : ∀ c b, f.block? c = some b → change c b = change' c b) : Keeps f r change' s where
  names_eq := h.names_eq
  frame := h.frame
  size_eq := h.size_eq
  block?_eq c := by
    rw [h.block?_eq]
    cases hb : f.block? c with
    | none => rfl
    | some b => simp [hchange c b hb]

theorem Keeps.update {f : Function} {r : Renaming} {change change' : BlockId → Block → Block}
    {s : Conversion} (h : Keeps f r change s) (id : BlockId) (g : Block → Block)
    (hid : ∀ b, f.block? id = some b → g (change id b) = change' id b)
    (hothers : ∀ c ≠ id, ∀ b, change c b = change' c b) :
    Keeps f r change' { s with function := s.function.updateBlock id g } where
  names_eq := h.names_eq
  frame := by
    unfold Function.updateBlock
    split
    · exact h.frame
    · rw [h.frame]
  size_eq := by
    unfold Function.updateBlock
    split
    · exact h.size_eq
    · simpa using h.size_eq
  block?_eq c := by
    rw [Function.block?_updateBlock, h.block?_eq]
    split <;> rename_i hc
    · subst hc
      cases hb : f.block? c with
      | none => rfl
      | some b => simp [hid b hb]
    · cases f.block? c with
      | none => rfl
      | some b => simp [hothers c hc]

section

variable {f : Function} {g : Graph} {r : Renaming} {birth : Var → Birth} {s : Conversion}

/-- Blocks that are renamed when they are among those given. -/
def renamedIn (f : Function) (g : Graph) (r : Renaming) (ids : List BlockId) (c : BlockId)
    (b : Block) : Block :=
  if c ∈ ids then renamed f g r c b else b

theorem Keeps.rename {ids : List BlockId} (h : Keeps f r (renamedIn f g r ids) s) {id : BlockId}
    (hid : id ∉ ids) (change : Block → Block)
    (hchange : ∀ b, f.block? id = some b → change b = renamed f g r id b) :
    Keeps f r (renamedIn f g r (ids ++ [id]))
      { s with function := s.function.updateBlock id change } := by
  refine h.update id change (fun b hb ↦ ?_) fun c hc b ↦ ?_
  · unfold renamedIn
    rw [if_neg hid, if_pos (by simp), hchange b hb]
  · unfold renamedIn
    simp [hc]

theorem renameBlock_ensures (hdone : Renaming.Done f g r birth)
    (hparams : f.params.length ≤ f.vars.size) {ids : List BlockId}
    (h : Keeps f r (renamedIn f g r ids) s) {id : BlockId} (hid : id ∉ ids)
    (hvisible : Renaming.Visible f g id) (hsettled : Renaming.Settled f g r id) :
    Ensures (renameBlock g id) s fun _ s' ↦ Keeps f r (renamedIn f g r (ids ++ [id])) s' := by
  obtain rfl := h.names_eq
  have hblock? : s.function.block? id = some (f.blockAt id) := by
    rw [h.block?_eq, hvisible.block?_eq, Option.map_some, renamedIn, if_neg hid]
  have hname : s.function.name = f.name := by rw [h.frame]
  have hparams' : s.function.params = f.params := by rw [h.frame]
  unfold renameBlock onNames updateBlock
  simp only [Stage.meets_bind, Stage.meets_get, Stage.meets_ofExcept,
    Function.block_of_block? hblock?, Stage.meets_zoom,
    Renaming.headNames_congr hname hparams']
  refine (Renaming.headNames_of_settled hdone.named hvisible.id_le hparams hsettled).imp ?_
  rintro names _ ⟨rfl, hnames⟩
  have hblock {b : Block} (hb : f.block? id = some b) : f.blockAt id = b := by
    rw [Function.blockAt, hb, Option.getD_some]
  split <;> rename_i hkind
  · obtain ⟨_, o, _, _, hpassed, -⟩ := hsettled.out
    obtain ⟨ds, hds, -, -⟩ := hpassed.basic hkind
    unfold Renaming.defNames
    simp only [Stage.meets_bind, Stage.meets_get, hds, Stage.meets_pure, Stage.meets_zoom,
      Stage.meets_modify]
    refine h.rename hid _ fun b hb ↦ ?_
    unfold renamed
    rw [← hblock hb, hkind, Env.renameInstrs_eq, hnames, hds]
    rfl
  · rw [Stage.meets_modify]
    refine h.rename hid _ fun b hb ↦ ?_
    unfold renamed
    rw [← hblock hb, hkind, Names.rename_eq, hnames]
  · rw [Stage.meets_modify]
    refine h.rename hid _ fun b hb ↦ ?_
    unfold renamed
    rw [← hblock hb, hkind, Names.rename_eq, hnames]
  all_goals
    refine Stage.meets_pure.2 (h.congr fun c b hb ↦ ?_)
    unfold renamedIn
    by_cases hc : c = id
    · subst hc
      simp [hid, renamed, ← hblock hb, hkind]
    · simp [hc]

/-! ## Placing assignments -/

/-- Blocks renamed in `g.order` that hold the assignments of some edges. -/
def fedBy (f : Function) (g : Graph) (r : Renaming) (es : List Edge) (c : BlockId) (b : Block) :
    Block :=
  placed f r (es.filter fun e ↦ e.src = c) (headCount r c b) (renamedIn f g r g.order c b)

/-- Where assignments are made on the way into a construct, it is a loop. -/
def EntersLoops (f : Function) (r : Renaming) (es : List Edge) : Prop :=
  ∀ e ∈ es, e.site = .enter → copiesOf f r e = [] ∨ (f.blockAt e.src).kind = .loop

@[simp]
theorem renamedIn_kind (ids : List BlockId) (c : BlockId) (b : Block) :
    (renamedIn f g r ids c b).kind = b.kind := by
  unfold renamedIn renamed
  split
  · dsimp only
    split <;> simp [*]
  · rfl

@[simp]
theorem renamedIn_inside (ids : List BlockId) (c : BlockId) (b : Block) :
    (renamedIn f g r ids c b).body = b.body
      ∧ (renamedIn f g r ids c b).otherwise = b.otherwise := by
  unfold renamedIn renamed
  split
  · dsimp only
    split <;> simp
  · exact ⟨rfl, rfl⟩

@[simp]
theorem renamedIn_copies (ids : List BlockId) (c : BlockId) (b : Block) :
    (renamedIn f g r ids c b).exitCopies = b.exitCopies
      ∧ (renamedIn f g r ids c b).aroundCopies = b.aroundCopies
      ∧ (renamedIn f g r ids c b).entryCopies = b.entryCopies := by
  unfold renamedIn renamed
  split
  · dsimp only
    split <;> simp
  · exact ⟨rfl, rfl, rfl⟩

@[simp]
theorem fedBy_kind (es : List Edge) (c : BlockId) (b : Block) :
    (fedBy f g r es c b).kind = b.kind := by
  simp [fedBy, placed]

theorem fedBy_append_of_ne (es : List Edge) {e : Edge} {c : BlockId} (hc : c ≠ e.src) (b : Block) :
    fedBy f g r es c b = fedBy f g r (es ++ [e]) c b := by
  simp [fedBy, hc.symm]

theorem fedBy_append_self (es : List Edge) (e : Edge) (b : Block) :
    fedBy f g r (es ++ [e]) e.src b =
      placed f r [e] (headCount r e.src b) (fedBy f g r es e.src b) := by
  simp [fedBy, placed_append]

/-- One more edge has its assignments placed. -/
theorem Keeps.feed {es : List Edge} (h : Keeps f r (fedBy f g r es) s) (e : Edge)
    (change : Block → Block)
    (hchange : ∀ b, f.block? e.src = some b → change (fedBy f g r es e.src b) =
      placed f r [e] (headCount r e.src b) (fedBy f g r es e.src b)) :
    Keeps f r (fedBy f g r (es ++ [e]))
      { s with function := s.function.updateBlock e.src change } := by
  refine h.update e.src change (fun b hb ↦ ?_) fun c hc b ↦ fedBy_append_of_ne es hc b
  rw [hchange b hb, fedBy_append_self]

theorem placed_branch {e : Edge} (hsite : e.site = .branch) (count : Nat) (b : Block) :
    placed f r [e] count b =
      { b with
        instrs := b.instrs.modify (e.instr + count) fun i ↦
          { i with copies := i.copies ++ copiesOf f r e } } := by
  have hinstrs : (b.instrs.mapIdx fun k i ↦
        { i with copies := i.copies ++ branchCopies f r [e] count k }) =
      b.instrs.modify (e.instr + count) fun i ↦
        { i with copies := i.copies ++ copiesOf f r e } := by
    refine List.ext_getElem? fun k ↦ ?_
    rw [List.getElem?_mapIdx, List.getElem?_modify]
    cases b.instrs[k]? with
    | none => rfl
    | some i =>
      by_cases hk : e.instr + count = k
      · simp [branchCopies, hsite, hk]
      · simp [branchCopies, hsite, hk]
  simp [placed, copiesAt_singleton, hsite, hinstrs]

theorem placed_of_ne_branch {e : Edge} (hsite : e.site ≠ .branch) (count : Nat) (b : Block) :
    placed f r [e] count b =
      { b with
        exitCopies := b.exitCopies ++ copiesAt f r [e] .fallthrough
        aroundCopies := b.aroundCopies ++ copiesAt f r [e] .around
        entryCopies := b.entryCopies ++ copiesAt f r [e] .enter } := by
  have hnone (k : Nat) : branchCopies f r [e] count k = [] := by simp [branchCopies, hsite]
  simp [placed, hnone, List.mapIdx_eq_zipIdx_map]

theorem EntersLoops.append {es : List Edge} (h : EntersLoops f r es) {e : Edge}
    (he : e.site = .enter → copiesOf f r e = [] ∨ (f.blockAt e.src).kind = .loop) :
    EntersLoops f r (es ++ [e]) := by
  intro e' he'
  rcases List.mem_append.1 he' with he' | he'
  · exact h e' he'
  · rw [List.mem_singleton.1 he']
    exact he

theorem placeCopies_ensures {es : List Edge} (h : Keeps f r (fedBy f g r es) s)
    (hloops : EntersLoops f r es) (e : Edge) :
    Ensures (placeCopies e (copiesOf f r e)) s fun _ s' ↦
      Keeps f r (fedBy f g r (es ++ [e])) s' ∧ EntersLoops f r (es ++ [e]) := by
  unfold placeCopies updateBlock
  simp only [Stage.meets_bind, Stage.meets_get, Stage.meets_ofExcept]
  split
  · rename_i source hsource
    obtain ⟨b, hb, rfl⟩ : ∃ b, f.block? e.src = some b ∧ source = fedBy f g r es e.src b := by
      unfold Function.block at hsource
      rw [h.block?_eq] at hsource
      cases hb : f.block? e.src with
      | none => rw [hb] at hsource; cases hsource
      | some b => rw [hb] at hsource; cases hsource; exact ⟨b, rfl, rfl⟩
    have hcount : s.mergeCount e.src = headCount r e.src b := by
      unfold mergeCount headCount
      rw [h.block?_eq, hb, h.names_eq]
      simp only [Option.map_some, fedBy_kind]
      cases b.kind <;> rfl
    have hat {b' : Block} (hb' : f.block? e.src = some b') : b' = b :=
      Option.some.inj (hb'.symm.trans hb)
    cases hsite : e.site with
    | fallthrough =>
      rw [Stage.meets_modify]
      refine ⟨h.feed e _ fun b' _ ↦ ?_, hloops.append (by simp [hsite])⟩
      simp [placed_of_ne_branch, copiesAt_singleton, hsite]
    | branch =>
      rw [Stage.meets_modify]
      refine ⟨h.feed e _ fun b' hb' ↦ ?_, hloops.append (by simp [hsite])⟩
      rw [placed_branch hsite, hcount, hat hb']
    | around =>
      rw [Stage.meets_modify]
      refine ⟨h.feed e _ fun b' _ ↦ ?_, hloops.append (by simp [hsite])⟩
      simp [placed_of_ne_branch, copiesAt_singleton, hsite]
    | enter =>
      dsimp only
      split
      · trivial
      · rename_i hkind
        rw [fedBy_kind, ne_eq, not_not] at hkind
        have hloop : (f.blockAt e.src).kind = .loop := by rw [Function.blockAt, hb]; exact hkind
        refine Stage.meets_modify.2 ⟨h.feed e _ fun b' _ ↦ ?_, hloops.append fun _ ↦ .inr hloop⟩
        simp [placed_of_ne_branch, copiesAt_singleton, hsite]
  · trivial

section

variable {err : Failure → Prop}

/-- Placing the assignments that feed the merges of a block, given that it can be done for every
edge that makes any. -/
theorem feedMerges_meets {es : List Edge} (h : Keeps f r (fedBy f g r es) s)
    (hloops : EntersLoops f r es) {id : BlockId}
    (hplace : ∀ (es : List Edge) (t : Conversion), Keeps f r (fedBy f g r es) t →
      EntersLoops f r es → ∀ e ∈ g.preds id, copiesOf f r e ≠ [] →
      Stage.Meets (placeCopies e (copiesOf f r e)) t err fun _ t' ↦
        Keeps f r (fedBy f g r (es ++ [e])) t' ∧ EntersLoops f r (es ++ [e])) :
    Stage.Meets (feedMerges g id) s err fun _ s' ↦
      Keeps f r (fedBy f g r (es ++ g.preds id)) s' ∧ EntersLoops f r (es ++ g.preds id) := by
  have hmerges : s.mergesOf id = mergesOf { function := f, names := r } id := by
    rw [← h.names_eq]
    rfl
  unfold feedMerges
  simp only [Stage.meets_bind, Stage.meets_get, hmerges]
  refine (Stage.meets_forIn (fun done (_ : PUnit) (t : Conversion) ↦
    Keeps f r (fedBy f g r (es ++ done)) t ∧ EntersLoops f r (es ++ done))
    (by rw [List.append_nil]; exact ⟨h, hloops⟩) ?_)
  rintro done e rest _ t hl ⟨ht, htloops⟩
  have hmem : e ∈ g.preds id := by simp [hl]
  have hcopies : t.edgeCopies e (mergesOf { function := f, names := r } id) = copiesOf f r e := by
    rw [← (Flow.Graph.mem_preds.1 hmem).2]
    unfold copiesOf edgeCopies
    rw [ht.names_eq]
  simp only [Stage.meets_bind, Stage.meets_get, hcopies]
  rw [← List.append_assoc]
  split
  · rename_i hsome
    rw [Stage.meets_bind]
    refine (hplace _ t ht htloops e hmem fun hnil ↦ ?_).imp fun _ t' ht' ↦ ⟨_, rfl, ht'⟩
    rw [hnil] at hsome
    cases hsome
  · rename_i hempty
    have hnil : copiesOf f r e = [] := by simpa using hempty
    refine ⟨_, rfl, ht.congr fun c b _ ↦ ?_, htloops.append fun _ ↦ .inl hnil⟩
    by_cases hc : c = e.src
    · rw [hc, fedBy_append_self, placed_of_nil hnil]
    · rw [fedBy_append_of_ne _ hc]

/-- The edges into reachable blocks, as their assignments are placed. -/
def fedEdges (g : Graph) : List Edge :=
  g.order.flatMap g.preds

/-- Renaming all blocks and feeding their merges, given that it can be done for every one. -/
theorem renameAll_meets (hnodup : g.order.Nodup)
    (hrename : ∀ (ids : List BlockId) (t : Conversion), Keeps f r (renamedIn f g r ids) t →
      ∀ id ∈ g.order, id ∉ ids → Stage.Meets (renameBlock g id) t err fun _ t' ↦
        Keeps f r (renamedIn f g r (ids ++ [id])) t')
    (hplace : ∀ (es : List Edge) (t : Conversion), Keeps f r (fedBy f g r es) t →
      EntersLoops f r es → ∀ e ∈ g.edges, copiesOf f r e ≠ [] →
      Stage.Meets (placeCopies e (copiesOf f r e)) t err fun _ t' ↦
        Keeps f r (fedBy f g r (es ++ [e])) t' ∧ EntersLoops f r (es ++ [e])) :
    Stage.Meets (renameAll g) { function := f, names := r } err fun _ s' ↦
      Keeps f r (fedBy f g r (fedEdges g)) s' ∧ EntersLoops f r (fedEdges g) := by
  unfold renameAll
  rw [Stage.meets_bind]
  refine (Stage.meets_forM (fun done s ↦ Keeps f r (renamedIn f g r done) s)
    ⟨rfl, rfl, rfl, fun c ↦ by cases f.block? c <;> simp [renamedIn]⟩ ?_).imp ?_
  · intro done id rest s hl hs
    have hid : id ∉ done := by
      rw [hl] at hnodup
      exact fun hid ↦ (List.nodup_append.1 hnodup).2.2 id hid id List.mem_cons_self rfl
    exact hrename done s hs id (by simp [hl]) hid
  · intro _ s hs
    refine Stage.meets_forM (fun done s ↦ Keeps f r (fedBy f g r (done.flatMap g.preds)) s
      ∧ EntersLoops f r (done.flatMap g.preds)) ⟨hs.congr fun c b _ ↦ ?_, ?_⟩ ?_
    · simp [fedBy]
    · intro e he
      cases he
    · rintro done id rest t - ⟨ht, hloops⟩
      rw [List.flatMap_append, List.flatMap_singleton]
      exact feedMerges_meets ht hloops fun es t' ht' hloops' e he ↦
        hplace es t' ht' hloops' e (Flow.Graph.mem_preds.1 he).1

end

theorem renameAll_ensures (hdone : Renaming.Done f g r birth)
    (hparams : f.params.length ≤ f.vars.size) (hnodup : g.order.Nodup)
    (hvisible : ∀ id ∈ g.order, Renaming.Visible f g id) :
    Ensures (renameAll g) { function := f, names := r } fun _ s' ↦
      Keeps f r (fedBy f g r (fedEdges g)) s' ∧ EntersLoops f r (fedEdges g) :=
  renameAll_meets hnodup
    (fun _ _ hs id hmem hid ↦
      renameBlock_ensures hdone hparams hs hid (hvisible id hmem) (hdone.settled id hmem))
    fun _ _ ht hloops e _ _ ↦ placeCopies_ensures ht hloops e

end

end Conversion

/-- How a shaped function, its graph and what conversion makes of it belong together. -/
structure Converted (f : Function) (ts : Forest) (f' : Function) (g : Graph) (r : Renaming)
    (birth : Var → Birth) : Prop where
  shaped : f.Shaped ts
  describes : g.Describes f ts
  done : Renaming.Done f g r birth
  frame : f' = { f with blocks := f'.blocks, vars := r.vars }
  size_eq : f'.blocks.size = f.blocks.size
  block?_eq : ∀ c, f'.block? c =
    (f.block? c).map (Conversion.fedBy f g r (Conversion.fedEdges g) c)
  enters : Conversion.EntersLoops f r (Conversion.fedEdges g)

theorem converted_of_convert {f f' : Function} {g : Graph} (hf : f.isShaped)
    (h : convert f = .ok (f', g)) : ∃ ts r birth, Converted f ts f' g r birth := by
  obtain ⟨ts, hshaped⟩ := Function.shaped_of_isShaped hf
  have hbody : f.body.isEmpty = false := by
    obtain ⟨id, rest, rfl⟩ := Forest.exists_basic_of_isArranged hshaped.arranged
    rw [hshaped.body_eq]
    rfl
  unfold convert at h
  cases hgraph : Graph.ofFunction f with
  | error e => rw [hgraph] at h; cases h
  | ok g₀ =>
    have hdescribes := Flow.Graph.describes_of_ofFunction hshaped.toWellFormed hgraph
    have hvisible (id : BlockId) (hid : id ∈ g₀.order) : Renaming.Visible f g₀ id :=
      Renaming.visible_of_mem_order hshaped hdescribes hid
    simp only [hgraph, hbody, bind, Except.bind, pure, Except.pure, Bool.false_eq_true,
      if_false] at h
    rcases hsettle : (Renaming.settle f g₀ Renaming.roundLimit).runFrom (Renaming.ofFunction f)
      with ⟨_ | ⟨⟨⟩⟩, r⟩
    · rw [hsettle] at h
      cases h
    · obtain ⟨birth, hdone⟩ := Renaming.done_of_settle hshaped hdescribes hsettle
      rw [hsettle] at h
      rcases hrename : (Conversion.renameAll g₀).runFrom { function := f, names := r }
        with ⟨_ | ⟨⟨⟩⟩, s⟩
      · rw [hrename] at h
        cases h
      · obtain ⟨hkeeps, henters⟩ := (Conversion.renameAll_ensures hdone hshaped.params_le
          hdescribes.order_nodup hvisible).of_eq hrename
        rw [hrename] at h
        cases h
        refine ⟨ts, r, birth, hshaped, hdescribes, hdone, ?_, hkeeps.size_eq, hkeeps.block?_eq,
          henters⟩
        rw [hkeeps.names_eq, hkeeps.frame]

end WasmBackend.SingleAssignment
