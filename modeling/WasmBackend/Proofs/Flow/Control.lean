import WasmBackend.Proofs.Trimmed

/-!
# How control moves

Control stands at a block, with blocks behind it in the same list and constructs around it.  Every
condition may go either way, so what a block computes does not matter: `Function.Moves` says where
control may stand next, `Function.Occurs` where a block of the function stands, and
`Function.Reaches` where control gets to from the start.  No graph and no table of targets is
involved; a `Point` carries all the context that a step needs.
-/

namespace WasmBackend.Ir

/-- A construct that control is inside of. -/
structure Level where
  id : BlockId
  /-- The blocks behind the construct, in the list it stands in. -/
  behind : List BlockId
deriving DecidableEq

/-- A block that control may stand at. -/
structure Point where
  block : BlockId
  /-- The blocks behind the block, in the list it stands in. -/
  rest : List BlockId
  /-- The constructs around the block, innermost first. -/
  levels : List Level
deriving DecidableEq

/-- The lists of blocks that control enters from a structured block. -/
def Block.arms (b : Block) : List (List BlockId) :=
  match b.kind with
  | .cond | .loop | .breakable => [b.body]
  | .branch => [b.body, b.otherwise]
  | .basic | .unknown _ _ => []

/-- The innermost construct with a number, and the constructs around it. -/
def enclosing (target : BlockId) : List Level → Option (Level × List Level)
  | [] => none
  | l :: levels => if l.id = target then some (l, levels) else enclosing target levels

namespace Function

/-- The head of a loop: its first block, or the loop itself when nothing is inside. -/
def restart (f : Function) (l : Level) (around : List Level) : Point :=
  match (f.blockAt l.id).body with
  | [] => ⟨l.id, l.behind, around⟩
  | id :: rest => ⟨id, rest, l :: around⟩

/-- Where control goes when these blocks are left of a list inside some constructs.  Behind the
last block a loop starts again and any other construct is left; behind the last block of the
function control leaves the function. -/
def arrive (f : Function) : List BlockId → List Level → Option Point
  | id :: rest, levels => some ⟨id, rest, levels⟩
  | [], [] => none
  | [], l :: levels =>
    if (f.blockAt l.id).kind = .loop then some (f.restart l levels) else f.arrive l.behind levels

/-- Control may go directly from one point to another; through a branch instruction when its
position is given. -/
inductive Moves (f : Function) : Point → Option Nat → Point → Prop
  | fall {p q : Point} (hkind : (f.blockAt p.block).kind = .basic)
      (hopen : ∀ i ∈ (f.blockAt p.block).instrs, ¬i.terminates)
      (hq : f.arrive p.rest p.levels = some q) : Moves f p none q
  | leave {p q : Point} {before after : List Instr} {i : Instr} {l : Level} {around : List Level}
      (hkind : (f.blockAt p.block).kind = .basic)
      (hinstrs : (f.blockAt p.block).instrs = before ++ i :: after)
      (hopen : ∀ j ∈ before, ¬j.terminates) (hop : i.op = .exit ∨ i.op = .exitIf)
      (htarget : enclosing i.target p.levels = some (l, around))
      (hl : (f.blockAt l.id).kind = .loop ∨ (f.blockAt l.id).kind = .breakable)
      (hq : f.arrive l.behind around = some q) : Moves f p (some before.length) q
  | again {p : Point} {before after : List Instr} {i : Instr} {l : Level} {around : List Level}
      (hkind : (f.blockAt p.block).kind = .basic)
      (hinstrs : (f.blockAt p.block).instrs = before ++ i :: after)
      (hopen : ∀ j ∈ before, ¬j.terminates) (hop : i.op = .next)
      (htarget : enclosing i.target p.levels = some (l, around))
      (hl : (f.blockAt l.id).kind = .loop) :
      Moves f p (some before.length) (f.restart l around)
  | skip {p q : Point} (hkind : (f.blockAt p.block).kind = .cond)
      (hq : f.arrive p.rest p.levels = some q) : Moves f p none q
  | enter {p q : Point} {arm : List BlockId} (harm : arm ∈ (f.blockAt p.block).arms)
      (hq : f.arrive arm (⟨p.block, p.rest⟩ :: p.levels) = some q) : Moves f p none q

/-- A block of the function stands at this point. -/
inductive Occurs (f : Function) : Point → Prop
  | body {before rest : List BlockId} {id : BlockId} (h : f.body = before ++ id :: rest) :
      Occurs f ⟨id, rest, []⟩
  | arm {l : Level} {levels : List Level} {before rest : List BlockId} {id : BlockId}
      (hl : Occurs f ⟨l.id, l.behind, levels⟩)
      (harm : before ++ id :: rest ∈ (f.blockAt l.id).arms) : Occurs f ⟨id, rest, l :: levels⟩

/-- Control can get to a point from the start of the function. -/
def Reaches (f : Function) (p : Point) : Prop :=
  ∃ start, f.arrive f.body [] = some start
    ∧ Relation.ReflTransGen (fun p q ↦ ∃ through, f.Moves p through q) start p

/-- Control can pass directly from one block to another, through the branch instruction at a
position or not through a branch. -/
def Passes (f : Function) (a : BlockId) (through : Option Nat) (b : BlockId) : Prop :=
  ∃ p q, f.Occurs p ∧ p.block = a ∧ f.Moves p through q ∧ q.block = b

/-! ## Control stays at points of the function -/

section

variable {f : Function} {p q : Point} {l : Level} {ids rest : List BlockId} {id : BlockId}
  {levels around : List Level}

@[simp]
theorem arrive_cons : f.arrive (id :: rest) levels = some ⟨id, rest, levels⟩ := by
  rw [arrive]

theorem arrive_nil_cons : f.arrive [] (l :: levels) =
    if (f.blockAt l.id).kind = .loop then some (f.restart l levels)
    else f.arrive l.behind levels := by
  rw [arrive]

theorem Node.arms_eq {kind : BlockKind} {body other : List BlockId}
    (h : f.Node id kind body other) :
    (f.blockAt id).arms = Block.arms { kind := kind, body := body, otherwise := other } := by
  unfold Block.arms
  rw [h.kind_eq, h.body_eq, h.otherwise_eq]

theorem mem_arms_of_loop (h : (f.blockAt id).kind = .loop) :
    (f.blockAt id).body ∈ (f.blockAt id).arms := by
  simp [Block.arms, h]

theorem Occurs.restart (h : f.Occurs ⟨l.id, l.behind, levels⟩)
    (hl : (f.blockAt l.id).kind = .loop) : f.Occurs (f.restart l levels) := by
  unfold Function.restart
  split
  · exact h
  · rename_i id rest hbody
    have harm : [] ++ id :: rest ∈ (f.blockAt l.id).arms := by
      rw [List.nil_append, ← hbody]
      exact mem_arms_of_loop hl
    exact .arm h harm

/-- The constructs around a list of blocks, and the place of the list in the innermost of them. -/
def Inside (f : Function) (ids : List BlockId) : List Level → Prop
  | [] => ids <:+ f.body
  | l :: levels => f.Occurs ⟨l.id, l.behind, levels⟩ ∧ ∃ arm ∈ (f.blockAt l.id).arms, ids <:+ arm

theorem Occurs.inside (h : f.Occurs p) : f.Inside p.rest p.levels := by
  cases h with
  | @body before rest id h => exact ⟨before ++ [id], by rw [h, List.append_assoc]; rfl⟩
  | @arm l levels before rest id hl harm =>
    exact ⟨hl, _, harm, ⟨before ++ [id], by rw [List.append_assoc]; rfl⟩⟩

/-- Where control arrives stands a block. -/
theorem Inside.occurs (h : f.Inside ids levels) (hq : f.arrive ids levels = some q) :
    f.Occurs q := by
  induction levels generalizing ids with
  | nil =>
    cases ids with
    | nil => simp [arrive] at hq
    | cons id rest =>
      rw [arrive_cons, Option.some_inj] at hq
      obtain ⟨before, hbody⟩ := h
      exact hq ▸ .body hbody.symm
  | cons l levels ih =>
    obtain ⟨hl, arm, harm, before, rfl⟩ := h
    cases ids with
    | nil =>
      rw [arrive_nil_cons] at hq
      split at hq
      · rename_i hkind
        rw [Option.some_inj] at hq
        exact hq ▸ hl.restart hkind
      · exact ih hl.inside hq
    | cons id rest =>
      rw [arrive_cons, Option.some_inj] at hq
      exact hq ▸ .arm hl harm

theorem Occurs.of_enclosing {target : BlockId} (h : f.Inside ids levels)
    (htarget : enclosing target levels = some (l, around)) :
    f.Occurs ⟨l.id, l.behind, around⟩ := by
  induction levels generalizing ids with
  | nil => cases htarget
  | cons m levels ih =>
    rw [enclosing] at htarget
    split at htarget
    · cases htarget
      exact h.1
    · exact ih h.1.inside htarget

theorem Occurs.moves {through : Option Nat} (h : f.Occurs p) (hmoves : f.Moves p through q) :
    f.Occurs q := by
  cases hmoves with
  | fall _ _ hq | skip _ hq => exact h.inside.occurs hq
  | leave _ _ _ _ htarget _ hq => exact (Occurs.of_enclosing h.inside htarget).inside.occurs hq
  | again _ _ _ _ htarget hl => exact (Occurs.of_enclosing h.inside htarget).restart hl
  | @enter _ arm harm hq =>
    have hinside : f.Inside arm (⟨p.block, p.rest⟩ :: p.levels) :=
      ⟨h, arm, harm, List.suffix_refl arm⟩
    exact hinside.occurs hq

/-- Control only gets to blocks of the function. -/
theorem Reaches.occurs (h : f.Reaches p) : f.Occurs p := by
  obtain ⟨start, hstart, hmoves⟩ := h
  induction hmoves with
  | refl =>
    have hinside : f.Inside f.body [] := List.suffix_refl f.body
    exact hinside.occurs hstart
  | tail _ hmove ih => exact ih.moves hmove.choose_spec

theorem Reaches.moves {through : Option Nat} (h : f.Reaches p) (hmoves : f.Moves p through q) :
    f.Reaches q := by
  obtain ⟨start, hstart, hsteps⟩ := h
  exact ⟨start, hstart, hsteps.tail ⟨through, hmoves⟩⟩

end

/-! ## What control does not look at -/

/-- Two functions have the same body and blocks, as far as control looks at them. -/
structure SameControl (f f' : Function) : Prop where
  body_eq : f'.body = f.body
  kind_eq : ∀ id, (f'.blockAt id).kind = (f.blockAt id).kind
  inside_eq : ∀ id, (f'.blockAt id).body = (f.blockAt id).body
  instrs_eq : ∀ id, (f'.blockAt id).instrs = (f.blockAt id).instrs
  arms_eq : ∀ id, (f'.blockAt id).arms = (f.blockAt id).arms

namespace SameControl

variable {f f' : Function} {p q : Point} {through : Option Nat}

theorem symm (h : SameControl f f') : SameControl f' f where
  body_eq := h.body_eq.symm
  kind_eq id := (h.kind_eq id).symm
  inside_eq id := (h.inside_eq id).symm
  instrs_eq id := (h.instrs_eq id).symm
  arms_eq id := (h.arms_eq id).symm

theorem restart_eq (h : SameControl f f') (l : Level) (around : List Level) :
    f'.restart l around = f.restart l around := by
  unfold restart
  rw [h.inside_eq]

theorem arrive_eq (h : SameControl f f') (ids : List BlockId) (levels : List Level) :
    f'.arrive ids levels = f.arrive ids levels := by
  induction levels generalizing ids with
  | nil => cases ids <;> simp [arrive]
  | cons l levels ih =>
    cases ids with
    | nil => rw [arrive_nil_cons, arrive_nil_cons, h.kind_eq, h.restart_eq, ih]
    | cons id rest => rw [arrive_cons, arrive_cons]

theorem moves (h : SameControl f f') (hmoves : f.Moves p through q) : f'.Moves p through q := by
  cases hmoves with
  | fall hkind hopen hq =>
    exact .fall (by rw [h.kind_eq, hkind]) (by rwa [h.instrs_eq]) (by rw [h.arrive_eq, hq])
  | leave hkind hinstrs hopen hop htarget hl hq =>
    exact .leave (by rw [h.kind_eq, hkind]) (by rw [h.instrs_eq, hinstrs]) hopen hop htarget
      (by rwa [h.kind_eq]) (by rw [h.arrive_eq, hq])
  | again hkind hinstrs hopen hop htarget hl =>
    rw [← h.restart_eq]
    exact .again (by rw [h.kind_eq, hkind]) (by rw [h.instrs_eq, hinstrs]) hopen hop htarget
      (by rwa [h.kind_eq])
  | skip hkind hq => exact .skip (by rw [h.kind_eq, hkind]) (by rw [h.arrive_eq, hq])
  | enter harm hq => exact .enter (by rwa [h.arms_eq]) (by rw [h.arrive_eq, hq])

theorem occurs (h : SameControl f f') (hp : f.Occurs p) : f'.Occurs p := by
  induction hp with
  | body hbody => exact .body (h.body_eq.trans hbody)
  | arm _ harm ih => exact .arm ih (by rwa [h.arms_eq])

theorem reaches (h : SameControl f f') (hp : f.Reaches p) : f'.Reaches p := by
  obtain ⟨start, hstart, hsteps⟩ := hp
  refine ⟨start, by rw [h.body_eq, h.arrive_eq, hstart], ?_⟩
  exact Relation.ReflTransGen.mono (fun _ _ hstep ↦ hstep.imp fun _ ↦ h.moves) _ _ hsteps

theorem passes {a b : BlockId} (h : SameControl f f') (hp : f.Passes a through b) :
    f'.Passes a through b := by
  obtain ⟨p, q, hoccurs, ha, hmoves, hb⟩ := hp
  exact ⟨p, q, h.occurs hoccurs, ha, h.moves hmoves, hb⟩

end SameControl

/-- Control never looks at the lists that are dropped. -/
theorem sameControl_trimmed (f : Function) : SameControl f f.trimmed where
  body_eq := rfl
  kind_eq id := by simp
  inside_eq id := by simp
  instrs_eq id := by simp
  arms_eq id := by
    unfold Block.arms
    simp only [blockAt_trimmed, Block.kind_trimmed, Block.body_trimmed, Block.otherwise_trimmed]
    cases (f.blockAt id).kind <;> simp

end Function

end WasmBackend.Ir
