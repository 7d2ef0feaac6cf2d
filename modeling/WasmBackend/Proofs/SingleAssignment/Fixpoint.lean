import WasmBackend.Proofs.Shape
import WasmBackend.Proofs.SingleAssignment.Rewriting

/-!
# Names that stay

Rounds stop when no block passes on other names at its end, while edges may leave from the middle
of a block as well.  Where branches end their blocks the end is all there is, so looking at any
block once more finds the names that are there, and the block behind an edge starts from those at
the end of the block before it.
-/

namespace WasmBackend.SingleAssignment

open Ir (BlockId Function Var)
open WasmBackend.Flow (Graph)
open Stage (Succeeds)

namespace Renaming

variable {f : Function} {g : Graph} {r : Renaming} {birth : Var → Birth} {id : BlockId}

/-- The head of a settled block is found again. -/
theorem succeeds_headNames (h : r.Named f birth) (hid : id ≤ f.blocks.size)
    (hparams : f.params.length ≤ f.vars.size) (hsettled : Settled f g r id) :
    Succeeds (headNames f g id) r fun names r' ↦
      r' = r ∧ Names.get? names = headEnv f g r id ∧ names.Trim := by
  have hreturns : Succeeds (headNames f g id) r fun _ r' ↦ r' = r := by
    unfold headNames
    rw [Succeeds, Stage.meets_bind, Stage.meets_get]
    refine Stage.meets_foldlM (fun _ _ r' ↦ r' = r) rfl ?_
    intro done v rest names r' _ hr
    subst hr
    rw [Stage.meets_bind]
    refine Stage.succeeds_iff.2 ⟨_, _, headName_apply (hsettled.undisputed v), ?_⟩
    generalize chosen _ _ _ = name?
    cases name? with
    | none => exact rfl
    | some name => exact rfl
  refine ((hreturns.and (headNames_of_settled h hid hparams hsettled)).and
    (headNames_found f g (h.lt_size hid))).imp ?_
  rintro names r' ⟨⟨hr, -, hget⟩, hfound⟩
  exact ⟨hr, hget, hfound.trim⟩

/-- Writing down what is there changes nothing. -/
theorem modify_block_self {k : BlockNames → BlockNames} (hk : k (r.block id) = r.block id) :
    ({ r with blocks := r.blocks.modify id k } : Renaming) = r := by
  have hblocks : r.blocks.modify id k = r.blocks := by
    apply Array.ext_getElem?
    intro i
    rw [Array.getElem?_modify]
    split
    · rename_i hi
      subst hi
      cases hb : r.blocks[id]? with
      | none => rfl
      | some b =>
        have hblock : r.block id = b := by
          rw [block, Array.getD_eq_getD_getElem?, hb]
          rfl
        rw [Option.map_some, ← hblock, hk]
    · rfl
  rw [hblocks]

/-- Looking at a settled block once more changes nothing. -/
theorem visit_of_settled (h : r.Named f birth) (hid : Visible f g id)
    (hparams : f.params.length ≤ f.vars.size) (hsettled : Settled f g r id) :
    visit f g id r = (.ok false, r) := by
  obtain ⟨names, o, hnames, hout, hpassed, htrim⟩ := hsettled.out
  obtain ⟨names', r', hhead, hr, hget, htrim'⟩ :=
    Stage.succeeds_iff.1 (succeeds_headNames h hid.id_le hparams hsettled)
  obtain rfl := htrim.eq_of_get?_eq htrim' (hnames.trans hget.symm)
  rw [hr] at hhead
  -- the same names go in, so the same names come out, at the end and along every branch
  have htransfer : transfer f id (f.blockAt id) names r = (.ok o, r) := by
    unfold transfer
    split
    · rename_i hkind
      rw [hpassed.other hkind]
      rfl
    · rename_i hkind
      obtain ⟨ds, hds, -, hthrough⟩ := hpassed.basic (not_not.1 hkind)
      have hdefs : defNames f id (f.blockAt id) r = (.ok ds, r) := by
        unfold defNames
        rw [Stage.bind_apply, Stage.get_apply]
        simp only [hds]
        rfl
      rw [Stage.bind_apply, hdefs]
      simp only [hthrough]
      show (Except.ok o, ({ r with blocks := r.blocks.modify id fun k ↦
        { k with branches := (r.block id).branches } } : Renaming)) = _
      rw [modify_block_self rfl]
  unfold visit
  rw [Stage.bind_apply, Function.block_of_block? hid.block?_eq]
  show ((headNames f g id >>= fun names ↦ transfer f id (f.blockAt id) names >>= _) r) = _
  rw [Stage.bind_apply, hhead]
  dsimp only
  rw [Stage.bind_apply, htransfer]
  dsimp only
  rw [Stage.bind_apply, Stage.get_apply]
  dsimp only
  rw [if_pos hout]
  rfl

/-- **Settled names are a fixpoint.**  When the renaming of a shaped function has settled, looking
at a reachable block once more makes no merge and changes no names that are known; along every edge
go the names at the end of its source. -/
theorem fixpoint_of_settle (hf : f.isShaped) (hg : Graph.ofFunction f = .ok g) {limit : Nat}
    {names : Renaming} (h : (settle f g limit).runFrom (ofFunction f) = (.ok (), names)) :
    (∀ id ∈ g.order, (visit f g id).runFrom names = (.ok false, names)) ∧
      ∀ e ∈ g.edges, names.along e = (names.block e.src).out := by
  obtain ⟨ts, hshaped⟩ := Function.shaped_of_isShaped hf
  have hdescribes := Flow.Graph.describes_of_ofFunction hshaped.toWellFormed hg
  obtain ⟨birth, hdone⟩ := done_of_settle hshaped hdescribes h
  refine ⟨fun id hid ↦ ?_, hdone.consistent⟩
  exact visit_of_settled hdone.named (visible_of_mem_order hshaped hdescribes hid)
    hshaped.params_le (hdone.settled id hid)

/-- A breakable block that a loop in it leaves in the middle of a block, before a variable is
assigned again. -/
def leftMidway : Function where
  name := "leftMidway"
  params := [.i32]
  result := .i32
  vars := #[.i32, .i32]
  blocks := #[
    { instrs := [{ op := .const, dst := [1] }] },
    { kind := .breakable, body := [3, 4, 6] },
    { instrs := [{ op := .exitIf, args := [0], target := 2 }] },
    { kind := .loop, body := [5] },
    { instrs := [{ op := .exitIf, args := [1], target := 2 }, { op := .const, dst := [1] }] },
    {},
    {},
    { instrs := [{ op := .ret, args := [1] }] }]
  body := [1, 2, 7, 8]

/-- Settled names may change where a branch stands in the middle of a block: the rounds do not
compare what it passes on. -/
example : ((Stage.ofExcept (Graph.ofFunction leftMidway) >>= fun g ↦
    settle leftMidway g 8 >>= fun _ ↦ visit leftMidway g 7).runFrom (ofFunction leftMidway)).1
      = .ok true := by
  decide +kernel

end Renaming

end WasmBackend.SingleAssignment
