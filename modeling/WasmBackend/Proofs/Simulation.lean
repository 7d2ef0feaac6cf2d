import WasmBackend.Proofs.Execution
import WasmBackend.Proofs.Flow.Wiring

/-!
# Two functions on the same trees

To compare the runs of two functions that have the same trees it is enough to compare their single
blocks.  `At b` relates the states in which control arrives at block `b`; `Forest.Simulates` asks
of every block that related states lead to related states wherever control goes next.  Then whole
runs are related, loops included, whatever their budget.  When `lenient` holds, the first run may
also trap, and nothing is said about the second then.
-/

namespace WasmBackend.Ir

variable {V W : Type}

/-- How states of two runs are related. -/
structure Correspondence (V W : Type) where
  /-- Where control arrives at a block; 0 is the end of the function. -/
  At : BlockId → State V W → State V W → Prop
  /-- Where a run stops. -/
  Stopped : State V W → State V W → Prop
  stopped_of_at : ∀ {b s s'}, At b s s' → Stopped s s'
  /-- Whether nothing is claimed once the first run has trapped. -/
  lenient : Prop := False

namespace Correspondence

variable (c : Correspondence V W)

/-- The states are related where control goes to. -/
def Landed (d : Targets) (next : BlockId) (s s' : State V W) : Exit V → Prop
  | .fall => c.At next s s'
  | .exit target => c.At (d.exits target) s s'
  | .next target => c.At (d.heads target) s s'
  | .ret _ | .trap _ | .never | .pause => c.Stopped s s'

/-- Two runs end the same way in related states, or the first one traps and that is allowed. -/
def Matches (d : Targets) (next : BlockId) (p p' : State V W × Exit V) : Prop :=
  (c.lenient ∧ ∃ reason, p.2 = .trap reason) ∨ (p.2 = p'.2 ∧ c.Landed d next p.1 p'.1 p.2)

variable {c} {d : Targets} {next : BlockId}

theorem Landed.stopped {s s' : State V W} {x : Exit V} (h : c.Landed d next s s' x) :
    c.Stopped s s' := by
  cases x with
  | fall | exit | next => exact c.stopped_of_at h
  | _ => exact h

theorem Matches.andThen {mid : BlockId} {r₁ r₂ r₁' r₂' : Run V W} {s s' : State V W}
    (h : c.Matches d mid (r₁ s) (r₁' s'))
    (hrest : ∀ t t', c.At mid t t' → c.Matches d next (r₂ t) (r₂' t')) :
    c.Matches d next (Run.andThen r₁ r₂ s) (Run.andThen r₁' r₂' s') := by
  unfold Run.andThen
  rcases hr : r₁ s with ⟨t, x⟩
  rcases hr' : r₁' s' with ⟨t', x'⟩
  rw [hr, hr'] at h
  rcases h with ⟨hlenient, reason, hx⟩ | ⟨hx, hlanded⟩
  · dsimp only at hx
    subst hx
    exact .inl ⟨hlenient, reason, rfl⟩
  · dsimp only at hx
    subst hx
    cases x with
    | fall => exact hrest t t' hlanded
    | _ => exact .inr ⟨rfl, hlanded⟩

end Correspondence

variable (m : Machine V W) (c : Correspondence V W) (f f' : Function)

mutual

/-- Related states lead every block of a tree to related states, wherever control goes. -/
def Tree.Simulates (d : Targets) (next : BlockId) : Tree → Prop
  | .basic id => ∀ s s', c.At id s s' →
      c.Matches d next ((f.blockAt id).run m s) ((f'.blockAt id).run m s')
  | .cond id body =>
    (∀ s s', c.At id s s' → s.vars (f.blockAt id).cond = s'.vars (f'.blockAt id).cond
      ∧ c.At (Forest.first body next) s s'
      ∧ c.At next (s.assign (f.blockAt id).aroundCopies) (s'.assign (f'.blockAt id).aroundCopies))
      ∧ Forest.Simulates d next body
  | .branch id body other =>
    (∀ s s', c.At id s s' → s.vars (f.blockAt id).cond = s'.vars (f'.blockAt id).cond
      ∧ c.At (Forest.first body next) s s' ∧ c.At (Forest.first other next) s s')
      ∧ Forest.Simulates d next body ∧ Forest.Simulates d next other
  | .loop id body =>
    (∀ s s', c.At id s s' →
      c.At (Forest.first body id) (s.assign (f.blockAt id).entryCopies)
        (s'.assign (f'.blockAt id).entryCopies))
      ∧ Forest.Simulates (d.loop id next (Forest.first body id)) (Forest.first body id) body
  | .breakable id body =>
    (∀ s s', c.At id s s' → c.At (Forest.first body next) s s')
      ∧ Forest.Simulates (d.breakable id next) next body

/-- Related states lead every block of a forest to related states. -/
def Forest.Simulates (d : Targets) (fall : BlockId) : Forest → Prop
  | [] => True
  | t :: ts => Tree.Simulates d (Forest.first ts fall) t ∧ Forest.Simulates d fall ts

end

variable {m c f f'} {d : Targets} {next : BlockId}

theorem Correspondence.Matches.choose {b b' : Block} {yes no yes' no' : Run V W}
    {s s' : State V W} (hcond : s.vars b.cond = s'.vars b'.cond) (hstop : c.Stopped s s')
    (hyes : c.Matches d next (yes s) (yes' s')) (hno : c.Matches d next (no s) (no' s')) :
    c.Matches d next (b.choose m yes no s) (b'.choose m yes' no' s') := by
  unfold Block.choose
  rw [← hcond]
  split
  · exact hyes
  · exact hno
  · exact .inr ⟨rfl, hstop⟩

/-- A loop matches when every run of its body does. -/
theorem Correspondence.Matches.repeatBody {id head : BlockId} {body body' : Run V W}
    (hbody : ∀ s s', c.At head s s' →
      c.Matches (d.loop id next head) head (body s) (body' s'))
    (budget : Nat) {s s' : State V W} (h : c.At head s s') :
    c.Matches d next (Ir.repeatBody id body budget s) (Ir.repeatBody id body' budget s') := by
  induction budget generalizing s s' with
  | zero => exact .inr ⟨rfl, c.stopped_of_at h⟩
  | succ budget ih =>
    unfold Ir.repeatBody
    have hmatch := hbody s s' h
    rcases hr : body s with ⟨t, x⟩
    rcases hr' : body' s' with ⟨t', x'⟩
    rw [hr, hr'] at hmatch
    rcases hmatch with ⟨hlenient, reason, hx⟩ | ⟨hx, hlanded⟩
    · dsimp only at hx
      subst hx
      exact .inl ⟨hlenient, reason, rfl⟩
    · dsimp only at hx
      subst hx
      cases x with
      | fall => exact ih hlanded
      | next target =>
        simp only [Landed, Targets.loop] at hlanded
        dsimp only
        split <;> rename_i htarget
        · rw [if_pos htarget] at hlanded
          exact ih hlanded
        · rw [if_neg htarget] at hlanded
          exact .inr ⟨rfl, hlanded⟩
      | exit target =>
        simp only [Landed, Targets.loop] at hlanded
        dsimp only
        split <;> rename_i htarget
        · rw [if_pos htarget] at hlanded
          exact .inr ⟨rfl, hlanded⟩
        · rw [if_neg htarget] at hlanded
          exact .inr ⟨rfl, hlanded⟩
      | _ => exact .inr ⟨rfl, hlanded⟩

/-- A breakable block matches when its body does. -/
theorem Correspondence.Matches.runBreakable {id : BlockId} {body body' : Run V W}
    {s s' : State V W} (h : c.Matches (d.breakable id next) next (body s) (body' s')) :
    c.Matches d next (Ir.runBreakable id body s) (Ir.runBreakable id body' s') := by
  unfold Ir.runBreakable
  rcases hr : body s with ⟨t, x⟩
  rcases hr' : body' s' with ⟨t', x'⟩
  rw [hr, hr'] at h
  rcases h with ⟨hlenient, reason, hx⟩ | ⟨hx, hlanded⟩
  · dsimp only at hx
    subst hx
    exact .inl ⟨hlenient, reason, rfl⟩
  · dsimp only at hx
    subst hx
    cases x with
    | exit target =>
      simp only [Landed, Targets.breakable] at hlanded
      dsimp only
      split <;> rename_i htarget
      · rw [if_pos htarget] at hlanded
        exact .inr ⟨rfl, hlanded⟩
      · rw [if_neg htarget] at hlanded
        exact .inr ⟨rfl, hlanded⟩
    | _ => exact .inr ⟨rfl, hlanded⟩

/-- Where single blocks lead to related states, so do trees and forests. -/
theorem Tree.matches_of_simulates (budget : Nat) :
    (∀ t : Tree, ∀ d next, t.Simulates m c f f' d next → ∀ s s', c.At t.id s s' →
        c.Matches d next (t.run m f budget s) (t.run m f' budget s')) ∧
      ∀ ts : Forest, ∀ d fall, Forest.Simulates m c f f' d fall ts →
        ∀ s s', c.At (Forest.first ts fall) s s' →
        c.Matches d fall (Forest.run m f budget ts s) (Forest.run m f' budget ts s') := by
  refine Tree.induction ?basic ?cond ?branch ?loop ?breakable ?nil ?cons
  case basic =>
    intro id d next h s s' hs
    exact h s s' hs
  case cond =>
    intro id body ih d next h s s' hs
    obtain ⟨hcond, henter, haround⟩ := h.1 s s' hs
    exact Correspondence.Matches.choose hcond (c.stopped_of_at hs) (ih d next h.2 s s' henter)
      (.inr ⟨rfl, haround⟩)
  case branch =>
    intro id body other ih ih' d next h s s' hs
    obtain ⟨hcond, hbody, hother⟩ := h.1 s s' hs
    exact Correspondence.Matches.choose hcond (c.stopped_of_at hs) (ih d next h.2.1 s s' hbody)
      (ih' d next h.2.2 s s' hother)
  case loop =>
    intro id body ih d next h s s' hs
    refine Correspondence.Matches.repeatBody (fun t t' ht ↦ ?_) budget (h.1 s s' hs)
    refine ih _ _ h.2 t t' ?_
    cases body with
    | nil => exact ht
    | cons _ _ => exact ht
  case breakable =>
    intro id body ih d next h s s' hs
    exact Correspondence.Matches.runBreakable (ih _ next h.2 s s' (h.1 s s' hs))
  case nil =>
    intro d fall _ s s' hs
    exact .inr ⟨rfl, hs⟩
  case cons =>
    intro t ts ih ihs d fall h s s' hs
    exact Correspondence.Matches.andThen (ih d _ h.1 s s' hs) (ihs d fall h.2)

end WasmBackend.Ir
