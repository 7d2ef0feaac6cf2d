import Mathlib.Data.List.DropRight
import WasmBackend.Trace.Sink

/-!
# The newest events

A ring that was handed a number of events keeps the newest of them, as many as it has places.  The
invariant speaks about all events that were ever handed to it: its places, read from the oldest
one on, are the end of that history, and they are all in use once the history is long enough.
-/

namespace WasmBackend.Trace

section Ends

variable {α : Type} {xs : List α} {x : α} {n : Nat}

theorem rtake_concat_of_lt (h : xs.length < n) : (xs ++ [x]).rtake n = xs.rtake n ++ [x] := by
  simp only [List.rtake, List.length_append, List.length_singleton]
  rw [Nat.sub_eq_zero_of_le h, Nat.sub_eq_zero_of_le h.le, List.drop_zero, List.drop_zero]

theorem rtake_concat_of_le (hpos : 0 < n) (h : n ≤ xs.length) :
    (xs ++ [x]).rtake n = (xs.rtake n).tail ++ [x] := by
  simp only [List.rtake, List.length_append, List.length_singleton, List.tail_drop]
  rw [List.drop_append_of_le_length (by omega)]
  congr 2
  omega

end Ends

namespace Ring

variable {r : Ring} {e : Event} {history : List Event}

@[simp] theorem size_push (r : Ring) (e : Event) :
    (r.push e).places.size = r.places.size := by
  unfold push
  split <;> simp

/-- The places up to the one just written. -/
theorem take_set_next (r : Ring) (e : Event) :
    (r.places.toList.set r.next e).take (r.next + 1) = r.places.toList.take r.next ++ [e] := by
  have hnext : r.next < r.places.toList.length := by simpa using r.next_lt
  rw [List.take_succ_eq_append_getElem (by simpa using hnext), List.getElem_set_self, List.take_set,
    List.set_eq_of_length_le (List.length_take_le _ _)]

theorem set_next_of_last (hlast : r.next + 1 = r.places.size) :
    r.places.toList.set r.next e = r.places.toList.take r.next ++ [e] := by
  rw [← take_set_next, List.take_of_length_le (by simp [hlast])]

theorem drop_set_next (r : Ring) (e : Event) :
    (r.places.toList.set r.next e).drop (r.next + 1) = r.places.toList.drop (r.next + 1) := by
  simp [List.drop_set]

theorem length_events_of_full (hfull : r.full = true) : r.events.length = r.places.size := by
  have := r.next_lt
  simp [events, hfull]
  omega

theorem length_events_of_not_full (hfull : r.full = false) : r.events.length = r.next := by
  have := r.next_lt
  simp [events, hfull]
  omega

/-- A ring is full from the moment its last place is written. -/
theorem full_push (r : Ring) (e : Event) :
    (r.push e).full = true ↔ r.full = true ∨ r.next + 1 = r.places.size := by
  unfold push
  split <;> simp [*]

theorem events_push_of_not_full (hfull : r.full = false) :
    (r.push e).events = r.events ++ [e] := by
  unfold push
  split
  case isTrue hlast =>
    -- the ring starts over, and all of its places count
    simp [events, hfull, set_next_of_last hlast]
  case isFalse hmore => simp [events, hfull, take_set_next]

theorem events_push_of_full (hfull : r.full = true) :
    (r.push e).events = r.events.tail ++ [e] := by
  have hnext : r.next < r.places.toList.length := by simpa using r.next_lt
  have htail : r.events.tail = r.places.toList.drop (r.next + 1) ++ r.places.toList.take r.next := by
    simp [events, hfull, List.drop_eq_getElem_cons hnext]
  rw [htail]
  unfold push
  split
  case isTrue hlast =>
    have hnone : r.places.toList.drop (r.next + 1) = [] := List.drop_eq_nil_of_le (by simp [hlast])
    simp [events, set_next_of_last hlast, hnone]
  case isFalse hmore => simp [events, hfull, take_set_next, drop_set_next]

/-- A ring keeps the end of what was ever handed to it. -/
structure Keeps (r : Ring) (history : List Event) : Prop where
  events_eq : r.events = history.rtake r.places.size
  full_iff : r.full = true ↔ r.places.size ≤ history.length

theorem keeps_ofSize (size : Int) : (ofSize size).Keeps [] where
  events_eq := by simp [ofSize, events]
  full_iff := by simpa [ofSize] using (ringCapacity_pos size).ne'

theorem Keeps.push (h : r.Keeps history) (e : Event) : (r.push e).Keeps (history ++ [e]) := by
  have hpos : 0 < r.places.size := Nat.zero_lt_of_lt r.next_lt
  cases hfull : r.full with
  | true =>
    have hlong : r.places.size ≤ history.length := h.full_iff.mp hfull
    constructor
    · rw [events_push_of_full hfull, h.events_eq, size_push, rtake_concat_of_le hpos hlong]
    · simp [full_push, hfull]
      omega
  | false =>
    have hshort : history.length < r.places.size := by
      simpa [hfull] using h.full_iff
    -- nothing was dropped yet, so the next place is told by the length of the history
    have hnext : r.next = history.length := by
      rw [← length_events_of_not_full hfull, h.events_eq, List.rtake,
        Nat.sub_eq_zero_of_le hshort.le, List.drop_zero]
    constructor
    · rw [events_push_of_not_full hfull, h.events_eq, size_push, rtake_concat_of_lt hshort]
    · simp [full_push, hfull, hnext]
      omega

end Ring

namespace Sink

variable {s : Sink} {r : Ring} {history : List Event}

/-- The events that a level lets through. -/
def admitted (level : Level) (es : List Event) : List Event :=
  es.filter fun e ↦ level.admits e.scope

@[simp] theorem level_emit (s : Sink) (e : Event) : (s.emit e).2.level = s.level := by
  unfold emit
  split <;> rfl

theorem ring_emit_of_admits {e : Event} (h : s.level.admits e.scope = true) :
    (s.emit e).2.ring = s.ring.map fun r ↦ r.push e := by
  simp [emit, h]

theorem ring_emit_of_not_admits {e : Event} (h : s.level.admits e.scope = false) :
    (s.emit e).2.ring = s.ring := by
  simp [emit, h]

/-- The sink after a number of events; what they add to a stream is left out. -/
theorem snd_emitAll (s : Sink) (es : List Event) :
    (s.emitAll es).2 = es.foldl (fun s e ↦ (s.emit e).2) s := by
  unfold emitAll
  generalize ("" : Text) = t
  induction es generalizing s t with
  | nil => rfl
  | cons e es ih => simpa using ih _ _

/-- The ring of a sink keeps the end of a history. -/
def KeepsInRing (s : Sink) (size : Nat) (history : List Event) : Prop :=
  ∃ r, s.ring = some r ∧ r.places.size = size ∧ r.Keeps history

/-- One event more: it ends the history if the level lets it through. -/
theorem KeepsInRing.emit {size : Nat} (h : s.KeepsInRing size history) (e : Event) :
    (s.emit e).2.KeepsInRing size (history ++ admitted s.level [e]) := by
  obtain ⟨r, hring, hsize, hkeeps⟩ := h
  cases hadmits : s.level.admits e.scope with
  | true =>
    refine ⟨r.push e, ?_, ?_, ?_⟩
    · rw [ring_emit_of_admits hadmits, hring, Option.map_some]
    · rw [Ring.size_push, hsize]
    · simpa [admitted, hadmits] using hkeeps.push e
  | false =>
    refine ⟨r, ?_, hsize, ?_⟩
    · rw [ring_emit_of_not_admits hadmits, hring]
    · simpa [admitted, hadmits] using hkeeps

theorem KeepsInRing.foldl_emit {size : Nat} (h : s.KeepsInRing size history) (es : List Event) :
    (es.foldl (fun s e ↦ (s.emit e).2) s).KeepsInRing size (history ++ admitted s.level es) := by
  induction es generalizing s history with
  | nil => simpa [admitted] using h
  | cons e es ih =>
    have hstep := ih (h.emit e)
    rw [level_emit, List.append_assoc] at hstep
    have hcons : admitted s.level (e :: es) = admitted s.level [e] ++ admitted s.level es := by
      simp [admitted, ← List.filter_append]
    rw [hcons]
    exact hstep

/-- Whatever events are emitted, the ring then holds, oldest first, the last of those that the
level lets through, as many as there are places for. -/
theorem events_emitAll (level : Level) (stream : Option Format) (size : Int) (es : List Event) :
    ∃ r, (({ level := level, stream := stream, ring := some (.ofSize size) } : Sink).emitAll es).2.ring
        = some r ∧
      r.events = (admitted level es).rtake (min (admitted level es).length (ringCapacity size)) := by
  have hstart : ({ level := level, stream := stream, ring := some (.ofSize size) } :
      Sink).KeepsInRing (ringCapacity size) [] :=
    ⟨_, rfl, by simp [Ring.ofSize], Ring.keeps_ofSize size⟩
  obtain ⟨r, hring, hsize, hkeeps⟩ := hstart.foldl_emit es
  refine ⟨r, ?_, ?_⟩
  · rw [snd_emitAll, hring]
  · rw [hkeeps.events_eq, hsize, List.nil_append]
    simp only [List.rtake]
    congr 1
    omega

end Sink

end WasmBackend.Trace
