import WasmBackend.Text.Utf8
import WasmBackend.Text.WidthData

/-!
# Grapheme clusters

Characters that a reader takes for one form a cluster: a letter with its accents, a pictograph with
its modifiers, a Hangul syllable written in letters.  A byte string is cut into clusters by the
cluster-break classes of its characters; how the bytes are read as characters is a parameter.
-/

namespace WasmBackend.Text

/-- The cluster-break class of a character; 12 and 13 are Hangul syllables without and with a
trailing letter, 0 is everything else. -/
def clusterClass (c : Nat) : Nat :=
  if 0xAC00 ≤ c ∧ c ≤ 0xD7A3 then (if (c - 0xAC00) % 28 = 0 then 12 else 13)
  else (Table.rangeValue? clusterRanges c).getD 0

/-- What a cluster has shown so far that decides whether it goes on. -/
structure ClusterState where
  last : Nat
  /-- Whether a pictograph and extending characters end it. -/
  pictograph : Bool
  /-- Whether a joiner follows such a pictograph. -/
  joined : Bool
  /-- The number of regional indicators at its end. -/
  flags : Nat
deriving Repr

/-- The state of a cluster that starts with a class. -/
def ClusterState.start (k : Nat) : ClusterState :=
  ⟨k, k == 14, false, if k = 6 then 1 else 0⟩

/-- The state after one more character of a class. -/
def ClusterState.next (s : ClusterState) (k : Nat) : ClusterState :=
  { last := k
    pictograph := k == 14 || (s.pictograph && k == 4)
    joined := s.pictograph && k == 5
    flags := if k = 6 then s.flags + 1 else 0 }

/-- Whether a character of class `k` belongs to the cluster. -/
def ClusterState.continues (s : ClusterState) (k : Nat) : Bool :=
  let a := s.last
  if a = 1 && k = 2 then true
  else if a = 1 || a = 2 || a = 3 || k = 1 || k = 2 || k = 3 then false
  else if a = 9 && (k = 9 || k = 10 || k = 12 || k = 13) then true
  else if (a = 12 || a = 10) && (k = 10 || k = 11) then true
  else if (a = 13 || a = 11) && k = 11 then true
  else if k = 4 || k = 5 || k = 8 then true
  else if a = 7 then true
  else if s.joined && k = 14 then true
  else a = 6 && k = 6 && s.flags % 2 = 1

/-! ## Reading classes off bytes -/

/-- How the character in front of a byte string is read: its class and the number of bytes it takes
behind the first one; nothing when the bytes end before the character does. -/
abbrev ClassReader := UInt8 → List UInt8 → Option (Nat × Nat)

/-- Well-formed characters with their classes; any other byte stands alone and has no class. -/
def strictClass : ClassReader := fun b rest =>
  match Utf8.first? b rest with
  | some (c, n) => some (clusterClass c, n)
  | none => some (0, 0)

/-- The number of bytes that a first byte announces. -/
def announcedLength (b : UInt8) : Nat :=
  if b < 0xC2 then 1 else if b < 0xE0 then 2 else if b < 0xF0 then 3 else if b < 0xF8 then 4 else 1

/-- A first byte with as many of the announced bytes as have the form of such bytes; what is no
character has no class. -/
def lenientClass : ClassReader := fun b rest =>
  let tail := rest.take (announcedLength b - 1)
  if tail.length + 1 < announcedLength b then none
  else
    let n := (tail.takeWhile fun x => (Utf8.tail? x).isSome).length
    match Utf8.first? b rest with
    | some (c, _) => some (clusterClass c, n)
    | none => some (0, n)

/-! ## Cutting -/

/-- The number of bytes that go on with a cluster; `owed` of them belong to a character already
read.  A character that the end cuts off goes on with any cluster. -/
def clusterRest (read : ClassReader) (state : ClusterState) (owed : Nat) : List UInt8 → Nat
  | [] => 0
  | b :: rest =>
    match owed with
    | n + 1 => clusterRest read state n rest + 1
    | 0 =>
      match read b rest with
      | none => rest.length + 1
      | some (k, n) =>
        if state.continues k then clusterRest read (state.next k) n rest + 1 else 0

/-- The number of bytes behind the first one that are in the first cluster. -/
def firstClusterRest (read : ClassReader) (b : UInt8) (rest : List UInt8) : Nat :=
  match read b rest with
  | none => rest.length
  | some (k, n) => clusterRest read (.start k) n rest

/-- The clusters of a byte string. -/
def clusters (read : ClassReader) : List UInt8 → List Text
  | [] => []
  | b :: rest =>
    let n := firstClusterRest read b rest
    ⟨b :: rest.take n⟩ :: clusters read (rest.drop n)
termination_by bytes => bytes.length
decreasing_by
  simp only [List.length_drop, List.length_cons]
  omega

/-- Clusters only cut a byte string: one after another they give it back. -/
theorem concat_clusters (read : ClassReader) (bytes : List UInt8) :
    concat (clusters read bytes) = ⟨bytes⟩ := by
  fun_induction clusters read bytes with
  | case1 => rfl
  | case2 b rest n ih =>
    have h : (clusters read (rest.drop n)).flatMap Text.bytes = rest.drop n := by
      simpa [concat, List.flatMap] using ih
    simp [concat, List.map_cons, ← List.flatMap_def, h]

/-!
## Listing width

A listing aligns its columns by the number of cells a text takes.  The text is cut into grapheme
clusters; a cluster is as wide as its first character of nonzero width.
-/

/-- Ranges of characters without a visible form. -/
def hiddenRanges : Array Nat := Table.ofLines
  [[0x0, 0x1f, 0x7f, 0x9f, 0xad, 0xad, 0x70f, 0x70f, 0x180b, 0x180e, 0x200b, 0x200f],
   [0x2028, 0x202e, 0x206a, 0x206f, 0xd800, 0xdfff, 0xfeff, 0xfeff, 0xfff9, 0xfffb],
   [0xfffe, 0xffff]]

/-- Ranges of characters that are narrow in every context. -/
def narrowRanges : Array Nat := Table.ofLines
  [[0x20, 0x7e, 0xa2, 0xa3, 0xa5, 0xa6, 0xac, 0xac, 0xaf, 0xaf, 0x27e6, 0x27ed, 0x2985, 0x2986]]

/-- The terminal cells a character takes. -/
def charWidth (c : Nat) : Nat :=
  if c < 0x20 then 0
  else if (0x7F ≤ c && c ≤ 0x9F) || c == 0xAD then 0
  else if c < 0x300 then 1
  else if Table.inRanges narrowRanges c then 1
  else if Table.inRanges hiddenRanges c || Table.inRanges combiningMarkRanges c then 0
  else if Table.inRanges wideRanges c || (0x2FFC ≤ c && c ≤ 0x2FFF) || c == 0x31EF then 2
  else 1

/-- The width of the first character of nonzero width. -/
def leadingWidth : List Piece → Nat
  | [] => 0
  | p :: rest => if charWidth p.code = 0 then leadingWidth rest else charWidth p.code

/-- The width of a cluster: that of its first character of nonzero width. -/
def clusterWidth (cluster : Text) : Nat :=
  leadingWidth cluster.pieces

/-- The terminal cells a text takes. -/
def width (t : Text) : Nat :=
  if t.bytes.all fun b => 0x20 ≤ b && b < 0x7F then t.size
  else (clusters lenientClass t.bytes).foldl (fun n c => n + clusterWidth c) 0

/-- Blanks on the right up to a display width. -/
def fillRight (columns : Nat) (t : Text) : Text :=
  t ++ replicate (columns - t.width) 32

/-- The clusters that fit into a width, from the left. -/
def fitting (columns : Nat) : List Text → List Text
  | [] => []
  | c :: rest =>
    let w := clusterWidth c
    if columns < w then [] else c :: fitting (columns - w) rest

/-- A text cut to a width with a mark for what was cut; unchanged when it fits. -/
def truncate (columns : Nat) (mark : Text) (t : Text) : Text :=
  if t.width ≤ columns then t
  else concat (fitting (columns - mark.width) (clusters lenientClass t.bytes)) ++ mark

end WasmBackend.Text
