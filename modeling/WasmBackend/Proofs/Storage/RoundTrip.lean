import WasmBackend.Proofs.Storage.Elements

/-!
# Stored values are read back

A value of a shape is read back as it was written, except that a field that is left out comes back
as the zero of its shape.  So only a zero that its shape tells apart from the zero left out for it
is lost: a negative zero among the numbers.  Writing what was read gives the same bytes again.
-/

namespace WasmBackend.Storage

open Wasm (Reads)

mutual

/-- Whether a value has a shape, and its numbers are in range for it. -/
def Shape.Conforms : Shape → Datum → Prop
  | .bool, .bool _ => True
  | .word bytes, .num n => 0 ≤ n ∧ n < 256 ^ bytes
  | .int64, .num n => -0x8000000000000000 ≤ n ∧ n < 0x8000000000000000
  | .double, .double _ => True
  | .text, .text _ => True
  | .bytes, .bytes _ => True
  | .moment, .moment t => MessagePack.InRange t
  | .list elem, .list items spare => spare = [] ∧ ∀ v ∈ items, elem.Conforms v
  | .record fields, .record vs => fields.Conform vs
  | .optional fields, .record vs => fields.Conform vs
  | .optional _, .nothing => True
  | _, _ => False

/-- Whether values have the shapes of fields. -/
def Fields.Conform : Fields → List Datum → Prop
  | .nil, [] => True
  | .cons _ _ shape rest, v :: vs => shape.Conforms v ∧ rest.Conform vs
  | _, _ => False

end

mutual

/-- What is read back of a value. -/
def Shape.readBack : Shape → Datum → Datum
  | .list elem, .list items spare => .list (items.map elem.readBack) spare
  | .record fields, .record vs => .record (fields.readBack vs)
  | .optional fields, .record vs => .record (fields.readBack vs)
  | _, v => v

/-- What is read back of fields: of one that is left out, the zero of its shape. -/
def Fields.readBack : Fields → List Datum → List Datum
  | .cons _ always shape rest, v :: vs =>
    (if v.isZero && !always then shape.zero else shape.readBack v) :: rest.readBack vs
  | _, _ => []

end

mutual

/-- Whether every text and every list is short enough for its length to be written. -/
def Datum.bounded : Datum → Bool
  | .text t => t.size < 0x100000000
  | .bytes bs => bs.length < 0x100000000
  | .list items _ => items.length < 0x100000000 && Datum.allBounded items
  | .record vs => Datum.allBounded vs
  | _ => true

def Datum.allBounded : List Datum → Bool
  | [] => true
  | v :: vs => v.bounded && Datum.allBounded vs

end

/-- The keys of fields in order. -/
def Fields.keys (fields : Fields) : List Text :=
  fields.toList.map Prod.fst

mutual

/-- Whether numbers have a width that can be written, and the fields of every record can be counted
and told apart by their keys. -/
def Shape.wellKeyed : Shape → Bool
  | .word bytes => bytes = 1 || bytes = 2 || bytes = 4 || bytes = 8
  | .list elem => elem.wellKeyed
  | .record fields => fields.keys.length < 0x100000000 && fields.wellKeyed
  | .optional fields => fields.keys.length < 0x100000000 && fields.wellKeyed
  | _ => true

def Fields.wellKeyed : Fields → Bool
  | .nil => true
  | .cons key _ shape rest =>
    key.size < 0x100000000 && !rest.keys.contains key && shape.wellKeyed && rest.wellKeyed

end

theorem Datum.allBounded_iff {vs : List Datum} : Datum.allBounded vs ↔ ∀ v ∈ vs, v.bounded := by
  induction vs with
  | nil => simp [allBounded]
  | cons v vs ih => simp [allBounded, ih]

namespace MessagePack

attribute [local simp] write writeParts

/-! ## Lists -/

theorem reads_readItems {elem : Update} {zero : Datum} {items : List Datum}
    {written : Datum → List UInt8} {back : Datum → Datum}
    (h : ∀ v ∈ items, Reads (elem zero) (written v) (back v)) :
    Reads (readItems elem zero items.length []) (items.flatMap written) (items.map back) := by
  induction items with
  | nil => exact .pure
  | cons v items ih =>
    have hrest := ih fun w hw ↦ h w (List.mem_cons_of_mem v hw)
    exact (h v List.mem_cons_self).bind (hrest.bind_pure .pure)

/-- A list that is read over the empty one has nothing to spare. -/
theorem read_list (elem : Shape) : read (.list elem) (.list [] []) =
    readByte >>= readArrayLength >>= fun
      | some n => do return .list (← readItems (read elem) elem.zero n []) []
      | none => return .list [] [] := by
  rw [bind_assoc]
  cases elem <;> simp only [read, Datum.pool, List.append_nil, List.drop_nil] <;> rfl

/-! ## Records -/

theorem map_fst_readers : ∀ fields : Fields, (readers fields).map Prod.fst = fields.keys
  | .nil => rfl
  | .cons key _ _ rest => congrArg (key :: ·) (map_fst_readers rest)

theorem length_writeParts : ∀ (fields : Fields) (vs : List Datum),
    (writeParts fields vs).length ≤ fields.keys.length
  | .nil, _ => by simp
  | .cons .., [] => by simp
  | .cons key always shape rest, v :: vs => by
    have hrest := length_writeParts rest vs
    have hkeys : (Fields.cons key always shape rest).keys.length = rest.keys.length + 1 := rfl
    rw [writeParts, hkeys]
    split
    · exact hrest.trans (Nat.le_succ _)
    · exact Nat.succ_le_succ hrest

/-- A field is found by its key behind others with other keys. -/
theorem find?_zipIdx {before behind : List (Text × Update)} {key : Text} {update : Update}
    (hnew : key ∉ before.map Prod.fst) :
    (before ++ (key, update) :: behind).zipIdx.find? (fun x ↦ x.1.1 = key) =
      some ((key, update), before.length) := by
  rw [List.zipIdx_append, List.find?_append]
  have hnone : before.zipIdx.find? (fun x ↦ x.1.1 = key) = none := by
    refine List.find?_eq_none.2 fun x hx hkey ↦ hnew ?_
    obtain ⟨-, -, hmem⟩ := List.mem_zipIdx hx
    exact List.mem_map.2 ⟨x.1, by simp [hmem], by simpa using hkey⟩
  rw [hnone]
  simp

/-- Looking for nothing takes no bytes. -/
theorem reads_atNothing {α : Type} {f : Bool → Reader α} {code : UInt8} {bytes : List UInt8} {a : α}
    (h : Reads (f (code = 0xC0)) (code :: bytes) a) :
    Reads (atNothing >>= f) (code :: bytes) a := by
  intro rest
  have hhead : decide ((code :: bytes ++ rest).head? = some 0xC0) = decide (code = 0xC0) := by simp
  show (f (decide ((code :: bytes ++ rest).head? = some 0xC0))).run _ = _
  rw [hhead]
  exact h rest

theorem IsMapCode.ne_nothing {code : UInt8} (h : IsMapCode code) : code ≠ 0xC0 := by
  rintro rfl
  simp [IsMapCode] at h

theorem IsMapCode.not_array {code : UInt8} (h : IsMapCode code) :
    ¬((0x90 ≤ code ∧ code < 0xA0) ∨ code = 0xDC ∨ code = 0xDD) := by
  rintro (⟨hlow, hhigh⟩ | rfl | rfl)
  · obtain ⟨-, hmap⟩ | rfl | rfl := h
    · exact absurd (UInt8.lt_of_le_of_lt hlow hmap) (UInt8.lt_irrefl _)
    · simp at hhigh
    · simp at hhigh
  · simp [IsMapCode] at h
  · simp [IsMapCode] at h

/-! ## Values -/

/-- What is written of a value is read over the zero of its shape. -/
def ReadsBack (shape : Shape) (v : Datum) : Prop :=
  Reads (read shape shape.zero) (write shape v) (shape.readBack v)

theorem readsBack_word {bytes : Nat} (hwidth : IsWidth bytes) {n : Int} (hlow : 0 ≤ n)
    (hhigh : n < 256 ^ bytes) : ReadsBack (.word bytes) (.num n) := by
  obtain ⟨n, rfl⟩ := Int.eq_ofNat_of_zero_le hlow
  have hn : n < 256 ^ bytes := by exact_mod_cast hhigh
  show Reads (do let n ← readNumber (← readByte); return Datum.num (n % (1 <<< (8 * bytes) : Nat)))
    (write (.word bytes) (.num n)) (.num n)
  rw [← bind_assoc, write]
  refine (reads_readNumber_word hwidth hn).bind_pure ?_
  rw [Nat.one_shiftLeft, pow_mul, ← Int.natCast_mod, show 2 ^ 8 = 256 from rfl,
    Nat.mod_eq_of_lt hn]
  exact .pure

theorem readsBack_int64 {n : Int} (hlow : -0x8000000000000000 ≤ n)
    (hhigh : n < 0x8000000000000000) : ReadsBack .int64 (.num n) := by
  show Reads (do let n ← readNumber (← readByte); return Datum.num (Int64.ofInt n).toInt)
    (write .int64 (.num n)) (.num n)
  rw [← bind_assoc, write]
  refine (reads_readNumber_int64 hlow hhigh).bind_pure ?_
  rw [Int64.toInt_ofInt_of_le hlow hhigh]
  exact .pure

theorem readsBack_list {elem : Shape} {items : List Datum} (hlength : items.length < 0x100000000)
    (h : ∀ v ∈ items, ReadsBack elem v) : ReadsBack (.list elem) (.list items []) := by
  show Reads (read (.list elem) (.list [] [])) (write (.list elem) (.list items []))
    (.list (items.map elem.readBack) [])
  rw [read_list, write]
  split
  · rename_i hnil
    obtain rfl := List.isEmpty_iff.1 hnil
    exact Reads.bind_pure (a := none) (reads_code .pure) .pure
  · have hitems := reads_readItems h
    exact (announces_writeArrayLength hlength).reads.bind (hitems.bind_pure .pure)

variable {fields : Fields} {vs : List Datum}

/-- The entries of a record are read over its zeros. -/
def EntriesReadBack (fields : Fields) (vs : List Datum) : Prop :=
  Reads (readEntries (readers fields) (writeParts fields vs).length fields.zeros)
    (writeParts fields vs).flatten (fields.readBack vs)

/-- A record is read as a map. -/
theorem reads_readRecord (hkeys : fields.keys.length < 0x100000000)
    (hentries : EntriesReadBack fields vs) :
    ∃ code bytes, writeFields fields vs = code :: bytes ∧ IsMapCode code ∧
      Reads (readRecord (readers fields) fields.zeros fields.zeros) (code :: bytes)
        (fields.readBack vs) := by
  obtain ⟨code, bytes, hheader, hcode, hread⟩ :=
    announces_writeMapLength ((length_writeParts fields vs).trans_lt hkeys)
  refine ⟨code, bytes ++ (writeParts fields vs).flatten, ?_, hcode, reads_code ?_⟩
  · unfold writeFields
    dsimp only
    rw [hheader]
    rfl
  · rw [if_neg hcode.not_array]
    exact hread.bind hentries

theorem readsBack_record (hkeys : fields.keys.length < 0x100000000)
    (hentries : EntriesReadBack fields vs) : ReadsBack (.record fields) (.record vs) := by
  obtain ⟨code, bytes, heq, -, hread⟩ := reads_readRecord hkeys hentries
  show Reads (Datum.record <$> readRecord (readers fields) fields.zeros fields.zeros)
    (write (.record fields) (.record vs)) (.record (fields.readBack vs))
  rw [write, heq]
  exact hread.map

theorem readsBack_optional (hkeys : fields.keys.length < 0x100000000)
    (hentries : EntriesReadBack fields vs) : ReadsBack (.optional fields) (.record vs) := by
  obtain ⟨code, bytes, heq, hcode, hread⟩ := reads_readRecord hkeys hentries
  rw [ReadsBack, write, heq]
  refine reads_atNothing ?_
  rw [if_neg (by simpa using hcode.ne_nothing)]
  exact hread.map

theorem readsBack_nothing : ReadsBack (.optional fields) .nothing := by
  simp only [ReadsBack, write]
  refine reads_atNothing ?_
  rw [if_pos (by decide)]
  exact (reads_readByte 0xC0).map.bind .pure

/-- One key with its value is read behind those before. -/
theorem reads_entry {before behind : List (Text × Update)} {key : Text} {shape : Shape} {v : Datum}
    {done zeros result : List Datum} {n : Nat} {bytes : List UInt8} (hkey : key.size < 0x100000000)
    (hfresh : key ∉ before.map Prod.fst) (hlength : before.length = done.length)
    (hvalue : ReadsBack shape v)
    (hrest : Reads (readEntries (before ++ (key, read shape) :: behind) n
      (done ++ shape.readBack v :: zeros)) bytes result) :
    Reads (readEntries (before ++ (key, read shape) :: behind) (n + 1)
      (done ++ shape.zero :: zeros)) ((writeText key ++ write shape v) ++ bytes) result := by
  have hold : (done ++ shape.zero :: zeros).getD before.length .nothing = shape.zero := by
    simp [hlength]
  have hset : (done ++ shape.zero :: zeros).set before.length (shape.readBack v) =
      done ++ shape.readBack v :: zeros := by
    simp [hlength]
  rw [List.append_assoc, readEntries]
  refine (reads_readText hkey).bind ?_
  rw [find?_zipIdx hfresh]
  dsimp only
  rw [hold]
  refine hvalue.bind ?_
  rw [hset]
  exact hrest

mutual

/-- A value that fits its shape is read back. -/
theorem readsBack : ∀ (shape : Shape) (v : Datum) (_ : shape.wellKeyed) (_ : shape.Conforms v)
    (_ : v.bounded), ReadsBack shape v
  | .bool, v, _, hc, _ => by
    cases v with
    | bool b =>
      simp only [ReadsBack, read, write, Shape.readBack]
      exact (reads_readBool b).map
    | _ => exact hc.elim
  | .word bytes, v, hk, hc, _ => by
    cases v with
    | num n =>
      exact readsBack_word (by simpa [IsWidth, Shape.wellKeyed, or_assoc] using hk) hc.1 hc.2
    | _ => exact hc.elim
  | .int64, v, _, hc, _ => by
    cases v with
    | num n => exact readsBack_int64 hc.1 hc.2
    | _ => exact hc.elim
  | .double, v, _, hc, _ => by
    cases v with
    | double d =>
      simp only [ReadsBack, read, write, Shape.readBack]
      exact (reads_readDouble d).map
    | _ => exact hc.elim
  | .text, v, _, hc, hb => by
    cases v with
    | text t =>
      simp only [ReadsBack, read, write, Shape.readBack]
      exact (reads_readText (by simpa [Datum.bounded] using hb)).map
    | _ => exact hc.elim
  | .bytes, v, _, hc, hb => by
    cases v with
    | bytes bs =>
      simp only [ReadsBack, read, write, Shape.readBack]
      exact (reads_readRaw_writeBytes (by simpa [Datum.bounded] using hb)).map
    | _ => exact hc.elim
  | .moment, v, _, hc, _ => by
    cases v with
    | moment t =>
      simp only [ReadsBack, read, write, Shape.readBack]
      exact (reads_readMoment hc).map
    | _ => exact hc.elim
  | .list elem, v, hk, hc, hb => by
    cases v with
    | list items spare =>
      obtain ⟨rfl, hc⟩ := hc
      obtain ⟨hlength, hb⟩ : items.length < 0x100000000 ∧ Datum.allBounded items := by
        simpa [Datum.bounded] using hb
      exact readsBack_list hlength fun v hv ↦
        readsBack elem v hk (hc v hv) (Datum.allBounded_iff.1 hb v hv)
    | _ => exact hc.elim
  | .record fields, v, hk, hc, hb => by
    cases v with
    | record vs =>
      obtain ⟨hkeys, hk⟩ : fields.keys.length < 0x100000000 ∧ fields.wellKeyed := by
        simpa [Shape.wellKeyed] using hk
      exact readsBack_record hkeys (reads_readEntries fields vs hk hc hb [] [] rfl (by simp))
    | _ => exact hc.elim
  | .optional fields, v, hk, hc, hb => by
    cases v with
    | record vs =>
      obtain ⟨hkeys, hk⟩ : fields.keys.length < 0x100000000 ∧ fields.wellKeyed := by
        simpa [Shape.wellKeyed] using hk
      exact readsBack_optional hkeys (reads_readEntries fields vs hk hc hb [] [] rfl (by simp))
    | nothing => exact readsBack_nothing
    | _ => exact hc.elim

/-- The keys and values of fields are read behind fields read before. -/
theorem reads_readEntries : ∀ (fields : Fields) (vs : List Datum) (_ : fields.wellKeyed)
    (_ : fields.Conform vs) (_ : Datum.allBounded vs) (before : List (Text × Update))
    (done : List Datum) (_ : before.length = done.length)
    (_ : ∀ key ∈ fields.keys, key ∉ before.map Prod.fst),
    Reads (readEntries (before ++ readers fields) (writeParts fields vs).length
        (done ++ fields.zeros)) (writeParts fields vs).flatten (done ++ fields.readBack vs)
  | .nil, [], _, _, _, _, _, _, _ => by
    simpa [readers, writeParts, Fields.zeros, Fields.readBack, readEntries] using Reads.pure
  | .nil, _ :: _, _, hc, _, _, _, _, _ => hc.elim
  | .cons .., [], _, hc, _, _, _, _, _ => hc.elim
  | .cons key always shape rest, v :: vs, hk, hc, hb, before, done, hlength, hnew => by
    obtain ⟨⟨⟨hkey, hother⟩, hshape⟩, hk⟩ : ((key.size < 0x100000000 ∧ key ∉ rest.keys) ∧
        shape.wellKeyed) ∧ rest.wellKeyed := by
      simpa [Fields.wellKeyed] using hk
    obtain ⟨hv, hc⟩ := hc
    obtain ⟨hbv, hb⟩ : v.bounded ∧ Datum.allBounded vs := by
      simpa [Datum.allBounded] using hb
    have hfresh : key ∉ before.map Prod.fst := hnew key List.mem_cons_self
    -- the other keys are behind this one, whatever was read for it
    have hrest (w : Datum) := reads_readEntries rest vs hk hc hb (before ++ [(key, read shape)])
      (done ++ [w]) (by simp [hlength]) fun k hk' ↦ by
        simp only [List.map_append, List.mem_append, not_or]
        refine ⟨hnew k (List.mem_cons_of_mem key hk'), ?_⟩
        rintro (_ | ⟨_, ⟨⟩⟩)
        exact hother hk'
    simp only [List.append_assoc, List.singleton_append] at hrest
    simp only [readers, writeParts, Fields.zeros, Fields.readBack]
    split
    · exact hrest shape.zero
    · exact reads_entry hkey hfresh hlength (readsBack shape v hshape hv hbv) (hrest _)

end

/-! ## Writing what was read -/

theorem isZero_readBack (shape : Shape) (v : Datum) : (shape.readBack v).isZero = v.isZero := by
  cases shape with
  | list elem =>
    cases v with
    | list items spare => exact List.isEmpty_map
    | _ => rfl
  | _ => cases v <;> rfl

/-- The zero of a shape counts as zero if any value of the shape does. -/
theorem isZero_zero {shape : Shape} {v : Datum} (hc : shape.Conforms v) (hv : v.isZero) :
    shape.zero.isZero := by
  cases shape with
  | moment =>
    cases v with
    | moment t => cases hv
    | _ => exact hc.elim
  | record fields =>
    cases v with
    | record vs => cases hv
    | _ => exact hc.elim
  | _ => rfl

mutual

/-- What was read is written as it was before. -/
theorem write_readBack : ∀ (shape : Shape) (v : Datum) (_ : shape.Conforms v),
    write shape (shape.readBack v) = write shape v
  | .list elem, v, hc => by
    cases v with
    | list items spare =>
      have heach : (items.map elem.readBack).flatMap (write elem) = items.flatMap (write elem) := by
        rw [List.flatMap_map]
        exact List.flatMap_congr fun v hv ↦ write_readBack elem v (hc.2 v hv)
      simp only [Shape.readBack, write, List.isEmpty_map, List.length_map, heach]
    | _ => exact hc.elim
  | .record fields, v, hc => by
    cases v with
    | record vs => simp only [Shape.readBack, write, writeFields, writeParts_readBack fields vs hc]
    | _ => exact hc.elim
  | .optional fields, v, hc => by
    cases v with
    | record vs => simp only [Shape.readBack, write, writeFields, writeParts_readBack fields vs hc]
    | nothing => rfl
    | _ => exact hc.elim
  | .bool, _, _ | .word _, _, _ | .int64, _, _ | .double, _, _ | .text, _, _ | .bytes, _, _
  | .moment, _, _ => by
    simp only [Shape.readBack]

theorem writeParts_readBack : ∀ (fields : Fields) (vs : List Datum) (_ : fields.Conform vs),
    writeParts fields (fields.readBack vs) = writeParts fields vs
  | .nil, [], _ => rfl
  | .nil, _ :: _, hc => hc.elim
  | .cons .., [], hc => hc.elim
  | .cons key always shape rest, v :: vs, hc => by
    have hrest := writeParts_readBack rest vs hc.2
    simp only [Fields.readBack, writeParts]
    split
    · rename_i hleft
      have hzero : shape.zero.isZero && !always := by
        rw [Bool.and_eq_true] at hleft ⊢
        exact ⟨isZero_zero hc.1 hleft.1, hleft.2⟩
      rw [if_pos hzero, hrest]
    · rename_i hkept
      rw [isZero_readBack, if_neg hkept, hrest, write_readBack shape v hc.1]

end

end MessagePack

end WasmBackend.Storage
