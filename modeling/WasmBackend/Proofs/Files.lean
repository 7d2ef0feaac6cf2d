import Mathlib.Data.List.Basic
import WasmBackend.Files.Tree

/-!
# What writing keeps

A path is read part by part, and no part has a slash.  What `Path.join` puts in front of a name does
therefore not depend on the name, and the name is the last step of the path.

The location of such a path ends in its name, so writing a file under one name leaves alone what is
written under others, and making directories leaves alone every file.  Both come down to one fact: a
node that is put where no directory is takes no step of a path away.
-/

namespace WasmBackend

/-- A piece between separators has none of them. -/
theorem notMem_of_mem_splitOn {α : Type} [BEq α] [LawfulBEq α] {a : α} :
    ∀ {xs piece : List α}, piece ∈ xs.splitOn a → a ∉ piece
  | [], piece, h => by
    rw [List.splitOn_nil, List.mem_singleton] at h
    exact h ▸ List.not_mem_nil
  | x :: xs, piece, h => by
    rw [List.splitOn_cons_eq_if_modifyHead] at h
    obtain ⟨head, rest, heq⟩ := List.exists_cons_of_ne_nil (List.splitOn_ne_nil a xs)
    split at h
    · obtain rfl | h := List.mem_cons.1 h
      · exact List.not_mem_nil
      · exact notMem_of_mem_splitOn h
    · rename_i hx
      rw [heq, List.modifyHead_cons] at h
      obtain rfl | h := List.mem_cons.1 h
      · have hhead : a ∉ head := notMem_of_mem_splitOn (heq ▸ List.mem_cons_self)
        exact fun hmem ↦ (List.mem_cons.1 hmem).elim (fun h ↦ hx (by simp [h])) hhead
      · exact notMem_of_mem_splitOn (heq ▸ List.mem_cons_of_mem head h)

namespace Text

theorem bytes_slash : (ofString "/").bytes = [47] := rfl

/-- Parts between slashes, the last of which is singled out. -/
theorem bytes_join_concat (ts : List Text) (t : Text) :
    (join "/" (ts ++ [t])).bytes = (ts.flatMap fun u ↦ u.bytes ++ [47]) ++ t.bytes := by
  induction ts with
  | nil => simp [join, concat]
  | cons u us ih =>
    obtain ⟨v, vs, hvs⟩ := List.exists_cons_of_ne_nil (List.append_ne_nil_of_right_ne_nil us
      (List.cons_ne_nil t []))
    rw [List.cons_append, List.flatMap_cons, List.append_assoc, ← ih, hvs]
    simp [join, concat, bytes_slash]

end Text

namespace Path

/-- A name of something in a directory: one part that leads a step down. -/
structure IsName (n : Text) : Prop where
  ne_nil : n.bytes ≠ []
  no_slash : 47 ∉ n.bytes
  ne_here : n ≠ "."
  ne_up : n ≠ ".."

/-- The path ends with a step down to the name. -/
structure EndsIn (p n : Text) : Prop where
  name : IsName n
  parts_eq : ∃ above, parts p = above ++ [n]
  last_ne : p.bytes.getLast? ≠ some 47

variable {n : Text}

theorem EndsIn.endsWith_eq {p : Text} (h : EndsIn p n) : p.endsWith "/" = false := by
  rw [Text.endsWith, Text.bytes_slash, Bool.eq_false_iff]
  intro hsuffix
  obtain ⟨above, habove⟩ := List.isSuffixOf_iff_suffix.1 hsuffix
  exact h.last_ne (by rw [← habove, List.getLast?_concat])

theorem parts_append_slash (a b : Text) : parts (a ++ "/" ++ b) = parts a ++ parts b := by
  have hslash : (a ++ "/" ++ b).bytes = a.bytes ++ 47 :: b.bytes := by
    rw [Text.bytes_append, Text.bytes_append, List.append_assoc]
    rfl
  simp only [parts, Text.splitOn, hslash, List.splitOn_append_cons_self, List.map_append,
    List.filter_append]

theorem IsName.parts_eq (h : IsName n) : parts n = [n] := by
  have hne : n.isEmpty = false := by simpa [Text.isEmpty] using h.ne_nil
  simp [parts, Text.splitOn, List.splitOn_eq_singleton h.no_slash, hne]

theorem IsName.resolvePart (h : IsName n) (absolute : Bool) (resolved : List Text) :
    Path.resolvePart absolute resolved n = n :: resolved := by
  rw [Path.resolvePart.eq_def, if_neg h.ne_here, if_neg h.ne_up]

theorem isAbsolute_append {a : Text} (h : a.bytes ≠ []) (b : Text) :
    isAbsolute (a ++ b) = isAbsolute a := by
  obtain ⟨c, cs, hcs⟩ := List.exists_cons_of_ne_nil h
  simp only [isAbsolute, Text.startsWith, Text.bytes_slash, Text.bytes_append, hcs,
    List.cons_append, List.isPrefixOf_cons_cons, List.isPrefixOf_nil_left]

theorem isAbsolute_below {dir : Text} (hdir : dir.bytes ≠ []) (n : Text) :
    isAbsolute (dir ++ "/" ++ n) = isAbsolute dir :=
  (isAbsolute_append (by simp [Text.bytes_slash]) n).trans (isAbsolute_append hdir _)

theorem IsName.isAbsolute_eq (h : IsName n) : isAbsolute n = false := by
  obtain ⟨c, cs, hcs⟩ := List.exists_cons_of_ne_nil h.ne_nil
  have hc : 47 ≠ c := fun hc ↦ h.no_slash (by simp [hcs, hc])
  simp [isAbsolute, Text.startsWith, Text.bytes_slash, hcs, List.isPrefixOf_cons_cons, hc]

theorem IsName.resolvedParts_eq (h : IsName n) : resolvedParts n = [n] := by
  simp [resolvedParts, h.parts_eq, h.resolvePart]

theorem IsName.resolvedParts_below (h : IsName n) {dir : Text} (hdir : dir.bytes ≠ []) :
    resolvedParts (dir ++ "/" ++ n) = resolvedParts dir ++ [n] := by
  rw [resolvedParts, isAbsolute_below hdir, parts_append_slash, h.parts_eq, List.foldl_append]
  simp [resolvedParts, h.resolvePart]

theorem IsName.bytes_clean (h : IsName n) {p : Text} {above : List Text}
    (hp : resolvedParts p = above ++ [n]) :
    (clean p).bytes = (if isAbsolute p then [47] else [])
      ++ (above.flatMap fun part ↦ part.bytes ++ [47]) ++ n.bytes := by
  have hbody := Text.bytes_join_concat above n
  rw [← hp] at hbody
  have hne : (Text.join "/" (resolvedParts p)).isEmpty = false := by
    simp [Text.isEmpty, hbody, h.ne_nil]
  unfold clean
  split
  · simp [hbody, Text.bytes_slash]
  · simp [hbody, hne]

/-- What stands in front of the names below a directory. -/
def lead (dir : Text) : Text :=
  ⟨if dir.isEmpty then []
    else (if isAbsolute dir then [47] else [])
      ++ (resolvedParts dir).flatMap fun part ↦ part.bytes ++ [47]⟩

theorem lead_cases (dir : Text) : lead dir = {} ∨ ∃ above : Text, lead dir = above ++ "/" := by
  unfold lead
  split
  · exact .inl rfl
  obtain hnil | ⟨above, last, hsnoc⟩ := List.eq_nil_or_concat (resolvedParts dir)
  · split
    · exact .inr ⟨{}, congrArg Text.mk (by simp [hnil]; rfl)⟩
    · exact .inl (congrArg Text.mk (by simp [hnil]))
  · refine .inr ⟨⟨(if isAbsolute dir then [47] else [])
      ++ ((above.flatMap fun part ↦ part.bytes ++ [47]) ++ last.bytes)⟩, congrArg Text.mk ?_⟩
    simp [hsnoc, Text.bytes_slash]

/-- **A name stays whole below a directory.** -/
theorem join_name (dir : Text) (h : IsName n) : join dir n = lead dir ++ n := by
  have hbytes : (join dir n).bytes = (lead dir ++ n).bytes := by
    unfold join lead
    by_cases hdir : dir.bytes = []
    · have hempty : dir.isEmpty := by simp [Text.isEmpty, hdir]
      have hn : n.isEmpty = false := by simp [Text.isEmpty, h.ne_nil]
      have hparts : resolvedParts n = [] ++ [n] := h.resolvedParts_eq
      simp [hempty, hn, h.bytes_clean hparts, h.isAbsolute_eq]
    · have hempty : dir.isEmpty = false := by simp [Text.isEmpty, hdir]
      simp [hempty, h.bytes_clean (h.resolvedParts_below hdir), isAbsolute_below hdir]
  exact congrArg Text.mk hbytes

/-- **The path of a name below a directory ends with the step down to it.** -/
theorem endsIn_join (dir : Text) (h : IsName n) : EndsIn (join dir n) n := by
  rw [join_name dir h]
  refine ⟨h, ?_, ?_⟩
  · obtain hnil | ⟨above, habove⟩ := lead_cases dir
    · exact ⟨[], by rw [hnil]; exact h.parts_eq⟩
    · exact ⟨parts above, by rw [habove, parts_append_slash, h.parts_eq]⟩
  · rw [Text.bytes_append, List.getLast?_append_of_ne_nil _ h.ne_nil]
    exact fun hlast ↦ h.no_slash (List.mem_of_getLast? hlast)

theorem notMem_base {p : Text} (h : base p ≠ "/") : 47 ∉ (base p).bytes := by
  unfold base at h ⊢
  split at h
  · rw [if_pos ‹_›]
    decide
  · obtain hnil | ⟨above, last, hsnoc⟩ := List.eq_nil_or_concat (parts p)
    · exact absurd (by rw [hnil]; rfl) h
    · have hmem : last ∈ parts p := by simp [hsnoc]
      obtain ⟨piece, hpiece, rfl⟩ := List.mem_map.1 (List.mem_filter.1 hmem).1
      rw [if_neg ‹_›, hsnoc]
      simpa using notMem_of_mem_splitOn hpiece

end Path

end WasmBackend

namespace WasmBackend.FileTree

variable {t t' : FileTree} {p q n m : Text} {l : Location} {bytes : List UInt8}

/-- What stands in the file at a path stays there. -/
def Keeps (p : Text) (t t' : FileTree) : Prop :=
  ∀ bytes, t.content? p = some bytes → t'.content? p = some bytes

theorem Keeps.refl (p : Text) (t : FileTree) : Keeps p t t := fun _ h ↦ h

theorem Keeps.trans {t'' : FileTree} (h : Keeps p t t') (h' : Keeps p t' t'') : Keeps p t t'' :=
  fun bytes hbytes ↦ h' bytes (h bytes hbytes)

theorem content?_of_locate (hl : t.locate p = .ok l) :
    t.content? p = match t.node? l with
      | some (.file bytes) => some bytes
      | _ => none := by
  unfold content? readFile find
  rw [hl]
  rcases hn : t.node? l with _ | _ | _ <;> simp only [bind, Except.bind, hn] <;> rfl

theorem content?_of_locate_error {cause : FileCause} (hl : t.locate p = .error cause) :
    t.content? p = none := by
  unfold content? readFile find
  rw [hl]
  rfl

theorem content?_eq_some_iff :
    t.content? p = some bytes ↔ ∃ l, t.locate p = .ok l ∧ t.node? l = some (.file bytes) := by
  cases hl : t.locate p with
  | error cause => simp [content?_of_locate_error hl]
  | ok l => rcases hn : t.node? l with _ | _ | _ <;> simp [content?_of_locate hl, hn]

theorem lookup_filter_ne (nodes : List (Location × FileNode)) (l l' : Location) :
    (nodes.filter fun x ↦ !decide (x.1 = l)).lookup l' =
      if l' = l then none else nodes.lookup l' := by
  induction nodes with
  | nil => simp
  | cons x xs ih =>
    by_cases hx : x.1 = l
    · rw [List.filter_cons_of_neg (by simpa using hx), ih]
      split
      · rfl
      · rename_i hne
        rw [List.lookup_cons, beq_false_of_ne (hx ▸ hne)]
    · rw [List.filter_cons_of_pos (by simpa using hx), List.lookup_cons, List.lookup_cons, ih]
      split
      · rename_i heq
        rw [if_neg (by rwa [beq_iff_eq.1 heq])]
      · rfl

theorem node?_put_self (hl : l ≠ []) (k : FileNode) : (t.put l k).node? l = some k := by
  simp [node?, put, hl, List.lookup_append, lookup_filter_ne]

theorem node?_put_of_ne {l' : Location} (h : l' ≠ l) (k : FileNode) :
    (t.put l k).node? l' = t.node? l' := by
  simp [node?, put, List.lookup_append, lookup_filter_ne, h, List.lookup_cons,
    beq_false_of_ne h]

theorem follow_cons (part : Text) (rest : List Text) :
    t.follow l (part :: rest) =
      match t.node? l with
      | some .directory =>
        if Path.partLimit < part.size then .error .nameTooLong
        else if part = "." then t.follow l rest
        else if part = ".." then t.follow l.dropLast rest
        else t.follow (l ++ [part]) rest
      | some (.file _) => .error .notDirectory
      | none => .error .notExist :=
  rfl

theorem follow_put (hl : t.node? l ≠ some .directory) (k : FileNode) {start finish : Location}
    {steps : List Text} (h : t.follow start steps = .ok finish) :
    (t.put l k).follow start steps = .ok finish := by
  induction steps generalizing start with
  | nil => exact h
  | cons part rest ih =>
    rw [follow_cons] at h ⊢
    by_cases hstart : t.node? start = some .directory
    · have hne : start ≠ l := fun heq ↦ hl (heq ▸ hstart)
      rw [node?_put_of_ne hne, hstart]
      rw [hstart] at h
      simp only at h ⊢
      split_ifs at h ⊢
      · exact ih h
      · exact ih h
      · exact ih h
    · split at h
      · exact absurd ‹_› hstart
      · cases h
      · cases h

theorem locate_put (hl : t.node? l ≠ some .directory) (k : FileNode) {l' : Location}
    (h : t.locate p = .ok l') : (t.put l k).locate p = .ok l' := by
  unfold locate at h ⊢
  split_ifs at h ⊢ <;> exact follow_put hl k h

/-- **A node at a location where no directory is keeps the files elsewhere.** -/
theorem keeps_put (hl : t.node? l ≠ some .directory) (k : FileNode)
    (h : ∀ l' bytes, t.locate p = .ok l' → t.node? l' = some (.file bytes) → l' ≠ l) :
    Keeps p t (t.put l k) := by
  intro bytes hbytes
  obtain ⟨l', hlocate, hnode⟩ := content?_eq_some_iff.1 hbytes
  exact content?_eq_some_iff.2
    ⟨l', locate_put hl k hlocate, (node?_put_of_ne (h l' bytes hlocate hnode) k).trans hnode⟩

theorem follow_append (l : Location) (steps rest : List Text) :
    t.follow l (steps ++ rest) = (t.follow l steps).bind fun l' ↦ t.follow l' rest := by
  induction steps generalizing l with
  | nil => rfl
  | cons part steps ih =>
    rw [List.cons_append, follow_cons, follow_cons]
    split
    · split_ifs
      · rfl
      · exact ih l
      · exact ih _
      · exact ih _
    · rfl
    · rfl

theorem getLast?_of_follow {start : Location} {above : List Text} (h : Path.IsName n)
    (hl : t.follow start (above ++ [n]) = .ok l) : l.getLast? = some n := by
  rw [follow_append] at hl
  cases hfollow : t.follow start above with
  | error e =>
    rw [hfollow] at hl
    cases hl
  | ok l' =>
    simp only [hfollow, Except.bind, follow] at hl
    split at hl
    · split_ifs at hl with _ hhere hup
      · exact absurd hhere h.ne_here
      · exact absurd hup h.ne_up
      · cases hl
        exact List.getLast?_concat
    · cases hl
    · cases hl

/-- The location of a path has the name that the path ends in. -/
theorem getLast?_of_locate (h : Path.EndsIn p n) (hl : t.locate p = .ok l) :
    l.getLast? = some n := by
  obtain ⟨above, habove⟩ := h.parts_eq
  simp only [locate, h.endsWith_eq, Bool.false_eq_true, if_false, List.append_nil, habove] at hl
  split_ifs at hl <;> exact getLast?_of_follow h.name hl

theorem withoutSlashes_of_endsIn (h : Path.EndsIn p n) : withoutSlashes p = p := by
  have hsame : (p.bytes.reverse.dropWhile (· == 47)).reverse = p.bytes := by
    cases hb : p.bytes.reverse with
    | nil => simpa using hb
    | cons c cs =>
      have hc : c ≠ 47 := fun hc ↦ h.last_ne (by
        rw [← List.head?_reverse, hb, hc]
        rfl)
      rw [List.dropWhile_cons_of_neg (by simpa using hc), ← hb, List.reverse_reverse]
  unfold withoutSlashes
  rw [hsame]
  exact ite_self p

theorem exists_of_blame_bind {α β : Type} {operation : Text} {x : Except FileCause α}
    {f : α → Except FileCause β} {b : β} (h : blame operation p (x >>= f) = .ok b) :
    ∃ a, x = .ok a ∧ blame operation p (f a) = .ok b := by
  cases x with
  | error e => cases h
  | ok a => exact ⟨a, rfl, h⟩

/-- Writing a file puts it at the location of its path. -/
theorem eq_put_of_writeFile (h : Path.EndsIn p n) (hw : t.writeFile p bytes = .ok t') :
    ∃ l, t.locate p = .ok l ∧ t.node? l ≠ some .directory ∧ t' = t.put l (.file bytes) := by
  unfold writeFile at hw
  rw [withoutSlashes_of_endsIn h] at hw
  obtain ⟨l, hl, hw⟩ := exists_of_blame_bind hw
  obtain ⟨-, -, hw⟩ := exists_of_blame_bind hw
  split at hw
  · cases hw
  · rename_i hfree
    cases hw
    exact ⟨l, hl, (not_or.1 hfree).2, rfl⟩

/-- Making a directory puts it where nothing is. -/
theorem eq_put_of_makeDirectory (hm : t.makeDirectory q = .ok t') :
    ∃ l, t.node? l = none ∧ t' = t.put l .directory := by
  unfold makeDirectory at hm
  obtain ⟨l, -, hm⟩ := exists_of_blame_bind hm
  split at hm
  · cases hm
  · rename_i hfree
    obtain ⟨-, -, hm⟩ := exists_of_blame_bind hm
    cases hm
    exact ⟨l, Option.not_isSome_iff_eq_none.1 hfree, rfl⟩

theorem content?_of_writeFile (h : Path.EndsIn p n) (hw : t.writeFile p bytes = .ok t') :
    t'.content? p = some bytes := by
  obtain ⟨l, hlocate, hnode, rfl⟩ := eq_put_of_writeFile h hw
  have hne : l ≠ [] := fun heq ↦ hnode (by rw [heq]; rfl)
  exact content?_eq_some_iff.2 ⟨l, locate_put hnode _ hlocate, node?_put_self hne _⟩

/-- **Writing a file keeps the files of other names.** -/
theorem keeps_of_writeFile (h : Path.EndsIn p n) (hq : Path.EndsIn q m) (hne : n ≠ m)
    (hw : t.writeFile q bytes = .ok t') : Keeps p t t' := by
  obtain ⟨l, hlocate, hnode, rfl⟩ := eq_put_of_writeFile hq hw
  refine keeps_put hnode _ fun l' _ hl' _ heq ↦ hne ?_
  have hlast := getLast?_of_locate h hl'
  rw [heq, getLast?_of_locate hq hlocate] at hlast
  exact (Option.some.inj hlast).symm

theorem keeps_of_makeDirectory (hm : t.makeDirectory q = .ok t') : Keeps p t t' := by
  obtain ⟨l, hnone, rfl⟩ := eq_put_of_makeDirectory hm
  refine keeps_put (by simp [hnone]) _ fun l' bytes _ hnode heq ↦ ?_
  rw [← heq, hnode] at hnone
  cases hnone

section Programs

variable {α β : Type}

/-- However a program on files runs, what stands in the file at a path stays there. -/
def Spares (p : Text) (x : StateM FileTree α) : Prop :=
  ∀ t, Keeps p t (x t).2

theorem spares_of_reads {x : StateM FileTree α} (h : ∀ t, (x t).2 = t) : Spares p x := fun t ↦ by
  rw [h]
  exact Keeps.refl p t

theorem Spares.bind {x : StateM FileTree α} {f : α → StateM FileTree β} (hx : Spares p x)
    (hf : ∀ a, Spares p (f a)) : Spares p (x >>= f) :=
  fun t ↦ (hx t).trans (hf (x t).1 (x t).2)

theorem update_apply (f : FileTree → FileResult FileTree) (t : FileTree) :
    update f t = match f t with
      | .ok t' => (.ok (), t')
      | .error e => (.error e, t) := by
  show (match f t with
    | .ok t' => do set t'; return .ok ()
    | .error e => return .error e : StateM FileTree (FileResult Unit)) t = _
  cases f t <;> rfl

theorem ok_of_update {f : FileTree → FileResult FileTree} (h : (update f t).1 = .ok ()) :
    f t = .ok (update f t).2 := by
  rw [update_apply] at h ⊢
  cases hf : f t with
  | ok t' => rfl
  | error e =>
    rw [hf] at h
    cases h

theorem spares_update {f : FileTree → FileResult FileTree}
    (h : ∀ t t', f t = .ok t' → Keeps p t t') : Spares p (update f) := by
  intro t
  rw [update_apply]
  cases hf : f t with
  | ok t' => exact h t t' hf
  | error e => exact Keeps.refl p t

theorem spares_ensureDirectory (q : Text) :
    Spares p (Files.ensureDirectory (m := StateM FileTree) q) := by
  refine Spares.bind (spares_of_reads fun _ ↦ rfl) fun known ↦ ?_
  split
  · exact spares_of_reads fun _ ↦ rfl
  · exact spares_of_reads fun _ ↦ rfl
  · exact spares_update fun _ _ ↦ keeps_of_makeDirectory

theorem spares_ensureAll (paths : List Text) :
    Spares p (Files.ensureAll (m := StateM FileTree) paths) := by
  induction paths with
  | nil => exact spares_of_reads fun _ ↦ rfl
  | cons q rest ih =>
    refine (spares_ensureDirectory q).bind fun made ↦ ?_
    split
    · exact ih
    · exact spares_of_reads fun _ ↦ rfl

/-- **Making directories keeps every file.** -/
theorem spares_makeDirectories (q : Text) :
    Spares p (Files.makeDirectories (m := StateM FileTree) q) := by
  refine Spares.bind (spares_of_reads fun _ ↦ rfl) fun known ↦ ?_
  split
  · exact spares_of_reads fun _ ↦ rfl
  · exact spares_ensureAll _

end Programs

end WasmBackend.FileTree
