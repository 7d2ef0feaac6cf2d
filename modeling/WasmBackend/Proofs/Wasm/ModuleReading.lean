import WasmBackend.Proofs.Wasm.InstructionReading

/-!
# Reading modules

A module is read as the format lays it out: the header, then sections up to the end of the input,
in strictly ascending order, each of exactly the length it names.  A section that is missing holds
nothing, but for the table and the memory, which have to be there.  A module whose numbers fit into
32 bits is read back from its bytes; so different modules have different bytes.
-/

namespace WasmBackend.Wasm

namespace Reader

/-! ## Parts of sections -/

def valType : Reader ValType := do
  (ValType.ofCode? (← byte)).elim failure pure

/-- Bytes behind their number. -/
def content : Reader (List UInt8) := do
  bytes (← u32)

/-- A name; its bytes are not looked into. -/
def name : Reader Text :=
  Text.mk <$> content

def funcType : Reader FuncType := do
  exactly 0x60
  return { params := ← vector valType, results := ← vector valType }

def importedFunction : Reader ImportedFunction := do
  let source ← name
  let name ← name
  exactly 0x00
  return { source, name, type := ← u32 }

/-- A constant expression that gives an address. -/
def address : Reader UInt32 := do
  exactly 0x41
  let n ← signed 32
  exactly endCode
  return (Int32.ofInt n).toUInt32

def flag : Reader Bool := do
  let b ← byte
  if b = 0x00 then return false else if b = 0x01 then return true else failure

def globalCell : Reader GlobalCell := do
  exactly ValType.i32.code
  return { mutable := ← flag, init := ← address }

def exportKind : Reader ExportKind := do
  let b ← byte
  if b = 0x00 then return .function else if b = 0x02 then return .memory else failure

def exportEntry : Reader Export := do
  return { name := ← name, kind := ← exportKind, index := ← u32 }

/-- So many locals of one type. -/
def localGroup : Reader (List ValType) := do
  return List.replicate (← u32) (← valType)

def functionBody : Reader Body :=
  sized do
    return { locals := (← vector localGroup).flatten, code := ← expression }

def dataSegment : Reader DataSegment := do
  exactly 0x00
  return { address := ← address, bytes := ← content }

/-- The one table, of functions, whose least and greatest size are equal. -/
def table : Reader Nat := do
  exactly 0x01
  exactly 0x70
  exactly 0x01
  let min ← u32
  let max ← u32
  if min = max then return min else failure

/-- The one memory, with its least and greatest size. -/
def memory : Reader (UInt32 × UInt32) := do
  exactly 0x01
  exactly 0x01
  let min ← u32
  let max ← u32
  return (min.toUInt32, max.toUInt32)

/-- The one element segment, which starts at entry 0 of the table. -/
def elementSegment : Reader (List Nat) := do
  exactly 0x01
  exactly 0x00
  let start ← address
  if start = 0 then vector u32 else failure

/-! ## Sections -/

/-- A section: its number and its content. -/
abbrev Section := UInt8 × List UInt8

def oneSection : Reader Section := do
  return (← byte, ← content)

/-- The sections up to the end of the input; the budget bounds the bytes that are read. -/
def sectionsWithin : Nat → List UInt8 → Option (List Section)
  | _, [] => some []
  | 0, _ => none
  | budget + 1, input => do
    let (s, rest) ← oneSection.run input
    return s :: (← sectionsWithin budget rest)

/-- The sections of some bytes, which have to be in strictly ascending order. -/
def sections (input : List UInt8) : Option (List Section) := do
  let found ← sectionsWithin input.length input
  if (found.map Prod.fst).Pairwise (· < ·) then some found else none

/-- What a section holds, given what it stands for when it is missing. -/
def inSection {α : Type} (found : List Section) (id : UInt8) (r : Reader α) (missing : Option α) :
    Option α :=
  match found.lookup id with
  | some content => whole r content
  | none => missing

end Reader

namespace Module

open Reader

/-- The module that some sections stand for. -/
def ofSections (found : List Section) : Option Module := do
  let limits ← inSection found 5 memory none
  return {
    types := ← inSection found 1 (vector funcType) (some [])
    imports := ← inSection found 2 (vector importedFunction) (some [])
    functions := ← inSection found 3 (vector u32) (some [])
    tableSize := ← inSection found 4 table none
    minPages := limits.1
    maxPages := limits.2
    globals := ← inSection found 6 (vector globalCell) (some [])
    exports := ← inSection found 7 (vector exportEntry) (some [])
    elements := ← inSection found 9 elementSegment (some [])
    bodies := ← inSection found 10 (vector functionBody) (some [])
    data := ← inSection found 11 (vector dataSegment) (some []) }

/-- The sections of the module that some bytes stand for. -/
def sectionsIn (input : List UInt8) : Option (List Section) :=
  match (bytes header.length).run input with
  | some (start, rest) => if start = header then Reader.sections rest else none
  | none => none

/-- The module that some bytes stand for. -/
def decode (input : List UInt8) : Option Module :=
  (sectionsIn input).bind ofSections

/-- Every number in a module fits into 32 bits, its length included. -/
structure Fits (m : Module) : Prop where
  length : m.encode.length < u32Bound
  imports : ∀ i ∈ m.imports, i.type < u32Bound
  functions : ∀ t ∈ m.functions, t < u32Bound
  tableSize : m.tableSize < u32Bound
  exports : ∀ e ∈ m.exports, e.index < u32Bound
  elements : ∀ f ∈ m.elements, f < u32Bound
  locals : ∀ b ∈ m.bodies, b.locals.length < u32Bound
  code : ∀ b ∈ m.bodies, InstructionsFit b.code

end Module

/-! ## Parts of sections are read back -/

section Parts

open Reader

theorem reads_valType (t : ValType) : Reads valType [t.code] t := by
  refine (reads_byte t.code).bind_pure ?_
  rw [ValType.ofCode?_code]
  exact .pure

theorem reads_content {content : List UInt8} (h : content.length < u32Bound) :
    Reads Reader.content (encodeBytes content) content :=
  (reads_unsigned h).bind (reads_bytes content)

theorem reads_name {name : Text} (h : name.bytes.length < u32Bound) :
    Reads Reader.name (encodeName name) name :=
  (reads_content h).map

theorem length_le_flatMap {α : Type} {encode : α → List UInt8} {xs : List α}
    (h : ∀ x ∈ xs, encode x ≠ []) : xs.length ≤ (xs.flatMap encode).length := by
  induction xs with
  | nil => simp
  | cons x xs ih =>
    have hx : 0 < (encode x).length := List.length_pos_iff.mpr (h x (by simp))
    have := ih fun y hy ↦ h y (by simp [hy])
    rw [List.flatMap_cons, List.length_append, List.length_cons]
    omega

theorem length_le_of_mem {α : Type} (encode : α → List UInt8) {xs : List α} {x : α} (h : x ∈ xs) :
    (encode x).length ≤ (xs.flatMap encode).length :=
  (List.sublist_flatten_of_mem (List.mem_map_of_mem h)).length_le

/-- A vector whose bytes can be counted is read back with its values, whose bytes can be counted
then. -/
theorem reads_vector_of_length {α : Type} {r : Reader α} {encode : α → List UInt8} {xs : List α}
    (hlength : (encodeVector encode xs).length < u32Bound) (hne : ∀ x ∈ xs, encode x ≠ [])
    (h : ∀ x ∈ xs, (encode x).length < u32Bound → Reads r (encode x) x) :
    Reads (vector r) (encodeVector encode xs) xs := by
  rw [encodeVector, List.length_append] at hlength
  refine reads_vector_self ?_ fun x hx ↦ h x hx ?_
  · have := length_le_flatMap hne
    omega
  · have := length_le_of_mem encode hx
    omega

theorem reads_valTypes {ts : List ValType} (h : (encodeValTypes ts).length < u32Bound) :
    Reads (vector valType) (encodeValTypes ts) ts :=
  reads_vector_of_length h (by simp) fun t _ _ ↦ reads_valType t

theorem reads_funcType {t : FuncType} (h : t.encode.length < u32Bound) :
    Reads funcType t.encode t := by
  rw [FuncType.encode, List.length_cons, List.length_append] at h
  refine (reads_exactly 0x60).bind ?_
  refine (reads_valTypes (by omega)).bind ?_
  exact (reads_valTypes (by omega)).bind_pure .pure

theorem reads_importedFunction {i : ImportedFunction} (h : i.encode.length < u32Bound)
    (htype : i.type < u32Bound) : Reads importedFunction i.encode i := by
  simp only [ImportedFunction.encode, encodeName, encodeBytes, List.length_append] at h
  rw [ImportedFunction.encode, List.append_assoc]
  refine (reads_name (by omega)).bind ?_
  refine (reads_name (by omega)).bind ?_
  refine (reads_exactly 0x00).bind ?_
  exact (reads_unsigned htype).bind_pure .pure

theorem reads_address (a : UInt32) : Reads address (encodeAddress a) a := by
  rw [encodeAddress, Instruction.encode]
  refine (reads_exactly 0x41).bind ?_
  refine (reads_signedWord a).bind ?_
  refine (reads_exactly endCode).bind_pure ?_
  simpa using Reads.pure

theorem reads_flag (b : Bool) : Reads flag [if b then 0x01 else 0x00] b := by
  refine (reads_byte _).bind_pure ?_
  cases b <;> exact .pure

theorem reads_globalCell (g : GlobalCell) : Reads globalCell g.encode g := by
  refine (reads_exactly ValType.i32.code).bind ?_
  refine (reads_flag g.mutable).bind ?_
  exact (reads_address g.init).bind_pure .pure

theorem reads_exportKind (k : ExportKind) : Reads exportKind [k.code] k := by
  refine (reads_byte k.code).bind_pure ?_
  cases k <;> exact .pure

theorem reads_exportEntry {e : Export} (h : e.encode.length < u32Bound)
    (hindex : e.index < u32Bound) : Reads exportEntry e.encode e := by
  simp only [Export.encode, encodeName, encodeBytes, List.length_append] at h
  refine (reads_name (by omega)).bind ?_
  refine (reads_exportKind e.kind).bind ?_
  exact (reads_unsigned hindex).bind_pure .pure

theorem reads_dataSegment {d : DataSegment} (h : d.encode.length < u32Bound) :
    Reads dataSegment d.encode d := by
  simp only [DataSegment.encode, encodeBytes, List.length_append, List.length_cons] at h
  refine (reads_exactly 0x00).bind ?_
  refine (reads_address d.address).bind ?_
  exact (reads_content (by omega)).bind_pure .pure

theorem flatten_localGroups (ts : List ValType) :
    ((localGroups ts).map fun g ↦ List.replicate g.1 g.2).flatten = ts := by
  induction ts with
  | nil => rfl
  | cons t ts ih =>
    rw [localGroups]
    split
    · rename_i n u groups hgroups
      rw [hgroups] at ih
      split
      · subst t
        rw [← ih]
        simp [List.replicate_succ]
      · rw [← ih]
        simp
    · rename_i hgroups
      rw [hgroups] at ih
      rw [← ih]
      simp

theorem count_le_of_mem_localGroups {ts : List ValType} {g : Nat × ValType}
    (h : g ∈ localGroups ts) : g.1 ≤ ts.length := by
  have := length_le_of_mem (fun g : Nat × ValType ↦ List.replicate g.1 0) h
  have hsum := congrArg List.length (flatten_localGroups ts)
  rw [← List.flatMap_def, List.length_flatMap] at hsum
  rw [List.length_flatMap] at this
  simp only [List.length_replicate] at this hsum
  omega

theorem reads_localGroup {g : Nat × ValType} (h : g.1 < u32Bound) :
    Reads localGroup (Leb128.unsigned g.1 ++ [g.2.code]) (List.replicate g.1 g.2) := by
  refine (reads_unsigned h).bind ?_
  exact (reads_valType g.2).bind_pure .pure

theorem reads_locals {ts : List ValType} (hcount : (localGroups ts).length < u32Bound)
    (h : ts.length < u32Bound) :
    Reads (vector localGroup)
      (encodeVector (fun g ↦ Leb128.unsigned g.1 ++ [g.2.code]) (localGroups ts))
      ((localGroups ts).map fun g ↦ List.replicate g.1 g.2) :=
  reads_vector hcount fun _ hg ↦
    reads_localGroup (lt_of_le_of_lt (count_le_of_mem_localGroups hg) h)

theorem reads_functionBody {b : Body} (hlength : b.encode.length < u32Bound)
    (hlocals : b.locals.length < u32Bound) (hcode : InstructionsFit b.code) :
    Reads functionBody b.encode b := by
  have hgroups : (localGroups b.locals).length ≤
      ((localGroups b.locals).flatMap fun g ↦ Leb128.unsigned g.1 ++ [g.2.code]).length :=
    length_le_flatMap (by simp)
  simp only [Body.encode, encodeBytes, encodeVector, List.length_append] at hlength
  refine reads_sized (by simp only [encodeVector, List.length_append]; omega) ?_
  rw [List.append_assoc]
  refine (reads_locals (by omega) hlocals).bind ?_
  refine (reads_expression hcode).bind_pure ?_
  rw [flatten_localGroups]
  exact .pure

end Parts

/-! ## Sections are found -/

section Sections

open Reader

theorem reads_oneSection {s : Section} (h : s.2.length < u32Bound) :
    Reads oneSection (encodeSection s.1 s.2) s := by
  refine (reads_byte s.1).bind ?_
  exact (reads_content h).bind_pure .pure

theorem sectionsWithin_flatMap {found : List Section} {budget : Nat}
    (hbudget : found.length ≤ budget) (h : ∀ s ∈ found, s.2.length < u32Bound) :
    sectionsWithin budget (found.flatMap fun s ↦ encodeSection s.1 s.2) = some found := by
  induction found generalizing budget with
  | nil => cases budget <;> rfl
  | cons s found ih =>
    obtain ⟨budget, rfl⟩ : ∃ k, budget = k + 1 := ⟨budget - 1, by
      rw [List.length_cons] at hbudget
      omega⟩
    rw [List.flatMap_cons]
    show (oneSection.run (encodeSection s.1 s.2 ++ _) >>= _) = _
    rw [reads_oneSection (h s (by simp))]
    show (sectionsWithin budget _ >>= _) = _
    rw [ih (by simpa using hbudget) fun t ht ↦ h t (by simp [ht])]
    rfl

theorem sections_flatMap {found : List Section} (hsorted : (found.map Prod.fst).Pairwise (· < ·))
    (h : ∀ s ∈ found, s.2.length < u32Bound) :
    sections (found.flatMap fun s ↦ encodeSection s.1 s.2) = some found := by
  have hcount : found.length ≤ (found.flatMap fun s ↦ encodeSection s.1 s.2).length :=
    length_le_flatMap (by simp [encodeSection])
  rw [sections, sectionsWithin_flatMap hcount h]
  show (if _ then _ else _) = _
  rw [if_pos hsorted]

end Sections

namespace Module

open Reader

/-- A section that is left out when there is nothing in it. -/
def sectionUnless (empty : Bool) (id : UInt8) (content : List UInt8) : List Section :=
  if empty then [] else [(id, content)]

/-- The sections of a module in order. -/
def sections (m : Module) : List Section :=
  [(1, encodeVector FuncType.encode m.types)] ++
  sectionUnless m.imports.isEmpty 2 (encodeVector ImportedFunction.encode m.imports) ++
  [(3, encodeVector Leb128.unsigned m.functions), (4, m.encodeTable), (5, m.encodeMemory),
    (6, encodeVector GlobalCell.encode m.globals), (7, encodeVector Export.encode m.exports)] ++
  sectionUnless m.elements.isEmpty 9 m.encodeElements ++
  [(10, encodeVector Body.encode m.bodies)] ++
  sectionUnless m.data.isEmpty 11 (encodeVector DataSegment.encode m.data)

theorem flatMap_sectionUnless (empty : Bool) (id : UInt8) (content : List UInt8) :
    ((sectionUnless empty id content).flatMap fun s ↦ encodeSection s.1 s.2) =
      encodeSectionUnless empty id content := by
  cases empty <;> simp [sectionUnless, encodeSectionUnless]

theorem encode_eq (m : Module) :
    m.encode = header ++ m.sections.flatMap fun s ↦ encodeSection s.1 s.2 := by
  simp [encode, sections, flatMap_sectionUnless]

theorem sections_sorted (m : Module) : (m.sections.map Prod.fst).Pairwise (· < ·) := by
  unfold sections sectionUnless
  cases m.imports.isEmpty <;> cases m.elements.isEmpty <;> cases m.data.isEmpty <;> simp

end Module

section Lookup

open Reader

variable {α : Type} {found : List Section} {id : UInt8} {content : List UInt8} {r : Reader α}
  {missing : Option α} {a : α}

theorem nodup_of_sorted (hsorted : (found.map Prod.fst).Pairwise (· < ·)) :
    (found.map Prod.fst).Nodup := by
  refine hsorted.imp ?_
  rintro a _ hlt rfl
  exact UInt8.lt_irrefl a hlt

theorem inSection_of_mem (hsorted : (found.map Prod.fst).Pairwise (· < ·))
    (h : (id, content) ∈ found) (hr : Reads r content a) :
    inSection found id r missing = some a := by
  rw [inSection, (lookup_eq_some_iff_mem (nodup_of_sorted hsorted)).mpr h]
  exact whole_eq hr

theorem inSection_missing (h : id ∉ found.map Prod.fst) : inSection found id r missing = missing := by
  have hnone : found.lookup id = none := by
    rw [List.lookup_eq_none_iff]
    intro s hs
    rw [bne_iff_ne]
    rintro rfl
    exact h (List.mem_map_of_mem hs)
  rw [inSection, hnone]

end Lookup

/-! ## Modules are read back -/

namespace Module

open Reader

theorem length_le_of_mem_sections {m : Module} {s : Section} (h : s ∈ m.sections) :
    s.2.length ≤ m.encode.length := by
  have hle := length_le_of_mem (fun s : Section ↦ encodeSection s.1 s.2) h
  rw [encode_eq, List.length_append]
  simp only [encodeSection, encodeBytes, List.length_cons, List.length_append] at hle ⊢
  omega

theorem Fits.section {m : Module} (h : m.Fits) {s : Section} (hs : s ∈ m.sections) :
    s.2.length < u32Bound :=
  lt_of_le_of_lt (length_le_of_mem_sections hs) h.length

theorem sectionsIn_encode {m : Module} (h : ∀ s ∈ m.sections, s.2.length < u32Bound) :
    sectionsIn m.encode = some m.sections := by
  rw [encode_eq, sectionsIn, reads_bytes header]
  show (if header = header then _ else _) = _
  rw [if_pos rfl, sections_flatMap m.sections_sorted h]

section Read

variable {m : Module}

theorem Fits.read_types (h : m.Fits) :
    inSection m.sections 1 (vector funcType) (some []) = some m.types := by
  have hs : (1, encodeVector FuncType.encode m.types) ∈ m.sections := by simp [sections]
  refine inSection_of_mem m.sections_sorted hs ?_
  exact reads_vector_of_length (h.section hs) (by simp [FuncType.encode]) fun t _ ↦ reads_funcType

theorem Fits.read_imports (h : m.Fits) :
    inSection m.sections 2 (vector importedFunction) (some []) = some m.imports := by
  by_cases hempty : m.imports = []
  · rw [inSection_missing (by simp [sections, sectionUnless, hempty]), hempty]
  · have hs : (2, encodeVector ImportedFunction.encode m.imports) ∈ m.sections := by
      simp [sections, sectionUnless, hempty]
    refine inSection_of_mem m.sections_sorted hs ?_
    exact reads_vector_of_length (h.section hs) (by simp [ImportedFunction.encode])
      fun i hi hlength ↦ reads_importedFunction hlength (h.imports i hi)

theorem unsigned_ne_nil (n : Nat) : Leb128.unsigned n ≠ [] := by
  rw [Leb128.unsigned]
  split <;> simp

theorem Fits.read_functions (h : m.Fits) :
    inSection m.sections 3 (vector u32) (some []) = some m.functions := by
  have hs : (3, encodeVector Leb128.unsigned m.functions) ∈ m.sections := by simp [sections]
  refine inSection_of_mem m.sections_sorted hs ?_
  exact reads_vector_of_length (h.section hs) (fun t _ ↦ unsigned_ne_nil t)
    fun t ht _ ↦ reads_unsigned (h.functions t ht)

theorem Fits.read_table (h : m.Fits) : inSection m.sections 4 table none = some m.tableSize := by
  have hs : (4, m.encodeTable) ∈ m.sections := by simp [sections]
  refine inSection_of_mem m.sections_sorted hs ?_
  refine (reads_exactly 0x01).bind ?_
  refine (reads_exactly 0x70).bind ?_
  refine (reads_exactly 0x01).bind ?_
  refine (reads_unsigned h.tableSize).bind ?_
  refine (reads_unsigned h.tableSize).bind_pure ?_
  rw [if_pos rfl]
  exact .pure

theorem read_memory (m : Module) :
    inSection m.sections 5 memory none = some (m.minPages, m.maxPages) := by
  have hs : (5, m.encodeMemory) ∈ m.sections := by simp [sections]
  refine inSection_of_mem m.sections_sorted hs ?_
  refine (reads_exactly 0x01).bind ?_
  refine (reads_exactly 0x01).bind ?_
  refine (reads_unsigned m.minPages.toNat_lt).bind ?_
  refine (reads_unsigned m.maxPages.toNat_lt).bind_pure ?_
  simpa using Reads.pure

theorem Fits.read_globals (h : m.Fits) :
    inSection m.sections 6 (vector globalCell) (some []) = some m.globals := by
  have hs : (6, encodeVector GlobalCell.encode m.globals) ∈ m.sections := by simp [sections]
  refine inSection_of_mem m.sections_sorted hs ?_
  exact reads_vector_of_length (h.section hs) (by simp [GlobalCell.encode])
    fun g _ _ ↦ reads_globalCell g

theorem Fits.read_exports (h : m.Fits) :
    inSection m.sections 7 (vector exportEntry) (some []) = some m.exports := by
  have hs : (7, encodeVector Export.encode m.exports) ∈ m.sections := by simp [sections]
  refine inSection_of_mem m.sections_sorted hs ?_
  exact reads_vector_of_length (h.section hs) (by simp [Export.encode])
    fun e he hlength ↦ reads_exportEntry hlength (h.exports e he)

theorem Fits.read_elements (h : m.Fits) :
    inSection m.sections 9 elementSegment (some []) = some m.elements := by
  by_cases hempty : m.elements = []
  · rw [inSection_missing (by simp [sections, sectionUnless, hempty]), hempty]
  · have hs : (9, m.encodeElements) ∈ m.sections := by simp [sections, sectionUnless, hempty]
    have hlength := h.section hs
    simp only [encodeElements, List.length_cons, List.length_append] at hlength
    refine inSection_of_mem m.sections_sorted hs ?_
    refine (reads_exactly 0x01).bind ?_
    refine (reads_exactly 0x00).bind ?_
    refine (reads_address 0).bind ?_
    rw [if_pos rfl]
    exact reads_vector_of_length (by omega) (fun f _ ↦ unsigned_ne_nil f)
      fun f hf _ ↦ reads_unsigned (h.elements f hf)

theorem Fits.read_bodies (h : m.Fits) :
    inSection m.sections 10 (vector functionBody) (some []) = some m.bodies := by
  have hs : (10, encodeVector Body.encode m.bodies) ∈ m.sections := by simp [sections]
  have hne (b : Body) : b.encode ≠ [] := by
    simp [Body.encode, encodeBytes, unsigned_ne_nil]
  refine inSection_of_mem m.sections_sorted hs ?_
  exact reads_vector_of_length (h.section hs) (fun b _ ↦ hne b)
    fun b hb hlength ↦ reads_functionBody hlength (h.locals b hb) (h.code b hb)

theorem read_data (h : ∀ s ∈ m.sections, s.2.length < u32Bound) :
    inSection m.sections 11 (vector dataSegment) (some []) = some m.data := by
  by_cases hempty : m.data = []
  · rw [inSection_missing (by simp [sections, sectionUnless, hempty]), hempty]
  · have hs : (11, encodeVector DataSegment.encode m.data) ∈ m.sections := by
      simp [sections, sectionUnless, hempty]
    refine inSection_of_mem m.sections_sorted hs ?_
    exact reads_vector_of_length (h _ hs) (by simp [DataSegment.encode])
      fun d _ hlength ↦ reads_dataSegment hlength

end Read

theorem length_le_encodeSection {α : Type} {encode : α → List UInt8} {xs : List α} {id : UInt8}
    (h : ∀ x, encode x ≠ []) : xs.length ≤ (encodeSection id (encodeVector encode xs)).length := by
  have hle := length_le_flatMap fun x (_ : x ∈ xs) ↦ h x
  simp only [encodeSection, encodeBytes, encodeVector, List.length_cons, List.length_append]
  omega

/-- What a module counts takes bytes. -/
theorem counts_le_length (m : Module) :
    m.types.length + m.imports.length + m.functions.length + m.elements.length ≤
      m.encode.length := by
  have htypes : m.types.length ≤ (encodeSection 1 (encodeVector FuncType.encode m.types)).length :=
    length_le_encodeSection fun t ↦ by simp [FuncType.encode]
  have himports : m.imports.length ≤ (encodeSectionUnless m.imports.isEmpty 2
      (encodeVector ImportedFunction.encode m.imports)).length := by
    by_cases hempty : m.imports = []
    · simp [hempty]
    · rw [encodeSectionUnless, if_neg (by simpa using hempty)]
      exact length_le_encodeSection fun i ↦ by simp [ImportedFunction.encode]
  have hfunctions : m.functions.length ≤
      (encodeSection 3 (encodeVector Leb128.unsigned m.functions)).length :=
    length_le_encodeSection unsigned_ne_nil
  have helements : m.elements.length ≤
      (encodeSectionUnless m.elements.isEmpty 9 m.encodeElements).length := by
    by_cases hempty : m.elements = []
    · simp [hempty]
    · have hle := length_le_flatMap fun f (_ : f ∈ m.elements) ↦ unsigned_ne_nil f
      rw [encodeSectionUnless, if_neg (by simpa using hempty)]
      simp only [encodeSection, encodeBytes, encodeElements, encodeVector, List.length_cons,
        List.length_append]
      omega
  simp only [encode, List.length_append]
  omega

theorem length_code_le {m : Module} {b : Body} (h : b ∈ m.bodies) :
    (encodeInstructions b.code).length ≤ m.encode.length := by
  have hs : (10, encodeVector Body.encode m.bodies) ∈ m.sections := by simp [sections]
  have hsection := length_le_of_mem_sections hs
  have hbody := length_le_of_mem Body.encode h
  simp only [encodeVector, Body.encode, encodeBytes, List.length_append] at hsection hbody
  omega

theorem Fits.ofSections {m : Module} (h : m.Fits) : Module.ofSections m.sections = some m := by
  rw [Module.ofSections, read_memory, h.read_types, h.read_imports, h.read_functions, h.read_table,
    h.read_globals, h.read_exports, h.read_elements, h.read_bodies, read_data fun _ ↦ h.section]
  rfl

/-- **A module whose numbers fit into 32 bits is what its bytes stand for.** -/
theorem decode_encode {m : Module} (h : m.Fits) : decode m.encode = some m := by
  rw [decode, sectionsIn_encode fun _ ↦ h.section]
  exact h.ofSections

/-- The module of one function that only traps. -/
example : (decode (encode {
    types := [{}], imports := [], functions := [0], tableSize := 0, minPages := 1, maxPages := 1
    globals := [], exports := [], elements := [], bodies := [⟨[], [.unreachable]⟩], data := [] })).map
      (fun m ↦ (m.functions, m.bodies.length, m.maxPages)) = some ([0], 1, 1) := by
  decide +kernel

/-- Modules whose numbers fit into 32 bits are told apart by their bytes. -/
theorem encode_injective {m n : Module} (hm : m.Fits) (hn : n.Fits) (h : m.encode = n.encode) :
    m = n := by
  have hdecode := decode_encode hm
  rw [h, decode_encode hn] at hdecode
  exact (Option.some.inj hdecode).symm

end Module

end WasmBackend.Wasm
