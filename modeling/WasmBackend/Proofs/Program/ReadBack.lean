import WasmBackend.Program.Stored
import WasmBackend.Proofs.Storage.Records

/-!
# Programs are read back

A program whose texts and lists are short enough for their lengths is read back from its file with
all it had, except that a negative zero among the literals comes back as the positive one: as a zero
it is left out.
-/

namespace WasmBackend

open Storage

/-! ## Nodes -/

instance : FaithfulStored DeclKind := faithful_storedByCode DeclKind.ofCode_code

instance : FaithfulStored DecoratorKind := faithful_storedByCode DecoratorKind.ofCode_code

instance : FaithfulStored FunctionKind := faithful_storedByCode FunctionKind.ofCode_code

instance : FaithfulStored LocalKind := faithful_storedByCode LocalKind.ofCode_code

instance : FaithfulStored StmtKind := faithful_storedByCode StmtKind.ofCode_code

instance : FaithfulStored ExprKind := faithful_storedByCode ExprKind.ofCode_code

instance : FaithfulStored TypeExprKind := faithful_storedByCode TypeExprKind.ofCode_code

instance : FaithfulStored Operator := faithful_storedByCode Operator.ofCode_code

instance : FaithfulStored Prim := faithful_storedByCode Prim.ofCode_code

instance : FaithfulStored Span :=
  faithful_storedRecord (by simp) (by simp) (by simp)

instance : FaithfulStored FileTable :=
  faithful_storedRecord (by simp) (by simp) (by simp)

instance : FaithfulStored Decorator :=
  faithful_storedRecord (by simp) (by simp) (by simp)

instance : FaithfulStored Local :=
  faithful_storedRecord (by simp) (by simp) (by simp)

instance : FaithfulStored Field :=
  faithful_storedRecord (by simp) (by simp) (by simp)

instance : FaithfulStored (Option FunctionData) :=
  faithful_storedOptional (by simp) (by simp) (by simp)

instance : FaithfulStored (Option AggregateData) :=
  faithful_storedOptional (by simp) (by simp) (by simp)

instance : FaithfulStored (Option GlobalData) :=
  faithful_storedOptional (by simp) (by simp) (by simp)

instance : FaithfulStored Decl :=
  faithful_storedRecord (by simp) (by simp) (by simp)

instance : FaithfulStored Stmt :=
  faithful_storedRecord (by simp) (by simp) (by simp)

instance : FaithfulStored TypeExpr :=
  faithful_storedRecord (by simp) (by simp) (by simp)

instance : FaithfulStored FileHeader :=
  faithful_storedRecord (by simp) (by simp) (by simp)

instance : LawfulStored Expr := lawful_storedRecord (by simp) (by simp)

instance {α : Type} [Stored α] [LawfulStored α] : LawfulStored (Array α) :=
  lawful_storedRecord (by simp) (by simp)

instance {α : Type} [Stored α] [FaithfulStored α] : FaithfulStored (Array α) :=
  faithful_storedRecord (by simp) (by simp) (by simp)

instance : LawfulStored Program := lawful_storedRecord (by simp) (by simp)

/-! ## Zeros of either sign -/

/-- The number that is read back where a zero is left out. -/
def Double.withPositiveZero (d : Double) : Double :=
  if d.isZero then .zero else d

def Expr.withPositiveZero (e : Expr) : Expr :=
  { e with float := e.float.withPositiveZero }

/-- The program with a positive zero for every zero among its literals. -/
def Program.withPositiveZeros (p : Program) : Program :=
  { p with exprs := p.exprs.map Expr.withPositiveZero }

theorem Double.withPositiveZero_eq_iff {d : Double} :
    d.withPositiveZero = d ↔ (d.isZero → d = .zero) := by
  unfold Double.withPositiveZero
  split
  · simp [*, eq_comm]
  · simp [*]

theorem Expr.withPositiveZero_eq_iff {e : Expr} :
    e.withPositiveZero = e ↔ (e.float.isZero → e.float = .zero) := by
  rw [← Double.withPositiveZero_eq_iff]
  exact ⟨congrArg Expr.float, fun h ↦ by rw [Expr.withPositiveZero, h]⟩

/-- A number that is left out when it is zero. -/
theorem readBack_double {σ : Type} {key : Text} {get : σ → Double} {set : Double → σ → σ} {s : σ} :
    (column key get set).readBack s = toDatum (get s).withPositiveZero := by
  show (if (get s).isZero && true then _ else _) = Datum.double (get s).withPositiveZero
  rw [Bool.and_true, Double.withPositiveZero, apply_ite Datum.double]
  rfl

theorem readBack_expr (e : Expr) :
    (Stored.shape Expr).readBack (toDatum e) = toDatum e.withPositiveZero := by
  refine readBack_storedRecord ?_
  simp [readBack_double, Expr.withPositiveZero]

theorem readBack_array {α : Type} [Stored α] {f : α → α}
    (h : ∀ x, (Stored.shape α).readBack (toDatum x) = toDatum (f x)) (xs : Array α) :
    (Stored.shape (Array α)).readBack (toDatum xs) = toDatum (xs.map f) := by
  refine readBack_storedRecord ?_
  simpa using readBack_list h xs.toList

theorem readBack_program (p : Program) :
    (Stored.shape Program).readBack (toDatum p) = toDatum p.withPositiveZeros := by
  have hexprs := readBack_array readBack_expr p.exprs
  refine readBack_storedRecord ?_
  simpa [Program.withPositiveZeros] using hexprs

namespace Program

variable {p q : Program}

theorem wellKeyed_shape : (Stored.shape Program).wellKeyed := by
  decide +kernel

/-- The program in a file, with zeros positive. -/
theorem decode_encode (hp : (toDatum p).bounded) : decode p.encode = .ok p.withPositiveZeros := by
  have hheader : Wasm.Reads (MessagePack.decode FileHeader)
      (MessagePack.encode FileHeader.current) FileHeader.current :=
    MessagePack.reads_decode (by decide +kernel) (by decide +kernel) (FaithfulStored.readBack _)
  have hprogram : Wasm.Reads (MessagePack.decode Program) (MessagePack.encode p)
      p.withPositiveZeros :=
    MessagePack.reads_decode wellKeyed_shape hp (readBack_program p)
  have hrun : MessagePack.decode FileHeader p.encode =
      some (FileHeader.current, MessagePack.encode p) := hheader _
  have hrun' : MessagePack.decode Program (MessagePack.encode p) = some (p.withPositiveZeros, []) :=
    hprogram.run
  unfold decode
  rw [hrun]
  dsimp only
  rw [hrun']
  rfl

theorem encode_withPositiveZeros (p : Program) : p.withPositiveZeros.encode = p.encode :=
  congrArg (MessagePack.encode FileHeader.current ++ ·)
    (MessagePack.encode_eq_of_readBack (readBack_program p))

/-- Programs have the same file when they differ at most in the signs of zeros. -/
theorem encode_eq_iff (hp : (toDatum p).bounded) (hq : (toDatum q).bounded) :
    p.encode = q.encode ↔ p.withPositiveZeros = q.withPositiveZeros := by
  constructor
  · intro h
    have hread := decode_encode hp
    rw [h, decode_encode hq] at hread
    exact (Except.ok.inj hread).symm
  · intro h
    rw [← encode_withPositiveZeros p, h, encode_withPositiveZeros]

theorem withPositiveZeros_eq_iff (p : Program) :
    p.withPositiveZeros = p ↔ ∀ e ∈ p.exprs, e.float.isZero → e.float = .zero := by
  have hmap : p.exprs.map Expr.withPositiveZero = p.exprs.map id ↔
      ∀ e ∈ p.exprs, e.withPositiveZero = e := Array.map_inj_left
  rw [Array.map_id] at hmap
  have hexprs : p.withPositiveZeros = p ↔ p.exprs.map Expr.withPositiveZero = p.exprs :=
    ⟨congrArg Program.exprs, fun h ↦ by rw [withPositiveZeros, h]⟩
  simp only [hexprs, hmap, Expr.withPositiveZero_eq_iff]

/-- Nothing is lost exactly when no literal is a negative zero. -/
theorem decode_encode_eq_iff (hp : (toDatum p).bounded) :
    decode p.encode = .ok p ↔ ∀ e ∈ p.exprs, e.float.isZero → e.float = .zero := by
  rw [decode_encode hp, Except.ok.injEq, withPositiveZeros_eq_iff]

example : encode { exprs := #[{ kind := .float, float := ⟨0x8000000000000000⟩ }] } =
    encode { exprs := #[{ kind := .float, float := .zero }] } := by
  cbv

end Program

end WasmBackend
