import WasmBackend.Text.Numeral
import WasmBackend.Text.Printable

/-!
# Flags

A command takes long flags `--name value` or `--name=value` and groups of letters `-xyz`, anywhere
among its other arguments.  A switch needs no value.  Behind `--` everything is an ordinary
argument.  Flags are described by what their value does to the options of a run, so reading
arguments gives the options directly.
-/

namespace WasmBackend

/-- What a flag does to options of type `σ` with its value. -/
inductive FlagEffect (σ : Type) where
  | text (set : Text → σ → σ)
  | switch (set : Bool → σ → σ)
  | integer (set : Int → σ → σ)
  | word (set : UInt32 → σ → σ)

/-- The kind of value that is taken, which a switch does not name. -/
def FlagEffect.valueKind {σ : Type} : FlagEffect σ → Option Text
  | .text _ => some "string"
  | .switch _ => none
  | .integer _ => some "int"
  | .word _ => some "uint32"

/-- A flag of a command. -/
structure Flag (σ : Type) where
  name : Text
  /-- The letter that stands for the flag. -/
  letter : Option UInt8 := none
  effect : FlagEffect σ
  /-- What the flag is for. -/
  purpose : Text := ""
  /-- The value that holds without the flag, if it is worth telling. -/
  preset : Option Text := none

/-- Why a value of a flag is refused. -/
inductive ValueError where
  | switch (value : Text)
  | integer (value : Text) (cause : NumeralError)
  | word (value : Text) (cause : NumeralError)
deriving DecidableEq, Repr

def ValueError.message : ValueError → Text
  | switch value => "strconv.ParseBool: parsing " ++ value.quoted ++ ": invalid syntax"
  | integer value cause => "strconv.ParseInt: parsing " ++ value.quoted ++ ": " ++ cause.message
  | word value cause => "strconv.ParseUint: parsing " ++ value.quoted ++ ": " ++ cause.message

/-- Why arguments are refused. -/
inductive FlagError where
  | badSyntax (argument : Text)
  | unknown (name : Text)
  | unknownLetter (letter : UInt8) (group : Text)
  | missingValue (name : Text)
  | missingLetterValue (letter : UInt8) (group : Text)
  | invalidValue (flag : Text) (value : Text) (cause : ValueError)
deriving DecidableEq, Repr

/-- A letter of a group as it is shown: by the first byte of its character. -/
def shownLetter (letter : UInt8) : Text :=
  Text.quotedChar ((Utf8.encode letter.toNat).headD 0).toNat

def FlagError.message : FlagError → Text
  | badSyntax argument => "bad flag syntax: " ++ argument
  | unknown name => "unknown flag: --" ++ name
  | unknownLetter letter group =>
    "unknown shorthand flag: " ++ shownLetter letter ++ " in -" ++ group
  | missingValue name => "flag needs an argument: --" ++ name
  | missingLetterValue letter group =>
    "flag needs an argument: " ++ shownLetter letter ++ " in -" ++ group
  | invalidValue flag value cause =>
    "invalid argument " ++ value.quoted ++ " for " ++ flag.quoted ++ " flag: " ++ cause.message

/-- The truth value that a text is. -/
def truth? (t : Text) : Option Bool :=
  if t ∈ ["1", "t", "T", "true", "TRUE", "True"].map Text.ofString then some true
  else if t ∈ ["0", "f", "F", "false", "FALSE", "False"].map Text.ofString then some false
  else none

namespace Flag

variable {σ : Type}

/-- Whether the flag can stand without a value. -/
def isSwitch (f : Flag σ) : Bool :=
  match f.effect with
  | .switch _ => true
  | _ => false

/-- The flag as it is named in messages. -/
def shownName (f : Flag σ) : Text :=
  match f.letter with
  | some letter => "-" ++ ⟨[letter]⟩ ++ ", --" ++ f.name
  | none => "--" ++ f.name

/-- Apply a value, unless it has the wrong form. -/
def applyValue (f : Flag σ) (value : Text) (options : σ) : Except ValueError σ :=
  match f.effect with
  | .text set => .ok (set value options)
  | .switch set =>
    match truth? value with
    | some b => .ok (set b options)
    | none => .error (.switch value)
  | .integer set =>
    match Numeral.integer value with
    | .ok n => .ok (set n options)
    | .error cause => .error (.integer value cause)
  | .word set =>
    match Numeral.word value with
    | .ok n => .ok (set n options)
    | .error cause => .error (.word value cause)

/-- Apply a value given on the command line. -/
def apply (f : Flag σ) (value : Text) (options : σ) : Except FlagError σ :=
  (f.applyValue value options).mapError (.invalidValue f.shownName value)

end Flag

namespace Arguments

variable {σ : Type}

/-- A flag whose value is the next argument, with the error if there is none. -/
structure Awaiting (σ : Type) where
  flag : Flag σ
  missing : FlagError

/-- The first part of a text up to an equals sign, and what follows it. -/
def splitValue (bytes : List UInt8) : Text × Option Text :=
  (⟨bytes.takeWhile (· != 61)⟩, (bytes.dropWhile (· != 61)).tail?.map Text.mk)

/-- Read a long flag, given without its hyphens. -/
def readLong (flags : List (Flag σ)) (given : List UInt8) (options : σ) :
    Except FlagError (σ × Option (Awaiting σ)) := do
  if given.head? = some 45 ∨ given.head? = some 61 then throw (.badSyntax ("--" ++ ⟨given⟩))
  let (name, value) := splitValue given
  let some flag := flags.find? fun f => f.name = name | throw (.unknown name)
  match value with
  | some v => return (← flag.apply v options, none)
  | none =>
    if flag.isSwitch then return (← flag.apply "true" options, none)
    else return (options, some ⟨flag, .missingValue name⟩)

/-- Read a group of letters; a value may follow the last one at once.  A group that starts with
`test.` is passed over. -/
def readLetters (flags : List (Flag σ)) :
    List UInt8 → σ → Except FlagError (σ × Option (Awaiting σ))
  | [], options => return (options, none)
  | letter :: rest, options => do
    let group : Text := ⟨letter :: rest⟩
    if group.startsWith "test." then return (options, none)
    let some flag := flags.find? fun f => f.letter = some letter | throw (.unknownLetter letter group)
    if rest.head? = some 61 ∧ 1 < rest.length then return (← flag.apply ⟨rest.tail⟩ options, none)
    else if flag.isSwitch then readLetters flags rest (← flag.apply "true" options)
    else if !rest.isEmpty then return (← flag.apply ⟨rest⟩ options, none)
    else return (options, some ⟨flag, .missingLetterValue letter group⟩)

/-- Read arguments in order into options and ordinary arguments. -/
def read (flags : List (Flag σ)) :
    Option (Awaiting σ) → List Text → σ → Except FlagError (σ × List Text)
  | some awaiting, [], _ => throw awaiting.missing
  | some awaiting, value :: rest, options => do
    read flags none rest (← awaiting.flag.apply value options)
  | none, [], options => return (options, [])
  | none, argument :: rest, options => do
    match argument.bytes with
    | [45, 45] => return (options, rest)
    | 45 :: 45 :: given =>
      let (options, awaiting) ← readLong flags given options
      read flags awaiting rest options
    | 45 :: letter :: letters =>
      let (options, awaiting) ← readLetters flags (letter :: letters) options
      read flags awaiting rest options
    | _ =>
      let (options, others) ← read flags none rest options
      return (options, argument :: others)

/-- Whether an argument is a flag whose value is the next argument, as far as can be seen without
reading it: an unknown flag counts as one. -/
def takesNext (flags : List (Flag σ)) (argument : Text) : Bool :=
  if argument.bytes.contains 61 then false
  else
    match argument.bytes with
    | 45 :: 45 :: name => !flags.any fun f => f.name = ⟨name⟩ && f.isSwitch
    | [45, letter] => !flags.any fun f => f.letter = some letter && f.isSwitch
    | _ => false

/-- The arguments that are neither flags nor their values.  A flag before the last argument ends
the search, for it takes that as its value. -/
def words (flags : List (Flag σ)) : List Text → List Text
  | [] => []
  | argument :: rest =>
    if argument = "--" then []
    else if takesNext flags argument then
      match rest with
      | _ :: next => if next.isEmpty then [] else words flags next
      | [] => []
    else if argument.isEmpty || argument.startsWith "-" then words flags rest
    else argument :: words flags rest

/-- The arguments without the first word that is `word`. -/
def dropWord (flags : List (Flag σ)) (word : Text) : List Text → List Text
  | [] => []
  | argument :: rest =>
    if argument = "--" then argument :: rest
    else if takesNext flags argument then
      match rest with
      | value :: next => argument :: value :: dropWord flags word next
      | [] => [argument]
    else if argument = word then rest
    else argument :: dropWord flags word rest

end Arguments

end WasmBackend
