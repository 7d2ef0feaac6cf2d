import WasmBackend.CommandLine.Command

/-!
# Help

The text that explains a command: what it is for, how it is called, the commands below it, and its
flags in the order of their names.
-/

namespace WasmBackend

/-- A text between backquotes, or quoted with escapes when backquotes cannot hold it. -/
def Text.plainlyQuoted (t : Text) : Text :=
  let holds : Piece → Bool
    | .bad _ => false
    | .char c => (0x20 ≤ c || c == 9) && c != 0x60 && c != 0x7F && c != 0xFEFF
  if t.pieces.all holds then "\x60" ++ t ++ "\x60" else t.quoted

namespace Flag

variable {σ : Type}

/-- How the flag is written. -/
def form (f : Flag σ) : Text :=
  (if f.letter.isSome then "  " else "      ") ++ f.shownName
    ++ Text.concat (f.effect.valueKind.toList.map (" " ++ ·))

/-- What is told about the value that holds without the flag; a text is quoted. -/
def presetNote (f : Flag σ) : Text :=
  match f.preset, f.effect with
  | none, _ => ""
  | some v, .text _ => " (default " ++ v.quoted ++ ")"
  | some v, _ => " (default " ++ v ++ ")"

/-- A line per flag, in the order of their names; what they are for stands in a column. -/
def helpLines (flags : List (Flag σ)) : Text :=
  let sorted := flags.mergeSort fun a b => !(b.name.lt a.name)
  let column := (sorted.map fun f => f.form.size).foldl max 0 + 3
  Text.concat (sorted.map fun f => f.form.padRight column ++ f.purpose ++ f.presetNote ++ "\n")

end Flag

namespace Command

/-- What a command is for, at length. -/
def description : Command → Text
  | build => "Compile msgpack typed-AST files to .wasm modules. Without inputs the\n"
      ++ "[build].roots of keel.toml are used."
  | help => "Help provides help for any command in the application.\n"
      ++ "Simply type keel help [path to command] for full details."
  | completion => "Generate the autocompletion script for keel for the specified shell.\n"
      ++ "See each sub-command's help for details on how to use the generated script."
  | c => c.purpose

/-- What stands behind the name of a command; nothing for one that only holds others. -/
def parameters? : Command → Option Text
  | build => some "[flags] [inputs...]"
  | ir => some "<input> [flags]"
  | version => some "[flags]"
  | help => some "[command] [flags]"
  | tool | completion => none

/-- The names of the commands below a command and what they are for, in order. -/
def below : Command → List (Text × Text)
  | tool =>
    (named.map fun c => (c.name, c.purpose)).mergeSort fun a b => !(b.1.lt a.1)
  | completion =>
    ["bash", "fish", "powershell", "zsh"].map fun shell =>
      (Text.ofString shell, "Generate the autocompletion script for " ++ Text.ofString shell)
  | _ => []

/-- A headed part of the text, left out when it has no lines. -/
def headed (title lines : Text) : Text :=
  Text.onlyIf (!lines.isEmpty) ("\n" ++ title ++ ":\n" ++ lines)

/-- How a command is called; `asked` are its flags that ask about it. -/
def usageText (c : Command) (asked : List (Flag RunOptions)) : Text :=
  let calls := (c.parameters?.map fun ps => c.path ++ " " ++ ps).toList
    ++ if c.below.isEmpty then [] else [c.path ++ " [command]"]
  let commands := c.below.map fun (name, purpose) =>
    "  " ++ name.padRight 11 ++ " " ++ purpose ++ "\n"
  let (own, shared) :=
    if c = tool then (sharedFlags ++ asked, []) else (c.ownFlags ++ asked, sharedFlags)
  "Usage:\n" ++ Text.concat (calls.map fun l => "  " ++ l ++ "\n")
    ++ headed "Available Commands" (Text.concat commands)
    ++ headed "Flags" (Flag.helpLines own) ++ headed "Global Flags" (Flag.helpLines shared)
    ++ Text.onlyIf (!c.below.isEmpty)
      ("\nUse \"" ++ c.path ++ " [command] --help\" for more information about a command.\n")

/-- What a command is for and how it is called. -/
def helpText (c : Command) : Text :=
  c.description ++ "\n\n" ++ c.usageText c.infoFlags

/-- What is said when help is asked for on something that is no command. -/
def unknownTopicText (words : List Text) : Text :=
  "Unknown help topic [" ++ Text.join " " (words.map Text.plainlyQuoted) ++ "]\n"
    ++ tool.usageText []

end Command

end WasmBackend
