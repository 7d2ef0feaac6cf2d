import WasmBackend.Json
import WasmBackend.Terminal
import WasmBackend.Text.Lowercase

/-!
# Version of the tool

The version, with the commit and the date it was built from where they are known, as a banner and
as a JSON document.
-/

namespace WasmBackend

structure VersionInfo where
  version : Text := "0.1.0-dev"
  commit : Text := ""
  date : Text := ""
deriving DecidableEq, Repr, Inhabited

namespace VersionInfo

/-- The text before and behind the first occurrence of a byte, if there is one. -/
def cut (t : Text) (sep : UInt8) : Text × Option Text :=
  match t.splitOn sep with
  | first :: second :: rest => (first, some (Text.join ⟨[sep]⟩ (second :: rest)))
  | _ => (t, none)

/-- The three numbers of a version in a colour each, with what follows the first hyphen plain; a
version of another form as it is. -/
def coloredVersion (v : VersionInfo) (colored : Bool) : Text :=
  let (core, suffix) := cut v.version 45
  let (major, rest) := cut core 46
  match rest.map fun r => cut r 46 with
  | some (minor, some patch) =>
    Style.paint [.yellow, .bold] colored major ++ "." ++ Style.paint [.green, .bold] colored minor
      ++ "." ++ Style.paint [.blue, .bold] colored patch
      ++ Text.onlyIf (suffix.getD "" ≠ "") ("-" ++ suffix.getD "")
  | _ => v.version

/-- The lines shown to people. -/
def banner (v : VersionInfo) (colored : Bool) : Text :=
  "keel " ++ v.coloredVersion colored ++ "\n"
    ++ Text.onlyIf (!v.commit.isEmpty) ("commit: " ++ v.commit ++ "\n")
    ++ Text.onlyIf (!v.date.isEmpty) ("built:  " ++ v.date ++ "\n")

/-- The document for tools. -/
def document (v : VersionInfo) : Text :=
  Json.document <| .ofMembers
    [Json.member "tool" (.str "keel"),
      Json.member "version" (.str v.version.trim),
      Json.optionalStr "git_commit" v.commit.trim,
      Json.optionalStr "build_date" v.date.trim]

end VersionInfo

end WasmBackend
