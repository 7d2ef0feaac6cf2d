import WasmBackend.Text

/-!
# File paths

Paths are texts whose parts stand between slashes.  A clean path has no empty part, no `.`, and
`..` only in front of a relative path; everything here works on the text alone and asks no file
system.
-/

namespace WasmBackend.Path

/-- Paths that a file system takes have fewer bytes than this. -/
def sizeLimit : Nat := 4096

/-- The most bytes of a part of a path that a file system takes. -/
def partLimit : Nat := 255

/-- Whether a path starts at the root. -/
def isAbsolute (p : Text) : Bool :=
  p.startsWith "/"

/-- The nonempty parts of a path. -/
def parts (p : Text) : List Text :=
  (p.splitOn 47).filter fun part => !part.isEmpty

/-- Take one more part into a resolved list of parts, which is reversed. -/
def resolvePart (absolute : Bool) (resolved : List Text) (part : Text) : List Text :=
  if part = "." then resolved
  else if part = ".." then
    match resolved with
    | [] => if absolute then [] else [part]
    | last :: rest => if last = ".." then part :: resolved else rest
  else part :: resolved

/-- The parts of a path with `.` and `..` resolved. -/
def resolvedParts (p : Text) : List Text :=
  ((parts p).foldl (resolvePart (isAbsolute p)) []).reverse

/-- The shortest path that names the same place; the empty path is `.`. -/
def clean (p : Text) : Text :=
  let body := Text.join "/" (resolvedParts p)
  if isAbsolute p then "/" ++ body
  else if body.isEmpty then "."
  else body

/-- One path below another. -/
def join (a b : Text) : Text :=
  if a.isEmpty then (if b.isEmpty then "" else clean b) else clean (a ++ "/" ++ b)

/-- The last part of a path. -/
def base (p : Text) : Text :=
  if p.isEmpty then "." else (parts p).getLastD "/"

/-- The clean path of the directory a path is in. -/
def dir (p : Text) : Text :=
  clean (Text.join "/" (p.splitOn 47).dropLast ++ (if isAbsolute p then "/" else ""))

/-- The last part of a path behind its last slash, which may be empty. -/
def file (p : Text) : Text :=
  (p.splitOn 47).getLastD ""

/-- The extension of a path with its dot: what its file has from the last dot on. -/
def ext (p : Text) : Text :=
  match ((file p).splitOn 46).reverse with
  | last :: _ :: _ => "." ++ last
  | _ => ""

/-- The path as seen from a working directory. -/
def absolute (cwd p : Text) : Text :=
  if isAbsolute p then clean p else join cwd p

/-- Whether a path leads from a root downwards, both being made clean. -/
def isWithin (root p : Text) : Bool :=
  if root.isEmpty || p.isEmpty || isAbsolute root != isAbsolute p then false
  else
    let above := resolvedParts root
    let full := resolvedParts p
    above.isPrefixOf full && (full.drop above.length).head? != some ".."

end WasmBackend.Path
