import WasmBackend.Text

/-!
# Terminal styles

A style is a list of display attributes.  Painting a text switches them on in front of it and each
of them off behind it: bold and faint have a switch of their own, colours are reset together.
-/

namespace WasmBackend

/-- An attribute of text on a terminal. -/
inductive Attribute where
  | bold
  | faint
  | red
  | green
  | yellow
  | blue
  | cyan
deriving DecidableEq, Repr

namespace Attribute

/-- The number that switches an attribute on. -/
def onCode : Attribute → Text
  | bold => "1"
  | faint => "2"
  | red => "31"
  | green => "32"
  | yellow => "33"
  | blue => "34"
  | cyan => "36"

/-- The number that switches an attribute off. -/
def offCode : Attribute → Text
  | bold => "22"
  | faint => "22"
  | _ => "0"

end Attribute

/-- Attributes in the order they are switched on. -/
abbrev Style := List Attribute

/-- The control sequence with numeric parameters. -/
def controlSequence (codes : List Text) : Text :=
  "\x1b[" ++ Text.join ";" codes ++ "m"

/-- A text in a style, or as it is when colours are off. -/
def Style.paint (s : Style) (colored : Bool) (t : Text) : Text :=
  if colored then
    controlSequence (s.map Attribute.onCode) ++ t ++ controlSequence (s.map Attribute.offCode)
  else t

end WasmBackend
