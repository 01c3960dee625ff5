import TypeLayout.Text.Blank
/-! Qualified names such as `Outer::Inner`. A leading pair of colons anchors the name at global
scope. -/

namespace TypeLayout

structure Path where
  anchored : Bool
  parts : List String
deriving DecidableEq, Repr

namespace Path

def dropColons : List Char → List Char
  | ':' :: ':' :: cs => dropColons cs
  | cs => cs

def startsAnchored : List Char → Bool
  | ':' :: ':' :: _ => true
  | _ => false

def ofString (s : String) : Path :=
  let cs := Text.trimChars s.toList
  { anchored := startsAnchored cs
    parts := (Text.cutColons (dropColons cs)).map fun p => Text.trim (String.ofList p) }

def text (p : Path) : String := (if p.anchored then "::" else "") ++ Text.join "::" p.parts

end Path

end TypeLayout
