import TypeLayout.Text.Pad
/-! How listings write offsets. -/

namespace TypeLayout

inductive OffsetFormat
  | hex
  | decimal
deriving DecidableEq, Repr

namespace OffsetFormat

instance : Inhabited OffsetFormat := ⟨decimal⟩

def name : OffsetFormat → String
  | hex => "hex"
  | decimal => "decimal"

def write : OffsetFormat → Nat → String
  | hex, offset => Text.hex offset
  | decimal, offset => toString offset

end OffsetFormat

end TypeLayout
