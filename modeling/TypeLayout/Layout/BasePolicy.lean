import TypeLayout.Layout.Result
import TypeLayout.Text.Lowercase
/-! The two rules for placing a base class. They differ in what an empty base takes: nothing at the
cursor itself, or at least one byte like a member. -/

namespace TypeLayout

structure BasePlacement where
  offset : Nat
  size : Nat
  align : Alignment
deriving DecidableEq, Repr

def BasePlacement.stop? (p : BasePlacement) : Option Nat :=
  if p.offset + p.size < addressLimit then some (p.offset + p.size) else none

inductive BasePolicy
  | itaniumBaseline
  | strictSequential
deriving DecidableEq, Repr

namespace BasePolicy

instance : Inhabited BasePolicy := ⟨itaniumBaseline⟩

def name : BasePolicy → String
  | itaniumBaseline => "itanium_baseline"
  | strictSequential => "strict_sequential"

def ofString? (s : String) : Option BasePolicy :=
  let key := String.ofList ((Text.lowercase s).toList.map fun c => if c = '-' then '_' else c)
  if key = "itanium_baseline" || key = "itanium" then some itaniumBaseline
  else if key = "strict_sequential" || key = "strict" then some strictSequential
  else none

def placeAligned (cursor size : Nat) (align : Alignment) : Option BasePlacement :=
  (align.align? cursor).map fun offset => ⟨offset, size, align⟩

/-- `none` where the base cannot be aligned within 64 bits. -/
def place? (p : BasePolicy) (cursor : Nat) (base : Layout) : Option BasePlacement :=
  match p with
  | itaniumBaseline =>
    if base.flags.empty then some ⟨cursor, 0, .one⟩
    else placeAligned cursor base.nvSize base.nvAlign
  | strictSequential => placeAligned cursor (max base.nvSize 1) base.nvAlign

end BasePolicy

end TypeLayout
