import TypeLayout.Layout.Event
import TypeLayout.LayoutError
import TypeLayout.Machine
import TypeLayout.Layout.BasePolicy
/-! The surroundings of a layout computation: stored layouts, a log, and the trail of aggregates
whose layout is in progress. Plain results are surroundings that store and log nothing. -/

namespace TypeLayout

/-- What determines the layout of a named type. -/
structure LayoutKey where
  id : TypeId
  machine : Machine
  policy : BasePolicy
deriving DecidableEq

class LayoutHost (m : Type → Type) where
  fetch : LayoutKey → m (Option Layout)
  /-- Offer a layout for storage; the answer is the one to use. -/
  store : LayoutKey → Layout → m Layout
  note : Layout.Event → m Unit

instance : LayoutHost (Except LayoutError) where
  fetch _ := .ok none
  store _ l := .ok l
  note _ := .ok ()

/-- An aggregate whose layout is in progress, with the member or base last entered. -/
structure Frame where
  id : TypeId
  member : String
deriving DecidableEq, Repr

abbrev Trail := List Frame

def Trail.enter (member : String) : Trail → Trail
  | [] => []
  | f :: fs => { f with member := member } :: fs

section

variable {m : Type → Type} [Monad m] [MonadExceptOf LayoutError m]

/-- Errors about incomplete types name the member they were met in. -/
def inMember {α : Type} (name : String) (x : m α) : m α :=
  tryCatch x fun e => throw (LayoutError.inMember name e)

end

end TypeLayout
