import TypeLayout.Layout.Result
import TypeLayout.Log
/-! What a layout computation reports while it runs. -/

namespace TypeLayout.Layout

inductive Event
  | ownSlot (owner : String)
  | reusedSlot (owner base : String)
  | placedBits (owner member : String) (offset bitOffset : Nat)
  | placedField (owner member : String) (offset size : Nat)
  | unionIgnoresBases (union : String)
  | laidOut (kind : AggregateKind) (owner : String) (layout : Layout)

namespace Event

def level : Event → Log.Level
  | unionIgnoresBases _ => .warn
  | laidOut _ _ _ => .debug
  | _ => .trace

def message : Event → String
  | ownSlot owner => owner ++ ": own vtable pointer at 0"
  | reusedSlot owner base => owner ++ ": reuses vtable pointer of " ++ base
  | placedBits owner member offset bitOffset =>
    owner ++ "::" ++ member ++ s!" bit-field at {offset}+{bitOffset} bits"
  | placedField owner member offset size =>
    owner ++ "::" ++ member ++ s!" at {offset} ({size} bytes)"
  | unionIgnoresBases union => union ++ ": bases and virtual functions are ignored on unions"
  | laidOut kind owner l =>
    kind.keyword ++ " " ++ owner ++ ": size " ++ toString l.size ++ " align " ++ toString l.align ++
      " (" ++ toString l.fields.length ++ " fields, " ++ toString l.slots.length ++ " vptrs, " ++
      toString l.paddingBytes ++ " padding bytes)"

def entry (e : Event) : Log.Entry := ⟨e.level, "layout::engine", e.message⟩

end Event

end TypeLayout.Layout
