import TypeLayout.Json.Printer
import TypeLayout.Query.Report
/-! Reports and profiles as JSON. The keys of every object are in alphabetical order, and what is
absent is left out. -/

namespace TypeLayout

open Json (sortedObject)

def textMember (key : String) : Option String → List (String × Json)
  | some text => [(key, .string text)]
  | none => []

def Row.json (r : Row) : Json :=
  sortedObject ([("name", .string r.name), ("offset", .natural r.offset), ("size", .natural r.size),
    ("kind", .string r.kind.tag)] ++ textMember "type_name" r.typeName ++ textMember "note" r.note)

def Report.json (r : Report) (showPadding : Bool) : Json :=
  let rows := r.rows.filter fun row => showPadding || !row.isPadding
  sortedObject ([("type_name", .string r.typeName), ("size", .natural r.size),
    ("alignment", .natural r.align), ("profile", .string r.profile)] ++
    textMember "description" r.description ++
    [("polymorphic", .bool r.polymorphic), ("rows", .array (rows.map Row.json))])

def LayoutError.json (query : String) (e : LayoutError) : Json :=
  sortedObject [("query", .string query),
    ("error", sortedObject [("kind", .string e.kind), ("message", .string e.message)])]

def Profile.rowJson (r : SizeClass × Extent) : String × Json :=
  (r.1.spelling, sortedObject [("size", .natural r.2.size), ("align", .natural r.2.align.value)])

def Profile.json (p : Profile) : Json :=
  sortedObject [("name", .string p.name), ("pointer_size", .natural p.machine.pointerSize),
    ("vtable_pointer_size", .natural p.machine.vtablePointerSize),
    ("fundamentals", sortedObject (p.rows.map rowJson))]

structure Export where
  indented : Bool := true
  showPadding : Bool := true

namespace Export

def answer (x : Export) (a : String × Except LayoutError Report) : Json :=
  match a.2 with
  | .ok r => r.json x.showPadding
  | .error e => e.json a.1

def report (x : Export) (r : Report) : String := Json.render x.indented (r.json x.showPadding)

def answers (x : Export) (as : List (String × Except LayoutError Report)) : String :=
  Json.render x.indented (.array (as.map x.answer))

def profiles (x : Export) (ps : List Profile) : String :=
  Json.render x.indented (.array (ps.map Profile.json))

end Export

end TypeLayout
