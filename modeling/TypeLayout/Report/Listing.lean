import TypeLayout.OffsetFormat
import TypeLayout.Query.Report
import TypeLayout.Text.Blank
import TypeLayout.Text.Style
/-! Reports as listings for a terminal, with or without color. -/

namespace TypeLayout

structure Listing where
  offsetFormat : OffsetFormat := .decimal
  colored : Bool := true
  showPadding : Bool := true
  showTypes : Bool := true
  maxNameWidth : Nat := 32

namespace Listing

def withMaxNameWidth (l : Listing) (width : Nat) : Listing :=
  { l with maxNameWidth := max width 4 }

def paint (l : Listing) (s : Text.Style) (text : String) : String := Text.paintIf l.colored s text

def cutName (l : Listing) (name : String) : String :=
  if l.maxNameWidth < name.length then
    String.ofList (name.toList.take (l.maxNameWidth - 3)) ++ "..."
  else name

def body (l : Listing) (r : Row) : String :=
  match r.kind with
  | .member | .bitField =>
    match r.typeName, l.showTypes with
    | some type, true => type ++ " " ++ l.cutName r.name ++ ";"
    | _, _ => l.cutName r.name ++ ";"
  | .base => l.cutName r.name ++ " (base)"
  | .virtualBase => l.cutName r.name ++ " (virtual base)"
  | .vtablePointer | .padding => r.name

def bytes (n : Nat) : String := toString n ++ (if n = 1 then " byte" else " bytes")

def comment (r : Row) : String :=
  "// " ++ bytes r.size ++ match r.note with | some note => ", " ++ note | none => ""

def style? : RowKind → Option Text.Style
  | .padding => some .dimmed
  | .vtablePointer => some (.plain .magenta)
  | .base | .virtualBase => some (.plain .cyan)
  | .member | .bitField => none

def row (l : Listing) (r : Row) : String :=
  let line := "    /* +" ++ Text.padRight 6 (l.offsetFormat.write r.offset) ++ " */ " ++ l.body r ++
    "  " ++ comment r
  match style? r.kind with
  | some s => l.paint s line
  | none => line

def shown (l : Listing) (rows : List Row) : List Row :=
  rows.filter fun r => l.showPadding || !r.isPadding

def table (l : Listing) (r : Report) : List String :=
  if r.hasRows then
    ["\x7b"] ++ (l.shown r.rows).map l.row ++ ["\x7d;"] ++
      (if 0 < r.paddingBytes then
        [l.paint (.plain .yellow) ("// " ++ toString r.paddingBytes ++ " padding bytes")]
      else [])
  else []

def report (l : Listing) (r : Report) : String :=
  let header := r.typeName ++ "  // size: " ++ toString r.size ++ ", align: " ++ toString r.align ++
    " [" ++ r.profile ++ "]"
  let description := match r.description with | some d => ["    // " ++ d] | none => []
  Text.join "\n" ([l.paint .bold header] ++ description ++ l.table r)

def error (l : Listing) (query : String) (e : LayoutError) : String :=
  l.paint (.plain .red) (query ++ ": size unavailable: " ++ e.message)

def answer (l : Listing) (a : String × Except LayoutError Report) : String :=
  match a.2 with
  | .ok r => l.report r
  | .error e => l.error a.1 e

def profile (l : Listing) (p : Profile) : String :=
  let widths := "pointer: " ++ toString p.machine.pointerSize ++ ", vtable pointer: " ++
    toString p.machine.vtablePointerSize
  Text.join "\n"
    (l.paint .bold (p.name ++ " (" ++ widths ++ ")") ::
      p.rows.map fun r => "    " ++ Profile.rowText r)

end Listing

end TypeLayout
