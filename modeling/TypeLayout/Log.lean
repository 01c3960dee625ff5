import TypeLayout.Text.Lowercase
import TypeLayout.Text.Pad
import TypeLayout.Text.Style
/-! Log entries and the threshold that lets them through. -/

namespace TypeLayout

namespace Log

inductive Level
  | error | warn | info | debug | trace
deriving DecidableEq, Repr

namespace Level

def rank : Level → Nat
  | error => 1 | warn => 2 | info => 3 | debug => 4 | trace => 5

def name : Level → String
  | error => "ERROR" | warn => "WARN" | info => "INFO" | debug => "DEBUG" | trace => "TRACE"

def color : Level → Text.Color
  | error => .red | warn => .yellow | info => .green | debug => .blue | trace => .magenta

end Level

abbrev Threshold := Option Level

namespace Threshold

def name : Threshold → String
  | none => "OFF"
  | some level => level.name

def ofString (s : String) : Threshold :=
  match Text.lowercase s with
  | "error" => some .error
  | "info" => some .info
  | "debug" => some .debug
  | "trace" => some .trace
  | "off" => none
  | _ => some .warn

def ofVerbosity : Nat → Threshold
  | 0 => some .warn
  | 1 => some .info
  | 2 => some .debug
  | _ => some .trace

def admits (t : Threshold) (level : Level) : Bool :=
  match t with
  | none => false
  | some most => level.rank ≤ most.rank

end Threshold

structure Entry where
  level : Level
  origin : String
  message : String
deriving DecidableEq, Repr

def Entry.line (colored : Bool) (e : Entry) : String :=
  Text.paintIf colored (.strong e.level.color) (Text.padRight 5 e.level.name) ++
    " [memory_size_layout::" ++ e.origin ++ "] " ++ e.message

def lines (t : Threshold) (colored : Bool) (es : List Entry) : List String :=
  (es.filter fun e => t.admits e.level).map (Entry.line colored)

end Log

end TypeLayout
