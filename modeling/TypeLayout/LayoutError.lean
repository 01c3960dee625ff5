/-! What can go wrong when types are declared, resolved, laid out or queried. Every error carries
the names a reader needs; `message` is the one place that words them. -/

namespace TypeLayout

inductive LayoutError
  | unknownType (name : String)
  | incompleteType (type : String) (member : Option String)
  | duplicateDefinition (name : String)
  | invalidArrayElement (type : String)
  | cyclicAggregate (aggregate member : String)
  | unsupportedBitField (member type : String)
  | invalidBitFieldWidth (member : String) (width maxBits : Nat)
  | sizeOverflow (aggregate member : String)
  | invalidExpression (text : String)
  | invalidProfile (reason : String)
deriving DecidableEq, Repr

namespace LayoutError

def kind : LayoutError → String
  | unknownType _ => "unknown_type"
  | incompleteType _ _ => "incomplete_type"
  | duplicateDefinition _ => "duplicate_definition"
  | invalidArrayElement _ => "invalid_array_element"
  | cyclicAggregate _ _ => "cyclic_aggregate"
  | unsupportedBitField _ _ => "unsupported_bitfield_type"
  | invalidBitFieldWidth _ _ _ => "invalid_bitfield_width"
  | sizeOverflow _ _ => "size_overflow"
  | invalidExpression _ => "invalid_expression"
  | invalidProfile _ => "invalid_profile"

def ticked (s : String) : String := "`" ++ s ++ "`"

def message : LayoutError → String
  | unknownType name => "unknown type " ++ ticked name
  | incompleteType type none => "incomplete type " ++ ticked type
  | incompleteType type (some member) =>
    "incomplete type " ++ ticked type ++ " (member " ++ ticked member ++ ")"
  | duplicateDefinition name => "duplicate definition of " ++ ticked name
  | invalidArrayElement type =>
    "invalid array element type " ++ ticked type ++ " (element has size zero)"
  | cyclicAggregate aggregate member =>
    ticked aggregate ++ " directly contains itself through member " ++ ticked member
  | unsupportedBitField member type =>
    "bit-field " ++ ticked member ++ " has non-integral type " ++ ticked type
  | invalidBitFieldWidth member width maxBits =>
    "bit-field " ++ ticked member ++ " is " ++ toString width ++
      " bits wide but its type holds only " ++ toString maxBits
  | sizeOverflow aggregate member =>
    ticked aggregate ++ " does not fit in 64 bits at member " ++ ticked member
  | invalidExpression text => "invalid type expression " ++ ticked text
  | invalidProfile reason => "invalid ABI profile: " ++ reason

/-- Name the member that an incomplete type was met in, unless one is named already. -/
def inMember (member : String) : LayoutError → LayoutError
  | incompleteType type none => incompleteType type (some member)
  | e => e

end LayoutError

end TypeLayout
