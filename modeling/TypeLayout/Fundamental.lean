/-! The fundamental types and the ten size classes that give them size and alignment. Signed and
unsigned spellings are types of their own that share a class. The two pointer-wide integers have
no class of their own: which one they use depends on the machine. -/

namespace TypeLayout

inductive SizeClass
  | char | short | int | long | longLong | float | double | longDouble | bool | wideChar
deriving DecidableEq, Repr

namespace SizeClass

def all : List SizeClass :=
  [char, short, int, long, longLong, float, double, longDouble, bool, wideChar]

def spelling : SizeClass → String
  | char => "char"
  | short => "short"
  | int => "int"
  | long => "long"
  | longLong => "long long"
  | float => "float"
  | double => "double"
  | longDouble => "long double"
  | bool => "bool"
  | wideChar => "wchar_t"

theorem mem_all (c : SizeClass) : c ∈ all := by cases c <;> decide

end SizeClass

inductive Fundamental
  | void | bool
  | char | signedChar | unsignedChar
  | short | unsignedShort
  | int | unsignedInt
  | long | unsignedLong
  | longLong | unsignedLongLong
  | float | double | longDouble
  | wideChar
  | pointerInt | unsignedPointerInt
deriving DecidableEq, Repr

namespace Fundamental

def all : List Fundamental :=
  [void, bool, char, signedChar, unsignedChar, short, unsignedShort, int, unsignedInt, long,
   unsignedLong, longLong, unsignedLongLong, float, double, longDouble, wideChar, pointerInt,
   unsignedPointerInt]

def spelling : Fundamental → String
  | void => "void"
  | bool => "bool"
  | char => "char"
  | signedChar => "signed char"
  | unsignedChar => "unsigned char"
  | short => "short"
  | unsignedShort => "unsigned short"
  | int => "int"
  | unsignedInt => "unsigned int"
  | long => "long"
  | unsignedLong => "unsigned long"
  | longLong => "long long"
  | unsignedLongLong => "unsigned long long"
  | float => "float"
  | double => "double"
  | longDouble => "long double"
  | wideChar => "wchar_t"
  | pointerInt => "__intptr"
  | unsignedPointerInt => "__uintptr"

/-- `none` for `void`, which has no size, and for the pointer-wide integers. -/
def sizeClass? : Fundamental → Option SizeClass
  | void | pointerInt | unsignedPointerInt => none
  | bool => some .bool
  | char | signedChar | unsignedChar => some .char
  | short | unsignedShort => some .short
  | int | unsignedInt => some .int
  | long | unsignedLong => some .long
  | longLong | unsignedLongLong => some .longLong
  | float => some .float
  | double => some .double
  | longDouble => some .longDouble
  | wideChar => some .wideChar

def isFloating : Fundamental → Bool
  | float | double | longDouble => true
  | _ => false

def isIntegral (k : Fundamental) : Bool := k != void && !k.isFloating

def isPointerWide : Fundamental → Bool
  | pointerInt | unsignedPointerInt => true
  | _ => false

def description : Fundamental → String
  | void => "Incomplete type with no size"
  | bool => "Boolean type"
  | char => "Character type, always 1 byte"
  | signedChar => "Signed character (-128 to 127)"
  | unsignedChar => "Unsigned character (0 to 255)"
  | short => "Short integer, typically 16-bit"
  | unsignedShort => "Unsigned short integer"
  | int => "Standard integer, typically 32-bit"
  | unsignedInt => "Unsigned integer, typically 32-bit"
  | long => "Long integer (platform dependent)"
  | unsignedLong => "Unsigned long integer (platform dependent)"
  | longLong => "Long long integer, always at least 64-bit"
  | unsignedLongLong => "Unsigned long long integer"
  | float => "Single precision floating point (IEEE 754)"
  | double => "Double precision floating point (IEEE 754)"
  | longDouble => "Extended precision floating point"
  | wideChar => "Wide character type"
  | pointerInt => "Signed integer as wide as a pointer (platform dependent)"
  | unsignedPointerInt => "Unsigned integer as wide as a pointer (platform dependent)"

theorem mem_all (k : Fundamental) : k ∈ all := by cases k <;> decide

end Fundamental

end TypeLayout
