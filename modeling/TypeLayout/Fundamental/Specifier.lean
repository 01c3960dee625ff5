import TypeLayout.Fundamental
import TypeLayout.Text.Blank
/-! Specifier sequences such as `unsigned long int`. Words are collected in any order and then
read as one fundamental type; `long` is counted in a byte, every other word is allowed once. -/

namespace TypeLayout

inductive BaseWord
  | char | float | double | bool | wideChar | void
deriving DecidableEq, Repr

def BaseWord.ofString? (word : String) : Option BaseWord :=
  if word = "char" then some .char
  else if word = "float" then some .float
  else if word = "double" then some .double
  else if word = "bool" || word = "_Bool" then some .bool
  else if word = "wchar_t" then some .wideChar
  else if word = "void" then some .void
  else none

structure Specifiers where
  longs : UInt8 := 0
  isSigned : Bool := false
  isUnsigned : Bool := false
  isShort : Bool := false
  isInt : Bool := false
  base : Option BaseWord := none
deriving DecidableEq, Repr

namespace Specifiers

def add (s : Specifiers) (word : String) : Option Specifiers :=
  if word = "long" then some { s with longs := s.longs + 1 }
  else if word = "signed" then if s.isSigned then none else some { s with isSigned := true }
  else if word = "unsigned" then
    if s.isUnsigned then none else some { s with isUnsigned := true }
  else if word = "short" then if s.isShort then none else some { s with isShort := true }
  else if word = "int" then if s.isInt then none else some { s with isInt := true }
  else match s.base, BaseWord.ofString? word with
    | none, some b => some { s with base := some b }
    | _, _ => none

def hasSign (s : Specifiers) : Bool := s.isSigned || s.isUnsigned

def isBare (s : Specifiers) : Bool := !s.hasSign && !s.isShort && !s.isInt && s.longs == 0

def integer? (s : Specifiers) : Option Fundamental :=
  if s.isShort then some (if s.isUnsigned then .unsignedShort else .short)
  else if s.longs = 2 then some (if s.isUnsigned then .unsignedLongLong else .longLong)
  else if s.longs = 1 then some (if s.isUnsigned then .unsignedLong else .long)
  else if s.isInt || s.hasSign then some (if s.isUnsigned then .unsignedInt else .int)
  else none

def fundamental? (s : Specifiers) : Option Fundamental :=
  if s.isSigned && s.isUnsigned || s.longs > 2 || s.isShort && s.longs > 0 then none
  else match s.base with
    | none => s.integer?
    | some .char =>
      if s.isShort || s.isInt || s.longs > 0 then none
      else some (if s.isSigned then .signedChar else if s.isUnsigned then .unsignedChar else .char)
    | some .double =>
      if s.hasSign || s.isShort || s.isInt then none
      else if s.longs = 0 then some .double
      else if s.longs = 1 then some .longDouble
      else none
    | some .float => if s.isBare then some .float else none
    | some .bool => if s.isBare then some .bool else none
    | some .wideChar => if s.isBare then some .wideChar else none
    | some .void => if s.isBare then some .void else none

end Specifiers

def Fundamental.ofSpelling? (text : String) : Option Fundamental :=
  (Text.words text).foldlM Specifiers.add {} >>= Specifiers.fundamental?

def SizeClass.ofSpelling? (text : String) : Option SizeClass :=
  Fundamental.ofSpelling? text >>= Fundamental.sizeClass?

end TypeLayout
