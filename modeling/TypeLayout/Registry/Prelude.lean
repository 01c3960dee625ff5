import TypeLayout.Registry.Declare
/-! The standard typedefs that need no declaration. They name fundamental types, not sizes, so they
follow the machine; the pointer-wide ones are as wide as its pointers. -/

namespace TypeLayout

def builtinTypedefs : List (String × Fundamental) :=
  [("int8_t", .signedChar), ("uint8_t", .unsignedChar),
   ("int16_t", .short), ("uint16_t", .unsignedShort),
   ("int32_t", .int), ("uint32_t", .unsignedInt),
   ("int64_t", .longLong), ("uint64_t", .unsignedLongLong),
   ("int_least8_t", .signedChar), ("uint_least8_t", .unsignedChar),
   ("int_least16_t", .short), ("uint_least16_t", .unsignedShort),
   ("int_least32_t", .int), ("uint_least32_t", .unsignedInt),
   ("int_least64_t", .longLong), ("uint_least64_t", .unsignedLongLong),
   ("int_fast8_t", .signedChar), ("uint_fast8_t", .unsignedChar),
   ("int_fast16_t", .long), ("uint_fast16_t", .unsignedLong),
   ("int_fast32_t", .long), ("uint_fast32_t", .unsignedLong),
   ("int_fast64_t", .longLong), ("uint_fast64_t", .unsignedLongLong),
   ("intmax_t", .longLong), ("uintmax_t", .unsignedLongLong),
   ("size_t", .unsignedPointerInt), ("ssize_t", .pointerInt), ("ptrdiff_t", .pointerInt),
   ("intptr_t", .pointerInt), ("uintptr_t", .unsignedPointerInt),
   ("off_t", .long), ("time_t", .long)]

def builtinTypedef? (name : String) : Option Fundamental := builtinTypedefs.lookup name

def Registry.withPrelude : Registry :=
  builtinTypedefs.foldl
    (fun r t => (r.alloc .global t.1 (.defined (.typedef (.fundamental t.2)))).2) .empty

end TypeLayout
