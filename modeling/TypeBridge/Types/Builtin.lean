import TypeBridge.Types.Info
import TypeBridge.Types.Name

/-!
# Built-in types

The types that every session knows: the native names to be probed, and the tables of the two other
systems, whose facts are fixed. The order of a table is the order of preference among its names of
one family.
-/

namespace TypeBridge.Builtin

/-- The native names probed in every session; their facts come from the probe. -/
def nativeNames : List String :=
  ["char", "float", "double", "int", "long double", "short", "long long", "long",
   "unsigned char", "unsigned int", "unsigned long long", "unsigned long", "unsigned short",
   "signed char", "bool"]

/-- The size of the extended float. -/
def longDoubleSize : Nat := 16

/-- The foreign-function names with their facts. -/
def ffiTable : List (String × TypeInfo) :=
  [("c_int8", .signed 1), ("c_int16", .signed 2), ("c_int32", .signed 4), ("c_int64", .signed 8),
   ("c_uint8", .unsigned 1), ("c_uint16", .unsigned 2), ("c_uint32", .unsigned 4),
   ("c_uint64", .unsigned 8), ("c_float", .float 4), ("c_double", .float 8),
   ("c_longdouble", .float longDoubleSize), ("c_bool", .unsigned 1), ("c_byte", .signed 1),
   ("c_int", .signed 4), ("c_long", .signed 8), ("c_longlong", .signed 8), ("c_short", .signed 2),
   ("c_size_t", .unsigned 8), ("c_ssize_t", .signed 8), ("c_ubyte", .unsigned 1),
   ("c_uint", .unsigned 4), ("c_ulong", .unsigned 8), ("c_ulonglong", .unsigned 8),
   ("c_ushort", .unsigned 2)]

/-- The array-library names with their facts. Truth values are unsigned bytes: families know no
kind of their own for them. -/
def arrayLibTable : List (String × TypeInfo) :=
  [("int8", .signed 1), ("int16", .signed 2), ("int32", .signed 4), ("int64", .signed 8),
   ("float32", .float 4), ("float64", .float 8), ("float128", .float longDoubleSize),
   ("uint8", .unsigned 1), ("uint16", .unsigned 2), ("uint32", .unsigned 4),
   ("uint64", .unsigned 8), ("bool_", .unsigned 1), ("byte", .signed 1), ("double", .float 8),
   ("float_", .float 8), ("int_", .signed 8), ("intc", .signed 4),
   ("longfloat", .float longDoubleSize), ("longlong", .signed 8), ("short", .signed 2),
   ("single", .float 4), ("ubyte", .unsigned 1), ("uint", .unsigned 8), ("uintc", .unsigned 4),
   ("ulonglong", .unsigned 8), ("ushort", .unsigned 2)]

/-- The array-library types. -/
def arrayLibTypes : List (TypeName × TypeInfo) :=
  arrayLibTable.map fun (text, info) => (.arrayLib text, info)

/-- The foreign-function types. -/
def ffiTypes : List (TypeName × TypeInfo) :=
  ffiTable.map fun (text, info) => (.ffi text, info)

/-- All types whose facts are known without probing. -/
def fixedTypes : List (TypeName × TypeInfo) := arrayLibTypes ++ ffiTypes

/-- Whether a system has a built-in type of exactly this name. -/
def contains (system : TypeSystem) (text : String) : Bool :=
  match system with
  | .native => nativeNames.contains text
  | .arrayLib => arrayLibTypes.any (fun entry => entry.1.text = text)
  | .ffi => ffiTypes.any (fun entry => entry.1.text = text)

end TypeBridge.Builtin
