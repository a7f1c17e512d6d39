import TypeBridge.Native.Memory

/-!
# Loaded libraries

A `LibraryImage` is what a shared library exports. `Handles` counts, for every library that was
opened, the owners still alive: the library's own clones and the functions bound from it. A library
stays open until its last owner is gone, and only giving it up as its sole owner releases it at
that moment.
-/

namespace TypeBridge

/-- Native code takes argument buffers of 64-bit words and leaves a result buffer. -/
abbrev NativeCode := List (List UInt64) → Memory → List UInt64 × Memory

/-- The symbols that a shared library exports, with their code. -/
structure LibraryImage where
  symbols : List (String × NativeCode)

/-- A symbol may carry the character that ends names. -/
def withoutTerminator (symbol : String) : String :=
  match symbol.toList.getLast? with
  | some last => if last.toNat = 0 then String.ofList symbol.toList.dropLast else symbol
  | none => symbol

/-- The code behind a symbol, if the library exports it. -/
def LibraryImage.code? (image : LibraryImage) (symbol : String) : Option NativeCode :=
  image.symbols.lookup (withoutTerminator symbol)

/-- Whether a library exports a symbol. -/
def LibraryImage.exports (image : LibraryImage) (symbol : String) : Bool :=
  (image.code? symbol).isSome

/-- What became of a library that its holder gave up. -/
inductive UnloadOutcome where
  /-- It was closed. -/
  | released
  /-- Other owners keep it open. -/
  | retained
deriving Repr, DecidableEq

/-- The number of owners of every library opened so far, by handle. -/
structure Handles where
  owners : List Nat
deriving Repr, DecidableEq

namespace Handles

/-- Nothing has been opened. -/
def empty : Handles := ⟨[]⟩

/-- The owners of a handle that are alive. -/
def count (handles : Handles) (handle : Nat) : Nat := handles.owners.getD handle 0

/-- A library is open while it has an owner. -/
def isOpen (handles : Handles) (handle : Nat) : Bool := handles.count handle != 0

/-- Open a library: a new handle with one owner. -/
def opened (handles : Handles) : Nat × Handles :=
  (handles.owners.length, ⟨handles.owners ++ [1]⟩)

/-- One more owner. -/
def acquire (handles : Handles) (handle : Nat) : Handles :=
  ⟨handles.owners.set handle (handles.count handle + 1)⟩

/-- `count` owners fewer. -/
def release (handles : Handles) (handle count : Nat) : Handles :=
  ⟨handles.owners.set handle (handles.count handle - count)⟩

/-- One owner gives the library up: it is released if no other is alive. -/
def unload (handles : Handles) (handle : Nat) : UnloadOutcome × Handles :=
  (if handles.count handle = 1 then .released else .retained, handles.release handle 1)

end Handles

/-- A loaded library: its handle, where it came from, what its build was asked to export, and what
it does export. -/
structure LoadedLibrary where
  handle : Nat
  path : String
  exports : List String
  image : LibraryImage

end TypeBridge
