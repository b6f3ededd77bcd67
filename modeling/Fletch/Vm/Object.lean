import Mathlib

/-!
# Values and heap objects

The words the interpreter of `src/vm/interpreter.cc` and the natives of `src/vm/ffi.cc`
move around. A word on the stack is a small integer, a pointer to a heap object, or a
bytecode address that the frame protocol keeps on the stack (a return address, or the
`bcp` that `State::SaveState` pushes). Failure sentinels never reach the stack: they are
the other results a native can return (`NativeResult`).

`object.h`, `selectors.h` and `process.h` are not among the sources. What the two files
use of them is modelled from the spec: heap objects carry the id of their class and one
of the bodies below, a small integer has one tag bit (`Platform.smiValid`), and a
selector is an opaque integer whose arity, id and kind fields are parameters
(`SelectorFields`).
-/

namespace Fletch

/-- A machine word as the interpreter sees it. -/
inductive Value where
  | smi (value : Int)
  | heap (address : Nat)
  | bytecode (address : Nat)
  deriving DecidableEq, Repr

/-- What a heap object holds, for the kinds the two files cast to. The layouts are in
`object.h`, which is not under `src/`; they follow the spec's object kinds, an instance
carrying the immutability flag its class and fields gave it at allocation. -/
inductive Body where
  | instance (fields : List Value) (immutable : Bool)
  | boxed (value : Value)
  | array (elements : List Value)
  | string (chars : String)
  | largeInteger (value : Int)
  | double (bits : UInt64)
  | function (entry : Nat)
  | initializer (function : Value)
  | klass (id : Nat) (fields : Nat)
  | coroutine (stack : Option (List Value)) (caller : Nat)
  deriving DecidableEq, Repr

/-- A heap object: the id of its class (`get_class()->id()`) and its body. -/
structure HeapObject where
  classId : Nat
  body : Body
  deriving DecidableEq, Repr

/-- The failure sentinels a native can return (`Failure::retry_after_gc()`,
`Failure::index_out_of_bounds()`, and those of natives outside `ffi.cc`). -/
inductive Failure where
  | retryAfterGc
  | indexOutOfBounds
  | other (id : Nat)
  deriving DecidableEq, Repr

/-- What a native returns: an object, or a failure sentinel. -/
inductive NativeResult where
  | value (v : Value)
  | failure (f : Failure)
  deriving DecidableEq, Repr

/-- The host: the word size `kBitsPerWord` and the operating system `Platform::OS()`. -/
structure Platform where
  bitsPerWord : Nat
  os : Int
  deriving DecidableEq, Repr

namespace Platform

/-- `Smi::kMaxValue`: a small integer is a word with one tag bit. -/
def smiMax (pl : Platform) : Int := 2 ^ (pl.bitsPerWord - 2) - 1

/-- `Smi::kMinValue`. -/
def smiMin (pl : Platform) : Int := -2 ^ (pl.bitsPerWord - 2)

/-- `Smi::IsValid`. -/
def smiValid (pl : Platform) (v : Int) : Bool := decide (pl.smiMin ≤ v ∧ v ≤ pl.smiMax)

end Platform

/-- The fields of a selector: `Selector::ArityField`, `Selector::IdField`, and whether
`Selector::KindField` is `Selector::SETTER`. `selectors.h` is not under `src/`: the fields
are parameters. -/
structure SelectorFields where
  arity : Int → Nat
  id : Int → Int
  isSetter : Int → Bool

end Fletch
