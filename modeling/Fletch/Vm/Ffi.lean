import Fletch.Vm.Process

/-!
# The foreign function interface

`src/vm/ffi.cc`: the registry of default shared libraries (`ForeignFunctionInterface`)
and the `Foreign*` natives.

What `ffi.cc` calls in `natives.h` and `process.h` is modelled from the spec:
`AsForeignWord` reads a small or large integer as a signed machine word, and
`AsForeignString` copies a `String` into a fresh `malloc`ed C string. `Process::ToInteger`
takes an `int64`, so an argument is converted to it first (`Platform.int64Of`).

Casts a native makes (`String::cast`, `HeapObject::cast`) and operations undefined in C
(a use after free, a double free) are errors.
-/

namespace Fletch

namespace Platform

/-- Two's complement reading of the low `bits` bits of an integer. -/
def signedOf (bits : Nat) (n : Int) : Int :=
  let u := n % 2 ^ bits
  if u < 2 ^ (bits - 1) then u else u - 2 ^ bits

/-- The conversion to `int64`. -/
def int64Of (n : Int) : Int := signedOf 64 n

/-- The conversion to `int`, a 32-bit integer. -/
def int32Of (n : Int) : Int := signedOf 32 n

/-- A word as a signed integer (`word`, `intptr_t`). -/
def signedWord (pl : Platform) (n : Int) : Int := signedOf pl.bitsPerWord n

/-- A word as an address (`reinterpret_cast<void*>`). -/
def address (pl : Platform) (n : Int) : Nat := (n % 2 ^ pl.bitsPerWord).toNat

end Platform

namespace ForeignFunctionInterface

/-- `PerformForeignLookup`: open the library (the main program for `none`), look the
symbol up, close the library; `none` when any of the three fails. -/
def performForeignLookup (library : Option String) (name : String) (w : World) :
    World × Option Nat :=
  match w.dlopen library with
  | none => (w, none)
  | some handle =>
      let result := w.dlsym handle name
      let w := { w with opened := handle :: w.opened, closed := handle :: w.closed }
      if w.dlcloseFails handle then (w, none) else (w, result)

/-- `ForeignFunctionInterface::Setup`. -/
def setup (w : World) : World :=
  let (w, m) := w.alloc .mutex 1
  { w with mutex := m }

/-- `ScopedLock lock(mutex_)`: the mutex must be live. -/
def lock (w : World) : Except String Unit := do
  match ← w.read w.mutex with
  | .mutex => pure ()
  | _ => .error "not a mutex"

/-- The loop of `TearDown`: delete the entries from `current` on, each with its name. -/
def deleteEntries : (fuel : Nat) → (current : Nat) → World → Except String World
  | 0, _, _ => .error "the list does not end"
  | fuel + 1, current, w =>
      if current = 0 then .ok w else do
      match ← w.read current with
      | .libraryEntry library next =>
          let w ← w.free library
          let w ← w.free current
          deleteEntries fuel next w
      | _ => .error "not a library entry"

/-- `ForeignFunctionInterface::TearDown`: delete the list and the mutex. -/
def tearDown (w : World) : Except String World := do
  let w ← deleteEntries (w.blocks.length + 1) w.libraries w
  w.free w.mutex

/-- `ForeignFunctionInterface::AddDefaultSharedLibrary`. -/
def addDefaultSharedLibrary (library : String) (w : World) : Except String World := do
  lock w
  let (w, name) := w.alloc (.string library) (library.length + 1)
  let (w, entry) := w.alloc (.libraryEntry name w.libraries) 2
  pure { w with libraries := entry }

/-- The loop of `LookupInDefaultLibraries`, from `current` on. -/
def lookupEntries (symbol : String) : (fuel : Nat) → (current : Nat) → World →
    Except String (World × Option Nat)
  | 0, _, _ => .error "the list does not end"
  | fuel + 1, current, w =>
      if current = 0 then .ok (w, none) else do
      match ← w.read current with
      | .libraryEntry library next =>
          match ← w.read library with
          | .string name =>
              match performForeignLookup (some name) symbol w with
              | (w, some result) => .ok (w, some result)
              | (w, none) => lookupEntries symbol fuel next w
          | _ => .error "not a string"
      | _ => .error "not a library entry"

/-- `ForeignFunctionInterface::LookupInDefaultLibraries`. -/
def lookupInDefaultLibraries (symbol : String) (w : World) : Except String (World × Option Nat) := do
  lock w
  lookupEntries symbol (w.blocks.length + 1) w.libraries w

end ForeignFunctionInterface

namespace Natives

open ForeignFunctionInterface

/-- `arguments[i]`. -/
def argument (arguments : List Value) (i : Nat) : Except String Value :=
  match arguments[i]? with
  | some v => .ok v
  | none => .error "missing argument"

/-- `AsForeignWord` (`natives.h`, not under `src/`; from the spec): a small integer, or a
`LargeInteger` read as a signed machine word. -/
def asForeignWord (pl : Platform) (p : Process) (v : Value) : Except String Int :=
  match v, p.body? v with
  | .smi n, _ => .ok n
  | _, some (.largeInteger n) => .ok (pl.signedWord n)
  | _, _ => .error "not an integer"

/-- `AsForeignString(String::cast(v))` (`natives.h`, not under `src/`; from the spec): a
`malloc`ed copy, and its address. -/
def asForeignString (p : Process) (v : Value) : Except String (Process × Nat) :=
  match p.body? v with
  | some (.string s) =>
      let (w, a) := p.world.alloc (.string s) (s.length + 1)
      .ok ({ p with world := w }, a)
  | _ => .error "not a String"

/-- The characters of a live C string. -/
def cString (w : World) (a : Nat) : Except String String := do
  match ← w.read a with
  | .string s => pure s
  | _ => .error "not a string"

def foreignLookup : NativeFunction := fun pl P a arguments p => do
  let (p, library) ←
    match p.body? (← argument arguments 1) with
    | some (.string _) => asForeignString p (← argument arguments 1)
    | _ => pure (p, 0)
  let (p, name) ← asForeignString p (← argument arguments 0)
  let libraryName ← if library = 0 then pure none else some <$> cString p.world library
  let nameString ← cString p.world name
  let (w, result) ←
    match performForeignLookup libraryName nameString p.world with
    | (w, some result) => pure (w, some result)
    | (w, none) => lookupInDefaultLibraries nameString w
  let w := if result = none then { w with errors := ("Failed foreign lookup: " ++ nameString) :: w.errors } else w
  let w ← w.free library
  let w ← w.free name
  let p := { p with world := w }
  match result with
  | some r => pure (p.toInteger pl P a (Platform.int64Of (pl.signedWord r)))
  | none => pure (.failure .indexOutOfBounds, p)

def foreignAllocate : NativeFunction := fun pl P a arguments p => do
  let size ← asForeignWord pl p (← argument arguments 0)
  let (w, result) := p.world.calloc (pl.address size)
  let p := { p with world := w }
  pure (p.toInteger pl P a (Platform.int64Of (pl.signedWord result)))

def foreignFree : NativeFunction := fun pl P _ arguments p => do
  let address ← asForeignWord pl p (← argument arguments 0)
  let w ← p.world.free (pl.address address)
  pure (.value P.nullObject, { p with world := w })

def foreignMarkForFinalization : NativeFunction := fun _ P _ arguments p => do
  let foreign ← argument arguments 0
  match foreign with
  | .heap _ => pure (.value P.nullObject, { p with finalizers := foreign :: p.finalizers })
  | _ => .error "not a HeapObject"

def foreignBitsPerWord : NativeFunction := fun pl _ _ _ p =>
  .ok (.value (.smi pl.bitsPerWord), p)

def foreignErrno : NativeFunction := fun _ _ _ _ p => .ok (.value (.smi p.world.errno), p)

def foreignPlatform : NativeFunction := fun pl _ _ _ p => .ok (.value (.smi pl.os), p)

def foreignConvertPort : NativeFunction := fun pl P a arguments p => do
  match p.body? (← argument arguments 0), (← argument arguments 0) with
  | some (.instance fields _), .heap obj =>
      if (p.heap[obj]?).map HeapObject.classId ≠ some P.portClass then
        return (.value (.smi 0), p)
      let field ← match fields[0]? with
        | some f => pure f
        | none => .error "field index out of range"
      let address ← asForeignWord pl p field
      if pl.address address = 0 then return (.value (.smi 0), p)
      let p := { p with world := { p.world with increments := pl.address address :: p.world.increments } }
      pure (p.toInteger pl P a (Platform.int64Of (pl.signedWord address)))
  | _, _ => pure (.value (.smi 0), p)

/-- `ForeignCall0` ... `ForeignCall6`: call the function at `arguments[0]` with the next
`arity` arguments as words, and box its `int` result. -/
def foreignCall (arity : Nat) : NativeFunction := fun pl P a arguments p => do
  let address ← asForeignWord pl p (← argument arguments 0)
  let words ← (List.range arity).mapM fun i => do asForeignWord pl p (← argument arguments (i + 1))
  let target := pl.address address
  let result := Platform.int32Of (p.world.foreign target words)
  let p := { p with world := { p.world with calls := (target, words) :: p.world.calls } }
  pure (p.toInteger pl P a result)

def foreignCall0 : NativeFunction := foreignCall 0
def foreignCall1 : NativeFunction := foreignCall 1
def foreignCall2 : NativeFunction := foreignCall 2
def foreignCall3 : NativeFunction := foreignCall 3
def foreignCall4 : NativeFunction := foreignCall 4
def foreignCall5 : NativeFunction := foreignCall 5
def foreignCall6 : NativeFunction := foreignCall 6

/-- The C types of `DEFINE_FOREIGN_ACCESSORS`: a width in bytes and a signedness. -/
structure ForeignType where
  width : Nat
  signed : Bool
  deriving DecidableEq, Repr

/-- `*address` for a pointer to `t`: the bytes from least significant. -/
def load (memory : Nat → UInt8) (address : Nat) (t : ForeignType) : Int :=
  let u : Nat := ((List.range t.width).map fun i => (memory (address + i)).toNat * 2 ^ (8 * i)).sum
  if t.signed then Platform.signedOf (8 * t.width) u else u

/-- `*address = value` for a pointer to `t`: the value modulo `2 ^ (8 * width)`, byte by byte. -/
def store (memory : Nat → UInt8) (address : Nat) (t : ForeignType) (value : Int) : Nat → UInt8 :=
  fun x =>
    if address ≤ x ∧ x < address + t.width then
      ((value % 2 ^ (8 * t.width)).toNat / 2 ^ (8 * (x - address)) % 256).toUInt8
    else memory x

/-- `ForeignGet<suffix>`. -/
def foreignGet (t : ForeignType) : NativeFunction := fun pl P a arguments p => do
  let address ← asForeignWord pl p (← argument arguments 0)
  pure (p.toInteger pl P a (Platform.int64Of (load p.world.memory (pl.address address) t)))

/-- `ForeignSet<suffix>`. -/
def foreignSet (t : ForeignType) : NativeFunction := fun pl _ _ arguments p => do
  let value ← argument arguments 1
  let address ← asForeignWord pl p (← argument arguments 0)
  let word ← asForeignWord pl p value
  let memory := store p.world.memory (pl.address address) t word
  pure (.value value, { p with world := { p.world with memory } })

def foreignGetInt8 : NativeFunction := foreignGet { width := 1, signed := true }
def foreignSetInt8 : NativeFunction := foreignSet { width := 1, signed := true }
def foreignGetInt16 : NativeFunction := foreignGet { width := 2, signed := true }
def foreignSetInt16 : NativeFunction := foreignSet { width := 2, signed := true }
def foreignGetInt32 : NativeFunction := foreignGet { width := 4, signed := true }
def foreignSetInt32 : NativeFunction := foreignSet { width := 4, signed := true }
def foreignGetInt64 : NativeFunction := foreignGet { width := 8, signed := true }
def foreignSetInt64 : NativeFunction := foreignSet { width := 8, signed := true }
def foreignGetUint8 : NativeFunction := foreignGet { width := 1, signed := false }
def foreignSetUint8 : NativeFunction := foreignSet { width := 1, signed := false }
def foreignGetUint16 : NativeFunction := foreignGet { width := 2, signed := false }
def foreignSetUint16 : NativeFunction := foreignSet { width := 2, signed := false }
def foreignGetUint32 : NativeFunction := foreignGet { width := 4, signed := false }
def foreignSetUint32 : NativeFunction := foreignSet { width := 4, signed := false }
def foreignGetUint64 : NativeFunction := foreignGet { width := 8, signed := false }
def foreignSetUint64 : NativeFunction := foreignSet { width := 8, signed := false }

end Natives

end Fletch
