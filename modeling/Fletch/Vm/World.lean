import Fletch.Vm.Bytecodes

/-!
# The world outside the heap

What the natives of `ffi.cc` reach beyond the process: the C heap (`calloc`, `strdup`,
`new`, `free`, `delete`), foreign memory, native ports' reference counts, foreign
functions, the dynamic linker, and the two statics of `ForeignFunctionInterface`.

The C heap hands out addresses from a bump pointer and keeps freed blocks, marked dead,
so that a use after free or a second free is seen: each is undefined behaviour in C, and
the operations here fail on it. `calloc` answers `NULL` when the block would pass the end of
the heap; `strdup`, `new` and the `malloc` of `AsForeignString`, whose answers `ffi.cc` never
tests, always succeed. The libraries and functions the process reaches are parameters of the
world (`foreign`, `dlopen`, `dlsym`, `dlcloseFails`); `dlopen` and `dlsym` answer `NULL` as
`none`, never as an address `0`.
-/

namespace Fletch

/-- What a block of the C heap holds. -/
inductive CData where
  | buffer (size : Nat)
  | string (chars : String)
  | libraryEntry (library : Nat) (next : Nat)
  | mutex
  deriving DecidableEq, Repr

/-- A block of the C heap; `live` is false once it has been freed. -/
structure Block where
  data : CData
  live : Bool
  deriving DecidableEq, Repr

/-- Everything outside the Fletch heap that the FFI natives touch. Address `0` is `NULL`. -/
structure World where
  /-- The C heap: every block ever allocated, by address. -/
  blocks : List (Nat × Block)
  /-- The address the next allocation gets. -/
  brk : Nat
  /-- The end of the C heap: a `calloc` whose block would pass it answers `NULL`. -/
  heapEnd : Nat
  /-- Foreign memory, byte by byte. -/
  memory : Nat → UInt8
  /-- `Port::IncrementRef` calls, by port address, most recent first. -/
  increments : List Nat
  /-- Calls of foreign functions, address and arguments, most recent first. -/
  calls : List (Nat × List Int)
  /-- What the foreign function at an address returns for given arguments. -/
  foreign : Nat → List Int → Int
  /-- `errno`. -/
  errno : Int
  /-- Lines written to `stderr`, most recent first. -/
  errors : List String
  /-- The handle `dlopen` returns for a library (`none` for the main program). -/
  dlopen : Option String → Option Nat
  /-- The address `dlsym` finds for a symbol in an open handle. -/
  dlsym : Nat → String → Option Nat
  /-- `dlopen` and `dlsym` answer `NULL` as `none`. -/
  dlopen_ne_zero : ∀ library, dlopen library ≠ some 0
  dlsym_ne_zero : ∀ handle symbol, dlsym handle symbol ≠ some 0
  /-- Whether `dlclose` of a handle fails. -/
  dlcloseFails : Nat → Bool
  /-- Handles `dlopen` returned and `dlclose` released, most recent first. -/
  opened : List Nat
  closed : List Nat
  /-- `ForeignFunctionInterface::libraries_` and `ForeignFunctionInterface::mutex_`. -/
  libraries : Nat
  mutex : Nat

namespace World

/-- The block at an address, whether live or freed. -/
def block? (w : World) (a : Nat) : Option Block := w.blocks.lookup a

/-- `strdup`, `new` and the `malloc` of `AsForeignString`: a fresh live block of `size` bytes
at `brk`. -/
def alloc (w : World) (data : CData) (size : Nat) : World × Nat :=
  ({ w with blocks := (w.brk, { data, live := true }) :: w.blocks, brk := w.brk + max size 1 },
    w.brk)

/-- `calloc(1, size)`: a fresh buffer of `size` zero bytes at `brk` when it ends below
`heapEnd`; `NULL`, with the world as it was, when it does not. -/
def calloc (w : World) (size : Nat) : World × Nat :=
  if w.brk + max size 1 ≤ w.heapEnd then
    ({ (w.alloc (.buffer size) size).1 with
        memory := fun b => if w.brk ≤ b ∧ b < w.brk + size then 0 else w.memory b }, w.brk)
  else (w, 0)

/-- Read a live block; reading a freed or unknown block is undefined. -/
def read (w : World) (a : Nat) : Except String CData :=
  match w.block? a with
  | some { data, live := true } => .ok data
  | some { live := false, .. } => .error "use after free"
  | none => .error "wild pointer"

/-- The world after the block at `a` is freed: the block stays, marked dead. -/
def release (w : World) (a : Nat) : World :=
  { w with blocks := w.blocks.map fun b => if b.1 = a then (a, { b.2 with live := false }) else b }

/-- `free` and `delete`: freeing `NULL` does nothing; freeing a freed block is undefined. -/
def free (w : World) (a : Nat) : Except String World :=
  if a = 0 then .ok w else
  match w.block? a with
  | some { live := true, .. } => .ok (w.release a)
  | some { live := false, .. } => .error "double free"
  | none => .error "free of a pointer malloc did not return"

end World

end Fletch
