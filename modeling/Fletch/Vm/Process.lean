import Fletch.Vm.World

/-!
# Programs, processes and the runtime

The state the interpreter works on. A `Program` is the immutable part: the bytecodes and
the tables `Engine::Interpret` reads. A `Process` is the mutable part: the heap (program
objects included), the statics, the current coroutine, the stack limit, the debugger's
flag, the registered finalizers, and the world outside the heap that natives reach.

The current coroutine's stack is the one `process()->stack()` returns: the stack field of
the coroutine object the process points at. While an opcode runs, the engine keeps its
own copy of `sp` and `bcp`; `State::SaveState` writes them back (see `State.lean`).

`Runtime` collects what the two files call but do not define: the host, the selector
encoding, the lookup cache (`Process::LookupEntry`), the stack walker
(`StackWalker::ComputeCatchBlock`), the collector, the stack's growth
(`Process::HandleStackOverflow`), the native table, the debugger's predicate
(`DebugInfo::ShouldBreak`) and whether a debugging session is attached. Each is a
parameter: the results hold for every choice of them unless a theorem says otherwise.
-/

namespace Fletch

/-- The program a process runs: its bytecodes and the tables the interpreter reads, which
hold pointers into the heap. -/
structure Program where
  code : Nat → UInt8
  /-- `constant_at`. -/
  constants : List Value
  /-- `Function::ConstantForBytecode`: the constant an unfolded bytecode at an address names. -/
  unfolded : Nat → Value
  /-- `class_at`. -/
  classes : List Value
  /-- `static_method_at`. -/
  staticMethods : List Value
  dispatchTable : List Value
  vtable : List Value
  /-- `smi_class()->id()`. -/
  smiClass : Nat
  nullObject : Value
  trueObject : Value
  falseObject : Value
  /-- `ObjectFromFailure`: the exception object for a failure sentinel. -/
  objectFromFailure : Failure → Value
  largeIntegerClass : Nat
  boxedClass : Nat
  portClass : Nat

/-- The answer the allocator gives to one request: memory, or `Failure::retry_after_gc()`. -/
inductive Allocation where
  | succeeds
  | retryAfterGc
  deriving DecidableEq, Repr

/-- `Interpreter::InterruptKind`. -/
inductive InterruptKind where
  | ready | terminate | interrupt | yield | targetYield | uncaughtException | breakPoint
  deriving DecidableEq, Repr

/-- The part of `DebugInfo` the interpreter reads and writes. -/
structure DebugInfo where
  isAtBreakpoint : Bool
  deriving DecidableEq, Repr

/-- A process: its heap, statics, current coroutine and what else an opcode may change. -/
structure Process where
  heap : List HeapObject
  statics : List Value
  /-- The address of the current coroutine. -/
  coroutine : Nat
  stackLimit : Nat
  debugInfo : Option DebugInfo
  finalizers : List Value
  world : World

namespace Process

/-- The class id dispatch uses for a receiver: `smi_class` for a small integer, the
object's class for a heap object. -/
def classIdOf (P : Program) (p : Process) : Value → Option Nat
  | .smi _ => some P.smiClass
  | .heap a => (p.heap[a]?).map HeapObject.classId
  | .bytecode _ => none

/-- The body of the object a value points at. -/
def body? (p : Process) : Value → Option Body
  | .heap a => (p.heap[a]?).map HeapObject.body
  | _ => none

/-- Replace the body of the object at an address, keeping its class. -/
def setBody (p : Process) (a : Nat) (b : Body) : Process :=
  { p with heap := p.heap.modify (fun o => { o with body := b }) a }

/-- A new object at the end of the heap, and its address: the heap's allocator, which is
not under `src/`. -/
def allocate (p : Process) (o : HeapObject) : Process × Nat :=
  ({ p with heap := p.heap ++ [o] }, p.heap.length)

/-- The coroutine object at an address: its stack (`none` for `null`) and its caller. -/
def coroutineAt? (p : Process) (a : Nat) : Option (Option (List Value) × Nat) :=
  match p.heap[a]? with
  | some { body := .coroutine stack caller, .. } => some (stack, caller)
  | _ => none

/-- `process()->stack()`: the stack of the current coroutine (`process.h`, not under
`src/`; the spec's coroutine owns its stack). -/
def stack? (p : Process) : Option (List Value) :=
  match p.coroutineAt? p.coroutine with
  | some (stack, _) => stack
  | none => none

/-- Set the stack field of the coroutine at an address. -/
def setCoroutineStack (p : Process) (a : Nat) (s : Option (List Value)) : Process :=
  match p.coroutineAt? a with
  | some (_, caller) => p.setBody a (.coroutine s caller)
  | none => p

/-- `Stack::SetTopFromPointer` on the current stack: its slots are now `s`. -/
def setStack (p : Process) (s : List Value) : Process := p.setCoroutineStack p.coroutine (some s)

/-- `Process::ToInteger`: a small integer when the value fits, else a new `LargeInteger`,
whose allocation may answer `Failure::retry_after_gc()`. `process.cc` is not under `src/`:
this follows the spec (a `LargeInteger` boxes 64 bits; allocations may ask for a retry). -/
def toInteger (pl : Platform) (P : Program) (a : Allocation) (v : Int) (p : Process) :
    NativeResult × Process :=
  if pl.smiValid v then (.value (.smi v), p) else
  match a with
  | .retryAfterGc => (.failure .retryAfterGc, p)
  | .succeeds =>
      let (p', addr) := p.allocate { classId := P.largeIntegerClass, body := .largeInteger v }
      (.value (.heap addr), p')

end Process

/-- A lookup cache entry: the target function and the test tag. -/
structure LookupEntry where
  target : Value
  tag : Int
  deriving DecidableEq, Repr

/-- A native (`NATIVE(name)`): given the host, the program, the allocator's answer and the
arguments `arguments[0], arguments[1], ...`, it returns an object or a failure and the
process it leaves; a failed cast in the native is an error. -/
abbrev NativeFunction :=
  Platform → Program → Allocation → List Value → Process → Except String (NativeResult × Process)

/-- The collaborators of `interpreter.cc` and `ffi.cc` that are not among the sources. -/
structure Runtime where
  platform : Platform
  selector : SelectorFields
  /-- `Process::LookupEntry`, by the receiver's class id and the selector. -/
  lookupEntry : Nat → Int → LookupEntry
  /-- `StackWalker::ComputeCatchBlock` on the current stack: the catch `bcp` and the stack
  delta, or `none`. -/
  computeCatchBlock : List Value → Option (Nat × Nat)
  /-- The delta counts the saved `bcp`, so it is never zero. -/
  catchDelta_pos : ∀ stack bcp delta, computeCatchBlock stack = some (bcp, delta) → 0 < delta
  /-- `Process::CollectGarbage`. -/
  collectGarbage : Process → Process
  /-- `Process::HandleStackOverflow(size)`: the new stack limit when the stack is grown,
  `none` when the process declines. -/
  handleStackOverflow : Process → Int → Option Nat
  /-- `kNativeTable`. -/
  natives : Nat → NativeFunction
  /-- `DebugInfo::ShouldBreak(bcp, sp)`. -/
  shouldBreak : Nat → List Value → Bool
  /-- Whether a session is attached and debugging (`session->is_debugging()`). -/
  sessionDebugging : Bool

end Fletch
