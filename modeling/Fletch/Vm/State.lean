import Fletch.Vm.Process

/-!
# The engine state and its operations

`class State` and the helpers of `class Engine` in `interpreter.cc`. The engine holds the
process and two working pointers: `sp`, here the list of slots from the top of the
stack down (the head is `*sp_`), and `bcp`, an address in the bytecodes.

An opcode runs in `Exec`: from an engine state it either completes with a value, or stops
early. A stop is one of the early exits of an opcode's body: `DISPATCH()` from inside the
body (the GC retry), a `return` of an interrupt kind from `Interpret`, `exit(1)`, or a
fatal error. Reading outside the stack, a cast to the wrong kind of object and a jump to
a negative address are undefined in the C++; they are fatal errors here.

`State::SaveState` pushes `bcp` and writes the slots to the current coroutine's stack;
`State::RestoreState` reads them back and pops `bcp`. Nothing else moves slots between
the engine and the process.
-/

namespace Fletch

/-- The interpreter's state: the process, and the cached `sp` and `bcp`. -/
structure Engine where
  process : Process
  sp : List Value
  bcp : Nat

/-- How an opcode's body ends before `OPCODE_END()`. -/
inductive Stop where
  /-- `DISPATCH()` inside the body: the retry of `GC_AND_RETRY_ON_ALLOCATION_FAILURE`. -/
  | redispatch
  /-- `return Interpreter::k...` from `Interpret`, with the yield target when there is one. -/
  | surrender (kind : InterruptKind) (target : Option Value)
  /-- `exit(1)` of an uncaught exception without a debugging session. -/
  | exit
  /-- `FATAL`, `UNIMPLEMENTED`, or undefined behaviour. -/
  | fatal (message : String)

/-- The end of a run of `Exec`: a value and the state, or a stop and the state at it. -/
inductive Result (α : Type) where
  | ok (a : α) (e : Engine)
  | stop (s : Stop) (e : Engine)

/-- Part of an opcode's body. -/
def Exec (α : Type) : Type := Engine → Result α

namespace Result

/-- The engine state a run ends in. -/
def engine {α : Type} : Result α → Engine
  | ok _ e => e
  | stop _ e => e

/-- Continue a run that completed with `f`; a stop stays a stop. -/
def bind {α β : Type} (r : Result α) (f : α → Exec β) : Result β :=
  match r with
  | ok a e => f a e
  | stop s e => stop s e

@[simp] theorem ok_bind {α β : Type} (a : α) (e : Engine) (f : α → Exec β) :
    (ok a e).bind f = f a e := rfl

@[simp] theorem stop_bind {α β : Type} (s : Stop) (e : Engine) (f : α → Exec β) :
    (stop s e).bind f = stop s e := rfl

end Result

instance : Monad Exec where
  pure a e := .ok a e
  bind m f e := (m e).bind f

namespace Exec

@[simp] theorem pure_apply {α : Type} (a : α) (e : Engine) : (pure a : Exec α) e = .ok a e :=
  rfl

@[simp] theorem bind_apply {α β : Type} (m : Exec α) (f : α → Exec β) (e : Engine) :
    (m >>= f) e = (m e).bind f := rfl

/-- Stop the opcode with `s`. -/
def stop {α : Type} (s : Stop) : Exec α := fun e => .stop s e

/-- Undefined behaviour or a `FATAL`. -/
def fatal {α : Type} (message : String) : Exec α := stop (.fatal message)

/-- `return Interpreter::k...`. -/
def surrender {α : Type} (kind : InterruptKind) (target : Option Value) : Exec α :=
  stop (.surrender kind target)

/-- Change the engine state. -/
def modify (f : Engine → Engine) : Exec Unit := fun e => .ok () (f e)

/-- Read the engine state. -/
def read {α : Type} (f : Engine → α) : Exec α := fun e => .ok (f e) e

/-- A value that must be there; undefined behaviour when it is not. -/
def some? {α : Type} (message : String) : Option α → Exec α
  | some a => pure a
  | none => fatal message

@[simp] theorem stop_apply {α : Type} (s : Stop) (e : Engine) : (stop s : Exec α) e = .stop s e :=
  rfl

@[simp] theorem modify_apply (f : Engine → Engine) (e : Engine) : modify f e = .ok () (f e) :=
  rfl

@[simp] theorem read_apply {α : Type} (f : Engine → α) (e : Engine) : read f e = .ok (f e) e :=
  rfl

@[simp] theorem some?_some {α : Type} (message : String) (a : α) : some? message (some a) = pure a :=
  rfl

@[simp] theorem some?_none {α : Type} (message : String) :
    (some? message none : Exec α) = fatal message := rfl

end Exec

open Exec

namespace Engine

variable (P : Program) (R : Runtime)

/-! ## `class State` -/

/-- `State::ReadByte`. -/
def readByte (offset : Nat) : Exec Nat := read fun e => (P.code (e.bcp + offset)).toNat

/-- `State::ReadInt32`. -/
def readInt32 (offset : Nat) : Exec Int := read fun e => Utils.readInt32 P.code (e.bcp + offset)

/-- `State::ReadOpcode`; a byte that names no opcode is fatal (`FATAL1` in debug builds). -/
def readOpcode : Exec Opcode := do
  let byte ← read fun e => P.code e.bcp
  some? "Failed to interpret. Bad bytecode" (Opcode.ofByte byte)

/-- `State::ReadConstant`. -/
def readConstant : Exec Value := read fun e => P.unfolded e.bcp

/-- `State::Goto`. -/
def goto (bcp : Nat) : Exec Unit := modify fun e => { e with bcp }

/-- `State::Advance`. -/
def advance (delta : Int) : Exec Unit := fun e =>
  if 0 ≤ (e.bcp : Int) + delta then .ok () { e with bcp := ((e.bcp : Int) + delta).toNat }
  else .stop (.fatal "bytecode pointer out of range") e

/-- `State::ComputeReturnAddress`. -/
def computeReturnAddress (offset : Nat) : Exec Nat := read fun e => e.bcp + offset

/-- `State::Local`. -/
def «local» (n : Nat) : Exec Value := do
  let slot ← read fun e => e.sp[n]?
  some? "stack underflow" slot

/-- `State::Top`. -/
def top : Exec Value := «local» 0

/-- `State::SetLocal`. -/
def setLocal (n : Nat) (v : Value) : Exec Unit := fun e =>
  if n < e.sp.length then .ok () { e with sp := e.sp.set n v }
  else .stop (.fatal "stack underflow") e

/-- `State::SetTop`. -/
def setTop (v : Value) : Exec Unit := setLocal 0 v

/-- `State::Push`. -/
def push (v : Value) : Exec Unit := modify fun e => { e with sp := v :: e.sp }

/-- `State::Pop`. -/
def pop : Exec Value := fun e =>
  match e.sp with
  | v :: rest => .ok v { e with sp := rest }
  | [] => .stop (.fatal "stack underflow") e

/-- `State::Drop`. -/
def drop (n : Nat) : Exec Unit := fun e =>
  if n ≤ e.sp.length then .ok () { e with sp := e.sp.drop n }
  else .stop (.fatal "stack underflow") e

/-- `State::HasStackSpaceFor`: `sp_ + size < stack_limit()`, with `sp_` the index of the
top slot. -/
def hasStackSpaceFor (size : Int) : Exec Bool :=
  read fun e => decide ((e.sp.length : Int) + size ≤ e.process.stackLimit)

/-- `State::SaveState`: push `bcp` and write the slots back to the current stack. -/
def saveState : Exec Unit := modify fun e =>
  let sp := .bytecode e.bcp :: e.sp
  { e with sp, process := e.process.setStack sp }

/-- `State::RestoreState`: read the slots of the current stack and pop `bcp`. -/
def restoreState : Exec Unit := fun e =>
  match e.process.stack? with
  | some (.bytecode bcp :: sp) => .ok () { e with sp, bcp }
  | _ => .stop (.fatal "no saved bytecode pointer") e

/-! ## Casts -/

/-- `Smi::cast(v)->value()`. -/
def smiValue : Value → Exec Int
  | .smi n => pure n
  | _ => fatal "not a Smi"

/-- The body of the heap object a value points at. -/
def bodyOf (v : Value) : Exec Body := do
  let body ← read fun e => e.process.body? v
  some? "not a heap object" body

/-- `Function::cast(v)->bytecode_address_for(0)`. -/
def functionEntry (v : Value) : Exec Nat := do
  match ← bodyOf v with
  | .function entry => pure entry
  | _ => fatal "not a Function"

/-- `Array::cast(v)`, its elements. -/
def arrayElements (v : Value) : Exec (List Value) := do
  match ← bodyOf v with
  | .array elements => pure elements
  | _ => fatal "not an Array"

/-- `Class::cast(v)`: its id and `NumberOfInstanceFields()`. -/
def classOf (v : Value) : Exec (Nat × Nat) := do
  match ← bodyOf v with
  | .klass id fields => pure (id, fields)
  | _ => fatal "not a Class"

/-- `array->get(index)`. -/
def element (xs : List Value) (index : Int) : Exec Value :=
  if 0 ≤ index then some? "index out of range" xs[index.toNat]? else fatal "index out of range"

/-- `receiver->IsSmi() ? program()->smi_class() : HeapObject::cast(receiver)->get_class()`,
then `clazz->id()`. -/
def classIdOf (receiver : Value) : Exec Nat := do
  let id ← read fun e => e.process.classIdOf P receiver
  some? "not a heap object" id

/-! ## Helpers of `class Engine` -/

/-- `Engine::ToBool`. -/
def toBool (b : Bool) : Value := if b then P.trueObject else P.falseObject

/-- `Engine::Branch`. -/
def branch (trueOffset falseOffset : Int) : Exec Unit := do
  let condition ← pop
  advance (if condition = P.trueObject then trueOffset else falseOffset)

/-- `Engine::PushReturnAddress`. -/
def pushReturnAddress (offset : Nat) : Exec Unit := do
  push (.bytecode (← computeReturnAddress offset))

/-- `Engine::PopReturnAddress`. -/
def popReturnAddress : Exec Unit := do
  match ← pop with
  | .bytecode bcp => goto bcp
  | _ => fatal "not a return address"

/-- `Engine::PushDelta`. -/
def pushDelta (delta : Int) : Exec Unit := push (.smi delta)

/-- `Engine::PopDelta`. -/
def popDelta : Exec Int := do smiValue (← pop)

/-- `Engine::StackOverflowCheck`: `false` when the stack is full and the process declines
to grow it, with the state saved. -/
def stackOverflowCheck (size : Int) : Exec Bool := do
  if ← hasStackSpaceFor size then return true
  saveState
  match ← read fun e => R.handleStackOverflow e.process size with
  | none => return false
  | some limit =>
      modify fun e => { e with process := { e.process with stackLimit := limit } }
      restoreState
      return true

/-- `if (!StackOverflowCheck(size)) return Interpreter::kInterrupt;` -/
def pollStack (size : Int) : Exec Unit := do
  unless ← stackOverflowCheck R size do surrender .interrupt none

/-- `Engine::CollectGarbage`. -/
def collectGarbage : Exec Unit := do
  saveState
  modify fun e => { e with process := R.collectGarbage e.process }
  restoreState

/-- `GC_AND_RETRY_ON_ALLOCATION_FAILURE`: on `Failure::retry_after_gc()`, collect garbage
and re-dispatch the opcode. -/
def retryOnAllocationFailure {α : Type} (result : Option α) : Exec α :=
  match result with
  | some a => pure a
  | none => do collectGarbage R; stop .redispatch

/-- `Engine::ShouldBreak`. When the debugger's predicate holds, the state is saved, and
the debug info records that the process stopped at a breakpoint (modelled from the spec:
`debug_info.cc` is missing; a resumed run skips the immediate re-check). -/
def shouldBreak : Exec Bool := do
  match ← read fun e => e.process.debugInfo with
  | none => return false
  | some _ =>
      let should ← read fun e => R.shouldBreak e.bcp e.sp
      if should then
        saveState
        modify fun e =>
          { e with process := { e.process with debugInfo := some { isAtBreakpoint := true } } }
      return should

/-- `Engine::IsAtBreakPoint`: read and clear the flag. -/
def isAtBreakPoint : Exec Bool := do
  match ← read fun e => e.process.debugInfo with
  | none => return false
  | some d =>
      modify fun e =>
        { e with process := { e.process with debugInfo := some { isAtBreakpoint := false } } }
      return d.isAtBreakpoint

end Engine

end Fletch
