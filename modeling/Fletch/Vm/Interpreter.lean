import Fletch.Vm.Support

/-!
# `Engine::Interpret`

The opcodes of `interpreter.cc`, one definition per label, in the order of the source.
The lengths are those of `Bytecodes.lean`. Where the source jumps with `DISPATCH_TO` the
opcode's definition is the target's (`InvokeFactory`, `InvokeFactoryUnfold`, the builtin
invokes of `INVOKE_BUILTIN`). Opcodes that share their body up to constants are written
once with parameters and given one definition each under the source's name: the local
loads, the literal pushes, and the four instance allocations.

`Flags::validate_stack` is taken to be off, so `ValidateStack` never runs. `ASSERT`s are
not checked, as in a release build.

`dispatch` is `DISPATCH()`: the breakpoint gate, then the opcode at `bcp`. `loop` runs
dispatches until one stops `Interpret`, and `interpret` begins it as `Interpret` does:
`IsAtBreakPoint()` decides whether the first dispatch skips the gate.
-/

namespace Fletch

open Exec

namespace Engine

variable (P : Program) (R : Runtime)

/-! ## Objects the opcodes read and write -/

/-- `process()->statics()->get(index)`. -/
def staticAt (index : Int) : Exec Value := do
  element (← read fun e => e.process.statics) index

/-- `process()->statics()->set(index, value)`. -/
def setStatic (index : Int) (value : Value) : Exec Unit := fun e =>
  if 0 ≤ index ∧ index.toNat < e.process.statics.length then
    .ok () { e with process := { e.process with statics := e.process.statics.set index.toNat value } }
  else .stop (.fatal "index out of range") e

/-- `program()->class_at(index)`. -/
def classAt (index : Int) : Exec (Nat × Nat) := do classOf (← element P.classes index)

/-- `process()->LookupEntry(receiver, selector)`. -/
def lookupEntry (receiver : Value) (selector : Int) : Exec LookupEntry := do
  pure (R.lookupEntry (← classIdOf P receiver) selector)

/-- `Boxed::cast(v)->value()`. -/
def boxedValue (v : Value) : Exec Value := do
  match ← bodyOf v with
  | .boxed value => pure value
  | _ => fatal "not a Boxed"

/-- The address of the heap object a value points at. -/
def address : Value → Exec Nat
  | .heap a => pure a
  | _ => fatal "not a heap object"

/-- `Boxed::cast(v)->set_value(value)`. -/
def setBoxedValue (v : Value) (value : Value) : Exec Unit := do
  match ← bodyOf v with
  | .boxed _ =>
      let a ← address v
      modify fun e => { e with process := e.process.setBody a (.boxed value) }
  | _ => fatal "not a Boxed"

/-- `Instance::cast(v)->GetInstanceField(i)`. -/
def instanceField (v : Value) (i : Nat) : Exec Value := do
  match ← bodyOf v with
  | .instance fields _ => some? "field index out of range" fields[i]?
  | _ => fatal "not an Instance"

/-- `Instance::cast(v)->SetInstanceField(i, value)`. -/
def setInstanceField (v : Value) (i : Nat) (value : Value) : Exec Unit := do
  match ← bodyOf v with
  | .instance fields immutable =>
      if i < fields.length then
        let a ← address v
        modify fun e =>
          { e with process := e.process.setBody a (.instance (fields.set i value) immutable) }
      else fatal "field index out of range"
  | _ => fatal "not an Instance"

/-- `Coroutine::cast(v)`, its address. -/
def coroutineOf (v : Value) : Exec Nat := do
  match ← bodyOf v with
  | .coroutine _ _ => address v
  | _ => fatal "not a Coroutine"

/-- `process()->NewInstance(klass, immutable)`: a new instance with `null` fields, or
`none` for `Failure::retry_after_gc()`. -/
def newInstance (a : Allocation) (klass : Nat × Nat) (immutable : Bool) : Exec (Option Value) :=
  fun e =>
    match a with
    | .retryAfterGc => .ok none e
    | .succeeds =>
        let (p, addr) := e.process.allocate
          { classId := klass.1, body := .instance (List.replicate klass.2 P.nullObject) immutable }
        .ok (some (.heap addr)) { e with process := p }

/-- `process()->NewBoxed(value)`, or `none` for `Failure::retry_after_gc()`. -/
def newBoxed (a : Allocation) (value : Value) : Exec (Option Value) := fun e =>
  match a with
  | .retryAfterGc => .ok none e
  | .succeeds =>
      let (p, addr) := e.process.allocate { classId := P.boxedClass, body := .boxed value }
      .ok (some (.heap addr)) { e with process := p }

/-- The arguments a native sees through `LocalPointer(arity)`: `arguments[i]` is
`Local(arity - i)`. -/
def nativeArguments (arity : Nat) : Exec (List Value) := fun e =>
  if arity < e.sp.length then .ok ((e.sp.drop 1).take arity).reverse e
  else .stop (.fatal "stack underflow") e

/-- `kNativeTable[native](process(), arguments)`. -/
def callNative (a : Allocation) (native : Nat) (arguments : List Value) : Exec NativeResult :=
  fun e =>
    match R.natives native R.platform P a arguments e.process with
    | .ok (result, p) => .ok result { e with process := p }
    | .error message => .stop (.fatal message) e

/-- `GC_AND_RETRY_ON_ALLOCATION_FAILURE` for a native's result. -/
def retryOnNativeFailure (result : NativeResult) : Exec NativeResult :=
  retryOnAllocationFailure R (if result = .failure .retryAfterGc then none else some result)

/-- The pop loop of the allocating opcodes: `for (i = fields - 1; i >= 0; --i)
instance->SetInstanceField(i, Pop());` -/
def popFields (object : Value) : (fields : Nat) → Exec Unit
  | 0 => pure ()
  | i + 1 => do
      setInstanceField object i (← pop)
      popFields object i

/-- The scan of `AllocateImmutable`: whether `Local(i)` is immutable for each `i` from
`start` on, `count` of them, stopping at the first that is not. -/
def localsImmutable (start : Nat) : (count : Nat) → Exec Bool
  | 0 => pure true
  | count + 1 => do
      let v ← «local» start
      if !isImmutable (← read fun e => e.process) v then return false
      localsImmutable (start + 1) count

/-- `table->get(i)`, with `none` for an index outside the table. -/
def valueAt (table : List Value) (i : Int) : Option Value :=
  if 0 ≤ i then table[i.toNat]? else none

/-- `Smi::cast(table->get(i))->value()`, with `none` where that is undefined. -/
def smiAt (table : List Value) (i : Int) : Option Int :=
  match valueAt table i with
  | some (.smi n) => some n
  | _ => none

/-- The loop of `InvokeMethodFast` and `InvokeTestFast`: the rows `[lower, upper, _, f]`
at `offset`, `offset + 4`, ... of the segment at `index`, skipping those whose range does
not hold the class id. The first row that holds it, as its offset and upper bound; `none`
when the scan reads past the table, or after `rows` rows. -/
def scanRows (table : List Value) (index classId : Int) : (rows offset : Nat) → Option (Nat × Int)
  | 0, _ => none
  | rows + 1, offset =>
      match smiAt table (index + offset) with
      | none => none
      | some lower =>
          if classId < lower then scanRows table index classId rows (offset + 4) else
          match smiAt table (index + offset + 1) with
          | none => none
          | some upper =>
              if classId ≥ upper then scanRows table index classId rows (offset + 4)
              else some (offset, upper)

/-- `for (int offset = 4; true; offset += 4)`: the scan from the first row. Each row takes
at least one word, so no scan that stays in the table reads more rows than it has words. -/
def scanSegment (table : List Value) (index classId : Int) : Option (Nat × Int) :=
  scanRows table index classId table.length 4

end Engine

namespace Interpret

open Engine

variable (P : Program) (R : Runtime)

/-! ## Loads and stores -/

/-- `LoadLocal0`, `LoadLocal1`, `LoadLocal2` and `LoadLocal`: push a local. -/
def loadLocalAt (offset length : Nat) : Exec Unit := do
  let v ← «local» offset
  push v
  advance length

def loadLocal0 : Exec Unit := loadLocalAt 0 Opcode.loadLocal0.length

def loadLocal1 : Exec Unit := loadLocalAt 1 Opcode.loadLocal1.length

def loadLocal2 : Exec Unit := loadLocalAt 2 Opcode.loadLocal2.length

def loadLocal : Exec Unit := do loadLocalAt (← readByte P 1) Opcode.loadLocal.length

def loadBoxed : Exec Unit := do
  let offset ← readByte P 1
  let boxed ← «local» offset
  push (← boxedValue boxed)
  advance Opcode.loadBoxed.length

def loadStatic : Exec Unit := do
  let index ← readInt32 P 1
  let value ← staticAt index
  push value
  advance Opcode.loadStatic.length

def loadStaticInit : Exec Unit := do
  let index ← readInt32 P 1
  let value ← staticAt index
  match ← read fun e => e.process.body? value with
  | some (.initializer function) =>
      pushReturnAddress Opcode.loadStaticInit.length
      goto (← functionEntry function)
      pollStack R 0
  | _ =>
      push value
      advance Opcode.loadStaticInit.length

def loadField : Exec Unit := do
  let target ← Engine.pop
  push (← instanceField target (← readByte P 1))
  advance Opcode.loadField.length

def loadConst : Exec Unit := do
  let index ← readInt32 P 1
  push (← element P.constants index)
  advance Opcode.loadConst.length

def loadConstUnfold : Exec Unit := do
  push (← readConstant P)
  advance Opcode.loadConstUnfold.length

def storeLocal : Exec Unit := do
  let offset ← readByte P 1
  let value ← «local» 0
  setLocal offset value
  advance Opcode.storeLocal.length

def storeBoxed : Exec Unit := do
  let offset ← readByte P 1
  let value ← «local» 0
  let boxed ← «local» offset
  setBoxedValue boxed value
  advance Opcode.storeBoxed.length

def storeStatic : Exec Unit := do
  let index ← readInt32 P 1
  let value ← «local» 0
  setStatic index value
  advance Opcode.storeStatic.length

def storeField : Exec Unit := do
  let value ← Engine.pop
  let target ← Engine.pop
  setInstanceField target (← readByte P 1) value
  push value
  advance Opcode.storeField.length

/-- The literal pushes. -/
def pushLiteral (v : Value) (length : Nat) : Exec Unit := do
  push v
  advance length

def loadLiteralNull : Exec Unit := pushLiteral P.nullObject Opcode.loadLiteralNull.length

def loadLiteralTrue : Exec Unit := pushLiteral P.trueObject Opcode.loadLiteralTrue.length

def loadLiteralFalse : Exec Unit := pushLiteral P.falseObject Opcode.loadLiteralFalse.length

def loadLiteral0 : Exec Unit := pushLiteral (.smi 0) Opcode.loadLiteral0.length

def loadLiteral1 : Exec Unit := pushLiteral (.smi 1) Opcode.loadLiteral1.length

def loadLiteral : Exec Unit := do pushLiteral (.smi (← readByte P 1)) Opcode.loadLiteral.length

def loadLiteralWide : Exec Unit := do
  pushLiteral (.smi (← readInt32 P 1)) Opcode.loadLiteralWide.length

/-! ## Invokes -/

def invokeMethod : Exec Unit := do
  let selector ← readInt32 P 1
  let arity := R.selector.arity selector
  let receiver ← «local» arity
  pushReturnAddress Opcode.invokeMethod.length
  let target := (← lookupEntry P R receiver selector).target
  goto (← functionEntry target)
  pollStack R 0

def invokeMethodFast : Exec Unit := do
  let index ← readInt32 P 1
  let table := P.dispatchTable
  let selector ← smiValue (← element table (index + 1))
  let arity := R.selector.arity selector
  let receiver ← «local» arity
  pushReturnAddress Opcode.invokeMethodFast.length
  let classId ← classIdOf P receiver
  let (offset, _) ← some? "dispatch table overrun" (scanSegment table index classId)
  let target ← element table (index + offset + 3)
  goto (← functionEntry target)
  pollStack R 0

def invokeMethodVtable : Exec Unit := do
  let selector ← readInt32 P 1
  let arity := R.selector.arity selector
  let offset := R.selector.id selector
  let receiver ← «local» arity
  pushReturnAddress Opcode.invokeMethodVtable.length
  let classId ← classIdOf P receiver
  let index := classId + offset
  let entry ← arrayElements (← element P.vtable index)
  let entry ←
    if (← smiValue (← element entry 0)) ≠ offset then arrayElements (← element P.vtable 0)
    else pure entry
  let target ← element entry 2
  goto (← functionEntry target)
  pollStack R 0

/-- `InvokeStatic`, and `InvokeFactory` by `DISPATCH_TO`. -/
def invokeStatic : Exec Unit := do
  let index ← readInt32 P 1
  let target ← element P.staticMethods index
  pushReturnAddress Opcode.invokeStatic.length
  goto (← functionEntry target)
  pollStack R 0

/-- `InvokeStaticUnfold`, and `InvokeFactoryUnfold` by `DISPATCH_TO`; the return address
is computed with `kInvokeStaticLength`. -/
def invokeStaticUnfold : Exec Unit := do
  let target ← readConstant P
  let entry ← functionEntry target
  pushReturnAddress Opcode.invokeStatic.length
  goto entry
  pollStack R 0

def invokeNative (a : Allocation) : Exec Unit := do
  let arity ← readByte P 1
  let native ← readByte P 2
  let arguments ← nativeArguments arity
  let result ← retryOnNativeFailure R (← callNative P R a native arguments)
  match result with
  | .failure f =>
      push (P.objectFromFailure f)
      advance Opcode.invokeNative.length
  | .value v =>
      popReturnAddress
      drop arity
      push v

def invokeNativeYield (a : Allocation) : Exec Unit := do
  let arity ← readByte P 1
  let native ← readByte P 2
  let arguments ← nativeArguments arity
  let result ← retryOnNativeFailure R (← callNative P R a native arguments)
  match result with
  | .failure f =>
      push (P.objectFromFailure f)
      advance Opcode.invokeNativeYield.length
  | .value v =>
      popReturnAddress
      drop arity
      push P.nullObject
      if v ≠ P.nullObject then
        saveState
        surrender .targetYield (some v)

def invokeTest : Exec Unit := do
  let selector ← readInt32 P 1
  let receiver ← «local» 0
  setTop (toBool P ((← lookupEntry P R receiver selector).tag ≠ 0))
  advance Opcode.invokeTest.length

def invokeTestFast : Exec Unit := do
  let index ← readInt32 P 1
  let table := P.dispatchTable
  let receiver ← «local» 0
  let classId ← classIdOf P receiver
  let (_, upper) ← some? "dispatch table overrun" (scanSegment table index classId)
  setTop (toBool P (upper ≠ R.platform.smiMax))
  advance Opcode.invokeTestFast.length

def invokeTestVtable : Exec Unit := do
  let selector ← readInt32 P 1
  let offset := R.selector.id selector
  let receiver ← «local» 0
  let classId ← classIdOf P receiver
  let index := classId + offset
  let entry ← arrayElements (← element P.vtable index)
  setTop (toBool P ((← smiValue (← element entry 0)) = offset))
  advance Opcode.invokeTestVtable.length

/-! ## Returns and branches -/

def pop : Exec Unit := do
  drop 1
  advance Opcode.pop.length

def «return» : Exec Unit := do
  let locals ← readByte P 1
  let arguments ← readByte P 2
  let result ← «local» 0
  drop locals
  popReturnAddress
  drop arguments
  push result

def branchLong : Exec Unit := do advance (← readInt32 P 1)

def branchIfTrueLong : Exec Unit := do
  let delta ← readInt32 P 1
  branch P delta Opcode.branchIfTrueLong.length

def branchIfFalseLong : Exec Unit := do
  let delta ← readInt32 P 1
  branch P Opcode.branchIfFalseLong.length delta

def branchBack : Exec Unit := do
  pollStack R 0
  advance (-(← readByte P 1))

def branchBackIfTrue : Exec Unit := do
  pollStack R 0
  let delta := -((← readByte P 1) : Int)
  branch P delta Opcode.branchBackIfTrue.length

/-- The false branch advances by `kBranchBackIfTrueLength`, as the source has it. -/
def branchBackIfFalse : Exec Unit := do
  pollStack R 0
  let delta := -((← readByte P 1) : Int)
  branch P Opcode.branchBackIfTrue.length delta

def branchBackLong : Exec Unit := do
  pollStack R 0
  let delta ← readInt32 P 1
  advance (-delta)

def branchBackIfTrueLong : Exec Unit := do
  pollStack R 0
  let delta := -(← readInt32 P 1)
  branch P delta Opcode.branchBackIfTrueLong.length

def branchBackIfFalseLong : Exec Unit := do
  pollStack R 0
  let delta := -(← readInt32 P 1)
  branch P Opcode.branchBackIfFalseLong.length delta

def popAndBranchLong : Exec Unit := do
  let popCount ← readByte P 1
  let delta ← readInt32 P 2
  drop popCount
  advance delta

def popAndBranchBackLong : Exec Unit := do
  pollStack R 0
  let popCount ← readByte P 1
  let delta := -(← readInt32 P 2)
  drop popCount
  advance delta

/-! ## Allocation -/

/-- The common end of the four instance allocations: allocate with the GC retry, fill the
fields from the stack, push the instance and advance. -/
def allocateInstance (a : Allocation) (klass : Nat × Nat) (immutable : Bool) (length : Nat) :
    Exec Unit := do
  let object ← retryOnAllocationFailure R (← newInstance P a klass immutable)
  popFields object klass.2
  push object
  advance length

/-- `Allocate`; the field count is read after the allocation, as it does not change. -/
def allocate (a : Allocation) : Exec Unit := do
  let klass ← classAt P (← readInt32 P 1)
  allocateInstance P R a klass false Opcode.allocate.length

/-- `AllocateUnfold`; it advances by `kAllocateLength`, as the source has it. -/
def allocateUnfold (a : Allocation) : Exec Unit := do
  let klass ← classOf (← readConstant P)
  allocateInstance P R a klass false Opcode.allocate.length

def allocateImmutable (a : Allocation) : Exec Unit := do
  let klass ← classAt P (← readInt32 P 1)
  let immutable ← localsImmutable 0 klass.2
  allocateInstance P R a klass immutable Opcode.allocateImmutable.length

def allocateImmutableUnfold (a : Allocation) : Exec Unit := do
  let klass ← classOf (← readConstant P)
  let immutable ← localsImmutable 0 klass.2
  allocateInstance P R a klass immutable Opcode.allocateImmutableUnfold.length

def allocateBoxed (a : Allocation) : Exec Unit := do
  let value ← «local» 0
  let boxed ← retryOnAllocationFailure R (← newBoxed P a value)
  setTop boxed
  advance Opcode.allocateBoxed.length

/-! ## The rest -/

def negate : Exec Unit := do
  let condition ← «local» 0
  if condition = P.trueObject then setTop P.falseObject
  else if condition = P.falseObject then setTop P.trueObject
  else fatal "UNIMPLEMENTED"
  advance Opcode.negate.length

def stackOverflowCheck : Exec Unit := do
  let size ← readInt32 P 1
  pollStack R size
  advance Opcode.stackOverflowCheck.length

def throw : Exec Unit := do
  let exception ← «local» 0
  saveState
  match handleThrow R ((← read fun e => e.process.heap.length) + 1) (← read fun e => e.process) with
  | (.caught catchBcp stackDelta, p) =>
      modify fun e => { e with process := p }
      restoreState
      goto catchBcp
      drop (stackDelta - 1)
      setTop exception
  | (.uncaught, p) =>
      modify fun e => { e with process := p }
      surrender .uncaughtException none
  | (.exit, p) =>
      modify fun e => { e with process := p }
      stop .exit
  | (.fatal message, p) =>
      modify fun e => { e with process := p }
      fatal message

def processYield : Exec Unit := do
  let value ← «local» 0
  setTop P.nullObject
  advance Opcode.processYield.length
  saveState
  surrender (if value = P.trueObject then .terminate else .yield) none

def coroutineChange : Exec Unit := do
  let argument ← «local» 0
  setLocal 0 P.nullObject
  let coroutine ← coroutineOf (← «local» 1)
  setLocal 1 P.nullObject
  saveState
  modify fun e => { e with process := e.process.updateCoroutine coroutine }
  restoreState
  advance Opcode.coroutineChange.length
  drop 1
  setTop argument

def identical : Exec Unit := do
  let left ← «local» 1
  let right ← «local» 0
  let result := handleIdentical P (← read fun e => e.process) left right
  drop 1
  setTop result
  advance Opcode.identical.length

def identicalNonNumeric : Exec Unit := do
  let identical := decide ((← «local» 0) = (← «local» 1))
  drop 1
  setTop (toBool P identical)
  advance Opcode.identicalNonNumeric.length

def enterNoSuchMethod : Exec Unit := do
  let returnAddress ←
    match ← «local» 0 with
    | .bytecode ra => pure ra
    | _ => fatal "not a return address"
  let opcode := if 5 ≤ returnAddress then Opcode.ofByte (P.code (returnAddress - 5)) else none
  let selector ←
    if opcode.any Opcode.isInvokeFast then do
      let index := Utils.readInt32 P.code (returnAddress - 4)
      smiValue (← element P.dispatchTable (index + 1))
    else pure (Utils.readInt32 P.code (returnAddress - 4))
  let arity := R.selector.arity selector
  let receiver ← «local» (arity + 1)
  push (.smi selector)
  push receiver
  push (.smi selector)
  advance Opcode.enterNoSuchMethod.length

def exitNoSuchMethod : Exec Unit := do
  let result ← Engine.pop
  let selector ← smiValue (← Engine.pop)
  popReturnAddress
  let result ← if R.selector.isSetter selector then «local» 0 else pure result
  drop (R.selector.arity selector + 1)
  push result

def subroutineCall : Exec Unit := do
  let delta ← readInt32 P 1
  let returnDelta ← readInt32 P 5
  pushDelta returnDelta
  advance delta

def subroutineReturn : Exec Unit := do advance (-(← popDelta))

def frameSize : Exec Unit := advance Opcode.frameSize.length

def methodEnd : Exec Unit := fatal "Cannot interpret 'method-end' bytecodes."

/-! ## Dispatch -/

/-- The body of an opcode: `goto *kDispatchTable[opcode]`. -/
def execute (a : Allocation) : Opcode → Exec Unit
  | .loadLocal0 => loadLocal0
  | .loadLocal1 => loadLocal1
  | .loadLocal2 => loadLocal2
  | .loadLocal => loadLocal P
  | .loadBoxed => loadBoxed P
  | .loadStatic => loadStatic P
  | .loadStaticInit => loadStaticInit P R
  | .loadField => loadField P
  | .loadConst => loadConst P
  | .loadConstUnfold => loadConstUnfold P
  | .storeLocal => storeLocal P
  | .storeBoxed => storeBoxed P
  | .storeStatic => storeStatic P
  | .storeField => storeField P
  | .loadLiteralNull => loadLiteralNull P
  | .loadLiteralTrue => loadLiteralTrue P
  | .loadLiteralFalse => loadLiteralFalse P
  | .loadLiteral0 => loadLiteral0
  | .loadLiteral1 => loadLiteral1
  | .loadLiteral => loadLiteral P
  | .loadLiteralWide => loadLiteralWide P
  | .invokeMethod | .invoke _ => invokeMethod P R
  | .invokeMethodFast | .invokeFast _ => invokeMethodFast P R
  | .invokeMethodVtable | .invokeVtable _ => invokeMethodVtable P R
  | .invokeStatic | .invokeFactory => invokeStatic P R
  | .invokeStaticUnfold | .invokeFactoryUnfold => invokeStaticUnfold P R
  | .invokeNative => invokeNative P R a
  | .invokeNativeYield => invokeNativeYield P R a
  | .invokeTest => invokeTest P R
  | .invokeTestFast => invokeTestFast P R
  | .invokeTestVtable => invokeTestVtable P R
  | .pop => pop
  | .return => «return» P
  | .branchLong => branchLong P
  | .branchIfTrueLong => branchIfTrueLong P
  | .branchIfFalseLong => branchIfFalseLong P
  | .branchBack => branchBack P R
  | .branchBackIfTrue => branchBackIfTrue P R
  | .branchBackIfFalse => branchBackIfFalse P R
  | .branchBackLong => branchBackLong P R
  | .branchBackIfTrueLong => branchBackIfTrueLong P R
  | .branchBackIfFalseLong => branchBackIfFalseLong P R
  | .popAndBranchLong => popAndBranchLong P
  | .popAndBranchBackLong => popAndBranchBackLong P R
  | .allocate => allocate P R a
  | .allocateUnfold => allocateUnfold P R a
  | .allocateImmutable => allocateImmutable P R a
  | .allocateImmutableUnfold => allocateImmutableUnfold P R a
  | .allocateBoxed => allocateBoxed P R a
  | .negate => negate P
  | .stackOverflowCheck => stackOverflowCheck P R
  | .throw => throw R
  | .processYield => processYield P
  | .coroutineChange => coroutineChange P
  | .identical => identical P
  | .identicalNonNumeric => identicalNonNumeric P
  | .enterNoSuchMethod => enterNoSuchMethod P R
  | .exitNoSuchMethod => exitNoSuchMethod R
  | .subroutineCall => subroutineCall P
  | .subroutineReturn => subroutineReturn
  | .frameSize => frameSize
  | .methodEnd => methodEnd

/-- `DISPATCH()`, or `DISPATCH_NO_BREAK()` when `noBreak`: the breakpoint gate, then the
opcode at `bcp` with the allocator's answer `a`. -/
def dispatch (noBreak : Bool) (a : Allocation) : Exec Unit := do
  if !noBreak then
    if ← shouldBreak R then surrender .breakPoint none
  execute P R a (← readOpcode P)

/-- Dispatch after dispatch, with the allocator's answers in order (memory once they run
out), for at most `fuel` dispatches: the stop that ends `Interpret` and the state at it. -/
def loop : (fuel : Nat) → (answers : List Allocation) → (noBreak : Bool) → Engine →
    Option (Stop × Engine)
  | 0, _, _, _ => none
  | fuel + 1, answers, noBreak, e =>
      match dispatch P R noBreak (answers.headD .succeeds) e with
      | .ok () e' => loop fuel answers.tail false e'
      | .stop .redispatch e' => loop fuel answers.tail false e'
      | .stop s e' => some (s, e')

/-- `Engine::Interpret`: the first dispatch skips the gate when resuming at a breakpoint. -/
def interpret (fuel : Nat) (answers : List Allocation) (e : Engine) : Option (Stop × Engine) :=
  match isAtBreakPoint e with
  | .ok noBreak e' => loop P R fuel answers noBreak e'
  | .stop s e' => some (s, e')

end Interpret

end Fletch
