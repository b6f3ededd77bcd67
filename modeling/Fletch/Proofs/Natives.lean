import Fletch.Proofs.Retry
import Fletch.Vm.Ffi

/-!
# Natives that act before they box their result

`ForeignAllocate`, `ForeignConvertPort` and `ForeignCallN` act on the world (a `calloc`, a
`Port::IncrementRef`, a call of the foreign function) and only then box their integer
result with `Process::ToInteger`. When that boxing answers `retry_after_gc`, the native
fails with its act done (`foreignAllocate_retry`, `foreignConvertPort_retry`), and
`InvokeNative` collects garbage and calls the native again from the world the first call
left (`invokeNative_redispatch`).

On a 32-bit host a `calloc` that returns `2^30` or more does not fit a small integer. From
such a heap, one retry of `ForeignAllocate(16)` allocates two buffers and keeps the first
one live with nothing referring to it
(`invokeNative_foreignAllocate_retry_allocates_two_buffers`), and it pushes the address of
the second buffer where a run without the retry pushes the first
(`invokeNative_foreignAllocate_retry_pushes_other_address`).
-/

namespace Fletch

open Exec Engine Interpret Natives

namespace Natives

variable {pl : Platform} {P : Program} {p : Process}

/-- `ToInteger` of a value that is not a small integer answers `retry_after_gc` unchanged. -/
theorem toInteger_retry {v : Int} (hv : pl.smiValid v = false) :
    p.toInteger pl P .retryAfterGc v = (.failure .retryAfterGc, p) := by
  simp [Process.toInteger, hv]

/-- `ForeignAllocate` allocates before it boxes the address: when the boxing answers
`retry_after_gc`, the native fails with the buffer allocated. -/
theorem foreignAllocate_retry {size : Int}
    (hfit : p.world.brk + max (pl.address size) 1 ≤ p.world.heapEnd)
    (hbig : pl.smiValid (Platform.int64Of (pl.signedWord p.world.brk)) = false) :
    foreignAllocate pl P .retryAfterGc [.smi size] p =
      .ok (.failure .retryAfterGc, { p with world := (p.world.calloc (pl.address size)).1 }) := by
  simp [foreignAllocate, argument, asForeignWord, bind, Except.bind, pure, Except.pure,
    World.calloc_of_fits hfit, toInteger_retry hbig]

/-- `ForeignConvertPort` increments the port's reference count before it boxes the
address: when the boxing answers `retry_after_gc`, the native fails with the count
incremented. -/
theorem foreignConvertPort_retry {a : Nat} {fields : List Value} {immutable : Bool} {port : Int}
    (hb : p.heap[a]? = some ⟨P.portClass, .instance (.smi port :: fields) immutable⟩)
    (hz : pl.address port ≠ 0)
    (hbig : pl.smiValid (Platform.int64Of (pl.signedWord port)) = false) :
    foreignConvertPort pl P .retryAfterGc [.heap a] p =
      .ok (.failure .retryAfterGc,
        { p with world := { p.world with increments := pl.address port :: p.world.increments } }) := by
  simp [foreignConvertPort, argument, asForeignWord, Process.body?, hb, hz, bind, Except.bind,
    pure, Except.pure, toInteger_retry hbig]

end Natives

/-! ## A retried `ForeignAllocate` on a 32-bit host -/

/-- A program whose code at `0` is `InvokeNative` of native `0` with one argument. -/
def nativeCallProgram : Program where
  code := fun a => [Opcode.invokeNative.toByte, 1, 0].getD a 0
  constants := []
  unfolded := fun _ => .smi 0
  classes := []
  staticMethods := []
  dispatchTable := []
  vtable := []
  smiClass := 0
  nullObject := .heap 1
  trueObject := .heap 2
  falseObject := .heap 3
  objectFromFailure := fun _ => .heap 1
  largeIntegerClass := 5
  boxedClass := 6
  portClass := 7

/-- A 32-bit host whose native `0` is `ForeignAllocate`, with a collector that keeps the
process as it is. -/
def foreignAllocateRuntime : Runtime where
  platform := { bitsPerWord := 32, os := 0 }
  selector := { arity := fun _ => 0, id := fun _ => 0, isSetter := fun _ => false }
  lookupEntry := fun _ _ => { target := .smi 0, tag := 0 }
  computeCatchBlock := fun _ => none
  catchDelta_pos := fun _ _ _ h => nomatch h
  collectGarbage := id
  handleStackOverflow := fun _ _ => none
  natives := fun _ => foreignAllocate
  shouldBreak := fun _ _ => false
  sessionDebugging := false

/-- A process with one coroutine, the objects `null`, `true` and `false`, and a C heap
whose next address is `2^30`, one more than the largest small integer on a 32-bit host. -/
def highHeapProcess : Process where
  heap := [⟨9, .coroutine (some []) 0⟩, ⟨1, .instance [] true⟩, ⟨2, .instance [] true⟩,
    ⟨3, .instance [] true⟩]
  statics := []
  coroutine := 0
  stackLimit := 100
  debugInfo := none
  finalizers := []
  world :=
    { blocks := []
      brk := 2 ^ 30
      heapEnd := 2 ^ 32
      memory := fun _ => 0
      increments := []
      calls := []
      foreign := fun _ _ => 0
      errno := 0
      errors := []
      dlopen := fun _ => none
      dlsym := fun _ _ => none
      dlopen_ne_zero := fun _ h => nomatch h
      dlsym_ne_zero := fun _ _ h => nomatch h
      dlcloseFails := fun _ => false
      opened := []
      closed := []
      libraries := 0
      mutex := 0 }

/-- `InvokeNative` about to call `ForeignAllocate(16)`, with the return address on top. -/
def callingForeignAllocate : Engine :=
  { process := highHeapProcess, sp := [.bytecode 77, .smi 16], bcp := 0 }

/-- `foreignAllocateRuntime` with natives that fail with `retry_after_gc` and change nothing. -/
def retryingRuntime : Runtime :=
  { foreignAllocateRuntime with natives := fun _ _ _ _ _ p => .ok (.failure .retryAfterGc, p) }

/-- `InvokeNative` of a native that asks for a collection and a retry. -/
def retriedNative : Result Unit :=
  execute nativeCallProgram retryingRuntime .succeeds .invokeNative callingForeignAllocate

theorem retriedNative_redispatches_in_place :
    retriedNative = .stop .redispatch retriedNative.engine ∧
      retriedNative.engine.sp = callingForeignAllocate.sp ∧
      retriedNative.engine.bcp = callingForeignAllocate.bcp ∧ retriedNative.engine.process.HasCoroutine :=
  have h : execute nativeCallProgram retryingRuntime .succeeds .invokeNative callingForeignAllocate =
      .stop .redispatch retriedNative.engine := rfl
  ⟨rfl, execute_redispatch_keeps_position (P := nativeCallProgram) (R := retryingRuntime) (fun _ => rfl)
    (fun _ _ _ _ _ _ h => by cases h; exact ⟨rfl, fun _ => rfl⟩) rfl h⟩

/-- `ForeignAllocate(16)` dispatched with the allocator answering `retry_after_gc`. -/
def allocationRetried : Result Unit :=
  dispatch nativeCallProgram foreignAllocateRuntime false .retryAfterGc callingForeignAllocate

/-- The re-dispatch after that retry, with the allocator succeeding. -/
def allocationAfterRetry : Result Unit :=
  dispatch nativeCallProgram foreignAllocateRuntime false .succeeds allocationRetried.engine

/-- `ForeignAllocate(16)` dispatched once, with the allocator succeeding. -/
def allocationAtOnce : Result Unit :=
  dispatch nativeCallProgram foreignAllocateRuntime false .succeeds callingForeignAllocate

/-- One retry of the boxing makes two `calloc`s: the retried run ends with two live
buffers where the run without a retry has one, and what it pushes holds the address of the
second, so the first buffer is live with nothing referring to it. -/
theorem invokeNative_foreignAllocate_retry_allocates_two_buffers :
    allocationRetried = .stop .redispatch allocationRetried.engine ∧
      allocationAfterRetry = .ok () allocationAfterRetry.engine ∧
      allocationAfterRetry.engine.process.world.blocks =
        [(2 ^ 30 + 16, ⟨.buffer 16, true⟩), (2 ^ 30, ⟨.buffer 16, true⟩)] ∧
      allocationAfterRetry.engine.sp = [.heap 4] ∧
      allocationAfterRetry.engine.process.heap[4]? =
        some ⟨5, .largeInteger ((2 ^ 30 + 16 : Nat) : Int)⟩ ∧
      allocationAtOnce = .ok () allocationAtOnce.engine ∧
      allocationAtOnce.engine.process.world.blocks = [(2 ^ 30, ⟨.buffer 16, true⟩)] :=
  ⟨rfl, rfl, rfl, rfl, rfl, rfl, rfl⟩

/-- The retried run does not end as the run without a retry: both push the new object at
`4` and return to the same address, but the retried one boxes `2^30 + 16`, the second
buffer's address, where the run without a retry boxes `2^30`. -/
theorem invokeNative_foreignAllocate_retry_pushes_other_address :
    allocationAfterRetry.engine.sp = allocationAtOnce.engine.sp ∧
      allocationAfterRetry.engine.bcp = allocationAtOnce.engine.bcp ∧
      allocationAtOnce.engine.process.heap[4]? = some ⟨5, .largeInteger ((2 ^ 30 : Nat) : Int)⟩ ∧
      allocationAfterRetry.engine.process.heap[4]? =
        some ⟨5, .largeInteger ((2 ^ 30 + 16 : Nat) : Int)⟩ :=
  ⟨rfl, rfl, rfl, rfl⟩

end Fletch
