import Fletch.Vm.State

/-!
# Object predicates and the interpreter's support functions

`HandleIdentical` and `HandleThrow` from the end of `interpreter.cc`, and what they and
the opcodes need of `object.h` and `process.cc`, which are not among the sources and are
modelled from the spec:

* `Object::IsImmutable`: a small integer is immutable, an instance when its flag says so,
  numbers, strings, functions, initializers and classes are; boxed cells, arrays and
  coroutines are not.
* a `Double` holds the 64 bits of an IEEE double; `isnan` and `==` are IEEE's.
* `Coroutine::has_caller`: the caller is not the coroutine itself.
* `Process::UpdateCoroutine`: the process's current coroutine becomes the given one.

`HandleThrow` loops until a catch block is found or the exception is uncaught. Each turn
that goes on nulls the stack of the coroutine it leaves and needs a stack in the next, so
the loop turns at most once per heap object; `handleThrow` is given that many turns.
-/

namespace Fletch

/-- `Object::IsImmutable` (`object.h`, not under `src/`; from the spec's object kinds and
its immutability invariant). -/
def isImmutable (p : Process) : Value → Bool
  | .smi _ => true
  | .bytecode _ => false
  | v@(.heap _) =>
      match p.body? v with
      | some (.instance _ immutable) => immutable
      | some (.largeInteger _) | some (.double _) | some (.string _) | some (.function _)
      | some (.initializer _) | some (.klass _ _) => true
      | _ => false

namespace Double

/-- `isnan`: all exponent bits set and a nonzero fraction. -/
def isNaN (bits : UInt64) : Bool :=
  (bits.toNat / 2 ^ 52) % 2 ^ 11 = 2 ^ 11 - 1 ∧ bits.toNat % 2 ^ 52 ≠ 0

/-- IEEE `==`: false when either side is a NaN, true for the two zeros, else equal bits. -/
def eq (x y : UInt64) : Bool :=
  !isNaN x && !isNaN y && (x = y || (x.toNat % 2 ^ 63 = 0 && y.toNat % 2 ^ 63 = 0))

end Double

/-- `HandleIdentical`: IEEE comparison of two doubles, with NaN identical to NaN; value
comparison of two large integers; pointer equality otherwise. -/
def handleIdentical (P : Program) (p : Process) (left right : Value) : Value :=
  let identical :=
    match p.body? left, p.body? right with
    | some (.double l), some (.double r) => if Double.isNaN l && Double.isNaN r then true else Double.eq l r
    | some (.largeInteger l), some (.largeInteger r) => decide (l = r)
    | _, _ => decide (left = right)
  if identical then P.trueObject else P.falseObject

namespace Process

/-- `Coroutine::set_caller` (`object.h`, not under `src/`) on the coroutine at an address. -/
def setCoroutineCaller (p : Process) (a : Nat) (caller : Nat) : Process :=
  match p.coroutineAt? a with
  | some (stack, _) => p.setBody a (.coroutine stack caller)
  | none => p

/-- `Process::UpdateCoroutine` (`process.cc`, not under `src/`): the current coroutine
becomes `c`. -/
def updateCoroutine (p : Process) (c : Nat) : Process := { p with coroutine := c }

end Process

/-- How `HandleThrow` ends: a catch block (its `bcp` and the stack delta), `NULL` for an
uncaught exception reported to a debugging session, `exit(1)`, or a fatal error. -/
inductive Unwind where
  | caught (bcp : Nat) (stackDelta : Nat)
  | uncaught
  | exit
  | fatal (message : String)

/-- `HandleThrow`, with at most `fuel` turns of its loop. -/
def handleThrow (R : Runtime) : (fuel : Nat) → Process → Unwind × Process
  | 0, p => (.fatal "unwinding did not end", p)
  | fuel + 1, p =>
      match p.stack? with
      | none => (.fatal "no stack to walk", p)
      | some stack =>
          match R.computeCatchBlock stack with
          | some (bcp, stackDelta) => (.caught bcp stackDelta, p)
          | none =>
              match p.coroutineAt? p.coroutine with
              | none => (.fatal "not a coroutine", p)
              | some (_, caller) =>
                  if caller = p.coroutine then
                    (if R.sessionDebugging then .uncaught else .exit, p)
                  else
                    let current := p.coroutine
                    let p := ((p.updateCoroutine caller).setCoroutineStack current none)
                      |>.setCoroutineCaller current current
                    handleThrow R fuel p

end Fletch
