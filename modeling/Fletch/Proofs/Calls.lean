import Fletch.Proofs.Retry

/-!
# Calls and returns

Every call opcode (the three method invokes and their builtin aliases, `InvokeStatic`,
`InvokeStaticUnfold`, the factories, and `LoadStaticInit` on an initializer) does one
thing: push the return address `bcp + 5`, jump to the first byte of a function, and poll
the stack. `Engine.Calls` says so of an opcode's body at a state; each body has its spec
lemma on the path where every cast succeeds (`invokeMethod_eq` and the others), and each
that does not fail is a call (`execute_calls`).

`Return l a` pops the `l` slots above the return address, jumps to it, and replaces the
`a` argument slots beneath it by the callee's top (`return_eq`). A callee that leaves the
return address and the caller's slots beneath the arguments as they were therefore resumes
the caller right after the call with the result on top (`call_return_resumes_caller`); the
callee's code can write any slot of the stack, and one that writes a caller's slot is seen
by the caller (`calleeWritesCaller`). A native method returns the same way
(`invokeNative_value`).

The no-such-method trampoline re-reads the selector from the call site behind the return
address (`enterNoSuchMethod_eq`) and returns as a normal return would
(`exitNoSuchMethod_eq`).
-/

namespace Fletch

open Exec Engine Interpret

namespace Engine

variable {P : Program} {R : Runtime} {e e' : Engine}

/-! ## Reading the heap and the tables -/

theorem element_of_valueAt {xs : List Value} {i : Int} {v : Value} (h : valueAt xs i = some v) :
    element xs i e = .ok v e := by
  unfold valueAt at h
  split at h
  · simp [element, *, some?]
  · cases h

theorem valueAt_of_element {xs : List Value} {i : Int} {v : Value} (h : element xs i e = .ok v e') :
    valueAt xs i = some v := by
  unfold element at h
  unfold valueAt
  split at h
  · rw [if_pos ‹_›]
    cases hx : xs[i.toNat]? <;> simp_all [some?]
  · cases h

theorem bodyOf_of_body {v : Value} {b : Body} (h : e.process.body? v = some b) :
    bodyOf v e = .ok b e := by
  simp [bodyOf, h, some?]

theorem functionEntry_of_body {v : Value} {n : Nat} (h : e.process.body? v = some (.function n)) :
    functionEntry v e = .ok n e := by
  simp [functionEntry, bodyOf_of_body h]

theorem arrayElements_of_body {v : Value} {xs : List Value}
    (h : e.process.body? v = some (.array xs)) : arrayElements v e = .ok xs e := by
  simp [arrayElements, bodyOf_of_body h]

theorem classIdOf_of {v : Value} {c : Nat} (h : e.process.classIdOf P v = some c) :
    classIdOf P v e = .ok c e := by
  simp [classIdOf, h, some?]

theorem reads_bodyOf (v : Value) : Reads (bodyOf v) :=
  reads_bind (reads_read _) fun _ => reads_some? _ _

theorem reads_functionEntry (v : Value) : Reads (functionEntry v) :=
  reads_bind (reads_bodyOf v) fun b => by
    cases b <;> first | exact reads_pure _ | exact reads_fatal _

theorem reads_arrayElements (v : Value) : Reads (arrayElements v) :=
  reads_bind (reads_bodyOf v) fun b => by
    cases b <;> first | exact reads_pure _ | exact reads_fatal _

theorem reads_classIdOf (v : Value) : Reads (classIdOf P v) :=
  reads_bind (reads_read _) fun _ => reads_some? _ _

theorem reads_lookupEntry (v : Value) (selector : Int) : Reads (lookupEntry P R v selector) :=
  reads_bind (reads_classIdOf v) fun _ => reads_pure _

theorem reads_staticAt (index : Int) : Reads (staticAt index) :=
  reads_bind (reads_read _) fun _ => reads_element _ _

theorem reads_smiValue (v : Value) : Reads (smiValue v) := by
  cases v <;> first | exact reads_pure _ | exact reads_fatal _

/-- A completed `functionEntry` read a function's first byte. -/
theorem functionEntry_eq_ok {v : Value} {n : Nat} (h : functionEntry v e = .ok n e') :
    e.process.body? v = some (.function n) ∧ e' = e := by
  unfold functionEntry bodyOf at h
  simp only [bind_apply, read_apply, Result.ok_bind] at h
  cases hb : e.process.body? v with
  | none => simp [hb, some?] at h
  | some b =>
    simp only [hb, some?, pure_apply, Result.ok_bind] at h
    cases b <;> simp_all

theorem local_eq_ok {n : Nat} {v : Value} (h : «local» n e = .ok v e') : e.sp[n]? = some v ∧ e' = e := by
  simp only [«local», bind_apply, read_apply, Result.ok_bind] at h
  cases hs : e.sp[n]? <;> simp_all [some?]

theorem popReturnAddress_eq_ok (h : popReturnAddress e = .ok () e') :
    ∃ ra rest, e.sp = .bytecode ra :: rest ∧ e' = { e with sp := rest, bcp := ra } := by
  simp only [popReturnAddress, bind_apply] at h
  match hs : e.sp with
  | [] => simp [Engine.pop, hs] at h
  | v :: rest =>
    rw [pop_cons hs, Result.ok_bind] at h
    cases v <;> simp at h
    exact ⟨_, rest, rfl, h.symm⟩

theorem drop_eq_ok {n : Nat} (h : drop n e = .ok () e') : n ≤ e.sp.length ∧ e' = { e with sp := e.sp.drop n } := by
  unfold drop at h
  split at h <;> simp_all

theorem popReturnAddress_of {ra : Nat} {rest : List Value} (h : e.sp = .bytecode ra :: rest) :
    popReturnAddress e = .ok () { e with sp := rest, bcp := ra } := by
  simp [popReturnAddress, pop_cons h]

/-- `m` is a call at `e` entering `entry`: its whole effect is to push the return address
`e.bcp + length`, jump to `entry`, the first byte of a function, and poll the stack. -/
structure Calls (R : Runtime) (m : Exec Unit) (e : Engine) (length entry : Nat) : Prop where
  function : ∃ f, e.process.body? f = some (.function entry)
  eq : m e = pollStack R 0 { e with sp := .bytecode (e.bcp + length) :: e.sp, bcp := entry }

/-- The static `LoadStaticInit` at `e` reads holds an `Initializer`. -/
def InitializesStatic (P : Program) (e : Engine) : Prop :=
  ∃ value function, valueAt e.process.statics (Utils.readInt32 P.code (e.bcp + 1)) = some value ∧
    e.process.body? value = some (.initializer function)

end Engine

/-- The opcodes whose body is a call: the method invokes and their builtin aliases, and the
static and factory invokes. `LoadStaticInit` calls only when the static holds an
initializer. -/
def Opcode.isCall : Opcode → Bool
  | .invokeMethod | .invoke _ | .invokeMethodFast | .invokeFast _ | .invokeMethodVtable
  | .invokeVtable _ | .invokeStatic | .invokeFactory | .invokeStaticUnfold
  | .invokeFactoryUnfold => true
  | _ => false

namespace Interpret

variable {P : Program} {R : Runtime} {e e' : Engine} {s : Stop}

/-! ## The call opcodes where every cast succeeds -/

theorem invokeMethod_eq {selector : Int} {receiver : Value} {classId entry : Nat}
    (hsel : Utils.readInt32 P.code (e.bcp + 1) = selector)
    (hr : e.sp[R.selector.arity selector]? = some receiver)
    (hc : e.process.classIdOf P receiver = some classId)
    (hf : e.process.body? (R.lookupEntry classId selector).target = some (.function entry)) :
    invokeMethod P R e =
      pollStack R 0 { e with sp := .bytecode (e.bcp + Opcode.invokeMethod.length) :: e.sp, bcp := entry } := by
  simp [invokeMethod, hsel, local_of_getElem? hr, lookupEntry, classIdOf, hc, functionEntry, bodyOf, hf]

theorem invokeMethod_calls {r : Result Unit} (h : invokeMethod P R e = r)
    (hr : ∀ m e', r ≠ .stop (.fatal m) e') :
    ∃ entry, Calls R (invokeMethod P R) e Opcode.invokeMethod.length entry := by
  simp only [invokeMethod, bind_apply, readInt32_apply, Result.ok_bind] at h
  obtain ⟨receiver, h₁, h⟩ := (reads_local _).bind_eq h hr
  rw [bind_apply, pushReturnAddress_apply, Result.ok_bind] at h
  obtain ⟨target, h₂, h⟩ := (reads_lookupEntry _ _).bind_eq h hr
  obtain ⟨entry, h₃, -⟩ := (reads_functionEntry _).bind_eq h hr
  refine ⟨entry, ⟨_, (functionEntry_eq_ok h₃).1⟩, ?_⟩
  simp only [invokeMethod, bind_apply, readInt32_apply, Result.ok_bind, h₁, pushReturnAddress_apply,
    h₂, h₃, goto_apply]

theorem invokeMethodFast_eq {index selector : Int} {receiver target : Value}
    {classId offset entry : Nat} {upper : Int}
    (hi : Utils.readInt32 P.code (e.bcp + 1) = index)
    (hs : valueAt P.dispatchTable (index + 1) = some (.smi selector))
    (hr : e.sp[R.selector.arity selector]? = some receiver)
    (hc : e.process.classIdOf P receiver = some classId)
    (hscan : scanSegment P.dispatchTable index classId = some (offset, upper))
    (ht : valueAt P.dispatchTable (index + offset + 3) = some target)
    (hf : e.process.body? target = some (.function entry)) :
    invokeMethodFast P R e =
      pollStack R 0
        { e with sp := .bytecode (e.bcp + Opcode.invokeMethodFast.length) :: e.sp, bcp := entry } := by
  simp [invokeMethodFast, hi, element_of_valueAt hs, smiValue, local_of_getElem? hr, classIdOf, hc,
    hscan, element_of_valueAt ht, functionEntry, bodyOf, hf]

theorem invokeMethodFast_calls {r : Result Unit} (h : invokeMethodFast P R e = r)
    (hr : ∀ m e', r ≠ .stop (.fatal m) e') :
    ∃ entry, Calls R (invokeMethodFast P R) e Opcode.invokeMethodFast.length entry := by
  simp only [invokeMethodFast, bind_apply, readInt32_apply, Result.ok_bind] at h
  obtain ⟨v, h₁, h⟩ := (reads_element _ _).bind_eq h hr
  obtain ⟨selector, h₂, h⟩ := (reads_smiValue _).bind_eq h hr
  obtain ⟨receiver, h₃, h⟩ := (reads_local _).bind_eq h hr
  rw [bind_apply, pushReturnAddress_apply, Result.ok_bind] at h
  obtain ⟨classId, h₄, h⟩ := (reads_classIdOf _).bind_eq h hr
  obtain ⟨⟨offset, upper⟩, h₅, h⟩ := (reads_some? _ _).bind_eq h hr
  obtain ⟨target, h₆, h⟩ := (reads_element _ _).bind_eq h hr
  obtain ⟨entry, h₇, -⟩ := (reads_functionEntry _).bind_eq h hr
  refine ⟨entry, ⟨_, (functionEntry_eq_ok h₇).1⟩, ?_⟩
  simp only [invokeMethodFast, bind_apply, readInt32_apply, Result.ok_bind, h₁, h₂, h₃,
    pushReturnAddress_apply, h₄, h₅, h₆, h₇, goto_apply]

/-- `InvokeMethodVtable` when the entry at `classId + id` carries the selector's id. -/
theorem invokeMethodVtable_hit {selector : Int} {receiver row target : Value}
    {classId entry : Nat} {elements : List Value}
    (hsel : Utils.readInt32 P.code (e.bcp + 1) = selector)
    (hr : e.sp[R.selector.arity selector]? = some receiver)
    (hc : e.process.classIdOf P receiver = some classId)
    (hv : valueAt P.vtable (classId + R.selector.id selector) = some row)
    (ha : e.process.body? row = some (.array elements))
    (h0 : valueAt elements 0 = some (.smi (R.selector.id selector)))
    (ht : valueAt elements 2 = some target)
    (hf : e.process.body? target = some (.function entry)) :
    invokeMethodVtable P R e =
      pollStack R 0
        { e with sp := .bytecode (e.bcp + Opcode.invokeMethodVtable.length) :: e.sp, bcp := entry } := by
  simp [invokeMethodVtable, hsel, local_of_getElem? hr, classIdOf, hc, element_of_valueAt hv,
    arrayElements, bodyOf, ha, element_of_valueAt h0, smiValue, element_of_valueAt ht, functionEntry, hf]

/-- `InvokeMethodVtable` when the entry at `classId + id` carries another id: the entry at
`0` is used. -/
theorem invokeMethodVtable_miss {selector stored : Int} {receiver row row₀ target : Value}
    {classId entry : Nat} {elements elements₀ : List Value}
    (hsel : Utils.readInt32 P.code (e.bcp + 1) = selector)
    (hr : e.sp[R.selector.arity selector]? = some receiver)
    (hc : e.process.classIdOf P receiver = some classId)
    (hv : valueAt P.vtable (classId + R.selector.id selector) = some row)
    (ha : e.process.body? row = some (.array elements))
    (h0 : valueAt elements 0 = some (.smi stored)) (hne : stored ≠ R.selector.id selector)
    (hv₀ : valueAt P.vtable 0 = some row₀)
    (ha₀ : e.process.body? row₀ = some (.array elements₀))
    (ht : valueAt elements₀ 2 = some target)
    (hf : e.process.body? target = some (.function entry)) :
    invokeMethodVtable P R e =
      pollStack R 0
        { e with sp := .bytecode (e.bcp + Opcode.invokeMethodVtable.length) :: e.sp, bcp := entry } := by
  simp [invokeMethodVtable, hsel, local_of_getElem? hr, classIdOf, hc, element_of_valueAt hv,
    arrayElements, bodyOf, ha, element_of_valueAt h0, smiValue, hne, element_of_valueAt hv₀, ha₀,
    element_of_valueAt ht, functionEntry, hf]

theorem invokeMethodVtable_calls {r : Result Unit} (h : invokeMethodVtable P R e = r)
    (hr : ∀ m e', r ≠ .stop (.fatal m) e') :
    ∃ entry, Calls R (invokeMethodVtable P R) e Opcode.invokeMethodVtable.length entry := by
  simp only [invokeMethodVtable, bind_apply, readInt32_apply, Result.ok_bind] at h
  obtain ⟨receiver, h₁, h⟩ := (reads_local _).bind_eq h hr
  rw [bind_apply, pushReturnAddress_apply, Result.ok_bind] at h
  obtain ⟨classId, h₂, h⟩ := (reads_classIdOf _).bind_eq h hr
  obtain ⟨row, h₃, h⟩ := (reads_element _ _).bind_eq h hr
  obtain ⟨elements, h₄, h⟩ := (reads_arrayElements _).bind_eq h hr
  obtain ⟨v, h₅, h⟩ := (reads_element _ _).bind_eq h hr
  obtain ⟨stored, h₆, h⟩ := (reads_smiValue _).bind_eq h hr
  split at h <;> rename_i hne
  · obtain ⟨row₀, h₇, h⟩ := (reads_element _ _).bind_eq h hr
    obtain ⟨elements₀, h₈, h⟩ := (reads_arrayElements _).bind_eq h hr
    obtain ⟨target, h₉, h⟩ := (reads_element _ _).bind_eq h hr
    obtain ⟨entry, h₁₀, -⟩ := (reads_functionEntry _).bind_eq h hr
    refine ⟨entry, ⟨_, (functionEntry_eq_ok h₁₀).1⟩, ?_⟩
    simp only [invokeMethodVtable, bind_apply, readInt32_apply, Result.ok_bind, h₁,
      pushReturnAddress_apply, h₂, h₃, h₄, h₅, h₆, if_pos hne, h₇, h₈, h₉, h₁₀, goto_apply]
  · simp only [bind_apply, pure_apply, Result.ok_bind] at h
    obtain ⟨target, h₇, h⟩ := (reads_element _ _).bind_eq h hr
    obtain ⟨entry, h₈, -⟩ := (reads_functionEntry _).bind_eq h hr
    refine ⟨entry, ⟨_, (functionEntry_eq_ok h₈).1⟩, ?_⟩
    simp only [invokeMethodVtable, bind_apply, readInt32_apply, Result.ok_bind, h₁,
      pushReturnAddress_apply, h₂, h₃, h₄, h₅, h₆, if_neg hne, pure_apply, h₇, h₈, goto_apply]

/-- `InvokeStatic`, and `InvokeFactory` by `DISPATCH_TO`. -/
theorem invokeStatic_eq {target : Value} {entry : Nat}
    (ht : valueAt P.staticMethods (Utils.readInt32 P.code (e.bcp + 1)) = some target)
    (hf : e.process.body? target = some (.function entry)) :
    invokeStatic P R e =
      pollStack R 0 { e with sp := .bytecode (e.bcp + Opcode.invokeStatic.length) :: e.sp, bcp := entry } := by
  simp [invokeStatic, element_of_valueAt ht, functionEntry, bodyOf, hf]

theorem invokeStatic_calls {r : Result Unit} (h : invokeStatic P R e = r)
    (hr : ∀ m e', r ≠ .stop (.fatal m) e') :
    ∃ entry, Calls R (invokeStatic P R) e Opcode.invokeStatic.length entry := by
  simp only [invokeStatic, bind_apply, readInt32_apply, Result.ok_bind] at h
  obtain ⟨target, h₁, h⟩ := (reads_element _ _).bind_eq h hr
  rw [bind_apply, pushReturnAddress_apply, Result.ok_bind] at h
  obtain ⟨entry, h₂, -⟩ := (reads_functionEntry _).bind_eq h hr
  refine ⟨entry, ⟨_, (functionEntry_eq_ok h₂).1⟩, ?_⟩
  simp only [invokeStatic, bind_apply, readInt32_apply, Result.ok_bind, h₁, pushReturnAddress_apply,
    h₂, goto_apply]

/-- `InvokeStaticUnfold`, and `InvokeFactoryUnfold` by `DISPATCH_TO`: the return address is
computed with `kInvokeStaticLength`. -/
theorem invokeStaticUnfold_eq {entry : Nat}
    (hf : e.process.body? (P.unfolded e.bcp) = some (.function entry)) :
    invokeStaticUnfold P R e =
      pollStack R 0 { e with sp := .bytecode (e.bcp + Opcode.invokeStatic.length) :: e.sp, bcp := entry } := by
  simp [invokeStaticUnfold, functionEntry, bodyOf, hf]

theorem invokeStaticUnfold_calls {r : Result Unit} (h : invokeStaticUnfold P R e = r)
    (hr : ∀ m e', r ≠ .stop (.fatal m) e') :
    ∃ entry, Calls R (invokeStaticUnfold P R) e Opcode.invokeStatic.length entry := by
  simp only [invokeStaticUnfold, bind_apply, readConstant_apply, Result.ok_bind] at h
  obtain ⟨entry, h₁, -⟩ := (reads_functionEntry _).bind_eq h hr
  refine ⟨entry, ⟨_, (functionEntry_eq_ok h₁).1⟩, ?_⟩
  simp only [invokeStaticUnfold, bind_apply, readConstant_apply, Result.ok_bind, h₁,
    pushReturnAddress_apply, goto_apply]

/-- `LoadStaticInit` on a static that holds an `Initializer` calls its function. -/
theorem loadStaticInit_eq {value function : Value} {entry : Nat}
    (hv : valueAt e.process.statics (Utils.readInt32 P.code (e.bcp + 1)) = some value)
    (hi : e.process.body? value = some (.initializer function))
    (hf : e.process.body? function = some (.function entry)) :
    loadStaticInit P R e =
      pollStack R 0 { e with sp := .bytecode (e.bcp + Opcode.loadStaticInit.length) :: e.sp, bcp := entry } := by
  simp [loadStaticInit, staticAt, element_of_valueAt hv, hi, functionEntry, bodyOf, hf]

theorem loadStaticInit_calls {r : Result Unit} (hi : e.InitializesStatic P) (h : loadStaticInit P R e = r)
    (hr : ∀ m e', r ≠ .stop (.fatal m) e') :
    ∃ entry, Calls R (loadStaticInit P R) e Opcode.loadStaticInit.length entry := by
  obtain ⟨value, function, hv, hb⟩ := hi
  simp only [loadStaticInit, bind_apply, readInt32_apply, Result.ok_bind, staticAt, read_apply,
    element_of_valueAt hv, hb, pushReturnAddress_apply] at h
  obtain ⟨entry, h₁, -⟩ := (reads_functionEntry _).bind_eq h hr
  exact ⟨entry, ⟨_, (functionEntry_eq_ok h₁).1⟩, loadStaticInit_eq hv hb (functionEntry_eq_ok h₁).1⟩

/-- A `LoadStaticInit` that stops other than fatally read a static that holds an
`Initializer`: on any other static it pushes it and goes on. -/
theorem initializesStatic_of_stop (h : loadStaticInit P R e = .stop s e') (hs : ∀ m, s ≠ .fatal m) :
    e.InitializesStatic P := by
  simp only [loadStaticInit, bind_apply, readInt32_apply, Result.ok_bind] at h
  obtain ⟨value, h₁, h⟩ := (reads_staticAt _).bind_eq_stop h hs
  obtain ⟨b, hb, h⟩ := (reads_read _).bind_eq_stop h hs
  simp only [read_apply, Result.ok.injEq, and_true] at hb
  have hv : valueAt e.process.statics (Utils.readInt32 P.code (e.bcp + 1)) = some value := by
    simp only [staticAt, bind_apply, read_apply, Result.ok_bind] at h₁
    exact valueAt_of_element h₁
  split at h
  · exact ⟨value, _, hv, hb⟩
  · have hw : Within (fun _ _ => True) (fun _ => False) (do
        push value
        advance Opcode.loadStaticInit.length) :=
      within_bind keeps_true (within_push keeps_true _) fun _ => within_advance keeps_true _
    exact (hw.not_stop h hs).elim

/-- A call opcode, or `LoadStaticInit` on a static that holds an `Initializer`, that does not
fail is a call. -/
theorem execute_calls {a : Allocation} {op : Opcode} {r : Result Unit}
    (hop : op.isCall = true ∨ op = .loadStaticInit ∧ e.InitializesStatic P)
    (h : execute P R a op e = r) (hr : ∀ m e', r ≠ .stop (.fatal m) e') :
    ∃ entry, Calls R (execute P R a op) e op.length entry := by
  rcases hop with hop | ⟨rfl, hi⟩
  · cases op
    case invokeMethod | invoke => exact invokeMethod_calls h hr
    case invokeMethodFast | invokeFast => exact invokeMethodFast_calls h hr
    case invokeMethodVtable | invokeVtable => exact invokeMethodVtable_calls h hr
    case invokeStatic | invokeFactory => exact invokeStatic_calls h hr
    case invokeStaticUnfold | invokeFactoryUnfold => exact invokeStaticUnfold_calls h hr
    all_goals exact absurd hop (by decide)
  · exact loadStaticInit_calls hi h hr

/-! ## Returns -/

/-- `Return l a` with the callee's top `t`, `l` slots above the return address `ra` and the
`a` argument slots beneath it: `t` replaces the argument slots, and `bcp` is `ra`. -/
theorem return_eq {t : Value} {above args below : List Value} {ra : Nat}
    (hl : (P.code (e.bcp + 1)).toNat = above.length + 1)
    (ha : (P.code (e.bcp + 2)).toNat = args.length)
    (hsp : e.sp = t :: (above ++ .bytecode ra :: (args ++ below))) :
    «return» P e = .ok () { e with sp := t :: below, bcp := ra } := by
  simp [«return», hl, ha, hsp, local_of_getElem?, drop, popReturnAddress, Engine.pop]

/-- A native method's `InvokeNative` whose native succeeds: the result replaces the argument
slots beneath the return address, and `bcp` is the return address. -/
theorem invokeNative_value {a : Allocation} {ra : Nat} {args below : List Value} {v : Value}
    {p : Process} (harity : (P.code (e.bcp + 1)).toNat = args.length)
    (hsp : e.sp = .bytecode ra :: (args ++ below))
    (hn : R.natives (P.code (e.bcp + 2)).toNat R.platform P a args.reverse e.process = .ok (.value v, p)) :
    invokeNative P R a e = .ok () { e with process := p, sp := v :: below, bcp := ra } := by
  have hlt : args.length < args.length + below.length + 1 := by omega
  simp [invokeNative, hlt, harity, hsp, nativeArguments, callNative, hn, retryOnNativeFailure,
    retryOnAllocationFailure, popReturnAddress, Engine.pop, drop]

/-! ## The no-such-method trampoline -/

theorem length_of_isInvoke {op : Opcode}
    (h : op.isInvokeNormal = true ∨ op.isInvokeFast = true ∨ op.isInvokeVtable = true) :
    op.length = 5 := by
  revert h
  cases op <;> first | decide | exact fun _ => rfl

/-- `EnterNoSuchMethod` under the return address of an invoke at `b` that dispatched on
`selector`: it decodes the invoke behind the return address, reads the same selector, and
pushes it, the receiver, and it again. -/
theorem enterNoSuchMethod_eq {op : Opcode} {b : Nat} {selector : Int} {receiver : Value}
    {args below : List Value} (hop : Opcode.ofByte (P.code b) = some op)
    (hsel : if op.isInvokeFast then
        valueAt P.dispatchTable (Utils.readInt32 P.code (b + 1) + 1) = some (.smi selector)
      else Utils.readInt32 P.code (b + 1) = selector)
    (hargs : args.length = R.selector.arity selector)
    (hsp : e.sp = .bytecode (b + 5) :: (args ++ receiver :: below)) :
    enterNoSuchMethod P R e =
      .ok ()
        { e with
          sp := .smi selector :: receiver :: .smi selector :: e.sp
          bcp := e.bcp + Opcode.enterNoSuchMethod.length } := by
  have hb : b + 5 - 4 = b + 1 := by omega
  have hr : e.sp[R.selector.arity selector + 1]? = some receiver := by
    simp [hsp, ← hargs, List.getElem_append_right]
  split at hsel
  · simp [enterNoSuchMethod, local_cons_zero _ _ e hsp, hop, hb, *, element_of_valueAt hsel, smiValue,
      local_of_getElem? hr, advance_natCast]
  · simp [enterNoSuchMethod, local_cons_zero _ _ e hsp, hop, hb, *, local_of_getElem? hr,
      advance_natCast]

/-- `ExitNoSuchMethod` with the handler's result `r` above the selector, the return address,
the arguments and the receiver: it returns to the return address with the result, or for a
setter the last argument, in place of the receiver and the arguments. -/
theorem exitNoSuchMethod_eq {r receiver : Value} {selector : Int} {ra : Nat} {args below : List Value}
    (hargs : args.length = R.selector.arity selector)
    (hsp : e.sp = r :: .smi selector :: .bytecode ra :: (args ++ receiver :: below)) :
    exitNoSuchMethod R e =
      .ok ()
        { e with
          sp := (if R.selector.isSetter selector then (args ++ [receiver]).headD receiver else r) :: below
          bcp := ra } := by
  cases args <;> by_cases hs : R.selector.isSetter selector <;>
    simp [exitNoSuchMethod, hsp, Engine.pop, smiValue, popReturnAddress, local_of_getElem?, drop, hs,
      ← hargs]

/-- At the no-such-method stub entered from an invoke at `b` with the receiver under the
selector's arguments, `EnterNoSuchMethod` pushes the selector the invoke dispatched on, the
receiver and the selector again; and once a handler has replaced the receiver and the
selector on top by its result, `ExitNoSuchMethod` leaves the state a return from the invoke
would: `bcp` the return address, and the result (a setter's last argument) in place of the
receiver and the arguments. -/
theorem noSuchMethod_returns_as_invoke {op : Opcode} {b : Nat} {selector : Int} {receiver : Value}
    {args below : List Value} (hop : Opcode.ofByte (P.code b) = some op)
    (hinv : op.isInvokeNormal = true ∨ op.isInvokeFast = true ∨ op.isInvokeVtable = true)
    (hsel : if op.isInvokeFast then
        valueAt P.dispatchTable (Utils.readInt32 P.code (b + 1) + 1) = some (.smi selector)
      else Utils.readInt32 P.code (b + 1) = selector)
    (hargs : args.length = R.selector.arity selector)
    (hsp : e.sp = .bytecode (b + op.length) :: (args ++ receiver :: below)) :
    enterNoSuchMethod P R e =
        .ok ()
          { e with
            sp := .smi selector :: receiver :: .smi selector :: e.sp
            bcp := e.bcp + Opcode.enterNoSuchMethod.length } ∧
      ∀ (e₂ : Engine) (r : Value), e₂.sp = r :: .smi selector :: e.sp →
        exitNoSuchMethod R e₂ =
          .ok ()
            { e₂ with
              sp := (if R.selector.isSetter selector then (args ++ [receiver]).headD receiver else r) ::
                below
              bcp := b + op.length } := by
  rw [length_of_isInvoke hinv] at hsp ⊢
  exact ⟨enterNoSuchMethod_eq hop hsel hargs hsp, fun e₂ r h₂ => exitNoSuchMethod_eq hargs (h₂.trans (by rw [hsp]))⟩

/-- A call at `e` above the caller's slots `below` that does not fail enters a function with
the return address `e.bcp + length` above the arguments. A `Return l a` from any later state
in which the return address and `below` are as the call left them, with `l` slots above the
return address and `a` beneath it, resumes the caller right after the call with the callee's
top above `below`; so does an `InvokeNative` whose native succeeds, run with the stack the call
left. -/
theorem call_return_resumes_caller {a : Allocation} {op : Opcode} {args below : List Value}
    (hop : op.isCall = true ∨ op = .loadStaticInit ∧ e.InitializesStatic P)
    (hr : ∀ m e', execute P R a op e ≠ .stop (.fatal m) e') (hsp : e.sp = args ++ below) :
    ∃ entry, (∃ f, e.process.body? f = some (.function entry)) ∧
      execute P R a op e =
        pollStack R 0
          { e with sp := .bytecode (e.bcp + op.length) :: (args ++ below), bcp := entry } ∧
      (∀ (a' : Allocation) (e₂ : Engine) (t : Value) (above args' : List Value),
        (P.code (e₂.bcp + 1)).toNat = above.length + 1 → (P.code (e₂.bcp + 2)).toNat = args.length →
        e₂.sp = t :: (above ++ .bytecode (e.bcp + op.length) :: (args' ++ below)) →
        args'.length = args.length →
        execute P R a' .return e₂ = .ok () { e₂ with sp := t :: below, bcp := e.bcp + op.length }) ∧
      (∀ (a' : Allocation) (e₂ : Engine) (v : Value) (p : Process),
        e₂.sp = .bytecode (e.bcp + op.length) :: (args ++ below) →
        (P.code (e₂.bcp + 1)).toNat = args.length →
        R.natives (P.code (e₂.bcp + 2)).toNat R.platform P a' args.reverse e₂.process =
          .ok (.value v, p) →
        execute P R a' .invokeNative e₂ =
          .ok () { e₂ with process := p, sp := v :: below, bcp := e.bcp + op.length }) := by
  obtain ⟨entry, hcall⟩ := execute_calls hop rfl hr
  exact ⟨entry, hcall.function, by rw [hcall.eq, hsp],
    fun _ _ _ _ _ hl ha hframe hargs => return_eq hl (hargs ▸ ha) hframe,
    fun _ _ _ _ h₂ harity hn => invokeNative_value harity h₂ hn⟩

/-- The runtime of the examples below: no natives, no debugger, a collector that keeps the
process. -/
def plainRuntime : Runtime where
  platform := { bitsPerWord := 64, os := 0 }
  selector := { arity := fun _ => 0, id := fun _ => 0, isSetter := fun _ => false }
  lookupEntry := fun _ _ => { target := .smi 0, tag := 0 }
  computeCatchBlock := fun _ => none
  catchDelta_pos := fun _ _ _ h => nomatch h
  collectGarbage := id
  handleStackOverflow := fun _ _ => none
  natives := fun _ _ _ _ _ p => .ok (.failure (.other 0), p)
  shouldBreak := fun _ _ => false
  sessionDebugging := false

/-- A C heap with nothing allocated. -/
def emptyWorld : World where
  blocks := []
  brk := 1
  heapEnd := 1
  memory := fun _ => 0
  increments := []
  calls := []
  foreign := fun _ _ => 0
  errno := 0
  errors := []
  dlopen := fun _ => none
  dlsym := fun _ _ => none
  dlopen_ne_zero := fun _ h => nomatch h
  dlsym_ne_zero := fun _ _ h => nomatch h
  dlcloseFails := fun _ => false
  opened := []
  closed := []
  libraries := 0
  mutex := 0

/-- A caller that calls static method `0` and then yields; the method, at `10`, pushes `1`,
stores it with `StoreLocal 2` into the slot beneath its return address, and returns with
`Return 1 0`. -/
def calleeWritesCallerProgram : Program where
  code := fun a => [Opcode.invokeStatic.toByte, 0, 0, 0, 0, Opcode.processYield.toByte, 0, 0, 0, 0,
    Opcode.loadLiteral1.toByte, Opcode.storeLocal.toByte, 2, Opcode.return.toByte, 1, 0].getD a 0
  constants := []
  unfolded := fun _ => .smi 0
  classes := []
  staticMethods := [.heap 1]
  dispatchTable := []
  vtable := []
  smiClass := 0
  nullObject := .heap 2
  trueObject := .heap 3
  falseObject := .heap 4
  objectFromFailure := fun _ => .heap 2
  largeIntegerClass := 5
  boxedClass := 6
  portClass := 7

/-- The caller at `0` with the one slot `7` on its stack. -/
def callingWithSlot : Engine where
  process :=
    { heap := [⟨9, .coroutine (some []) 0⟩, ⟨8, .function 10⟩, ⟨1, .instance [] true⟩,
        ⟨2, .instance [] true⟩, ⟨3, .instance [] true⟩]
      statics := []
      coroutine := 0
      stackLimit := 100
      debugInfo := none
      finalizers := []
      world := emptyWorld }
  sp := [.smi 7]
  bcp := 0

/-- The call at `0` of `calleeWritesCallerProgram`, and a return with `Return 1 0` from the
callee with `1` on top. -/
theorem callingWithSlot_call_returns :
    ∃ entry, (∃ f, callingWithSlot.process.body? f = some (.function entry)) ∧
      execute calleeWritesCallerProgram plainRuntime .succeeds .invokeStatic callingWithSlot =
        pollStack plainRuntime 0 { callingWithSlot with sp := [.bytecode 5, .smi 7], bcp := entry } ∧
      execute calleeWritesCallerProgram plainRuntime .succeeds .return
          { callingWithSlot with sp := [.smi 1, .bytecode 5, .smi 7], bcp := 13 } =
        .ok () { callingWithSlot with sp := [.smi 1, .smi 7], bcp := 5 } :=
  have hx : execute calleeWritesCallerProgram plainRuntime .succeeds .invokeStatic callingWithSlot =
      .ok () _ := rfl
  have hsp : callingWithSlot.sp = [] ++ [.smi 7] := rfl
  have hr : ∀ m e', execute calleeWritesCallerProgram plainRuntime .succeeds .invokeStatic callingWithSlot ≠
      .stop (.fatal m) e' := fun _ _ h => nomatch h.symm.trans hx
  let ⟨entry, hf, hcall, hret, _⟩ := call_return_resumes_caller (.inl (by rfl)) hr hsp
  ⟨entry, hf, hcall, hret .succeeds { callingWithSlot with sp := [.smi 1, .bytecode 5, .smi 7], bcp := 13 }
    (.smi 1) [] [] rfl rfl rfl rfl⟩

/-- The callee never touches its return address, and returns with `Return 1 0` with one slot
above it; yet the caller's slot beneath holds `1` and not `7` when the caller yields right
after the call. -/
theorem callee_store_reaches_caller_slot :
    (loop calleeWritesCallerProgram plainRuntime 5 [] false callingWithSlot).map
        (fun r => (r.1, r.2.sp, r.2.bcp)) =
      some (.surrender .yield none, [.bytecode 6, .heap 2, .smi 1], 6) := rfl

/-- The program of `calleeWritesCallerProgram` with an `InvokeMethod` of selector `0` at `0`. -/
def invokeMethodProgram : Program :=
  { calleeWritesCallerProgram with code := fun a => [Opcode.invokeMethod.toByte, 0, 0, 0, 0].getD a 0 }

/-- The stub entered from the `InvokeMethod` at `0` with the receiver `3` and no arguments. -/
def enteredNoSuchMethod : Engine := { callingWithSlot with sp := [.bytecode 5, .smi 3], bcp := 20 }

/-- A runtime whose selectors are setters of one argument. -/
def setterRuntime : Runtime :=
  { plainRuntime with selector := { arity := fun _ => 1, id := fun _ => 0, isSetter := fun _ => true } }

/-- The stub entered from the `InvokeMethod` at `0` with the receiver `3` and the argument `4`. -/
def enteredSetterNoSuchMethod : Engine :=
  { callingWithSlot with sp := [.bytecode 5, .smi 4, .smi 3], bcp := 20 }

/-- From the `InvokeMethod` at `0`: a selector of no arguments, whose handler's result is
returned; and a setter of one argument, whose argument is returned in place of the
handler's result. -/
theorem enteredNoSuchMethod_returns_as_invoke :
    Opcode.ofByte (invokeMethodProgram.code 0) = some .invokeMethod ∧
      (enterNoSuchMethod invokeMethodProgram plainRuntime enteredNoSuchMethod =
          .ok () { enteredNoSuchMethod with sp := [.smi 0, .smi 3, .smi 0, .bytecode 5, .smi 3], bcp := 21 } ∧
        ∀ (e₂ : Engine) (r : Value), e₂.sp = [r, .smi 0, .bytecode 5, .smi 3] →
          exitNoSuchMethod plainRuntime e₂ = .ok () { e₂ with sp := [r], bcp := 5 }) ∧
      enterNoSuchMethod invokeMethodProgram setterRuntime enteredSetterNoSuchMethod =
          .ok ()
            { enteredSetterNoSuchMethod with
              sp := [.smi 0, .smi 3, .smi 0, .bytecode 5, .smi 4, .smi 3], bcp := 21 } ∧
        ∀ (e₂ : Engine) (r : Value), e₂.sp = [r, .smi 0, .bytecode 5, .smi 4, .smi 3] →
          exitNoSuchMethod setterRuntime e₂ = .ok () { e₂ with sp := [.smi 4], bcp := 5 } :=
  have hargs : ([] : List Value).length = plainRuntime.selector.arity 0 := rfl
  have hsp : enteredNoSuchMethod.sp = .bytecode (0 + Opcode.invokeMethod.length) :: ([] ++ [.smi 3]) := rfl
  have h := noSuchMethod_returns_as_invoke (P := invokeMethodProgram) (b := 0) rfl (.inl rfl) rfl hargs hsp
  have hargs₁ : [Value.smi 4].length = setterRuntime.selector.arity 0 := rfl
  have hsp₁ : enteredSetterNoSuchMethod.sp =
      .bytecode (0 + Opcode.invokeMethod.length) :: ([.smi 4] ++ [.smi 3]) := rfl
  have h₁ := noSuchMethod_returns_as_invoke (P := invokeMethodProgram) (b := 0) rfl (.inl rfl) rfl hargs₁ hsp₁
  ⟨rfl, ⟨h.1, h.2⟩, h₁.1, h₁.2⟩

end Interpret

end Fletch
