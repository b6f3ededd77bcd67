import Fletch.Proofs.Heap

/-!
# No reference outside the heap

A value that points at an object is its address (`Value.heap`). The interpreter copies
values between the stack slots, the statics and the objects, and makes a new reference only
by allocating; so a run never makes a reference to an address that holds no object.
`Engine.Closed` says so of one state: every reference in a stack slot, in the statics, in a
field, a boxed value, an array element, an initializer, a coroutine's stack or caller, and the
current coroutine, is below the heap's length.

* `Exec.Closes P n Q m`: from every closed engine with at least `n` objects, in a program
  whose references that the interpreter copies are below `n` (`Program.ClosedIn`), a run of
  `m` leaves a closed engine with no fewer objects, and what it returns satisfies `Q`. One
  lemma per operation of `State.lean` and `Interpreter.lean`, then one sweep over the opcodes
  (`execute_closes`). `Throw` is done by hand: `HandleThrow` only marks coroutines done and
  follows their callers, which are in the heap.
* `Interpret.interpret_keeps_closed`: every run of `Engine::Interpret`, whatever stop ends
  it (a fatal error included), keeps `Engine.Closed`, under a collector that keeps every
  value's identity and natives that keep the heap closed and answer a value in it
  (`Runtime.NativesClose`).

The finalizer list is the collector's, which may change it freely, so it is left out.
-/

namespace Fletch

open Exec Engine

/-- A value that refers to no object, or to one of the first `n` objects of the heap. -/
def Value.Below : Value → Nat → Prop
  | .heap a, n => a < n
  | _, _ => True

namespace Value

@[simp] theorem below_heap {a n : Nat} : (Value.heap a).Below n ↔ a < n := Iff.rfl

@[simp] theorem below_smi (i : Int) (n : Nat) : (Value.smi i).Below n := trivial

@[simp] theorem below_bytecode (a n : Nat) : (Value.bytecode a).Below n := trivial

theorem Below.mono {v : Value} {n m : Nat} (h : v.Below n) (hm : n ≤ m) : v.Below m := by
  cases v with
  | heap a => exact Nat.lt_of_lt_of_le h hm
  | _ => trivial

end Value

/-- Every reference a body holds is below `n`: its fields, its boxed value, its elements, its
initializer function, and a coroutine's stack slots and caller. -/
def Body.Below : Body → Nat → Prop
  | .instance fields _, n => ∀ v ∈ fields, v.Below n
  | .boxed value, n => value.Below n
  | .array elements, n => ∀ v ∈ elements, v.Below n
  | .initializer f, n => f.Below n
  | .coroutine stack caller, n => (∀ s ∈ stack, ∀ v ∈ s, v.Below n) ∧ caller < n
  | _, _ => True

theorem Body.Below.mono {b : Body} {n m : Nat} (h : b.Below n) (hm : n ≤ m) : b.Below m := by
  cases b <;> simp only [Body.Below] at h ⊢
  case «instance» | array => exact fun v hv => (h v hv).mono hm
  case boxed | initializer => exact h.mono hm
  case coroutine => exact ⟨fun s hs v hv => (h.1 s hs v hv).mono hm, by omega⟩

/-- A native's answer refers below `n`. -/
def NativeResult.Below : NativeResult → Nat → Prop
  | .value v, n => v.Below n
  | .failure _, _ => True

/-- The references of the program that the interpreter copies into the stack: the
constants, the constants of unfolded bytecodes, `null`, `true`, `false` and the exception
objects for the failures. The other tables are read for class ids, functions and smis. -/
structure Program.ClosedIn (P : Program) (n : Nat) : Prop where
  constants : ∀ v ∈ P.constants, v.Below n
  unfolded : ∀ a, (P.unfolded a).Below n
  nullObject : P.nullObject.Below n
  trueObject : P.trueObject.Below n
  falseObject : P.falseObject.Below n
  objectFromFailure : ∀ f, (P.objectFromFailure f).Below n

namespace Program.ClosedIn

variable {P : Program} {n m : Nat}

theorem mono (h : P.ClosedIn n) (hm : n ≤ m) : P.ClosedIn m :=
  ⟨fun v hv => (h.constants v hv).mono hm, fun a => (h.unfolded a).mono hm, h.nullObject.mono hm,
    h.trueObject.mono hm, h.falseObject.mono hm, fun f => (h.objectFromFailure f).mono hm⟩

theorem toBool (h : P.ClosedIn n) (b : Bool) : (Engine.toBool P b).Below n := by
  unfold Engine.toBool; split
  exacts [h.trueObject, h.falseObject]

theorem handleIdentical (h : P.ClosedIn n) (p : Process) (left right : Value) :
    (Fletch.handleIdentical P p left right).Below n :=
  h.toBool _

end Program.ClosedIn

/-- Every reference the process holds is below the heap's length: in the objects, in the
statics, and the current coroutine. -/
structure Process.Closed (p : Process) : Prop where
  heap : ∀ o ∈ p.heap, o.body.Below p.heap.length
  statics : ∀ v ∈ p.statics, v.Below p.heap.length
  coroutine : p.coroutine < p.heap.length

/-- Every reference the engine holds is below the heap's length: in the stack slots, and in
the process. -/
structure Engine.Closed (e : Engine) : Prop where
  sp : ∀ v ∈ e.sp, v.Below e.process.heap.length
  process : e.process.Closed

namespace Process

variable {p q : Process}

/-- `Closed` reads only the heap, the statics and the current coroutine. -/
theorem Closed.congr (hp : p.Closed) (hh : q.heap = p.heap) (hs : q.statics = p.statics)
    (hc : q.coroutine = p.coroutine) : q.Closed :=
  ⟨hh ▸ hp.heap, hh ▸ hs ▸ hp.statics, hh ▸ hc ▸ hp.coroutine⟩

theorem Closed.setBody (hp : p.Closed) {a : Nat} {b : Body} (hb : b.Below p.heap.length) :
    (p.setBody a b).Closed where
  heap o ho := by
    rw [setBody_heap_length]
    obtain ⟨i, hi, rfl⟩ := List.getElem_of_mem ho
    simp only [Process.setBody, List.getElem_modify]
    split
    · exact hb
    · exact hp.heap _ (List.getElem_mem _)
  statics := by rw [setBody_heap_length]; exact hp.statics
  coroutine := by rw [setBody_heap_length]; exact hp.coroutine

theorem Closed.allocate (hp : p.Closed) {o : HeapObject} (ho : o.body.Below (p.heap.length + 1)) :
    (p.allocate o).1.Closed where
  heap x hx := by
    simp only [Process.allocate, List.mem_append, List.mem_singleton, List.length_append,
      List.length_singleton] at hx ⊢
    rcases hx with hx | rfl
    · exact (hp.heap x hx).mono (Nat.le_succ _)
    · exact ho
  statics v hv := (hp.statics v hv).mono (by simp [Process.allocate])
  coroutine := by simp only [Process.allocate, List.length_append]; have := hp.coroutine; omega

/-- A coroutine of a closed process is in the heap, and so are its stack slots and caller. -/
theorem Closed.coroutineAt? (hp : p.Closed) {a : Nat} {s : Option (List Value)} {c : Nat}
    (h : p.coroutineAt? a = some (s, c)) :
    a < p.heap.length ∧ (∀ x ∈ s, ∀ v ∈ x, v.Below p.heap.length) ∧ c < p.heap.length := by
  unfold Process.coroutineAt? at h
  split at h
  · rename_i classId stack caller ha
    cases h
    obtain ⟨hlt, ho⟩ := List.getElem?_eq_some_iff.mp ha
    have hb := hp.heap _ (List.getElem_mem hlt)
    rw [ho] at hb
    exact ⟨hlt, hb⟩
  · cases h

theorem Closed.stack? (hp : p.Closed) {s : List Value} (h : p.stack? = some s) :
    ∀ v ∈ s, v.Below p.heap.length := by
  unfold Process.stack? at h
  split at h
  · exact (hp.coroutineAt? ‹_›).2.1 s h
  · cases h

theorem Closed.setCoroutineStack (hp : p.Closed) (a : Nat) {s : Option (List Value)}
    (hs : ∀ x ∈ s, ∀ v ∈ x, v.Below p.heap.length) : (p.setCoroutineStack a s).Closed := by
  unfold Process.setCoroutineStack
  split
  · exact hp.setBody ⟨hs, (hp.coroutineAt? ‹_›).2.2⟩
  · exact hp

theorem Closed.setStack (hp : p.Closed) {s : List Value} (hs : ∀ v ∈ s, v.Below p.heap.length) :
    (p.setStack s).Closed :=
  hp.setCoroutineStack _ fun x hx => by cases Option.mem_def.mp hx; exact hs

@[simp] theorem setStack_heap_length (p : Process) (s : List Value) :
    (p.setStack s).heap.length = p.heap.length :=
  setCoroutineStack_heap_length _ _

theorem Closed.setCoroutineCaller (hp : p.Closed) (a : Nat) {c : Nat} (hc : c < p.heap.length) :
    (p.setCoroutineCaller a c).Closed := by
  unfold Process.setCoroutineCaller
  split
  · exact hp.setBody ⟨(hp.coroutineAt? ‹_›).2.1, hc⟩
  · exact hp

theorem Closed.updateCoroutine (hp : p.Closed) {c : Nat} (hc : c < p.heap.length) :
    (p.updateCoroutine c).Closed :=
  ⟨hp.heap, hp.statics, hc⟩

/-- A turn of `HandleThrow` makes the caller current, which is in the heap, and writes only
`null` and the coroutine's own address. -/
theorem Closed.abandon (hp : p.Closed) {s : Option (List Value)} {caller : Nat}
    (h : p.coroutineAt? p.coroutine = some (s, caller)) : (p.abandon caller).Closed :=
  ((hp.updateCoroutine (hp.coroutineAt? h).2.2).setCoroutineStack _ fun _ hx => by simp at hx).setCoroutineCaller _
    (by simpa using hp.coroutine)

end Process

namespace Engine

variable {e e' : Engine}

/-- An engine with the process of a closed one, and stack slots below its heap's length. -/
theorem Closed.of_sp (he : e.Closed) (hp : e'.process = e.process)
    (hs : ∀ v ∈ e'.sp, v.Below e.process.heap.length) : e'.Closed :=
  ⟨hp ▸ hs, hp ▸ he.process⟩

end Engine

namespace Exec

/-- From every closed engine with at least `n` objects, a run of `m` leaves a closed engine
with no fewer objects, and a value it returns satisfies `Q` at the heap's new length. -/
def Closes (n : Nat) {α : Type} (Q : α → Nat → Prop) (m : Exec α) : Prop :=
  ∀ e : Engine, e.Closed → n ≤ e.process.heap.length →
    (m e).engine.Closed ∧ e.process.heap.length ≤ (m e).engine.process.heap.length ∧
      ∀ a e', m e = .ok a e' → Q a e'.process.heap.length

section Combinators

variable {n : Nat} {α β : Type} {Q : α → Nat → Prop}

theorem closes_pure {a : α} (ha : ∀ k, n ≤ k → Q a k) : Closes n Q (pure a) :=
  fun _ he hn => ⟨he, le_rfl, fun _ _ h => by cases h; exact ha _ hn⟩

/-- A value that `m` returns is what `f` starts from, in a heap with no fewer objects. -/
theorem closes_bind {Q' : β → Nat → Prop} {m : Exec α} {f : α → Exec β} (hm : Closes n Q m)
    (hf : ∀ a k, n ≤ k → Q a k → Closes k Q' (f a)) : Closes n Q' (m >>= f) := by
  intro e he hn
  obtain ⟨he₁, hl₁, hq₁⟩ := hm e he hn
  simp only [bind_apply]
  cases h : m e with
  | ok a e₁ =>
    rw [h] at he₁ hl₁
    obtain ⟨he₂, hl₂, hq₂⟩ := hf a _ (le_trans hn hl₁) (hq₁ a e₁ h) e₁ he₁ le_rfl
    exact ⟨he₂, le_trans hl₁ hl₂, hq₂⟩
  | stop s e₁ =>
    rw [h] at he₁ hl₁
    exact ⟨he₁, hl₁, fun _ _ h' => by cases h'⟩

/-- A part that only reads the engine keeps it closed. -/
theorem closes_of_reads {m : Exec α} (h : Reads m) : Closes n (fun _ _ => True) m := by
  intro e he _
  rcases h e with ⟨a, h'⟩ | ⟨msg, h'⟩ <;> rw [h']
  exacts [⟨he, le_rfl, fun _ _ _ => trivial⟩, ⟨he, le_rfl, fun _ _ h'' => by cases h''⟩]

theorem closes_read (f : Engine → α) : Closes n (fun _ _ => True) (read f) :=
  closes_of_reads (reads_read f)

theorem closes_stop (s : Stop) : Closes n Q (stop s : Exec α) :=
  fun _ he _ => ⟨he, le_rfl, fun _ _ h => by cases h⟩

theorem closes_fatal (message : String) : Closes n Q (fatal message : Exec α) := closes_stop _

/-- What follows a stop never runs. -/
theorem closes_stop_bind {Q' : β → Nat → Prop} {f : α → Exec β} (s : Stop) :
    Closes n Q' ((stop s : Exec α) >>= f) :=
  fun _ he _ => ⟨he, le_rfl, fun _ _ h => by cases h⟩

theorem closes_fatal_bind {Q' : β → Nat → Prop} {f : α → Exec β} (message : String) :
    Closes n Q' ((fatal message : Exec α) >>= f) := closes_stop_bind _

theorem closes_some? (message : String) {x : Option α} (hx : ∀ a ∈ x, ∀ k, n ≤ k → Q a k) :
    Closes n Q (some? message x) := by
  cases x
  · exact closes_fatal _
  · exact closes_pure (hx _ rfl)

end Combinators

end Exec

namespace Engine

section Leaves

variable {P : Program} {R : Runtime} {n : Nat}

/-! ## The engine's own operations: slots from the old ones, or below the heap's length -/

theorem closes_local (k : Nat) : Closes n Value.Below («local» k) := by
  intro e he _
  simp only [«local», bind_apply, read_apply, Result.ok_bind]
  cases h : e.sp[k]? with
  | none => exact ⟨he, le_rfl, fun _ _ h' => by cases h'⟩
  | some v => exact ⟨he, le_rfl, fun _ _ h' => by cases h'; exact he.sp v (List.getElem?_mem h)⟩

theorem closes_pop : Closes n Value.Below Engine.pop := by
  intro e he _
  unfold Engine.pop
  split
  · rename_i v rest hsp
    refine ⟨he.of_sp rfl fun x hx => he.sp x (hsp ▸ List.mem_cons_of_mem _ hx), le_rfl, fun _ _ h => ?_⟩
    cases h
    exact he.sp v (by simp [hsp])
  · exact ⟨he, le_rfl, fun _ _ h => by cases h⟩

theorem closes_push {v : Value} (hv : v.Below n) : Closes n (fun _ _ => True) (push v) := by
  intro e he hn
  refine ⟨he.of_sp rfl fun x hx => ?_, le_rfl, fun _ _ _ => trivial⟩
  rcases List.mem_cons.mp hx with rfl | hx
  · exact hv.mono hn
  · exact he.sp x hx

theorem closes_setLocal (k : Nat) {v : Value} (hv : v.Below n) :
    Closes n (fun _ _ => True) (setLocal k v) := by
  intro e he hn
  unfold setLocal
  split
  · refine ⟨he.of_sp rfl fun x hx => ?_, le_rfl, fun _ _ _ => trivial⟩
    rcases List.mem_or_eq_of_mem_set hx with hx | rfl
    · exact he.sp x hx
    · exact hv.mono hn
  · exact ⟨he, le_rfl, fun _ _ h => by cases h⟩

theorem closes_setTop {v : Value} (hv : v.Below n) : Closes n (fun _ _ => True) (setTop v) :=
  closes_setLocal 0 hv

theorem closes_drop (k : Nat) : Closes n (fun _ _ => True) (drop k) := by
  intro e he _
  unfold drop
  split
  · exact ⟨he.of_sp rfl fun x hx => he.sp x (List.mem_of_mem_drop hx), le_rfl, fun _ _ _ => trivial⟩
  · exact ⟨he, le_rfl, fun _ _ h => by cases h⟩

theorem closes_advance (d : Int) : Closes n (fun _ _ => True) (advance d) := by
  intro e he _
  unfold advance
  split
  · exact ⟨he.of_sp rfl he.sp, le_rfl, fun _ _ _ => trivial⟩
  · exact ⟨he, le_rfl, fun _ _ h => by cases h⟩

theorem closes_goto (b : Nat) : Closes n (fun _ _ => True) (goto b) :=
  fun _ he _ => ⟨he.of_sp rfl he.sp, le_rfl, fun _ _ _ => trivial⟩

theorem closes_readByte (offset : Nat) : Closes n (fun _ _ => True) (readByte P offset) := closes_read _

theorem closes_readInt32 (offset : Nat) : Closes n (fun _ _ => True) (readInt32 P offset) := closes_read _

theorem closes_readConstant (hP : P.ClosedIn n) : Closes n Value.Below (readConstant P) :=
  fun _ he hn => ⟨he, le_rfl, fun _ _ h => by cases h; exact (hP.mono hn).unfolded _⟩

theorem closes_element (xs : List Value) (i : Int) (hxs : ∀ v ∈ xs, v.Below n) :
    Closes n Value.Below (element xs i) := by
  unfold element
  split
  · exact closes_some? _ fun v hv k hk => (hxs v (List.getElem?_mem hv)).mono hk
  · exact closes_fatal _

theorem closes_nativeArguments (arity : Nat) :
    Closes n (fun vs k => ∀ v ∈ vs, v.Below k) (nativeArguments arity) := by
  intro e he _
  unfold nativeArguments
  split
  · refine ⟨he, le_rfl, fun _ _ h => ?_⟩
    cases h
    intro v hv
    exact he.sp v (List.mem_of_mem_drop (List.mem_of_mem_take (List.mem_reverse.mp hv)))
  · exact ⟨he, le_rfl, fun _ _ h => by cases h⟩

theorem closes_pushReturnAddress (offset : Nat) : Closes n (fun _ _ => True) (pushReturnAddress offset) :=
  closes_bind (closes_read _) fun _ _ _ _ => closes_push trivial

theorem closes_popReturnAddress : Closes n (fun _ _ => True) popReturnAddress :=
  closes_bind closes_pop fun v _ _ _ => by
    cases v <;> first | exact closes_goto _ | exact closes_fatal _

theorem closes_branch (t f : Int) : Closes n (fun _ _ => True) (branch P t f) :=
  closes_bind closes_pop fun _ _ _ _ => closes_advance _

/-! ## The state saved in the current coroutine -/

theorem closes_saveState : Closes n (fun _ _ => True) saveState := by
  intro e he _
  have hs : ∀ v ∈ Value.bytecode e.bcp :: e.sp, v.Below e.process.heap.length := by
    intro v hv
    rcases List.mem_cons.mp hv with rfl | hv
    exacts [trivial, he.sp v hv]
  simp only [saveState_apply, Result.engine_ok, Process.setStack_heap_length]
  exact ⟨⟨by simpa using hs, he.process.setStack hs⟩, le_rfl, fun _ _ _ => trivial⟩

theorem closes_restoreState : Closes n (fun _ _ => True) restoreState := by
  intro e he _
  unfold restoreState
  split
  · rename_i b s hs
    refine ⟨he.of_sp rfl fun v hv => he.process.stack? hs v (List.mem_cons_of_mem _ hv), le_rfl,
      fun _ _ _ => trivial⟩
  · exact ⟨he, le_rfl, fun _ _ h => by cases h⟩

/-! ## Objects and statics -/

theorem closes_bodyOf (v : Value) : Closes n Body.Below (bodyOf v) := by
  intro e he _
  simp only [bodyOf, bind_apply, read_apply, Result.ok_bind]
  cases h : e.process.body? v with
  | none => exact ⟨he, le_rfl, fun _ _ h' => by cases h'⟩
  | some b =>
    refine ⟨he, le_rfl, fun _ _ h' => ?_⟩
    cases h'
    cases v with
    | heap a =>
      obtain ⟨o, ho, rfl⟩ := Option.map_eq_some'.mp h
      exact he.process.heap o (List.getElem?_mem ho)
    | _ => cases h

theorem closes_staticAt (index : Int) : Closes n Value.Below (staticAt index) := by
  intro e he hn
  simp only [staticAt, bind_apply, read_apply, Result.ok_bind]
  exact closes_element _ index he.process.statics e he le_rfl

theorem closes_setStatic (index : Int) {v : Value} (hv : v.Below n) :
    Closes n (fun _ _ => True) (setStatic index v) := by
  intro e he hn
  unfold setStatic
  split
  · refine ⟨⟨he.sp, he.process.heap, fun x hx => ?_, he.process.coroutine⟩, le_rfl, fun _ _ _ => trivial⟩
    rcases List.mem_or_eq_of_mem_set hx with hx | rfl
    · exact he.process.statics x hx
    · exact hv.mono hn
  · exact ⟨he, le_rfl, fun _ _ h => by cases h⟩

theorem closes_boxedValue (v : Value) : Closes n Value.Below (boxedValue v) :=
  closes_bind (closes_bodyOf v) fun b _ _ hb => by
    cases b <;> first | exact closes_fatal _ | exact closes_pure fun _ hj => Body.Below.mono hb hj

theorem closes_instanceField (v : Value) (i : Nat) : Closes n Value.Below (instanceField v i) :=
  closes_bind (closes_bodyOf v) fun b _ _ hb => by
    cases b <;> try exact closes_fatal _
    exact closes_some? _ fun x hx _ hj => (Body.Below.mono hb hj) x (List.getElem?_mem hx)

/-- Writing a body whose references are below `n`. -/
theorem closes_setBody (a : Nat) {b : Body} (hb : b.Below n) :
    Closes n (fun _ _ => True) (modify fun e => { e with process := e.process.setBody a b }) :=
  fun _ he hn => ⟨⟨by simpa using he.sp, he.process.setBody (hb.mono hn)⟩, by simp,
    fun _ _ _ => trivial⟩

theorem closes_address (v : Value) : Closes n (fun _ _ => True) (address v) := by
  cases v <;> first | exact closes_pure fun _ _ => trivial | exact closes_fatal _

theorem closes_setBoxedValue (v : Value) {value : Value} (hv : value.Below n) :
    Closes n (fun _ _ => True) (setBoxedValue v value) :=
  closes_bind (closes_bodyOf v) fun b _ hk _ => by
    cases b <;> try exact closes_fatal _
    exact closes_bind (closes_address v) fun a _ hj _ => closes_setBody a (hv.mono (by omega))

theorem closes_setInstanceField (v : Value) (i : Nat) {value : Value} (hv : value.Below n) :
    Closes n (fun _ _ => True) (setInstanceField v i value) :=
  closes_bind (closes_bodyOf v) fun b _ hk hb => by
    cases b <;> try exact closes_fatal _
    dsimp only
    split
    · refine closes_bind (closes_address v) fun a _ hj _ => closes_setBody a ?_
      show ∀ x ∈ _, _
      intro x hx
      rcases List.mem_or_eq_of_mem_set hx with hx | rfl
      · exact (Body.Below.mono hb hj) x hx
      · exact hv.mono (by omega)
    · exact closes_fatal _

theorem closes_popFields (object : Value) :
    ∀ fields k, Closes k (fun _ _ => True) (popFields object fields)
  | 0, _ => closes_pure fun _ _ => trivial
  | i + 1, _ => closes_bind closes_pop fun _ _ _ hv =>
      closes_bind (closes_setInstanceField _ _ hv) fun _ _ _ _ => closes_popFields object i _

/-! ## Allocation, the collector and the natives -/

theorem closes_newInstance (hP : P.ClosedIn n) (a : Allocation) (klass : Nat × Nat) (immutable : Bool) :
    Closes n (fun o k => ∀ v ∈ o, v.Below k) (newInstance P a klass immutable) := by
  intro e he hn
  cases a with
  | retryAfterGc => exact ⟨he, le_rfl, fun _ _ h => by cases h; intro v hv; cases hv⟩
  | succeeds =>
    have hnull : ∀ v ∈ List.replicate klass.2 P.nullObject, v.Below (e.process.heap.length + 1) :=
      fun v hv => List.eq_of_mem_replicate hv ▸ hP.nullObject.mono (by omega)
    refine ⟨⟨fun v hv => ?_, he.process.allocate hnull⟩, by simp [newInstance, Process.allocate],
      fun _ _ h => ?_⟩
    · simp only [newInstance, Process.allocate, Result.engine_ok, List.length_append,
        List.length_singleton] at hv ⊢
      exact (he.sp v hv).mono (Nat.le_succ _)
    · cases h
      intro v hv
      cases Option.mem_def.mp hv
      simp [Process.allocate]

theorem closes_newBoxed (a : Allocation) {value : Value} (hv : value.Below n) :
    Closes n (fun o k => ∀ v ∈ o, v.Below k) (newBoxed P a value) := by
  intro e he hn
  cases a with
  | retryAfterGc => exact ⟨he, le_rfl, fun _ _ h => by cases h; intro v hv; cases hv⟩
  | succeeds =>
    refine ⟨⟨fun v hv' => ?_, he.process.allocate (hv.mono (by omega))⟩,
      by simp [newBoxed, Process.allocate], fun _ _ h => ?_⟩
    · simp only [newBoxed, Process.allocate, Result.engine_ok, List.length_append,
        List.length_singleton] at hv' ⊢
      exact (he.sp v hv').mono (Nat.le_succ _)
    · cases h
      intro v hv'
      cases Option.mem_def.mp hv'
      simp [Process.allocate]

/-- The collector keeps the heap, the statics and the current coroutine. -/
theorem closes_collect (hgc : R.PreservesIdentity) :
    Closes n (fun _ _ => True) (modify fun e => { e with process := R.collectGarbage e.process }) := by
  intro e he _
  have hh : (R.collectGarbage e.process).heap = e.process.heap := by rw [hgc]
  have hs : (R.collectGarbage e.process).statics = e.process.statics := by rw [hgc]
  have hc : (R.collectGarbage e.process).coroutine = e.process.coroutine := by rw [hgc]
  exact ⟨⟨by simpa [hh] using he.sp, he.process.congr hh hs hc⟩, by simp [hh], fun _ _ _ => trivial⟩

theorem closes_collectGarbage (hgc : R.PreservesIdentity) : Closes n (fun _ _ => True) (collectGarbage R) :=
  closes_bind closes_saveState fun _ _ _ _ =>
    closes_bind (closes_collect hgc) fun _ _ _ _ => closes_restoreState

theorem closes_retryOnAllocationFailure (hgc : R.PreservesIdentity) {o : Option Value}
    (ho : ∀ v ∈ o, v.Below n) : Closes n Value.Below (retryOnAllocationFailure R o) := by
  cases o with
  | none => exact closes_bind (closes_collectGarbage hgc) fun _ _ _ _ => closes_stop _
  | some v => exact closes_pure fun _ hk => (ho v rfl).mono hk

theorem closes_retryOnNativeFailure (hgc : R.PreservesIdentity) {r : NativeResult} (hr : r.Below n) :
    Closes n NativeResult.Below (retryOnNativeFailure R r) := by
  unfold retryOnNativeFailure
  split
  · exact closes_bind (closes_collectGarbage hgc) fun _ _ _ _ => closes_stop _
  · cases r with
    | value v => exact closes_pure fun _ hk => Value.Below.mono hr hk
    | failure f => exact closes_pure fun _ _ => trivial

end Leaves

end Engine

/-- The natives of `R`, called from a program closed in the heap with arguments in it, keep
the process closed and its objects as many or more, and answer a value in its heap. -/
def Runtime.NativesClose (P : Program) (R : Runtime) : Prop :=
  ∀ native a arguments p r q, R.natives native R.platform P a arguments p = .ok (r, q) →
    P.ClosedIn p.heap.length → p.Closed → (∀ v ∈ arguments, v.Below p.heap.length) →
      q.Closed ∧ p.heap.length ≤ q.heap.length ∧ r.Below q.heap.length

/-! ## The natives of `ffi.cc` keep the heap closed -/

/-- What a native of `ffi.cc` adds to the heap holds an integer, so the heap stays closed. -/
theorem Process.Boxes.closed {P : Program} {p q : Process} (h : Boxes P p q) (hp : p.Closed) :
    q.Closed ∧ p.heap.length ≤ q.heap.length := by
  obtain ⟨w, f, b, rfl⟩ := h
  have hl : p.heap.length ≤ (p.heap ++ b.map fun n => (⟨P.largeIntegerClass, .largeInteger n⟩ : HeapObject)).length :=
    by simp
  refine ⟨⟨fun o ho => ?_, fun v hv => (hp.statics v hv).mono hl, Nat.lt_of_lt_of_le hp.coroutine hl⟩, hl⟩
  rcases List.mem_append.mp ho with ho | ho
  · exact (hp.heap o ho).mono hl
  · obtain ⟨n, -, rfl⟩ := List.mem_map.mp ho
    trivial

namespace Natives

variable {pl : Platform} {P : Program} {a : Allocation} {arguments : List Value} {p q : Process}
  {r : NativeResult}

theorem Answers.below (h : Answers P arguments r q) (hnull : P.nullObject.Below q.heap.length)
    (hargs : ∀ v ∈ arguments, v.Below q.heap.length) : r.Below q.heap.length := by
  rcases h with rfl | ⟨v, hv, rfl⟩ | h
  · exact hnull
  · exact hargs v hv
  · rcases r with (_ | i | _) | _
    · trivial
    · exact h i rfl
    all_goals trivial

/-- Every native of `ffi.cc`, called with arguments in the heap from a closed process of a
program closed in its heap, leaves the process closed and answers a value in the heap. -/
theorem ffi_natives_close {f : NativeFunction} (hf : f ∈ ffi) (h : f pl P a arguments p = .ok (r, q))
    (hP : P.ClosedIn p.heap.length) (hp : p.Closed) (hargs : ∀ v ∈ arguments, v.Below p.heap.length) :
    q.Closed ∧ p.heap.length ≤ q.heap.length ∧ r.Below q.heap.length :=
  have ⟨hb, ha⟩ := ffi_natives_frame hf h
  have ⟨hq, hl⟩ := hb.closed hp
  ⟨hq, hl, ha.below (hP.nullObject.mono hl) fun v hv => (hargs v hv).mono hl⟩

end Natives

theorem Runtime.nativesClose_of_ffi {P : Program} {R : Runtime} (hR : ∀ native, R.natives native ∈ Natives.ffi) :
    R.NativesClose P :=
  fun native _ _ _ _ _ h => Natives.ffi_natives_close (hR native) h

namespace Engine

variable {P : Program} {R : Runtime} {n : Nat}

theorem closes_callNative (hn : R.NativesClose P) (hP : P.ClosedIn n) (a : Allocation)
    (native : Nat) {arguments : List Value} (hargs : ∀ v ∈ arguments, v.Below n) :
    Closes n NativeResult.Below (callNative P R a native arguments) := by
  intro e he hk
  unfold callNative
  split
  · rename_i r q h
    obtain ⟨hq, hl, hr⟩ := hn _ _ _ _ _ _ h (hP.mono hk) he.process fun v hv => (hargs v hv).mono hk
    exact ⟨⟨fun v hv => (he.sp v hv).mono hl, hq⟩, hl, fun _ _ h' => by cases h'; exact hr⟩
  · exact ⟨he, le_rfl, fun _ _ h => by cases h⟩

theorem closes_stackLimit (limit : Nat) : Closes n (fun _ _ => True)
    (modify fun e => { e with process := { e.process with stackLimit := limit } }) :=
  fun _ he _ => ⟨⟨he.sp, he.process.congr rfl rfl rfl⟩, le_rfl, fun _ _ _ => trivial⟩

theorem closes_stackOverflowCheck (size : Int) :
    Closes n (fun _ _ => True) (Engine.stackOverflowCheck R size) := by
  unfold Engine.stackOverflowCheck hasStackSpaceFor
  repeat' (first
    | with_reducible apply closes_bind
    | intro _ _ _ _
    | with_reducible exact closes_pure (Q := fun _ _ => True) fun _ _ => trivial
    | with_reducible exact closes_read _
    | with_reducible exact closes_saveState
    | with_reducible exact closes_restoreState
    | exact closes_stackLimit _
    | split)

theorem closes_pollStack (size : Int) : Closes n (fun _ _ => True) (pollStack R size) :=
  closes_bind (closes_stackOverflowCheck size) fun b _ _ _ => by
    cases b
    · exact closes_stop _
    · exact closes_pure fun _ _ => trivial

theorem closes_coroutineOf (v : Value) : Closes n (fun c k => c < k) (coroutineOf v) := by
  have hr : Reads (coroutineOf v) := reads_bind (reads_bodyOf v) fun b => by
    cases b <;> try exact reads_fatal _
    cases v <;> first | exact reads_pure _ | exact reads_fatal _
  intro e he _
  rcases hr e with ⟨c, h⟩ | ⟨msg, h⟩ <;> rw [h]
  · refine ⟨he, le_rfl, fun _ _ h' => ?_⟩
    cases h'
    obtain ⟨-, hc, -⟩ := coroutineOf_eq_ok h
    obtain ⟨view, hv⟩ := Option.isSome_iff_exists.mp hc
    exact (he.process.coroutineAt? hv).1
  · exact ⟨he, le_rfl, fun _ _ h' => by cases h'⟩

theorem closes_updateCoroutine {c : Nat} (hc : c < n) :
    Closes n (fun _ _ => True) (modify fun e => { e with process := e.process.updateCoroutine c }) :=
  fun _ he hn => ⟨⟨he.sp, he.process.updateCoroutine (by omega)⟩, le_rfl, fun _ _ _ => trivial⟩

end Engine

namespace Interpret

variable {P : Program} {R : Runtime}

/-- Every opcode other than `Throw` keeps the engine closed: what it pushes or stores comes
from the stack, the statics, an object, the program's closed references, a native's answer
or a new object. -/
theorem execute_closes (hgc : R.PreservesIdentity) (hn : R.NativesClose P) {n : Nat}
    (hP : P.ClosedIn n) (a : Allocation) :
    ∀ op : Opcode, op ≠ .throw → Closes n (fun _ _ => True) (execute P R a op) := by
  intro op hop
  cases op <;> (try exact absurd rfl hop) <;>
  dsimp only [execute, loadLocal0, loadLocal1, loadLocal2, loadLocal, loadLocalAt, loadBoxed, loadStatic,
    loadStaticInit, loadField, loadConst, loadConstUnfold, storeLocal, storeBoxed, storeStatic, storeField,
    pushLiteral, loadLiteralNull, loadLiteralTrue, loadLiteralFalse, loadLiteral0, loadLiteral1,
    loadLiteral, loadLiteralWide, invokeMethod, invokeMethodFast, invokeMethodVtable, invokeStatic,
    invokeStaticUnfold, invokeNative, invokeNativeYield, invokeTest, invokeTestFast, invokeTestVtable,
    Interpret.pop, «return», branchLong, branchIfTrueLong, branchIfFalseLong, branchBack,
    branchBackIfTrue, branchBackIfFalse, branchBackLong, branchBackIfTrueLong, branchBackIfFalseLong,
    popAndBranchLong, popAndBranchBackLong, allocateInstance, Interpret.allocate, allocateUnfold,
    allocateImmutable, allocateImmutableUnfold, allocateBoxed, negate, Interpret.stackOverflowCheck,
    processYield, coroutineChange, identical, identicalNonNumeric, enterNoSuchMethod, exitNoSuchMethod,
    subroutineCall, subroutineReturn, frameSize, methodEnd, pushDelta, popDelta] <;>
  repeat' (first
    | with_reducible exact closes_fatal_bind _
    | with_reducible apply closes_bind
    | intro _ _ _ _
    | split
    | with_reducible exact closes_local _
    | with_reducible exact closes_readByte _
    | with_reducible exact closes_readInt32 _
    | with_reducible exact closes_advance _
    | with_reducible apply closes_push
    | with_reducible apply closes_setTop
    | with_reducible exact closes_pop
    | with_reducible exact closes_drop _
    | with_reducible exact closes_read _
    | with_reducible exact closes_goto _
    | with_reducible exact closes_pushReturnAddress _
    | with_reducible exact closes_popReturnAddress
    | with_reducible exact closes_pollStack _
    | with_reducible exact closes_branch _ _
    | with_reducible exact closes_saveState
    | with_reducible exact closes_restoreState
    | with_reducible exact closes_nativeArguments _
    | with_reducible exact closes_staticAt _
    | with_reducible exact closes_boxedValue _
    | with_reducible exact closes_instanceField _ _
    | with_reducible exact closes_popFields _ _ _
    | with_reducible exact closes_coroutineOf _
    | with_reducible exact closes_readConstant (hP.mono (by omega))
    | with_reducible exact closes_element _ _ (hP.mono (by omega)).constants
    | with_reducible exact closes_of_reads (reads_element _ _)
    | with_reducible exact closes_of_reads (reads_functionEntry _)
    | with_reducible exact closes_of_reads (reads_arrayElements _)
    | with_reducible exact closes_of_reads (reads_classOf _)
    | with_reducible exact closes_of_reads (reads_classAt _)
    | with_reducible exact closes_of_reads (reads_classIdOf _)
    | with_reducible exact closes_of_reads (reads_lookupEntry _ _)
    | with_reducible exact closes_of_reads (reads_smiValue _)
    | with_reducible exact closes_of_reads (reads_localsImmutable _ _)
    | with_reducible exact closes_newInstance (hP.mono (by omega)) _ _ _
    | with_reducible exact closes_retryOnAllocationFailure hgc ‹_›
    | with_reducible exact closes_retryOnNativeFailure hgc ‹_›
    | with_reducible exact closes_callNative hn (hP.mono (by omega)) _ _ ‹_›
    | with_reducible apply closes_setLocal
    | with_reducible apply closes_setStatic
    | with_reducible apply closes_setBoxedValue
    | with_reducible apply closes_setInstanceField
    | with_reducible apply closes_newBoxed
    | (with_reducible apply closes_updateCoroutine; omega)
    | exact Value.Below.mono ‹_› (by omega)
    | exact (hP.mono (by omega)).nullObject
    | exact (hP.mono (by omega)).trueObject
    | exact (hP.mono (by omega)).falseObject
    | exact (hP.mono (by omega)).toBool _
    | exact (hP.mono (by omega)).handleIdentical _ _ _
    | exact (hP.mono (by omega)).objectFromFailure _
    | exact trivial
    | exact closes_stop (Q := fun _ _ => True) _
    | exact closes_stop _
    | exact closes_pure (Q := Value.Below) fun _ _ => Value.Below.mono ‹_› (by omega)
    | exact closes_pure (Q := fun _ _ => True) fun _ _ => trivial
    | exact closes_some? (Q := fun _ _ => True) _ fun _ _ _ _ => trivial)

/-- `HandleThrow` keeps a closed process closed and its heap as long: a turn only marks the
current coroutine done and makes its caller current. -/
theorem handleThrow_closed : ∀ (fuel : Nat) {p : Process}, p.Closed →
    (handleThrow R fuel p).2.Closed ∧ (handleThrow R fuel p).2.heap.length = p.heap.length
  | 0, _, hp => ⟨hp, rfl⟩
  | fuel + 1, p, hp => by
    unfold handleThrow
    split
    · exact ⟨hp, rfl⟩
    · split
      · exact ⟨hp, rfl⟩
      · split
        · exact ⟨hp, rfl⟩
        · rename_i hc
          split
          · exact ⟨hp, rfl⟩
          · have h := handleThrow_closed fuel (hp.abandon hc)
            exact ⟨h.1, h.2.trans (Process.abandon_heap_length _)⟩

/-- `Throw` keeps the engine closed: it saves the state, lets `HandleThrow` unwind, and puts
the exception, which was on the stack, back on top. -/
theorem closes_throw {n : Nat} : Closes n (fun _ _ => True) (throw R) := by
  intro e he _
  cases hsp : e.sp with
  | nil =>
    have h : throw R e = .stop (.fatal "stack underflow") e := by simp [throw, «local», hsp]
    rw [h]
    exact ⟨he, le_rfl, fun _ _ h' => by cases h'⟩
  | cons x rest =>
    have hs : ∀ v ∈ Value.bytecode e.bcp :: e.sp, v.Below e.process.heap.length := fun v hv => by
      rcases List.mem_cons.mp hv with rfl | hv
      exacts [trivial, he.sp v hv]
    have hsaved : e.savedProcess.Closed := he.process.setStack hs
    obtain ⟨hq, hl⟩ := handleThrow_closed (R := R) (e.savedProcess.heap.length + 1) hsaved
    rcases hu : handleThrow R (e.savedProcess.heap.length + 1) e.savedProcess with ⟨u, q⟩
    rw [hu] at hq hl
    simp only [savedProcess, Process.setStack_heap_length] at hl hu
    have he₂ : ({ process := q, sp := .bytecode e.bcp :: e.sp, bcp := e.bcp } : Engine).Closed :=
      ⟨hl ▸ hs, hq⟩
    have hx : x.Below q.heap.length := hl ▸ he.sp x (by simp [hsp])
    cases u with
    | caught b d =>
      have h : throw R e = (do restoreState; goto b; drop (d - 1); setTop x)
          { process := q, sp := .bytecode e.bcp :: e.sp, bcp := e.bcp } := by
        simp [throw, local_cons_zero _ _ e hsp, hu]
      obtain ⟨h₁, h₂, h₃⟩ := (closes_bind (n := q.heap.length) closes_restoreState fun _ _ _ _ =>
        closes_bind (closes_goto b) fun _ _ _ _ => closes_bind (closes_drop _) fun _ _ hk _ =>
          closes_setTop (hx.mono (by omega))) _ he₂ le_rfl
      rw [h]
      exact ⟨h₁, hl ▸ h₂, h₃⟩
    | uncaught | exit | fatal _ =>
      obtain ⟨s, h⟩ : ∃ s, throw R e = .stop s { process := q, sp := .bytecode e.bcp :: e.sp, bcp := e.bcp } :=
        ⟨_, by simp [throw, local_cons_zero _ _ e hsp, hu]; rfl⟩
      rw [h]
      exact ⟨he₂, hl.ge, fun _ _ h' => by cases h'⟩

/-! ## Runs -/

section Runs

variable (hgc : R.PreservesIdentity) (hn : R.NativesClose P)
include hgc hn

/-- Every dispatch keeps the engine closed: the breakpoint gate only saves the state. -/
theorem dispatch_closes {n : Nat} (hP : P.ClosedIn n) (noBreak : Bool) (a : Allocation) :
    Closes n (fun _ _ => True) (dispatch P R noBreak a) := by
  intro e he hk
  rw [dispatch_eq]
  split
  · obtain ⟨hs, -, -⟩ := closes_saveState (n := n) e he hk
    exact ⟨⟨hs.sp, hs.process.congr rfl rfl rfl⟩, by simp [atBreakpoint], fun _ _ h => by cases h⟩
  · split
    · rename_i op _
      by_cases hop : op = .throw
      · subst hop
        exact closes_throw e he hk
      · exact execute_closes hgc hn hP a op hop e he hk
    · exact ⟨he, le_rfl, fun _ _ h => by cases h⟩

theorem loop_closes :
    ∀ {fuel : Nat} {answers : List Allocation} {noBreak : Bool} {e e' : Engine} {s : Stop},
      loop P R fuel answers noBreak e = some (s, e') → P.ClosedIn e.process.heap.length →
        e.Closed → e'.Closed
  | 0, _, _, _, _, _, h, _, _ => nomatch h
  | fuel + 1, answers, noBreak, e, e', s, h, hP, he => by
    obtain ⟨hd, hl, -⟩ := dispatch_closes hgc hn hP noBreak (answers.headD .succeeds) e he le_rfl
    simp only [loop] at h
    split at h <;> rename_i hx <;> rw [hx] at hd hl
    · exact loop_closes h (hP.mono hl) hd
    · exact loop_closes h (hP.mono hl) hd
    · cases h; exact hd

/-- Every run of `Interpret` from a closed engine, of a program whose copied references are
in the heap, stops in a closed engine, whatever stop ends it: no stack slot, static, field,
boxed value, array element, coroutine stack or caller, nor the current coroutine, refers
past the end of the heap. -/
theorem interpret_keeps_closed {fuel : Nat} {answers : List Allocation} {e e' : Engine} {s : Stop}
    (hP : P.ClosedIn e.process.heap.length) (he : e.Closed)
    (h : interpret P R fuel answers e = some (s, e')) : e'.Closed := by
  unfold interpret at h
  split at h
  · rename_i e₁ hb
    have he₁ : e₁ = e ∨ e₁ = { e with process := { e.process with debugInfo := some ⟨false⟩ } } := by
      cases hd : e.process.debugInfo <;> simp [isAtBreakPoint, hd] at hb <;> obtain ⟨-, rfl⟩ := hb
      exacts [.inl rfl, .inr rfl]
    rcases he₁ with rfl | rfl
    · exact loop_closes hgc hn h hP he
    · exact loop_closes hgc hn h hP ⟨he.sp, he.process.congr rfl rfl rfl⟩
  · rename_i hb
    cases hd : e.process.debugInfo <;> simp [isAtBreakPoint, hd] at hb

end Runs

/-- `ForeignAllocate(16)` retried after a collection, then a yield: the run stops in a closed
engine. -/
theorem allocateThenYield_stays_closed :
    ∃ s e', interpret allocateThenYield foreignAllocateRuntime 3 [.retryAfterGc] allocatingEngine =
        some (s, e') ∧ e'.Closed :=
  have h : interpret allocateThenYield foreignAllocateRuntime 3 [.retryAfterGc] allocatingEngine =
      some (_, _) := rfl
  have hP : allocateThenYield.ClosedIn allocatingEngine.process.heap.length :=
    ⟨fun _ h => (nomatch h), fun _ => trivial, (by decide : 1 < 4), (by decide : 2 < 4),
      (by decide : 3 < 4), fun _ => (by decide : 1 < 4)⟩
  have he : allocatingEngine.Closed :=
    ⟨by simp [allocatingEngine], ⟨by simp [allocatingEngine, callingForeignAllocate, highHeapProcess,
      Body.Below], by simp [allocatingEngine, callingForeignAllocate, highHeapProcess],
      (by decide : 0 < 4)⟩⟩
  ⟨_, _, h, interpret_keeps_closed (fun _ => rfl)
    (Runtime.nativesClose_of_ffi fun _ => by simp [Natives.ffi, foreignAllocateRuntime]) hP he h⟩

end Interpret

end Fletch
