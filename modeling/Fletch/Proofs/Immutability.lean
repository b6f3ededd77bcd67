import Fletch.Proofs.Objects
import Fletch.Proofs.Heap

/-!
# Deep immutability

`AllocateImmutable` and `AllocateImmutableUnfold` flag a new instance immutable exactly when
every value they store in it is immutable (`Object::IsImmutable`: a small integer, a large
integer, a double, a string, a function, an initializer, a class, or an instance flagged
immutable). `Process.DeepImmutable` says this of every object of the heap: an instance
flagged immutable holds only immutable values.

No opcode of `Engine::Interpret` reads the flag before it writes a field: `StoreField`
stores into any instance. Every other opcode keeps `DeepImmutable`, and so does `StoreField`
when it stores an immutable value or its target is not flagged (`Engine.storeFieldSafe`).

* `Exec.KeepsImmutable m`: every run of `m` from a deeply immutable process leaves one. One
  lemma per operation that writes the heap, then one sweep over the opcodes
  (`Interpret.keepsImmutable_execute`); the two immutable allocations, `StoreField` and
  `Throw` are done by hand.
* `Interpret.interpret_keeps_deepImmutable`: every run of `Engine::Interpret`, whatever stop
  ends it, keeps `DeepImmutable` when no engine it dispatches from (`Interpret.visits`) is at
  a `StoreField` that would store a mutable value into an instance flagged immutable, under a
  collector that keeps every value's identity and natives that keep `DeepImmutable`, as the
  natives of `ffi.cc` do.
-/

namespace Fletch

open Exec Engine

/-- What `Object::IsImmutable` answers for an object with this body. -/
def Body.immutable : Body → Bool
  | .instance _ immutable => immutable
  | .string _ | .largeInteger _ | .double _ | .function _ | .initializer _ | .klass _ _ => true
  | .boxed _ | .array _ | .coroutine _ _ => false

/-- `IsImmutable` of a value that points at an object is what the object's body answers. -/
theorem isImmutable_heap (p : Process) (a : Nat) :
    isImmutable p (.heap a) = ((p.heap[a]?).map fun o => o.body.immutable).getD false := by
  simp only [isImmutable, Process.body?]
  cases p.heap[a]? with
  | none => rfl
  | some o =>
    obtain ⟨c, b⟩ := o
    cases b <;> rfl

/-- An instance flagged immutable holds immutable values; any other object holds anything. -/
def Body.holdsImmutable (p : Process) : Body → Bool
  | .instance fields true => fields.all (isImmutable p)
  | _ => true

namespace Process

/-- Every instance flagged immutable holds only immutable values, as `AllocateImmutable`
checked when it set the flag. -/
def DeepImmutable (p : Process) : Prop := ∀ o ∈ p.heap, o.body.holdsImmutable p = true

instance (p : Process) : Decidable p.DeepImmutable :=
  inferInstanceAs (Decidable (∀ o ∈ p.heap, o.body.holdsImmutable p = true))

/-- Every object of `p` is in `q` at its address, and `IsImmutable` answers the same of it. -/
def KeepsImmutability (p q : Process) : Prop :=
  ∀ (a : Nat) (o : HeapObject), p.heap[a]? = some o →
    ∃ o' : HeapObject, q.heap[a]? = some o' ∧ o'.body.immutable = o.body.immutable

variable {p q : Process}

/-- A value immutable in `p` stays immutable in a process that keeps `p`'s objects. -/
theorem isImmutable_mono (h : p.KeepsImmutability q) {v : Value} (hv : isImmutable p v = true) :
    isImmutable q v = true := by
  cases v with
  | heap a =>
    rw [isImmutable_heap] at hv ⊢
    cases ho : p.heap[a]? with
    | none => simp [ho] at hv
    | some o =>
      obtain ⟨o', ho', hk⟩ := h a o ho
      simpa [ho', hk, ho] using hv
  | _ => exact hv

/-- `DeepImmutable` moves to a process whose objects answer what those of `p` answered and
whose objects hold what `p` calls immutable. -/
theorem DeepImmutable.transfer (h : p.KeepsImmutability q)
    (hq : ∀ o ∈ q.heap, o.body.holdsImmutable p = true) : q.DeepImmutable := by
  intro o ho
  have := hq o ho
  unfold Body.holdsImmutable at this ⊢
  split at this
  · rw [List.all_eq_true] at this ⊢
    exact fun v hv => isImmutable_mono h (this v hv)
  · rfl

/-- `DeepImmutable` reads only the heap. -/
theorem DeepImmutable.congr (hp : p.DeepImmutable) (hh : q.heap = p.heap) : q.DeepImmutable :=
  .transfer (p := p) (fun _ o ho => ⟨o, hh ▸ ho, rfl⟩) (fun o ho => hp o (hh ▸ ho))

/-- Replacing the body of an object by one `IsImmutable` answers the same of, and that holds
what is immutable, keeps `DeepImmutable`. -/
theorem DeepImmutable.setBody (hp : p.DeepImmutable) {a : Nat} {b₀ b : Body}
    (ha : p.body? (.heap a) = some b₀) (hk : b.immutable = b₀.immutable) (hb : b.holdsImmutable p = true) :
    (p.setBody a b).DeepImmutable := by
  obtain ⟨o₀, ho₀, rfl⟩ := Option.map_eq_some'.mp ha
  refine .transfer (p := p) (fun a' o ho => ?_) (fun o ho => ?_)
  · rw [getElem?_setBody]
    split
    · subst a'
      rw [ho₀] at ho ⊢
      cases ho
      exact ⟨_, rfl, hk⟩
    · exact ⟨o, ho, rfl⟩
  · obtain ⟨i, hi⟩ := List.mem_iff_getElem?.mp ho
    rw [getElem?_setBody] at hi
    split at hi
    · subst i
      rw [ho₀] at hi
      cases hi
      exact hb
    · exact hp o (List.mem_iff_getElem?.mpr ⟨i, hi⟩)

/-- Objects added at the end of the heap that hold what is immutable keep `DeepImmutable`. -/
theorem DeepImmutable.append (hp : p.DeepImmutable) {new : List HeapObject}
    (hq : q.heap = p.heap ++ new) (hnew : ∀ o ∈ new, o.body.holdsImmutable p = true) :
    q.DeepImmutable := by
  refine .transfer (p := p) (fun a o ho => ⟨o, ?_, rfl⟩) (fun o ho => ?_)
  · rw [hq, List.getElem?_append_left (List.getElem?_eq_some_iff.mp ho).1, ho]
  · rw [hq, List.mem_append] at ho
    exact ho.elim (hp o) (hnew o)

theorem DeepImmutable.allocate (hp : p.DeepImmutable) {o : HeapObject} (ho : o.body.holdsImmutable p = true) :
    (p.allocate o).1.DeepImmutable :=
  hp.append rfl fun o' h => by rw [List.mem_singleton.mp h]; exact ho

theorem DeepImmutable.setCoroutineStack (hp : p.DeepImmutable) (a : Nat) (s : Option (List Value)) :
    (p.setCoroutineStack a s).DeepImmutable := by
  unfold Process.setCoroutineStack
  split
  · rename_i h
    exact hp.setBody (body?_of_coroutineAt? h) rfl rfl
  · exact hp

theorem DeepImmutable.setStack (hp : p.DeepImmutable) (s : List Value) : (p.setStack s).DeepImmutable :=
  hp.setCoroutineStack _ _

theorem DeepImmutable.setCoroutineCaller (hp : p.DeepImmutable) (a c : Nat) :
    (p.setCoroutineCaller a c).DeepImmutable := by
  unfold Process.setCoroutineCaller
  split
  · rename_i h
    exact hp.setBody (body?_of_coroutineAt? h) rfl rfl
  · exact hp

theorem DeepImmutable.abandon (hp : p.DeepImmutable) (caller : Nat) : (p.abandon caller).DeepImmutable :=
  ((hp.congr (q := p.updateCoroutine caller) rfl).setCoroutineStack _ _).setCoroutineCaller _ _

/-- What a native of `ffi.cc` adds to the heap holds an integer. -/
theorem Boxes.deepImmutable {P : Program} (h : Boxes P p q) (hp : p.DeepImmutable) : q.DeepImmutable := by
  obtain ⟨w, f, b, rfl⟩ := h
  refine hp.append rfl fun o ho => ?_
  obtain ⟨n, -, rfl⟩ := List.mem_map.mp ho
  rfl

end Process

namespace Exec

/-- Every run of `m` from an engine whose process is deeply immutable ends in one, whatever
stop it makes. -/
def KeepsImmutable {α : Type} (m : Exec α) : Prop :=
  ∀ e, e.process.DeepImmutable → (m e).engine.process.DeepImmutable

section Combinators

variable {α β : Type} {e : Engine}

theorem keepsImmutable_of_process {m : Exec α} (h : ∀ e, (m e).engine.process = e.process) :
    KeepsImmutable m :=
  fun e he => (h e).symm ▸ he

theorem keepsImmutable_of_reads {m : Exec α} (h : Reads m) : KeepsImmutable m :=
  keepsImmutable_of_process fun e => by rcases h e with ⟨_, h⟩ | ⟨_, h⟩ <;> rw [h] <;> rfl

theorem keepsImmutable_pure (a : α) : KeepsImmutable (pure a) := keepsImmutable_of_process fun _ => rfl

theorem keepsImmutable_stop (s : Stop) : KeepsImmutable (stop s : Exec α) :=
  keepsImmutable_of_process fun _ => rfl

theorem keepsImmutable_fatal (message : String) : KeepsImmutable (fatal message : Exec α) :=
  keepsImmutable_stop _

/-- A bind keeps `DeepImmutable` from an engine where its first part does. -/
theorem bind_keepsImmutable {m : Exec α} {f : α → Exec β} (hm : (m e).engine.process.DeepImmutable)
    (hf : ∀ a, KeepsImmutable (f a)) : ((m >>= f) e).engine.process.DeepImmutable := by
  rw [bind_apply]
  cases h : m e with
  | ok a e' => rw [h] at hm; exact hf a e' hm
  | stop s e' => rw [h] at hm; exact hm

theorem keepsImmutable_bind {m : Exec α} {f : α → Exec β} (hm : KeepsImmutable m)
    (hf : ∀ a, KeepsImmutable (f a)) : KeepsImmutable (m >>= f) :=
  fun e he => bind_keepsImmutable (hm e he) hf

/-- After a part that only reads, a bind goes on from the same engine with what it read. -/
theorem reads_bind_keepsImmutable {m : Exec α} {f : α → Exec β} (hm : Reads m)
    (hf : ∀ a, m e = .ok a e → (f a e).engine.process.DeepImmutable) (he : e.process.DeepImmutable) :
    ((m >>= f) e).engine.process.DeepImmutable := by
  rw [bind_apply]
  rcases hm e with ⟨a, h⟩ | ⟨_, h⟩ <;> rw [h]
  · exact hf a h
  · exact he

theorem keepsImmutable_some? (message : String) (x : Option α) : KeepsImmutable (some? message x) :=
  keepsImmutable_of_reads (reads_some? _ _)

/-- An update that keeps the heap keeps `DeepImmutable`. -/
theorem keepsImmutable_modify {f : Engine → Engine} (h : ∀ e, (f e).process.heap = e.process.heap) :
    KeepsImmutable (modify f) :=
  fun e he => he.congr (h e)

end Combinators

end Exec

namespace Engine

section Leaves

variable {P : Program} {R : Runtime} {e : Engine}

/-! ## Operations that keep the heap -/

theorem keepsImmutable_local (k : Nat) : KeepsImmutable («local» k) := keepsImmutable_of_reads (reads_local k)

theorem keepsImmutable_read {α : Type} (f : Engine → α) : KeepsImmutable (read f) :=
  keepsImmutable_of_reads (reads_read f)

theorem keepsImmutable_pop : KeepsImmutable Engine.pop :=
  keepsImmutable_of_process fun e => by unfold Engine.pop; split <;> rfl

theorem keepsImmutable_push (v : Value) : KeepsImmutable (push v) := keepsImmutable_of_process fun _ => rfl

theorem keepsImmutable_setLocal (k : Nat) (v : Value) : KeepsImmutable (setLocal k v) :=
  keepsImmutable_of_process fun e => by unfold setLocal; split <;> rfl

theorem keepsImmutable_setTop (v : Value) : KeepsImmutable (setTop v) := keepsImmutable_setLocal 0 v

theorem keepsImmutable_drop (k : Nat) : KeepsImmutable (drop k) :=
  keepsImmutable_of_process fun e => by unfold drop; split <;> rfl

theorem keepsImmutable_advance (d : Int) : KeepsImmutable (advance d) :=
  keepsImmutable_of_process fun e => by unfold advance; split <;> rfl

theorem keepsImmutable_goto (b : Nat) : KeepsImmutable (goto b) := keepsImmutable_of_process fun _ => rfl

theorem keepsImmutable_pushReturnAddress (offset : Nat) : KeepsImmutable (pushReturnAddress offset) :=
  keepsImmutable_of_process fun _ => rfl

theorem keepsImmutable_popReturnAddress : KeepsImmutable popReturnAddress :=
  keepsImmutable_bind keepsImmutable_pop fun v => by
    cases v <;> first | exact keepsImmutable_goto _ | exact keepsImmutable_fatal _

theorem keepsImmutable_branch (t f : Int) : KeepsImmutable (branch P t f) :=
  keepsImmutable_bind keepsImmutable_pop fun _ => keepsImmutable_advance _

theorem keepsImmutable_restoreState : KeepsImmutable restoreState :=
  keepsImmutable_of_process fun e => by unfold restoreState; split <;> rfl

theorem keepsImmutable_saveState : KeepsImmutable saveState := fun _ he => he.setStack _

theorem keepsImmutable_setStatic (index : Int) (v : Value) : KeepsImmutable (setStatic index v) := by
  intro e he
  unfold setStatic
  split
  · exact he.congr rfl
  · exact he

theorem keepsImmutable_stackLimit (limit : Nat) :
    KeepsImmutable (modify fun e => { e with process := { e.process with stackLimit := limit } }) :=
  keepsImmutable_modify fun _ => rfl

theorem keepsImmutable_stackOverflowCheck (size : Int) : KeepsImmutable (Engine.stackOverflowCheck R size) := by
  unfold Engine.stackOverflowCheck hasStackSpaceFor
  repeat' (first
    | with_reducible apply keepsImmutable_bind
    | with_reducible intro _
    | with_reducible exact keepsImmutable_pure _
    | with_reducible exact keepsImmutable_read _
    | with_reducible exact keepsImmutable_saveState
    | with_reducible exact keepsImmutable_restoreState
    | exact keepsImmutable_stackLimit _
    | split)

theorem keepsImmutable_pollStack (size : Int) : KeepsImmutable (pollStack R size) :=
  keepsImmutable_bind (keepsImmutable_stackOverflowCheck size) fun b => by
    cases b
    · exact keepsImmutable_stop _
    · exact keepsImmutable_pure _

theorem keepsImmutable_collectGarbage (hgc : R.PreservesIdentity) : KeepsImmutable (collectGarbage R) :=
  keepsImmutable_bind keepsImmutable_saveState fun _ =>
    keepsImmutable_bind (keepsImmutable_modify fun e => by rw [hgc]) fun _ => keepsImmutable_restoreState

theorem keepsImmutable_retryOnAllocationFailure (hgc : R.PreservesIdentity) {α : Type} (o : Option α) :
    KeepsImmutable (retryOnAllocationFailure R o) := by
  cases o
  · exact keepsImmutable_bind (keepsImmutable_collectGarbage hgc) fun _ => keepsImmutable_stop _
  · exact keepsImmutable_pure _

theorem keepsImmutable_retryOnNativeFailure (hgc : R.PreservesIdentity) (r : NativeResult) :
    KeepsImmutable (retryOnNativeFailure R r) :=
  keepsImmutable_retryOnAllocationFailure hgc _

theorem keepsImmutable_callNative (hn : R.NativesKeep P fun p q => p.DeepImmutable → q.DeepImmutable)
    (a : Allocation) (native : Nat) (arguments : List Value) :
    KeepsImmutable (callNative P R a native arguments) := by
  intro e he
  unfold callNative
  split
  · exact hn _ _ _ _ _ _ ‹_› he
  · exact he

/-! ## Objects -/

theorem keepsImmutable_bodyOf (v : Value) : KeepsImmutable (bodyOf v) := keepsImmutable_of_reads (reads_bodyOf v)

theorem body?_of_bodyOf {v : Value} {b : Body} {e' : Engine} (h : bodyOf v e = .ok b e') :
    e.process.body? v = some b := by
  unfold bodyOf at h
  rw [bind_apply, read_apply, Result.ok_bind] at h
  cases hb : e.process.body? v <;> rw [hb] at h <;> cases h
  rfl

theorem keepsImmutable_setBoxedValue (v value : Value) : KeepsImmutable (setBoxedValue v value) := by
  intro e he
  unfold setBoxedValue
  refine reads_bind_keepsImmutable (reads_bodyOf v) (fun b hb => ?_) he
  cases b <;> try exact he
  cases v with
  | heap a => exact he.setBody (body?_of_bodyOf hb) rfl rfl
  | _ => exact he

/-- `SetInstanceField` on an instance: the field is written when there is one. -/
theorem setInstanceField_instance {a i : Nat} {fields : List Value} {flag : Bool} {value : Value}
    (hb : e.process.body? (.heap a) = some (.instance fields flag)) :
    setInstanceField (.heap a) i value e =
      if i < fields.length then .ok () { e with process := e.process.setBody a (.instance (fields.set i value) flag) }
      else .stop (.fatal "field index out of range") e := by
  simp only [setInstanceField, bind_apply, bodyOf_of_body hb, Result.ok_bind]
  split <;> rfl

/-- `SetInstanceField` keeps `DeepImmutable` when the instance is not flagged or the value is
immutable. -/
theorem setInstanceField_keepsImmutable {v value : Value} (i : Nat) (he : e.process.DeepImmutable)
    (hv : ∀ fields, e.process.body? v = some (.instance fields true) → isImmutable e.process value = true) :
    (setInstanceField v i value e).engine.process.DeepImmutable := by
  unfold setInstanceField
  refine reads_bind_keepsImmutable (reads_bodyOf v) (fun b hb => ?_) he
  cases b <;> try exact he
  rename_i fields flag
  have hb := body?_of_bodyOf hb
  dsimp only
  split
  · cases v with
    | heap a =>
      refine he.setBody hb rfl ?_
      cases flag
      · rfl
      · obtain ⟨o, ho, hbody⟩ := Option.map_eq_some'.mp hb
        have hall := he o (List.mem_iff_getElem?.mpr ⟨a, ho⟩)
        rw [hbody] at hall
        simp only [Body.holdsImmutable, List.all_eq_true] at hall ⊢
        intro x hx
        rcases List.mem_or_eq_of_mem_set hx with hx | rfl
        · exact hall x hx
        · exact hv fields hb
    | _ => exact he
  · exact he

theorem keepsImmutable_newBoxed (a : Allocation) (value : Value) : KeepsImmutable (newBoxed P a value) := by
  intro e he
  cases a
  · exact he.allocate rfl
  · exact he

end Leaves

end Engine

/-- Whether `StoreField` here stores an immutable value, or into an object that is not an
instance flagged immutable. -/
def Engine.storeFieldSafe (e : Engine) : Bool :=
  match e.sp with
  | value :: target :: _ =>
      match e.process.body? target with
      | some (.instance _ true) => isImmutable e.process value
      | _ => true
  | _ => true

/-- Whether the opcode at `bcp` is anything but a `StoreField` that would store a mutable value
into an instance flagged immutable. -/
def Engine.storesSafely (P : Program) (e : Engine) : Bool :=
  match Opcode.ofByte (P.code e.bcp) with
  | some .storeField => e.storeFieldSafe
  | _ => true

namespace Interpret

variable {P : Program} {R : Runtime} {e : Engine}

/-! ## The allocations -/

theorem body?_setBody_self {p : Process} {a : Nat} {b₀ : Body} (h : p.body? (.heap a) = some b₀)
    (b : Body) : (p.setBody a b).body? (.heap a) = some b := by
  obtain ⟨o, ho, -⟩ := Option.map_eq_some'.mp h
  simp [Process.body?, Process.getElem?_setBody, ho]

/-- The pop loop into an instance that is not flagged immutable keeps `DeepImmutable`. -/
theorem popFields_mutable {a : Nat} : ∀ (n : Nat) {e : Engine} {fields : List Value},
    e.process.DeepImmutable → e.process.body? (.heap a) = some (.instance fields false) →
      (popFields (.heap a) n e).engine.process.DeepImmutable
  | 0, _, _, he, _ => he
  | n + 1, e, fields, he, hb => by
    rw [popFields, bind_apply]
    cases hsp : e.sp with
    | nil =>
      have hpop : Engine.pop e = .stop (.fatal "stack underflow") e := by simp [Engine.pop, hsp]
      rw [hpop]
      exact he
    | cons v rest =>
      rw [pop_cons hsp, Result.ok_bind, bind_apply, setInstanceField_instance (e := { e with sp := rest }) hb]
      split
      · exact popFields_mutable n (he.setBody hb rfl rfl) (body?_setBody_self hb _)
      · exact he

/-- A failed allocation collects garbage and re-dispatches, before its pop loop. -/
theorem allocateInstance_retry_keepsImmutable (hgc : R.PreservesIdentity) (klass : Nat × Nat)
    (immutable : Bool) (length : Nat) (he : e.process.DeepImmutable) :
    (allocateInstance P R .retryAfterGc klass immutable length e).engine.process.DeepImmutable := by
  have hgc' := keepsImmutable_collectGarbage hgc e he
  simp only [allocateInstance, newInstance, retryOnAllocationFailure, bind_apply, Result.ok_bind]
  cases h : collectGarbage R e <;> rw [h] at hgc' <;> exact hgc'

theorem keepsImmutable_allocateInstance_mutable (hgc : R.PreservesIdentity) (a : Allocation)
    (klass : Nat × Nat) (length : Nat) : KeepsImmutable (allocateInstance P R a klass false length) := by
  intro e he
  cases a with
  | retryAfterGc => exact allocateInstance_retry_keepsImmutable hgc _ _ _ he
  | succeeds =>
    simp only [allocateInstance, newInstance, Process.allocate, retryOnAllocationFailure, bind_apply,
      Result.ok_bind, pure_apply]
    exact bind_keepsImmutable (popFields_mutable _ (he.allocate rfl) (by simp [Process.body?]; rfl))
      fun _ => keepsImmutable_bind (keepsImmutable_push _) fun _ => keepsImmutable_advance _

/-- An allocation whose operands are all immutable keeps `DeepImmutable`, whatever its flag. -/
theorem allocateInstance_checked_keepsImmutable (hgc : R.PreservesIdentity) {klass : Nat × Nat}
    {immutable : Bool} {length : Nat} {ws below : List Value} (hsp : e.sp = ws ++ below)
    (hn : ws.length = klass.2) (hws : ∀ v ∈ ws, isImmutable e.process v = true)
    (he : e.process.DeepImmutable) (a : Allocation) :
    (allocateInstance P R a klass immutable length e).engine.process.DeepImmutable := by
  cases a with
  | retryAfterGc => exact allocateInstance_retry_keepsImmutable hgc _ _ _ he
  | succeeds =>
    rw [allocateInstance_succeeds hsp hn]
    refine he.append rfl fun o ho => ?_
    rw [List.mem_singleton.mp ho]
    cases immutable
    · rfl
    · simpa [Body.holdsImmutable, List.all_eq_true] using hws

/-- The scan of `AllocateImmutable` answers `true` only after reading `count` slots, all of
them immutable. -/
theorem localsImmutable_true : ∀ (count start : Nat) {e e' : Engine},
    localsImmutable start count e = .ok true e' →
      ((e.sp.drop start).take count).length = count ∧
        ∀ v ∈ (e.sp.drop start).take count, isImmutable e.process v = true
  | 0, _, _, _, _ => by simp
  | count + 1, start, e, e', h => by
    have hs : start < e.sp.length := by
      by_contra hs
      have hl : «local» start e = .stop (.fatal "stack underflow") e := by
        simp [«local», List.getElem?_eq_none (Nat.le_of_not_lt hs), some?]
      rw [localsImmutable, bind_apply, hl] at h
      cases h
    rw [localsImmutable, bind_apply, local_of_getElem? (List.getElem?_eq_getElem hs), Result.ok_bind,
      bind_apply, read_apply, Result.ok_bind] at h
    rw [List.drop_eq_getElem_cons hs, List.take_succ_cons]
    cases hi : isImmutable e.process e.sp[start]
    · simp [hi] at h
    · simp only [hi, Bool.not_true] at h
      obtain ⟨hl, hall⟩ := localsImmutable_true count (start + 1) h
      refine ⟨by simp [hl], fun v hv => ?_⟩
      rcases List.mem_cons.mp hv with rfl | hv
      exacts [hi, hall v hv]

/-- The end of the two immutable allocations: the flag the scan answered, then the allocation. -/
theorem allocateScanned_keepsImmutable (hgc : R.PreservesIdentity) (a : Allocation) (klass : Nat × Nat)
    (length : Nat) (he : e.process.DeepImmutable) :
    ((localsImmutable 0 klass.2 >>= fun immutable => allocateInstance P R a klass immutable length) e).engine.process.DeepImmutable := by
  refine reads_bind_keepsImmutable (reads_localsImmutable _ _) (fun flag hflag => ?_) he
  cases flag
  · exact keepsImmutable_allocateInstance_mutable hgc _ _ _ e he
  · obtain ⟨hl, hall⟩ := localsImmutable_true _ _ hflag
    rw [List.drop_zero] at hl hall
    exact allocateInstance_checked_keepsImmutable hgc (List.take_append_drop _ _).symm hl hall he _

theorem keepsImmutable_allocateImmutable (hgc : R.PreservesIdentity) (a : Allocation) :
    KeepsImmutable (allocateImmutable P R a) := fun _ he =>
  reads_bind_keepsImmutable (reads_read _) (fun _ _ =>
    reads_bind_keepsImmutable (reads_classAt _) (fun _ _ => allocateScanned_keepsImmutable hgc a _ _ he) he) he

theorem keepsImmutable_allocateImmutableUnfold (hgc : R.PreservesIdentity) (a : Allocation) :
    KeepsImmutable (allocateImmutableUnfold P R a) := fun _ he =>
  reads_bind_keepsImmutable (reads_read _) (fun _ _ =>
    reads_bind_keepsImmutable (reads_classOf _) (fun _ _ => allocateScanned_keepsImmutable hgc a _ _ he) he) he

/-! ## `StoreField` and `Throw` -/

/-- `StoreField` keeps `DeepImmutable` when it stores an immutable value or into an object that
is not an instance flagged immutable. -/
theorem storeField_keepsImmutable (he : e.process.DeepImmutable) (hs : e.storeFieldSafe = true) :
    (storeField P e).engine.process.DeepImmutable := by
  unfold storeField
  match hsp : e.sp with
  | [] =>
    have hpop : Engine.pop e = .stop (.fatal "stack underflow") e := by simp [Engine.pop, hsp]
    rw [bind_apply, hpop]
    exact he
  | [_] =>
    rw [bind_apply, pop_cons hsp, Result.ok_bind, bind_apply]
    exact he
  | value :: target :: rest =>
    rw [bind_apply, pop_cons hsp, Result.ok_bind, bind_apply, pop_cons (e := { e with sp := target :: rest }) rfl,
      Result.ok_bind, bind_apply, readByte_apply, Result.ok_bind]
    refine bind_keepsImmutable (setInstanceField_keepsImmutable _ he fun fields hb => ?_)
      fun _ => keepsImmutable_bind (keepsImmutable_push _) fun _ => keepsImmutable_advance _
    simpa [Engine.storeFieldSafe, hsp, hb] using hs

/-- Nothing checks the flag: `StoreField 0` of a boxed cell into an immutable instance. -/
example : ¬ (storeField { pairProgram with code := fun a => [Opcode.storeField.toByte, 0].getD a 0 }
    { process := { pairEngine.process with heap := [⟨0, .instance [.smi 0] true⟩, ⟨1, .boxed (.smi 0)⟩] },
      sp := [.heap 1, .heap 0], bcp := 0 }).engine.process.DeepImmutable := by
  decide

theorem handleThrow_keepsImmutable : ∀ (fuel : Nat) {p : Process}, p.DeepImmutable →
    (handleThrow R fuel p).2.DeepImmutable
  | 0, _, hp => hp
  | fuel + 1, p, hp => by
    unfold handleThrow
    split
    · exact hp
    · split
      · exact hp
      · split
        · exact hp
        · split
          · exact hp
          · exact handleThrow_keepsImmutable fuel (hp.abandon _)

theorem keepsImmutable_throw : KeepsImmutable (throw R) := by
  intro e he
  cases hsp : e.sp with
  | nil =>
    have h : throw R e = .stop (.fatal "stack underflow") e := by simp [throw, «local», hsp]
    rw [h]
    exact he
  | cons x rest =>
    rw [throw_process hsp]
    exact handleThrow_keepsImmutable _ (he.setStack _)

/-! ## The opcodes -/

/-- Every opcode but `StoreField`, `Throw` and the two immutable allocations keeps
`DeepImmutable`: what it writes into an object is a boxed cell's value, a new object that is
not flagged immutable, or a coroutine's stack or caller. -/
theorem keepsImmutable_execute (hgc : R.PreservesIdentity)
    (hn : R.NativesKeep P fun p q => p.DeepImmutable → q.DeepImmutable) (a : Allocation) :
    ∀ op : Opcode, op ≠ .storeField → op ≠ .throw → op ≠ .allocateImmutable →
      op ≠ .allocateImmutableUnfold → KeepsImmutable (execute P R a op) := by
  intro op h₁ h₂ h₃ h₄
  cases op <;> (try exact absurd rfl h₁) <;> (try exact absurd rfl h₂) <;> (try exact absurd rfl h₃) <;>
    (try exact absurd rfl h₄) <;>
  dsimp only [execute, loadLocal0, loadLocal1, loadLocal2, loadLocal, loadLocalAt, loadBoxed, loadStatic,
    loadStaticInit, loadField, loadConst, loadConstUnfold, storeLocal, storeBoxed, storeStatic,
    pushLiteral, loadLiteralNull, loadLiteralTrue, loadLiteralFalse, loadLiteral0, loadLiteral1,
    loadLiteral, loadLiteralWide, invokeMethod, invokeMethodFast, invokeMethodVtable, invokeStatic,
    invokeStaticUnfold, invokeNative, invokeNativeYield, invokeTest, invokeTestFast, invokeTestVtable,
    Interpret.pop, «return», branchLong, branchIfTrueLong, branchIfFalseLong, branchBack,
    branchBackIfTrue, branchBackIfFalse, branchBackLong, branchBackIfTrueLong, branchBackIfFalseLong,
    popAndBranchLong, popAndBranchBackLong, Interpret.allocate, allocateUnfold, allocateBoxed, negate,
    Interpret.stackOverflowCheck, processYield, coroutineChange, identical, identicalNonNumeric,
    enterNoSuchMethod, exitNoSuchMethod, subroutineCall, subroutineReturn, frameSize, methodEnd, pushDelta,
    popDelta, boxedValue, instanceField, coroutineOf, address] <;>
  repeat' (first
    | with_reducible apply keepsImmutable_bind
    | with_reducible intro _
    | split
    | with_reducible exact keepsImmutable_local _
    | with_reducible exact keepsImmutable_read _
    | with_reducible exact keepsImmutable_advance _
    | with_reducible exact keepsImmutable_push _
    | with_reducible exact keepsImmutable_setTop _
    | with_reducible exact keepsImmutable_setLocal _ _
    | with_reducible exact keepsImmutable_pop
    | with_reducible exact keepsImmutable_drop _
    | with_reducible exact keepsImmutable_goto _
    | with_reducible exact keepsImmutable_pushReturnAddress _
    | with_reducible exact keepsImmutable_popReturnAddress
    | with_reducible exact keepsImmutable_pollStack _
    | with_reducible exact keepsImmutable_branch _ _
    | with_reducible exact keepsImmutable_saveState
    | with_reducible exact keepsImmutable_restoreState
    | with_reducible exact keepsImmutable_bodyOf _
    | with_reducible exact keepsImmutable_setStatic _ _
    | with_reducible exact keepsImmutable_setBoxedValue _ _
    | with_reducible exact keepsImmutable_newBoxed _ _
    | with_reducible exact keepsImmutable_callNative hn _ _ _
    | with_reducible exact keepsImmutable_retryOnAllocationFailure hgc _
    | with_reducible exact keepsImmutable_retryOnNativeFailure hgc _
    | with_reducible exact keepsImmutable_allocateInstance_mutable hgc _ _ _
    | with_reducible exact keepsImmutable_pure _
    | with_reducible exact keepsImmutable_stop _
    | with_reducible exact keepsImmutable_fatal _
    | with_reducible exact keepsImmutable_some? _ _
    | with_reducible exact keepsImmutable_of_reads (reads_nativeArguments _)
    | with_reducible exact keepsImmutable_of_reads (reads_staticAt _)
    | with_reducible exact keepsImmutable_of_reads (reads_element _ _)
    | with_reducible exact keepsImmutable_of_reads (reads_functionEntry _)
    | with_reducible exact keepsImmutable_of_reads (reads_arrayElements _)
    | with_reducible exact keepsImmutable_of_reads (reads_classOf _)
    | with_reducible exact keepsImmutable_of_reads (reads_classAt _)
    | with_reducible exact keepsImmutable_of_reads (reads_classIdOf _)
    | with_reducible exact keepsImmutable_of_reads (reads_lookupEntry _ _)
    | with_reducible exact keepsImmutable_of_reads (reads_smiValue _)
    | exact keepsImmutable_modify fun _ => rfl)

/-- Every opcode keeps `DeepImmutable`; `StoreField` when it stores an immutable value or into
an object that is not an instance flagged immutable. -/
theorem execute_keepsImmutable (hgc : R.PreservesIdentity)
    (hn : R.NativesKeep P fun p q => p.DeepImmutable → q.DeepImmutable) (a : Allocation) (op : Opcode)
    (he : e.process.DeepImmutable) (hs : op = .storeField → e.storeFieldSafe = true) :
    (execute P R a op e).engine.process.DeepImmutable := by
  by_cases h₁ : op = .storeField
  · subst h₁
    exact storeField_keepsImmutable he (hs rfl)
  by_cases h₂ : op = .throw
  · subst h₂
    exact keepsImmutable_throw e he
  by_cases h₃ : op = .allocateImmutable
  · subst h₃
    exact keepsImmutable_allocateImmutable hgc a e he
  by_cases h₄ : op = .allocateImmutableUnfold
  · subst h₄
    exact keepsImmutable_allocateImmutableUnfold hgc a e he
  exact keepsImmutable_execute hgc hn a op h₁ h₂ h₃ h₄ e he

/-! ## Runs -/

variable (P R) in
/-- The engines a run of the dispatch loop dispatches from, in order. -/
def loopVisits : (fuel : Nat) → (answers : List Allocation) → (noBreak : Bool) → Engine → List Engine
  | 0, _, _, _ => []
  | fuel + 1, answers, noBreak, e =>
      e :: match dispatch P R noBreak (answers.headD .succeeds) e with
        | .ok () e' => loopVisits fuel answers.tail false e'
        | .stop .redispatch e' => loopVisits fuel answers.tail false e'
        | .stop _ _ => []

variable (P R) in
/-- The engines a run of `Interpret` dispatches from, in order. -/
def visits (fuel : Nat) (answers : List Allocation) (e : Engine) : List Engine :=
  match isAtBreakPoint e with
  | .ok noBreak e' => loopVisits P R fuel answers noBreak e'
  | .stop _ _ => []

section Runs

variable (hgc : R.PreservesIdentity) (hn : R.NativesKeep P fun p q => p.DeepImmutable → q.DeepImmutable)
include hgc hn

/-- A dispatch keeps `DeepImmutable` unless it is a `StoreField` that stores a mutable value into
an instance flagged immutable: the breakpoint gate only saves the state. -/
theorem dispatch_keepsImmutable (noBreak : Bool) (a : Allocation) (he : e.process.DeepImmutable)
    (hs : e.storesSafely P = true) : (dispatch P R noBreak a e).engine.process.DeepImmutable := by
  rw [dispatch_eq]
  split
  · exact (he.setStack _).congr rfl
  · split
    · rename_i op hop
      exact execute_keepsImmutable hgc hn a op he fun h => by
        subst h
        simpa [Engine.storesSafely, hop] using hs
    · exact he

theorem loop_keepsImmutable :
    ∀ {fuel : Nat} {answers : List Allocation} {noBreak : Bool} {e e' : Engine} {s : Stop},
      loop P R fuel answers noBreak e = some (s, e') → e.process.DeepImmutable →
        (∀ x ∈ loopVisits P R fuel answers noBreak e, x.storesSafely P = true) → e'.process.DeepImmutable
  | 0, _, _, _, _, _, h, _, _ => nomatch h
  | fuel + 1, answers, noBreak, e, e', s, h, he, hs => by
    have hd := dispatch_keepsImmutable hgc hn noBreak (answers.headD .succeeds) he
      (hs e (List.mem_cons_self _ _))
    simp only [loop] at h
    split at h <;> rename_i hx <;> rw [hx] at hd
    · exact loop_keepsImmutable h hd fun x hx' => hs x (by rw [loopVisits, hx]; exact List.mem_cons_of_mem _ hx')
    · exact loop_keepsImmutable h hd fun x hx' => hs x (by rw [loopVisits, hx]; exact List.mem_cons_of_mem _ hx')
    · cases h
      exact hd

/-- Every run of `Interpret` from a deeply immutable process stops in one, whatever stop ends
it, when no engine it dispatches from is at a `StoreField` that would store a mutable value
into an instance flagged immutable: `AllocateImmutable` flags only what holds immutable values,
and no other opcode, collection, native or coroutine switch writes into an instance. -/
theorem interpret_keeps_deepImmutable {fuel : Nat} {answers : List Allocation} {e e' : Engine}
    {s : Stop} (h : interpret P R fuel answers e = some (s, e')) (he : e.process.DeepImmutable)
    (hs : ∀ x ∈ visits P R fuel answers e, x.storesSafely P = true) : e'.process.DeepImmutable := by
  unfold interpret at h
  unfold visits at hs
  split at h
  · rename_i noBreak e₁ hb
    rw [hb] at hs
    have he₁ : e₁.process.DeepImmutable := by
      cases hd : e.process.debugInfo <;> simp [isAtBreakPoint, hd] at hb <;> obtain ⟨-, rfl⟩ := hb
      exacts [he, he.congr rfl]
    exact loop_keepsImmutable hgc hn h he₁ hs
  · rename_i hb
    cases hd : e.process.debugInfo <;> simp [isAtBreakPoint, hd] at hb

end Runs

end Interpret

/-- The natives of `ffi.cc` keep `DeepImmutable`: what they add to the heap holds an integer. -/
theorem Runtime.nativesKeepImmutable_of_ffi {P : Program} {R : Runtime}
    (hR : ∀ native, R.natives native ∈ Natives.ffi) :
    R.NativesKeep P fun p q => p.DeepImmutable → q.DeepImmutable :=
  fun native _ _ _ _ _ h => (Natives.ffi_natives_frame (hR native) h).1.deepImmutable

namespace Interpret

/-- `AllocateImmutable` of the pair `(1, 2)`, then a yield. -/
def pairThenYield : Program :=
  { pairProgram with
    code := fun a => [Opcode.allocateImmutable.toByte, 0, 0, 0, 0, Opcode.processYield.toByte].getD a 0 }

/-- The pair `(1, 2)` allocated immutable, then a yield; and `ForeignAllocate(16)` retried
after a collection, then a yield: each run stops deeply immutable. -/
theorem pairThenYield_stays_deepImmutable :
    (∃ s e', interpret pairThenYield plainRuntime 2 [] pairEngine = some (s, e') ∧
      e'.process.DeepImmutable) ∧
    ∃ s e', interpret allocateThenYield foreignAllocateRuntime 3 [.retryAfterGc] allocatingEngine =
      some (s, e') ∧ e'.process.DeepImmutable :=
  have h₁ : interpret pairThenYield plainRuntime 2 [] pairEngine = some (_, _) := rfl
  have h₂ : interpret allocateThenYield foreignAllocateRuntime 3 [.retryAfterGc] allocatingEngine =
      some (_, _) := rfl
  ⟨⟨_, _, h₁, interpret_keeps_deepImmutable (fun _ => rfl) (fun _ _ _ _ _ _ h => by cases h; exact id) h₁
      (by decide) (by decide)⟩,
    ⟨_, _, h₂, interpret_keeps_deepImmutable (fun _ => rfl)
      (Runtime.nativesKeepImmutable_of_ffi fun _ => by simp [Natives.ffi, foreignAllocateRuntime]) h₂
      (by decide) (by decide)⟩⟩

end Interpret

end Fletch
