import Fletch.Proofs.Basic

/-!
# What an opcode can do

Every opcode's body is a composition of the operations of `State.lean` and
`Interpreter.lean`. `Exec.Within K T m` bounds what a part of a body does: every run of
`m` changes the process only as the relation `K` allows, and every stop it makes is a
fatal error or one that `T` allows.

`Keeps K` lists what `K` must allow for the process updates the opcodes make: writing
the current stack, the statics, a field or a boxed value, allocating an object that is not
a coroutine, changing the stack limit, collecting garbage, and calling a native. From it,
one sweep over the opcodes gives `execute_within`: every opcode other than
`CoroutineChange` and `Throw` stays within `K` and stops only as `Opcode.MayStop` says.
Its two uses are `K` true everywhere, which gives the stops alone (`execute_stops`), and
the coroutine frame of `Coroutines.lean`.
-/

namespace Fletch

open Exec Engine

/-- The stops an opcode's body can make besides a fatal error: the stack poll of the calls
and the back branches, the GC retry of the allocating opcodes, the yields and the
uncaught exception. -/
def Opcode.MayStop : Opcode → Stop → Prop
  | .invokeMethod | .invoke _ | .invokeMethodFast | .invokeFast _ | .invokeMethodVtable
  | .invokeVtable _ | .invokeStatic | .invokeFactory | .invokeStaticUnfold
  | .invokeFactoryUnfold | .loadStaticInit | .branchBack | .branchBackIfTrue
  | .branchBackIfFalse | .branchBackLong | .branchBackIfTrueLong | .branchBackIfFalseLong
  | .popAndBranchBackLong | .stackOverflowCheck => fun s => s = .surrender .interrupt none
  | .allocate | .allocateUnfold | .allocateImmutable | .allocateImmutableUnfold
  | .allocateBoxed | .invokeNative => fun s => s = .redispatch
  | .invokeNativeYield => fun s => s = .redispatch ∨ ∃ v, s = .surrender .targetYield (some v)
  | .throw => fun s => s = .surrender .uncaughtException none ∨ s = .exit
  | .processYield => fun s => s = .surrender .terminate none ∨ s = .surrender .yield none
  | _ => fun _ => False

/-- The two opcodes that change which coroutine is current. -/
def Opcode.switchesCoroutine : Opcode → Bool
  | .coroutineChange | .throw => true
  | _ => false

/-- What an opcode's updates of the process must keep for `K`: `K` is a preorder, and it
holds across each kind of update an opcode other than `CoroutineChange` and `Throw` makes
itself. The collector and the natives are the runtime's, and are assumed separately. -/
structure Keeps (K : Process → Process → Prop) : Prop where
  refl : ∀ p, K p p
  trans : ∀ {p q r}, K p q → K q r → K p r
  setStack : ∀ p s, K p (p.setStack s)
  statics : ∀ p statics, K p { p with statics }
  setBody : ∀ p a b, p.coroutineAt? a = none → (∀ s c, b ≠ .coroutine s c) → K p (p.setBody a b)
  allocate : ∀ p o, (∀ s c, o.body ≠ .coroutine s c) → K p (p.allocate o).1
  stackLimit : ∀ p stackLimit, K p { p with stackLimit }

/-- The natives of `R` change the process only as `K` allows. -/
def Runtime.NativesKeep (P : Program) (R : Runtime) (K : Process → Process → Prop) : Prop :=
  ∀ n a arguments p r p', R.natives n R.platform P a arguments p = .ok (r, p') → K p p'

namespace Exec

/-- Every run of `m` changes the process only as `K` allows, and stops only with a fatal
error or a stop `T` allows. -/
structure Within {α : Type} (K : Process → Process → Prop) (T : Stop → Prop) (m : Exec α) :
    Prop where
  keeps : ∀ e, K e.process (m e).engine.process
  stops : ∀ e s e', m e = .stop s e' → (∃ message, s = .fatal message) ∨ T s

/-- A computation that allows no stop stops only fatally. -/
theorem Within.fatal_of_stop {α : Type} {K : Process → Process → Prop} {m : Exec α} {e e' : Engine}
    {s : Stop} (hm : Within K (fun _ => False) m) (h : m e = .stop s e') : ∃ message, s = .fatal message :=
  (hm.stops _ _ _ h).resolve_right id

theorem Within.not_stop {α : Type} {K : Process → Process → Prop} {m : Exec α} {e e' : Engine}
    {s : Stop} (hm : Within K (fun _ => False) m) (h : m e = .stop s e') (hs : ∀ message, s ≠ .fatal message) :
    False :=
  (hm.fatal_of_stop h).elim hs

section Combinators

variable {K : Process → Process → Prop} {T : Stop → Prop} {α β : Type} (hK : Keeps K)
include hK

theorem within_pure (a : α) : Within K T (pure a) := ⟨fun _ => hK.refl _, fun _ _ _ h => nomatch h⟩

theorem within_bind {m : Exec α} {f : α → Exec β} (hm : Within K T m)
    (hf : ∀ a, Within K T (f a)) : Within K T (m >>= f) := by
  constructor
  · intro e
    have hk := hm.keeps e
    simp only [bind_apply]
    cases h : m e with
    | ok a e₁ => rw [h] at hk; exact hK.trans hk ((hf a).keeps e₁)
    | stop s e₁ => rw [h] at hk; exact hk
  · intro e s e' h'
    simp only [bind_apply] at h'
    cases h : m e with
    | ok a e₁ => rw [h] at h'; exact (hf a).stops _ _ _ h'
    | stop s₁ e₁ => rw [h] at h'; cases h'; exact hm.stops _ _ _ h

/-- A part that changes the process as `K` allows and stops only with a fatal error. -/
theorem within_of_update {m : Exec α}
    (h : ∀ e, (∃ a e', m e = .ok a e' ∧ K e.process e'.process) ∨ ∃ msg, m e = .stop (.fatal msg) e) :
    Within K T m := by
  constructor
  · intro e
    rcases h e with ⟨a, e', h1, hp⟩ | ⟨msg, h1⟩ <;> rw [h1]
    · exact hp
    · exact hK.refl _
  · intro e s e' h'
    rcases h e with ⟨a, e₁, h1, -⟩ | ⟨msg, h1⟩ <;> rw [h1] at h'
    · cases h'
    · cases h'; exact .inl ⟨msg, rfl⟩

/-- A part that keeps the process and stops only with a fatal error. -/
theorem within_of_local {m : Exec α}
    (h : ∀ e, (m e).engine.process = e.process ∧ ∀ s e', m e = .stop s e' → ∃ msg, s = .fatal msg) :
    Within K T m :=
  ⟨fun e => (h e).1 ▸ hK.refl _, fun e s e' h' => .inl ((h e).2 s e' h')⟩

theorem within_read (f : Engine → α) : Within K T (read f) :=
  within_of_local hK fun _ => ⟨rfl, fun _ _ h => nomatch h⟩

theorem within_stop {s : Stop} (h : T s) : Within K T (stop s : Exec α) :=
  ⟨fun _ => hK.refl _, fun _ _ _ h' => by cases h'; exact .inr h⟩

theorem within_fatal (message : String) : Within K T (fatal message : Exec α) :=
  within_of_local hK fun _ => ⟨rfl, fun _ _ h => by cases h; exact ⟨_, rfl⟩⟩

omit hK in
theorem within_modify {f : Engine → Engine} (hf : ∀ e, K e.process (f e).process) :
    Within K T (modify f) :=
  ⟨hf, fun _ _ _ h => nomatch h⟩

theorem within_some? (message : String) (x : Option α) : Within K T (some? message x) := by
  cases x
  · exact within_fatal hK _
  · exact within_pure hK _

end Combinators

end Exec

namespace Engine

section Leaves

variable {P : Program} {R : Runtime} {K : Process → Process → Prop} {T : Stop → Prop}
  (hK : Keeps K)
include hK

/-! ## The engine's own operations: the process unchanged -/

theorem within_goto (b : Nat) : Within K T (goto b) := within_of_local hK fun _ => ⟨rfl, fun _ _ h => nomatch h⟩

theorem within_push (v : Value) : Within K T (push v) := within_of_local hK fun _ => ⟨rfl, fun _ _ h => nomatch h⟩

theorem within_advance (d : Int) : Within K T (advance d) :=
  within_of_local hK fun e => by unfold advance; split <;> simp

theorem within_setLocal (n : Nat) (v : Value) : Within K T (setLocal n v) :=
  within_of_local hK fun e => by unfold setLocal; split <;> simp

theorem within_setTop (v : Value) : Within K T (setTop v) := within_setLocal hK 0 v

theorem within_pop : Within K T Engine.pop :=
  within_of_local hK fun e => by unfold Engine.pop; split <;> simp

theorem within_drop (n : Nat) : Within K T (drop n) :=
  within_of_local hK fun e => by unfold drop; split <;> simp

theorem within_restoreState : Within K T restoreState :=
  within_of_local hK fun e => by unfold restoreState; split <;> simp

theorem within_nativeArguments (n : Nat) : Within K T (nativeArguments n) :=
  within_of_local hK fun e => by unfold nativeArguments; split <;> simp

theorem within_element (xs : List Value) (i : Int) : Within K T (element xs i) := by
  unfold element
  split
  · exact within_some? hK _ _
  · exact within_fatal hK _

theorem within_local (n : Nat) : Within K T («local» n) :=
  within_bind hK (within_read hK _) fun _ => within_some? hK _ _

theorem within_readByte (offset : Nat) : Within K T (readByte P offset) := within_read hK _

theorem within_readInt32 (offset : Nat) : Within K T (readInt32 P offset) := within_read hK _

theorem within_readConstant : Within K T (readConstant P) := within_read hK _

theorem within_bodyOf (v : Value) : Within K T (bodyOf v) :=
  within_bind hK (within_read hK _) fun _ => within_some? hK _ _

theorem within_functionEntry (v : Value) : Within K T (functionEntry v) :=
  within_bind hK (within_bodyOf hK v) fun b => by
    cases b <;> first | exact within_pure hK _ | exact within_fatal hK _

theorem within_classIdOf (v : Value) : Within K T (classIdOf P v) :=
  within_bind hK (within_read hK _) fun _ => within_some? hK _ _

theorem within_pushReturnAddress (offset : Nat) : Within K T (pushReturnAddress offset) :=
  within_bind hK (within_read hK _) fun _ => within_push hK _

theorem within_popReturnAddress : Within K T popReturnAddress :=
  within_bind hK (within_pop hK) fun v => by
    cases v <;> first | exact within_goto hK _ | exact within_fatal hK _

theorem within_branch (t f : Int) : Within K T (branch P t f) :=
  within_bind hK (within_pop hK) fun _ => within_advance hK _

theorem within_smiValue (v : Value) : Within K T (smiValue v) := by
  cases v <;> first | exact within_pure hK _ | exact within_fatal hK _

theorem within_address (v : Value) : Within K T (address v) := by
  cases v <;> first | exact within_pure hK _ | exact within_fatal hK _

theorem within_localsImmutable : ∀ start count, Within K T (localsImmutable start count)
  | _, 0 => within_pure hK _
  | start, count + 1 =>
    within_bind hK (within_bind hK (within_read hK _) fun _ => within_some? hK _ _) fun _ =>
      within_bind hK (within_read hK _) fun _ => by
        split
        · exact within_pure hK _
        · exact within_localsImmutable (start + 1) count

/-! ## The process updates -/

theorem within_saveState : Within K T saveState := ⟨fun _ => hK.setStack _ _, fun _ _ _ h => nomatch h⟩

theorem within_setStatic (i : Int) (v : Value) : Within K T (setStatic i v) := by
  refine ⟨fun e => ?_, fun e s e' h => ?_⟩ <;> unfold setStatic at * <;> split at *
  · exact hK.statics _ _
  · exact hK.refl _
  · cases h
  · cases h; exact .inl ⟨_, rfl⟩

theorem within_setBoxedValue (v value : Value) : Within K T (setBoxedValue v value) := by
  refine within_of_update hK fun e => ?_
  simp only [setBoxedValue, bodyOf, bind_apply, read_apply, Result.ok_bind]
  cases hb : e.process.body? v with
  | none => exact .inr ⟨_, rfl⟩
  | some b =>
    cases b <;> try exact .inr ⟨_, rfl⟩
    cases v with
    | heap a =>
      exact .inl ⟨_, _, rfl, hK.setBody _ _ _ (Process.coroutineAt?_eq_none hb (by simp)) (by simp)⟩
    | _ => simp [Process.body?] at hb

theorem within_setInstanceField (v : Value) (i : Nat) (value : Value) :
    Within K T (setInstanceField v i value) := by
  refine within_of_update hK fun e => ?_
  simp only [setInstanceField, bodyOf, bind_apply, read_apply, Result.ok_bind]
  cases hb : e.process.body? v with
  | none => exact .inr ⟨_, rfl⟩
  | some b =>
    cases b <;> try exact .inr ⟨_, rfl⟩
    rename_i fields immutable
    by_cases hi : i < fields.length
    · cases v with
      | heap a =>
        refine .inl ⟨(), { e with process := e.process.setBody a (.instance (fields.set i value) immutable) },
          by simp [hi, address], ?_⟩
        exact hK.setBody _ _ _ (Process.coroutineAt?_eq_none hb (by simp)) (by simp)
      | _ => simp [Process.body?] at hb
    · exact .inr ⟨"field index out of range", by simp [hi, fatal]⟩

theorem within_popFields (object : Value) : ∀ fields, Within K T (popFields object fields)
  | 0 => within_pure hK _
  | i + 1 => within_bind hK (within_pop hK) fun _ =>
      within_bind hK (within_setInstanceField hK _ _ _) fun _ => within_popFields object i

theorem within_newInstance (a : Allocation) (klass : Nat × Nat) (immutable : Bool) :
    Within K T (newInstance P a klass immutable) :=
  within_of_update hK fun e => by
    cases a
    · exact .inl ⟨_, _, rfl, hK.allocate _ _ (by simp)⟩
    · exact .inl ⟨_, _, rfl, hK.refl _⟩

theorem within_newBoxed (a : Allocation) (value : Value) : Within K T (newBoxed P a value) :=
  within_of_update hK fun e => by
    cases a
    · exact .inl ⟨_, _, rfl, hK.allocate _ _ (by simp)⟩
    · exact .inl ⟨_, _, rfl, hK.refl _⟩

theorem within_callNative (hn : R.NativesKeep P K) (a : Allocation) (native : Nat)
    (arguments : List Value) : Within K T (callNative P R a native arguments) :=
  within_of_update hK fun e => by
    unfold callNative
    split
    · exact .inl ⟨_, _, rfl, hn _ _ _ _ _ _ ‹_›⟩
    · exact .inr ⟨_, rfl⟩

theorem within_stackOverflowCheck (size : Int) : Within K T (Engine.stackOverflowCheck R size) := by
  unfold Engine.stackOverflowCheck hasStackSpaceFor
  repeat' (first
    | with_reducible apply within_bind hK
    | intro _
    | with_reducible exact within_pure hK _
    | with_reducible exact within_read hK _
    | with_reducible exact within_saveState hK
    | with_reducible exact within_restoreState hK
    | exact within_modify fun _ => hK.stackLimit _ _
    | split)

theorem within_collectGarbage (hgc : ∀ p, K p (R.collectGarbage p)) :
    Within K T (collectGarbage R) :=
  within_bind hK (within_saveState hK) fun _ =>
    within_bind hK (within_modify fun e => hgc e.process) fun _ => within_restoreState hK

theorem within_retryOnAllocationFailure (hgc : ∀ p, K p (R.collectGarbage p)) {α : Type}
    (h : T .redispatch) (result : Option α) : Within K T (retryOnAllocationFailure R result) := by
  cases result
  · exact within_bind hK (within_collectGarbage hK hgc) fun _ => within_stop hK h
  · exact within_pure hK _

end Leaves

end Engine

namespace Interpret

open Opcode

variable {P : Program} {R : Runtime} {K : Process → Process → Prop}

/-- Every opcode other than `CoroutineChange` and `Throw` changes the process only as `K`
allows, and stops only with a fatal error or as `Opcode.MayStop` says. -/
theorem execute_within (hK : Keeps K) (hgc : ∀ p, K p (R.collectGarbage p))
    (hn : R.NativesKeep P K) (a : Allocation) :
    ∀ op : Opcode, op.switchesCoroutine = false → Within K op.MayStop (execute P R a op) := by
  intro op hop
  cases op <;> (try simp [switchesCoroutine] at hop) <;> dsimp only [execute] <;>
  repeat' (first
    | with_reducible apply within_bind hK
    | intro _
    | with_reducible exact within_local hK _
    | with_reducible exact within_readInt32 hK _
    | with_reducible exact within_readByte hK _
    | with_reducible exact within_push hK _
    | with_reducible exact within_advance hK _
    | with_reducible exact within_pure hK _
    | with_reducible exact within_fatal hK _
    | with_reducible exact within_setTop hK _
    | with_reducible exact within_pushReturnAddress hK _
    | with_reducible exact within_functionEntry hK _
    | with_reducible exact within_goto hK _
    | with_reducible exact within_element hK _ _
    | with_reducible exact within_classIdOf hK _
    | with_reducible exact within_bodyOf hK _
    | with_reducible exact within_readConstant hK
    | with_reducible exact within_read hK _
    | with_reducible exact within_pop hK
    | with_reducible exact within_drop hK _
    | with_reducible exact within_popReturnAddress hK
    | with_reducible exact within_branch hK _ _
    | with_reducible exact within_smiValue hK _
    | with_reducible exact within_setLocal hK _ _
    | with_reducible exact within_some? hK _ _
    | with_reducible exact within_saveState hK
    | with_reducible exact within_restoreState hK
    | with_reducible exact within_nativeArguments hK _
    | with_reducible exact within_localsImmutable hK _ _
    | with_reducible exact within_setStatic hK _ _
    | with_reducible exact within_setBoxedValue hK _ _
    | with_reducible exact within_setInstanceField hK _ _ _
    | with_reducible exact within_popFields hK _ _
    | with_reducible exact within_newInstance hK _ _ _
    | with_reducible exact within_newBoxed hK _ _
    | with_reducible exact within_callNative hK hn _ _ _
    | with_reducible exact within_stackOverflowCheck hK _
    | apply within_retryOnAllocationFailure hK hgc
    | exact rfl
    | exact Or.inl rfl
    | apply within_bind hK
    | exact within_push hK _
    | exact within_advance hK _
    | exact within_fatal hK _
    | exact within_stop hK rfl
    | exact within_stop hK (Or.inl rfl)
    | exact within_stop hK (Or.inr rfl)
    | exact within_stop hK (Or.inr ⟨_, rfl⟩)
    | dsimp only
    | split)

/-- Any relation on processes that holds everywhere is kept. -/
theorem keeps_true : Keeps fun _ _ => True :=
  ⟨fun _ => trivial, fun _ _ => trivial, fun _ _ => trivial, fun _ _ => trivial,
    fun _ _ _ _ _ => trivial, fun _ _ _ => trivial, fun _ _ => trivial⟩

theorem coroutineChange_stops : Within (fun _ _ => True) Opcode.coroutineChange.MayStop
    (coroutineChange P) := by
  unfold coroutineChange coroutineOf
  repeat' (first
    | with_reducible apply within_bind keeps_true
    | intro _
    | with_reducible exact within_local keeps_true _
    | with_reducible exact within_setLocal keeps_true _ _
    | with_reducible exact within_bodyOf keeps_true _
    | with_reducible exact within_address keeps_true _
    | with_reducible exact within_saveState keeps_true
    | with_reducible exact within_restoreState keeps_true
    | with_reducible exact within_advance keeps_true _
    | with_reducible exact within_drop keeps_true _
    | with_reducible exact within_fatal keeps_true _
    | exact within_setTop keeps_true _
    | exact within_modify fun _ => trivial
    | split)

theorem throw_stops : Within (fun _ _ => True) Opcode.throw.MayStop (throw R) := by
  unfold throw
  repeat' (first
    | with_reducible apply within_bind keeps_true
    | intro _
    | with_reducible exact within_local keeps_true _
    | with_reducible exact within_read keeps_true _
    | with_reducible exact within_saveState keeps_true
    | with_reducible exact within_restoreState keeps_true
    | with_reducible exact within_goto keeps_true _
    | with_reducible exact within_drop keeps_true _
    | with_reducible exact within_fatal keeps_true _
    | exact within_setTop keeps_true _
    | exact within_modify fun _ => trivial
    | exact within_stop keeps_true (Or.inl rfl)
    | exact within_stop keeps_true (Or.inr rfl)
    | split)

/-- Every stop of an opcode is a fatal error or one that `Opcode.MayStop` allows. -/
theorem execute_stops {a : Allocation} {op : Opcode} {e e' : Engine} {s : Stop}
    (h : execute P R a op e = .stop s e') : (∃ message, s = .fatal message) ∨ op.MayStop s := by
  cases hs : op.switchesCoroutine
  · exact (execute_within keeps_true (fun _ => trivial) (fun _ _ _ _ _ _ _ => trivial) a op hs).stops
      _ _ _ h
  · cases op <;> simp [switchesCoroutine] at hs
    · exact throw_stops.stops _ _ _ h
    · exact coroutineChange_stops.stops _ _ _ h

end Interpret

end Fletch
