import Fletch.Proofs.Coroutines
import Fletch.Proofs.Registry

/-!
# The heap over whole runs

The interpreter finds a method through the class of its receiver, and the lookup cache and
the dispatch tables are keyed by class ids, so an object must keep its class for as long as
it lives. `Process.KeepsClasses p q` says that `q` holds every object of `p` at the same
address and with the same class: the heap has only grown, and no object has changed class.

* `Interpret.interpret_keeps_classes`: every run of `Engine::Interpret`, whatever stop ends
  it (a fatal error included), keeps `KeepsClasses` from the process it starts in to the
  process it stops in, under a collector that keeps every value's identity and natives
  that keep `KeepsClasses`. Each opcode other than `Throw` and `CoroutineChange` keeps it by
  `execute_within`; the two that switch coroutines only rewrite coroutine objects.
* `Natives.ffi_natives_box`: every native of `ffi.cc` changes the process only in its C
  world and its finalizers, and by boxing integers in new `LargeInteger` objects at the end
  of the heap (`Process.Boxes`). Such a native keeps the coroutines (`SameCoroutines`, so
  `Runtime.nativesKeepCoroutines_of_ffi`, the assumption of the coroutine invariant) and
  `KeepsClasses`.
-/

namespace Fletch

open Exec Engine Interpret

namespace Process

/-- The class id of every object of the heap, by address. -/
def classes (p : Process) : List Nat := p.heap.map HeapObject.classId

@[simp] theorem classes_setBody (p : Process) (a : Nat) (b : Body) :
    (p.setBody a b).classes = p.classes := by
  refine List.ext_getElem? fun n => ?_
  rw [classes, classes, List.getElem?_map, List.getElem?_map, getElem?_setBody]
  split <;> simp [Option.map_map, Function.comp_def]

@[simp] theorem classes_setCoroutineStack (p : Process) (a : Nat) (s : Option (List Value)) :
    (p.setCoroutineStack a s).classes = p.classes := by
  unfold setCoroutineStack; split <;> simp

@[simp] theorem classes_setStack (p : Process) (s : List Value) : (p.setStack s).classes = p.classes :=
  classes_setCoroutineStack _ _ _

@[simp] theorem classes_setCoroutineCaller (p : Process) (a caller : Nat) :
    (p.setCoroutineCaller a caller).classes = p.classes := by
  unfold setCoroutineCaller; split <;> simp

@[simp] theorem classes_updateCoroutine (p : Process) (c : Nat) :
    (p.updateCoroutine c).classes = p.classes := rfl

theorem classes_allocate (p : Process) (o : HeapObject) :
    (p.allocate o).1.classes = p.classes ++ [o.classId] := by
  simp [allocate, classes]

/-- `q` holds every object of `p` at its address, with its class. -/
def KeepsClasses (p q : Process) : Prop := p.classes <+: q.classes

theorem keepsClasses_keeps : Keeps KeepsClasses where
  refl p := List.prefix_refl _
  trans := List.IsPrefix.trans
  setStack p s := by simp [KeepsClasses]
  statics p _ := List.prefix_refl _
  setBody p a b _ _ := by simp [KeepsClasses]
  allocate p o _ := by rw [KeepsClasses, classes_allocate]; exact List.prefix_append _ _
  stackLimit p _ := List.prefix_refl _

end Process

open Process

/-! ## The natives of `ffi.cc` -/

namespace Process

/-- What a native of `ffi.cc` does to the process: it changes the C world and the
finalizers, and boxes integers in new `LargeInteger` objects at the end of the heap. The
statics, the coroutines, the stack limit and every object already there are as they were. -/
def Boxes (P : Program) (p q : Process) : Prop :=
  ∃ (world : World) (finalizers : List Value) (boxed : List Int),
    q = { p with world, finalizers, heap := p.heap ++ boxed.map fun n =>
      ⟨P.largeIntegerClass, .largeInteger n⟩ }

variable {P : Program} {p q r : Process}

theorem Boxes.refl (P : Program) (p : Process) : Boxes P p p := ⟨p.world, p.finalizers, [], by simp⟩

theorem Boxes.trans (h₁ : Boxes P p q) (h₂ : Boxes P q r) : Boxes P p r := by
  obtain ⟨w₁, f₁, b₁, rfl⟩ := h₁
  obtain ⟨w₂, f₂, b₂, rfl⟩ := h₂
  exact ⟨w₂, f₂, b₁ ++ b₂, by simp⟩

theorem Boxes.world (h : Boxes P p q) (world : World) : Boxes P p { q with world } :=
  h.trans ⟨world, q.finalizers, [], by simp⟩

theorem Boxes.finalizers (h : Boxes P p q) (finalizers : List Value) : Boxes P p { q with finalizers } :=
  h.trans ⟨q.world, finalizers, [], by simp⟩

theorem Boxes.toInteger (h : Boxes P p q) (pl : Platform) (a : Allocation) (v : Int) :
    Boxes P p (q.toInteger pl P a v).2 := by
  refine h.trans ?_
  unfold Process.toInteger
  split
  · exact .refl P q
  · cases a <;> first | exact .refl P q | exact ⟨q.world, q.finalizers, [v], by simp [allocate]⟩

theorem Boxes.asForeignString {p₁ : Process} {v : Value} {x : Process × Nat} (h : Boxes P p p₁)
    (hx : Natives.asForeignString p₁ v = .ok x) : Boxes P p x.1 := by
  unfold Natives.asForeignString at hx
  split at hx
  · cases hx; exact h.world _
  · cases hx

theorem Boxes.keepsClasses (h : Boxes P p q) : p.KeepsClasses q := by
  obtain ⟨w, f, b, rfl⟩ := h
  refine ⟨b.map fun _ => P.largeIntegerClass, ?_⟩
  simp only [classes, List.map_append, List.map_map]
  rfl

/-- A boxed integer is not a coroutine, so the coroutines are as they were. -/
theorem Boxes.sameCoroutines (h : Boxes P p q) : p.SameCoroutines q := by
  obtain ⟨w, f, b, rfl⟩ := h
  refine ⟨rfl, fun a => ?_⟩
  simp only [coroutineAt?]
  rcases Nat.lt_or_ge a p.heap.length with ha | ha
  · rw [List.getElem?_append_left ha]
  · rw [List.getElem?_append_right ha, List.getElem?_eq_none ha, List.getElem?_map]
    cases b[a - p.heap.length]? <;> rfl

end Process

/-- The value of a successful `pure` that returns a result and a process. -/
theorem snd_of_ok {ε α β : Type} {x : α × β} {a : α} {b : β}
    (h : (Except.ok x : Except ε (α × β)) = .ok (a, b)) : x.2 = b :=
  congrArg Prod.snd (Except.ok.inj h)

theorem fst_of_ok {ε α β : Type} {x : α × β} {a : α} {b : β}
    (h : (Except.ok x : Except ε (α × β)) = .ok (a, b)) : x.1 = a :=
  congrArg Prod.fst (Except.ok.inj h)

theorem Except.bind_eq_ok {ε α β : Type} {x : Except ε α} {f : α → Except ε β} {b : β}
    (h : x >>= f = .ok b) : ∃ a, x = .ok a ∧ f a = .ok b := by
  cases x with
  | error => cases h
  | ok a => exact ⟨a, rfl, h⟩

namespace Natives

variable {pl : Platform} {P : Program} {a : Allocation} {arguments : List Value} {p q : Process}
  {r : NativeResult}

theorem foreignAllocate_boxes (h : foreignAllocate pl P a arguments p = .ok (r, q)) : Boxes P p q := by
  obtain ⟨_, -, h⟩ := Except.bind_eq_ok h
  obtain ⟨_, -, h⟩ := Except.bind_eq_ok h
  rw [← snd_of_ok h]
  exact ((Boxes.refl P p).world _).toInteger _ _ _

theorem foreignFree_boxes (h : foreignFree pl P a arguments p = .ok (r, q)) : Boxes P p q := by
  obtain ⟨_, -, h⟩ := Except.bind_eq_ok h
  obtain ⟨_, -, h⟩ := Except.bind_eq_ok h
  obtain ⟨_, -, h⟩ := Except.bind_eq_ok h
  rw [← snd_of_ok h]
  exact (Boxes.refl P p).world _

theorem foreignMarkForFinalization_boxes (h : foreignMarkForFinalization pl P a arguments p = .ok (r, q)) :
    Boxes P p q := by
  obtain ⟨v, -, h⟩ := Except.bind_eq_ok h
  cases v <;> cases h
  exact (Boxes.refl P p).finalizers _

theorem foreignCall_boxes (arity : Nat) (h : foreignCall arity pl P a arguments p = .ok (r, q)) :
    Boxes P p q := by
  obtain ⟨_, -, h⟩ := Except.bind_eq_ok h
  obtain ⟨_, -, h⟩ := Except.bind_eq_ok h
  obtain ⟨_, -, h⟩ := Except.bind_eq_ok h
  rw [← snd_of_ok h]
  exact ((Boxes.refl P p).world _).toInteger _ _ _

theorem foreignGet_boxes (t : ForeignType) (h : foreignGet t pl P a arguments p = .ok (r, q)) :
    Boxes P p q := by
  obtain ⟨_, -, h⟩ := Except.bind_eq_ok h
  obtain ⟨_, -, h⟩ := Except.bind_eq_ok h
  rw [← snd_of_ok h]
  exact (Boxes.refl P p).toInteger _ _ _

theorem foreignSet_boxes (t : ForeignType) (h : foreignSet t pl P a arguments p = .ok (r, q)) :
    Boxes P p q := by
  obtain ⟨_, -, h⟩ := Except.bind_eq_ok h
  obtain ⟨_, -, h⟩ := Except.bind_eq_ok h
  obtain ⟨_, -, h⟩ := Except.bind_eq_ok h
  obtain ⟨_, -, h⟩ := Except.bind_eq_ok h
  rw [← snd_of_ok h]
  exact (Boxes.refl P p).world _

/-- What a native of `ffi.cc` answers: `null`, one of its arguments, or a value that refers
to no object or to an object of the heap it leaves. -/
def Answers (P : Program) (arguments : List Value) (r : NativeResult) (q : Process) : Prop :=
  r = .value P.nullObject ∨ (∃ v ∈ arguments, r = .value v) ∨
    ∀ i, r = .value (.heap i) → i < q.heap.length

theorem Answers.smi (n : Int) : Answers P arguments (.value (.smi n)) q :=
  .inr (.inr fun _ h => by cases h)

theorem Answers.failure (f : Failure) : Answers P arguments (.failure f) q :=
  .inr (.inr fun _ h => by cases h)

/-- `Process::ToInteger` answers a small integer, a failure, or the object it allocated. -/
theorem Answers.toInteger (pl : Platform) (a : Allocation) (v : Int) (p : Process) :
    Answers P arguments (p.toInteger pl P a v).1 (p.toInteger pl P a v).2 := by
  unfold Process.toInteger
  split
  · exact .smi _
  · cases a with
    | succeeds => exact .inr (.inr fun _ h => by cases h; simp [Process.allocate])
    | retryAfterGc => exact .failure _

theorem argument_mem {i : Nat} {v : Value} (h : argument arguments i = .ok v) : v ∈ arguments := by
  unfold argument at h
  split at h
  · cases h; exact List.getElem?_mem ‹_›
  · cases h

/-- `ForeignLookup` frees the two strings it copied, and answers the boxed address or a
failure. -/
theorem foreignLookup_boxes_answers (h : foreignLookup pl P a arguments p = .ok (r, q)) :
    Boxes P p q ∧ Answers P arguments r q := by
  simp only [foreignLookup, bind, Except.bind, pure, Except.pure] at h
  repeat' split at h
  all_goals first
    | (cases h; done)
    | (cases h; refine ⟨?_, .failure _⟩)
    | (rw [← fst_of_ok h, ← snd_of_ok h]; refine ⟨?_, .toInteger _ _ _ _⟩)
  all_goals repeat' first
    | exact .refl P p
    | with_reducible refine Boxes.asForeignString ?_ ‹_›
    | with_reducible apply Boxes.toInteger
    | with_reducible apply Boxes.world

theorem foreignConvertPort_boxes_answers (h : foreignConvertPort pl P a arguments p = .ok (r, q)) :
    Boxes P p q ∧ Answers P arguments r q := by
  simp only [foreignConvertPort, bind, Except.bind, pure, Except.pure] at h
  repeat' split at h
  all_goals first
    | (cases h; done)
    | (cases h; exact ⟨.refl P p, .smi _⟩)
    | (rw [← fst_of_ok h, ← snd_of_ok h]; exact ⟨((Boxes.refl P p).world _).toInteger _ _ _, .toInteger _ _ _ _⟩)

theorem foreignCall_answers (arity : Nat) (h : foreignCall arity pl P a arguments p = .ok (r, q)) :
    Answers P arguments r q := by
  obtain ⟨_, -, h⟩ := Except.bind_eq_ok h
  obtain ⟨_, -, h⟩ := Except.bind_eq_ok h
  obtain ⟨_, -, h⟩ := Except.bind_eq_ok h
  rw [← fst_of_ok h, ← snd_of_ok h]
  exact .toInteger _ _ _ _

theorem foreignGet_answers (t : ForeignType) (h : foreignGet t pl P a arguments p = .ok (r, q)) :
    Answers P arguments r q := by
  obtain ⟨_, -, h⟩ := Except.bind_eq_ok h
  obtain ⟨_, -, h⟩ := Except.bind_eq_ok h
  rw [← fst_of_ok h, ← snd_of_ok h]
  exact .toInteger _ _ _ _

/-- `ForeignSet` answers the value it stored, its second argument. -/
theorem foreignSet_answers (t : ForeignType) (h : foreignSet t pl P a arguments p = .ok (r, q)) :
    Answers P arguments r q := by
  obtain ⟨v, hv, h⟩ := Except.bind_eq_ok h
  obtain ⟨_, -, h⟩ := Except.bind_eq_ok h
  obtain ⟨_, -, h⟩ := Except.bind_eq_ok h
  obtain ⟨_, -, h⟩ := Except.bind_eq_ok h
  rw [← fst_of_ok h]
  exact .inr (.inl ⟨v, argument_mem hv, rfl⟩)

/-- The natives `ffi.cc` defines, in its order. -/
def ffi : List NativeFunction :=
  [foreignLookup, foreignAllocate, foreignFree, foreignMarkForFinalization, foreignBitsPerWord,
    foreignErrno, foreignPlatform, foreignConvertPort, foreignCall0, foreignCall1, foreignCall2,
    foreignCall3, foreignCall4, foreignCall5, foreignCall6,
    foreignGetInt8, foreignSetInt8, foreignGetInt16, foreignSetInt16,
    foreignGetInt32, foreignSetInt32, foreignGetInt64, foreignSetInt64,
    foreignGetUint8, foreignSetUint8, foreignGetUint16, foreignSetUint16,
    foreignGetUint32, foreignSetUint32, foreignGetUint64, foreignSetUint64]

/-- Every native of `ffi.cc` that returns boxes integers at the end of the heap and changes
nothing else of the process but its world and finalizers, and answers `null`, one of its
arguments, or a value in the heap it leaves. -/
theorem ffi_natives_frame {f : NativeFunction} (hf : f ∈ ffi) (h : f pl P a arguments p = .ok (r, q)) :
    Boxes P p q ∧ Answers P arguments r q := by
  simp only [ffi, List.mem_cons, List.mem_nil_iff, or_false] at hf
  rcases hf with rfl | rfl | rfl | rfl | rfl | rfl | rfl | rfl | hc | hc | hc | hc | hc | hc | hc |
    hg | hs | hg | hs | hg | hs | hg | hs | hg | hs | hg | hs | hg | hs | hg | hs
  · exact foreignLookup_boxes_answers h
  · obtain ⟨_, -, h'⟩ := Except.bind_eq_ok h
    obtain ⟨_, -, h'⟩ := Except.bind_eq_ok h'
    exact ⟨foreignAllocate_boxes h, fst_of_ok h' ▸ snd_of_ok h' ▸ .toInteger _ _ _ _⟩
  · obtain ⟨_, -, h'⟩ := Except.bind_eq_ok h
    obtain ⟨_, -, h'⟩ := Except.bind_eq_ok h'
    obtain ⟨_, -, h'⟩ := Except.bind_eq_ok h'
    cases h'
    exact ⟨foreignFree_boxes h, .inl rfl⟩
  · obtain ⟨v, -, h'⟩ := Except.bind_eq_ok h
    cases v <;> cases h'
    exact ⟨foreignMarkForFinalization_boxes h, .inl rfl⟩
  all_goals first
    | (cases h; exact ⟨.refl P p, .smi _⟩)
    | exact foreignConvertPort_boxes_answers h
    | (subst hc; exact ⟨foreignCall_boxes _ h, foreignCall_answers _ h⟩)
    | (subst hg; exact ⟨foreignGet_boxes _ h, foreignGet_answers _ h⟩)
    | (subst hs; exact ⟨foreignSet_boxes _ h, foreignSet_answers _ h⟩)

/-- Every native of `ffi.cc` that returns changes the process only in its C world and its
finalizers, and by boxing integers at the end of the heap. -/
theorem ffi_natives_box {f : NativeFunction} (hf : f ∈ ffi) (h : f pl P a arguments p = .ok (r, q)) :
    Boxes P p q :=
  (ffi_natives_frame hf h).1

/-- `ForeignAllocate(16)` on a 32-bit host whose C heap is at `2^30`: the address does not fit
a small integer, and is boxed at the end of the heap. -/
theorem foreignAllocate_boxes_address :
    ∃ r q, foreignAllocate foreignAllocateRuntime.platform nativeCallProgram .succeeds [.smi 16]
        highHeapProcess = .ok (r, q) ∧ Boxes nativeCallProgram highHeapProcess q :=
  have h : foreignAllocate foreignAllocateRuntime.platform nativeCallProgram .succeeds [.smi 16]
      highHeapProcess = .ok (_, _) := rfl
  ⟨_, _, h, ffi_natives_box (by simp [ffi]) h⟩

end Natives

/-- The natives of `ffi.cc` keep the coroutines: they only box integers at the end of the heap. -/
theorem Runtime.nativesKeepCoroutines_of_ffi {P : Program} {R : Runtime}
    (hR : ∀ native, R.natives native ∈ Natives.ffi) : R.NativesKeepCoroutines P :=
  fun native _ _ _ _ _ h =>
    .of_keepsOthers (Natives.ffi_natives_box (hR native) h).sameCoroutines.keepsOthers

/-! ## The coroutine switches -/

/-- `HandleThrow` only rewrites coroutine objects. -/
theorem handleThrow_classes (R : Runtime) : ∀ fuel p, (handleThrow R fuel p).2.classes = p.classes
  | 0, _ => rfl
  | fuel + 1, p => by
    unfold handleThrow
    split
    · rfl
    · split
      · rfl
      · split
        · rfl
        · split
          · rfl
          · rw [handleThrow_classes R fuel]; simp

namespace Interpret

variable {P : Program} {R : Runtime}

/-- Once it has its operand, `Throw` stops in the process `HandleThrow` leaves, whatever the
unwinding answers. -/
theorem throw_process {e : Engine} {x : Value} {rest : List Value} (hsp : e.sp = x :: rest) :
    (throw R e).engine.process = (handleThrow R (e.savedProcess.heap.length + 1) e.savedProcess).2 := by
  rcases hu : handleThrow R (e.savedProcess.heap.length + 1) e.savedProcess with ⟨u, q⟩
  have hu' := hu
  simp only [savedProcess, hsp] at hu'
  cases u <;> simp [throw, «local», hsp, hu', restoreState]
  split <;> simp only [Result.ok_bind, Result.stop_bind, bind_apply, goto_apply, drop, setTop]
  · split_ifs <;> simp [setLocal, apply_ite]
  · rfl

theorem throw_keepsClasses (e : Engine) : e.process.KeepsClasses (throw R e).engine.process := by
  cases hsp : e.sp with
  | nil => simp [throw, «local», hsp, KeepsClasses]
  | cons x rest =>
    rw [throw_process hsp, KeepsClasses, handleThrow_classes, savedProcess, classes_setStack]

theorem coroutineChange_keepsClasses : Within KeepsClasses (fun _ => True) (coroutineChange P) := by
  unfold coroutineChange coroutineOf
  repeat' (first
    | with_reducible apply within_bind keepsClasses_keeps
    | intro _
    | with_reducible exact within_local keepsClasses_keeps _
    | with_reducible exact within_setLocal keepsClasses_keeps _ _
    | with_reducible exact within_bodyOf keepsClasses_keeps _
    | with_reducible exact within_address keepsClasses_keeps _
    | with_reducible exact within_saveState keepsClasses_keeps
    | with_reducible exact within_restoreState keepsClasses_keeps
    | with_reducible exact within_advance keepsClasses_keeps _
    | with_reducible exact within_drop keepsClasses_keeps _
    | with_reducible exact within_fatal keepsClasses_keeps _
    | exact within_setTop keepsClasses_keeps _
    | exact within_modify fun _ => List.prefix_refl _
    | split)

/-! ## Runs -/

section Runs

variable (hgc : R.PreservesIdentity) (hn : R.NativesKeep P KeepsClasses)
include hgc hn

/-- Every dispatch keeps `KeepsClasses`, whatever it answers. -/
theorem dispatch_keepsClasses (noBreak : Bool) (a : Allocation) (e : Engine) :
    e.process.KeepsClasses (dispatch P R noBreak a e).engine.process := by
  rw [dispatch_eq]
  split
  · show e.process.classes <+: (e.process.setStack _).classes
    simp
  · split
    · rename_i op _
      cases hsw : op.switchesCoroutine
      · exact (execute_within keepsClasses_keeps (fun p => by rw [hgc p]; exact List.prefix_refl _)
          hn a op hsw).keeps e
      · cases op
        case throw => exact throw_keepsClasses e
        case coroutineChange => exact coroutineChange_keepsClasses.keeps e
        all_goals exact (Bool.false_ne_true hsw).elim
    · exact List.prefix_refl _

theorem loop_keepsClasses :
    ∀ {fuel : Nat} {answers : List Allocation} {noBreak : Bool} {e e' : Engine} {s : Stop},
      loop P R fuel answers noBreak e = some (s, e') → e.process.KeepsClasses e'.process
  | 0, _, _, _, _, _, h => nomatch h
  | fuel + 1, answers, noBreak, e, e', s, h => by
    have hd := dispatch_keepsClasses hgc hn noBreak (answers.headD .succeeds) e
    simp only [loop] at h
    split at h <;> rename_i hx <;> rw [hx] at hd
    · exact hd.trans (loop_keepsClasses h)
    · exact hd.trans (loop_keepsClasses h)
    · cases h; exact hd

/-- Every object the process holds when `Interpret` starts is still there when it stops, at
the same address and with the same class. -/
theorem interpret_keeps_classes {fuel : Nat} {answers : List Allocation} {e e' : Engine} {s : Stop}
    (h : interpret P R fuel answers e = some (s, e')) : e.process.KeepsClasses e'.process := by
  unfold interpret at h
  split at h
  · rename_i e₁ hb
    have he₁ : e₁.process.classes = e.process.classes := by
      cases hd : e.process.debugInfo <;> simp [isAtBreakPoint, hd] at hb <;> obtain ⟨-, rfl⟩ := hb <;> rfl
    rw [KeepsClasses, ← he₁]
    exact loop_keepsClasses hgc hn h
  · rename_i hb
    cases hd : e.process.debugInfo <;> simp [isAtBreakPoint, hd] at hb

end Runs

/-- A program that calls native `0` with one argument and yields what it answers. -/
def allocateThenYield : Program :=
  { nativeCallProgram with
    code := fun a => [Opcode.invokeNative.toByte, 1, 0, Opcode.processYield.toByte].getD a 0 }

/-- `InvokeNative` about to call `ForeignAllocate(16)`, returning to the `ProcessYield`. -/
def allocatingEngine : Engine := { callingForeignAllocate with sp := [.bytecode 3, .smi 16] }

/-- `ForeignAllocate(16)` retried after a collection, then a yield: the run boxes the buffer's
address in a new object and keeps the classes of the four objects it started with. -/
theorem allocateThenYield_keeps_classes :
    ∃ s e', interpret allocateThenYield foreignAllocateRuntime 3 [.retryAfterGc] allocatingEngine =
        some (s, e') ∧ allocatingEngine.process.KeepsClasses e'.process :=
  have h : interpret allocateThenYield foreignAllocateRuntime 3 [.retryAfterGc] allocatingEngine =
      some (_, _) := rfl
  ⟨_, _, h, interpret_keeps_classes (fun _ => rfl)
    (fun _ _ _ _ _ _ h => (Natives.foreignAllocate_boxes h).keepsClasses) h⟩

end Interpret

end Fletch
