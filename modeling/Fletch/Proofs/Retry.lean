import Fletch.Proofs.Effects

/-!
# The GC retry

`GC_AND_RETRY_ON_ALLOCATION_FAILURE` collects garbage and dispatches the same opcode again.
An allocating opcode only reads the engine before it allocates, so when the allocator
answers `retry_after_gc` the re-dispatch starts from the state `CollectGarbage` leaves,
which is the state the opcode started in, collected (`execute_redispatch`). Under a
collector that keeps every value's identity, that state has the same `sp` and `bcp`
(`execute_redispatch_keeps_position`).

The natives are the exception: `InvokeNative` calls the native before the retry, and what
the native did to the world stays done (`Natives.lean`).
-/

namespace Fletch

open Exec Engine Interpret

namespace Exec

/-- `m` only reads the engine: it completes in the state it started in, or fails. -/
def Reads {α : Type} (m : Exec α) : Prop :=
  ∀ e, (∃ a, m e = .ok a e) ∨ ∃ message, m e = .stop (.fatal message) e

section Reads

variable {α β : Type}

theorem reads_pure (a : α) : Reads (pure a) := fun _ => .inl ⟨a, rfl⟩

theorem reads_read (f : Engine → α) : Reads (read f) := fun _ => .inl ⟨_, rfl⟩

theorem reads_fatal (message : String) : Reads (fatal message : Exec α) :=
  fun _ => .inr ⟨message, rfl⟩

theorem reads_some? (message : String) (x : Option α) : Reads (some? message x) := by
  cases x
  · exact reads_fatal _
  · exact reads_pure _

theorem reads_bind {m : Exec α} {f : α → Exec β} (hm : Reads m) (hf : ∀ a, Reads (f a)) :
    Reads (m >>= f) := fun e => by
  rcases hm e with ⟨a, h⟩ | ⟨msg, h⟩ <;> simp only [bind_apply, h, Result.ok_bind, Result.stop_bind]
  · exact hf a e
  · exact .inr ⟨msg, rfl⟩

/-- A run of `m >>= f` that does not fail, with `m` only reading, is a run of `f` from the
same state. -/
theorem Reads.bind_eq {m : Exec α} {f : α → Exec β} {e : Engine} {r : Result β} (hm : Reads m)
    (h : (m >>= f) e = r) (hr : ∀ message e', r ≠ .stop (.fatal message) e') :
    ∃ a, m e = .ok a e ∧ f a e = r := by
  rcases hm e with ⟨a, ha⟩ | ⟨msg, ha⟩ <;> simp only [bind_apply, ha, Result.ok_bind, Result.stop_bind] at h
  · exact ⟨a, ha, h⟩
  · exact absurd h.symm (hr msg e)

/-- A stop of `m >>= f` other than a fatal error, with `m` only reading, is a stop of `f`
from the same state. -/
theorem Reads.bind_eq_stop {m : Exec α} {f : α → Exec β} {e e' : Engine} {s : Stop}
    (hm : Reads m) (h : (m >>= f) e = .stop s e') (hs : ∀ message, s ≠ .fatal message) :
    ∃ a, m e = .ok a e ∧ f a e = .stop s e' :=
  hm.bind_eq h fun message _ h' => hs message (Result.stop.inj h').1

end Reads

end Exec

namespace Engine

variable {P : Program} {R : Runtime}

theorem reads_local (n : Nat) : Reads («local» n) :=
  reads_bind (reads_read _) fun _ => reads_some? _ _

theorem reads_element (xs : List Value) (i : Int) : Reads (element xs i) := by
  unfold element
  split
  · exact reads_some? _ _
  · exact reads_fatal _

theorem reads_classOf (v : Value) : Reads (classOf v) :=
  reads_bind (reads_bind (reads_read _) fun _ => reads_some? _ _) fun b => by
    cases b <;> first | exact reads_pure _ | exact reads_fatal _

theorem reads_classAt (i : Int) : Reads (classAt P i) :=
  reads_bind (reads_element _ _) fun _ => reads_classOf _

theorem reads_localsImmutable : ∀ start count, Reads (localsImmutable start count)
  | _, 0 => reads_pure _
  | start, count + 1 =>
    reads_bind (reads_local _) fun _ => reads_bind (reads_read _) fun _ => by
      split
      · exact reads_pure _
      · exact reads_localsImmutable (start + 1) count

theorem reads_nativeArguments (n : Nat) : Reads (nativeArguments n) := fun e => by
  unfold nativeArguments
  split
  · exact .inl ⟨_, rfl⟩
  · exact .inr ⟨_, rfl⟩

/-- The retry of a failed allocation never lets the rest run: it stops with a fatal error of
`CollectGarbage`, or re-dispatches after `CollectGarbage` completed. -/
theorem retry_bind_stop {α β : Type} {f : α → Exec β} {e e' : Engine} {s : Stop}
    (h : (retryOnAllocationFailure R (none : Option α) >>= f) e = .stop s e') :
    (∃ message, s = .fatal message) ∨ (s = .redispatch ∧ collectGarbage R e = .ok () e') := by
  have hr : retryOnAllocationFailure R (none : Option α) e = (collectGarbage R e).bind fun _ => stop .redispatch :=
    rfl
  rcases Exec.bind_eq_stop h with h | ⟨_, _, h₁, -⟩ <;> rw [hr] at *
  · cases hc : collectGarbage R e with
    | ok _ e₁ => rw [hc] at h; cases h; exact .inr ⟨rfl, rfl⟩
    | stop s e₁ =>
      rw [hc] at h; cases h
      exact .inl (Within.fatal_of_stop (within_collectGarbage keeps_true fun _ => trivial) hc)
  · cases hc : collectGarbage R e <;> rw [hc] at h₁ <;> cases h₁

/-- The retry stops with the re-dispatch exactly after `CollectGarbage` completed. -/
theorem retry_bind_eq_redispatch {α β : Type} {f : α → Exec β} {e e' : Engine}
    (h : (retryOnAllocationFailure R (none : Option α) >>= f) e = .stop .redispatch e') :
    collectGarbage R e = .ok () e' :=
  ((retry_bind_stop h).resolve_left fun ⟨_, h⟩ => nomatch h).2

end Engine

namespace Interpret

variable {P : Program} {R : Runtime} {a : Allocation} {e e' : Engine}

/-- The allocation of `Allocate` and its variants re-dispatches only when the allocator
answered `retry_after_gc`, and then after `CollectGarbage` from the state it started in. -/
theorem allocateInstance_redispatch {klass : Nat × Nat} {immutable : Bool} {length : Nat}
    (h : allocateInstance P R a klass immutable length e = .stop .redispatch e') :
    a = .retryAfterGc ∧ collectGarbage R e = .ok () e' := by
  unfold allocateInstance at h
  rcases Exec.bind_eq_stop h with h | ⟨r, e₁, h₁, h⟩
  · cases a <;> simp [newInstance] at h
  cases a with
  | retryAfterGc =>
    simp only [newInstance, Result.ok.injEq] at h₁
    obtain ⟨rfl, rfl⟩ := h₁
    exact ⟨rfl, retry_bind_eq_redispatch h⟩
  | succeeds =>
    simp only [newInstance, Result.ok.injEq] at h₁
    obtain ⟨rfl, rfl⟩ := h₁
    have hw : Within (fun _ _ => True) (fun _ => False) (do
        popFields (.heap e.process.heap.length) klass.2
        push (.heap e.process.heap.length)
        advance length) :=
      within_bind keeps_true (within_popFields keeps_true _ _) fun _ =>
        within_bind keeps_true (within_push keeps_true _) fun _ => within_advance keeps_true length
    obtain ⟨_, ⟨⟩⟩ := hw.fatal_of_stop h

theorem allocate_redispatch (h : allocate P R a e = .stop .redispatch e') :
    a = .retryAfterGc ∧ collectGarbage R e = .ok () e' := by
  obtain ⟨i, -, h⟩ := (reads_read _).bind_eq_stop h fun _ h => nomatch h
  obtain ⟨_, -, h⟩ := (reads_classAt i).bind_eq_stop h fun _ h => nomatch h
  exact allocateInstance_redispatch h

theorem allocateUnfold_redispatch (h : allocateUnfold P R a e = .stop .redispatch e') :
    a = .retryAfterGc ∧ collectGarbage R e = .ok () e' := by
  obtain ⟨v, -, h⟩ := (reads_read _).bind_eq_stop h fun _ h => nomatch h
  obtain ⟨_, -, h⟩ := (reads_classOf v).bind_eq_stop h fun _ h => nomatch h
  exact allocateInstance_redispatch h

theorem allocateImmutable_redispatch (h : allocateImmutable P R a e = .stop .redispatch e') :
    a = .retryAfterGc ∧ collectGarbage R e = .ok () e' := by
  obtain ⟨i, -, h⟩ := (reads_read _).bind_eq_stop h fun _ h => nomatch h
  obtain ⟨k, -, h⟩ := (reads_classAt i).bind_eq_stop h fun _ h => nomatch h
  obtain ⟨_, -, h⟩ := (reads_localsImmutable 0 k.2).bind_eq_stop h fun _ h => nomatch h
  exact allocateInstance_redispatch h

theorem allocateImmutableUnfold_redispatch
    (h : allocateImmutableUnfold P R a e = .stop .redispatch e') :
    a = .retryAfterGc ∧ collectGarbage R e = .ok () e' := by
  obtain ⟨v, -, h⟩ := (reads_read _).bind_eq_stop h fun _ h => nomatch h
  obtain ⟨k, -, h⟩ := (reads_classOf v).bind_eq_stop h fun _ h => nomatch h
  obtain ⟨_, -, h⟩ := (reads_localsImmutable 0 k.2).bind_eq_stop h fun _ h => nomatch h
  exact allocateInstance_redispatch h

theorem allocateBoxed_redispatch (h : allocateBoxed P R a e = .stop .redispatch e') :
    a = .retryAfterGc ∧ collectGarbage R e = .ok () e' := by
  obtain ⟨v, -, h⟩ := (reads_local 0).bind_eq_stop h fun _ h => nomatch h
  rcases Exec.bind_eq_stop h with h | ⟨r, e₁, h₁, h⟩
  · cases a <;> simp [newBoxed] at h
  cases a with
  | retryAfterGc =>
    simp only [newBoxed, Result.ok.injEq] at h₁
    obtain ⟨rfl, rfl⟩ := h₁
    exact ⟨rfl, retry_bind_eq_redispatch h⟩
  | succeeds =>
    simp only [newBoxed, Result.ok.injEq] at h₁
    obtain ⟨rfl, rfl⟩ := h₁
    have hw : Within (fun _ _ => True) (fun _ => False) (do
        setTop (.heap e.process.heap.length)
        advance Opcode.allocateBoxed.length) :=
      within_bind keeps_true (within_setTop keeps_true _) fun _ => within_advance keeps_true _
    obtain ⟨_, ⟨⟩⟩ := hw.fatal_of_stop h

/-- `callNative` completes with the native's answer, in the process the native left. -/
theorem callNative_eq_ok {native : Nat} {arguments : List Value} {r : NativeResult} {e₁ : Engine}
    (h : callNative P R a native arguments e = .ok r e₁) :
    ∃ p, R.natives native R.platform P a arguments e.process = .ok (r, p) ∧ e₁ = { e with process := p } := by
  unfold callNative at h
  split at h
  · simp only [Result.ok.injEq] at h
    obtain ⟨rfl, rfl⟩ := h
    exact ⟨_, ‹_›, rfl⟩
  · cases h

/-- `callNative` stops only with the error of a failed cast in the native. -/
theorem callNative_fatal_of_stop {native : Nat} {arguments : List Value} {s : Stop} {e₁ : Engine}
    (h : callNative P R a native arguments e = .stop s e₁) : ∃ message, s = .fatal message := by
  unfold callNative at h
  split at h <;> cases h
  exact ⟨_, rfl⟩

/-- A native's call and retry re-dispatch only when the native answered `retry_after_gc`,
and then after `CollectGarbage` from the process the native left. -/
theorem callNative_redispatch {native : Nat} {arguments : List Value} {f : NativeResult → Exec Unit}
    (hf : ∀ r, Within (fun _ _ => True) (· ≠ .redispatch) (f r))
    (h : (callNative P R a native arguments >>= fun r => retryOnNativeFailure R r >>= f) e =
      .stop .redispatch e') :
    ∃ p, R.natives native R.platform P a arguments e.process = .ok (.failure .retryAfterGc, p) ∧
      collectGarbage R { e with process := p } = .ok () e' := by
  rcases Exec.bind_eq_stop h with h | ⟨r, e₁, h₁, h⟩
  · obtain ⟨_, ⟨⟩⟩ := callNative_fatal_of_stop h
  obtain ⟨p, hn, rfl⟩ := callNative_eq_ok h₁
  by_cases hr : r = .failure .retryAfterGc
  · subst hr
    exact ⟨p, hn, retry_bind_eq_redispatch h⟩
  · simp only [retryOnNativeFailure, hr, if_false] at h
    obtain ⟨m, hm⟩ | hs := (hf r).stops _ _ _ h
    · cases hm
    · exact absurd rfl hs

/-- What `InvokeNative` does with the native's result never re-dispatches. -/
theorem invokeNative_result_within (arity : Nat) (r : NativeResult) :
    Within (fun _ _ => True) (· ≠ .redispatch) (match r with
      | .failure f => do
          push (P.objectFromFailure f)
          advance Opcode.invokeNative.length
      | .value v => do
          popReturnAddress
          drop arity
          push v : Exec Unit) := by
  cases r
  · exact within_bind keeps_true (within_popReturnAddress keeps_true) fun _ =>
      within_bind keeps_true (within_drop keeps_true _) fun _ => within_push keeps_true _
  · exact within_bind keeps_true (within_push keeps_true _) fun _ => within_advance keeps_true _

theorem invokeNative_redispatch (h : invokeNative P R a e = .stop .redispatch e') :
    ∃ native arguments p,
      R.natives native R.platform P a arguments e.process = .ok (.failure .retryAfterGc, p) ∧
        collectGarbage R { e with process := p } = .ok () e' := by
  obtain ⟨arity, -, h⟩ := (reads_read _).bind_eq_stop h fun _ h => nomatch h
  obtain ⟨native, -, h⟩ := (reads_read _).bind_eq_stop h fun _ h => nomatch h
  obtain ⟨arguments, -, h⟩ := (reads_nativeArguments arity).bind_eq_stop h fun _ h => nomatch h
  exact ⟨native, arguments, callNative_redispatch (invokeNative_result_within arity) h⟩

theorem invokeNativeYield_redispatch (h : invokeNativeYield P R a e = .stop .redispatch e') :
    ∃ native arguments p,
      R.natives native R.platform P a arguments e.process = .ok (.failure .retryAfterGc, p) ∧
        collectGarbage R { e with process := p } = .ok () e' := by
  obtain ⟨arity, -, h⟩ := (reads_read _).bind_eq_stop h fun _ h => nomatch h
  obtain ⟨native, -, h⟩ := (reads_read _).bind_eq_stop h fun _ h => nomatch h
  obtain ⟨arguments, -, h⟩ := (reads_nativeArguments arity).bind_eq_stop h fun _ h => nomatch h
  refine ⟨native, arguments, callNative_redispatch (fun r => ?_) h⟩
  cases r
  · refine within_bind keeps_true (within_popReturnAddress keeps_true) fun _ =>
      within_bind keeps_true (within_drop keeps_true _) fun _ =>
        within_bind keeps_true (within_push keeps_true _) fun _ => ?_
    split
    · exact within_bind keeps_true (within_saveState keeps_true) fun _ =>
        within_stop keeps_true fun h => nomatch h
    · exact within_pure keeps_true _
  · exact within_bind keeps_true (within_push keeps_true _) fun _ => within_advance keeps_true _

/-- Only the allocating opcodes re-dispatch. Each does so after `CollectGarbage` from the
state it started in; `InvokeNative` and `InvokeNativeYield` from that state with the
process their native left when it answered `retry_after_gc`. -/
theorem execute_redispatch {op : Opcode} (h : execute P R a op e = .stop .redispatch e') :
    ∃ p, (p = e.process ∨ ∃ native arguments,
        R.natives native R.platform P a arguments e.process = .ok (.failure .retryAfterGc, p)) ∧
      collectGarbage R { e with process := p } = .ok () e' := by
  rcases execute_stops h with ⟨m, hm⟩ | hs
  · cases hm
  cases op
  case invokeNative =>
    obtain ⟨n, args, p, hn, hg⟩ := invokeNative_redispatch h
    exact ⟨p, .inr ⟨n, args, hn⟩, hg⟩
  case invokeNativeYield =>
    obtain ⟨n, args, p, hn, hg⟩ := invokeNativeYield_redispatch h
    exact ⟨p, .inr ⟨n, args, hn⟩, hg⟩
  case allocate => exact ⟨e.process, .inl rfl, (allocate_redispatch h).2⟩
  case allocateUnfold => exact ⟨e.process, .inl rfl, (allocateUnfold_redispatch h).2⟩
  case allocateImmutable => exact ⟨e.process, .inl rfl, (allocateImmutable_redispatch h).2⟩
  case allocateImmutableUnfold => exact ⟨e.process, .inl rfl, (allocateImmutableUnfold_redispatch h).2⟩
  case allocateBoxed => exact ⟨e.process, .inl rfl, (allocateBoxed_redispatch h).2⟩
  all_goals exact nomatch hs

/-- The re-dispatch starts from the `sp` and `bcp` the opcode started from, with a current
coroutine still there, under a collector that keeps every value's identity and natives that
keep a current coroutine. -/
theorem redispatch_keeps_position (hgc : R.PreservesIdentity)
    (hn : R.NativesKeep P fun p q => p.HasCoroutine → q.HasCoroutine) (hc : e.process.HasCoroutine)
    {op : Opcode} (h : execute P R a op e = .stop .redispatch e') :
    e'.sp = e.sp ∧ e'.bcp = e.bcp ∧ e'.process.HasCoroutine := by
  obtain ⟨p, hp, hg⟩ := execute_redispatch h
  have hpc : p.HasCoroutine := by
    rcases hp with rfl | ⟨native, arguments, hnat⟩
    · exact hc
    · exact hn _ _ _ _ _ _ hnat hc
  rw [collectGarbage_apply hgc hpc, Result.ok.injEq] at hg
  obtain ⟨-, rfl⟩ := hg
  refine ⟨rfl, rfl, ?_⟩
  rw [hgc]
  exact Process.hasCoroutine_setStack hpc _

/-- The re-dispatch starts from the `sp` and `bcp` the opcode started from, with a current
coroutine still there: under a collector that keeps every value's identity, natives that
leave the coroutines alone, and a process with a current coroutine. -/
theorem execute_redispatch_keeps_position (hgc : R.PreservesIdentity)
    (hn : R.NativesKeep P Process.SameCoroutines) (hc : e.process.HasCoroutine) {op : Opcode}
    (h : execute P R a op e = .stop .redispatch e') :
    e'.sp = e.sp ∧ e'.bcp = e.bcp ∧ e'.process.HasCoroutine :=
  redispatch_keeps_position hgc (fun _ _ _ _ _ _ h => (hn _ _ _ _ _ _ h).hasCoroutine) hc h

end Interpret

end Fletch
