import Fletch.Vm.Interpreter

/-!
# Spec lemmas of the state operations

One equation for each operation of `State.lean` and for the process updates they rest on,
so that later proofs never unfold them. The two assumptions most results share are named
here:

* `Process.HasCoroutine`: the process points at a coroutine object, so that
  `process()->stack()` exists and `SaveState` has somewhere to write;
* `Runtime.PreservesIdentity`: the collector keeps every value's identity. Values are
  object identities in this model, so such a collector leaves the heap, the statics and
  the current coroutine as they are; it may run finalizers, which act on the world.

Under both, `collectGarbage` gives back exactly the `sp` and `bcp` it saved
(`collectGarbage_apply`). The C heap of the world gets its lemmas here too: an allocation
puts a live block at `brk`, and a free marks the blocks at one address dead.
-/

namespace Fletch

open Exec Engine

@[simp] theorem Result.engine_ok {α : Type} (a : α) (e : Engine) : (Result.ok a e).engine = e := rfl

@[simp] theorem Result.engine_stop {α : Type} (s : Stop) (e : Engine) : (Result.stop s e : Result α).engine = e :=
  rfl

namespace Exec

/-- A run of `m >>= f` that stops stopped in `m`, or in `f` after `m` completed. -/
theorem bind_eq_stop {α β : Type} {m : Exec α} {f : α → Exec β} {e e' : Engine} {s : Stop}
    (h : (m >>= f) e = .stop s e') :
    m e = .stop s e' ∨ ∃ a e₁, m e = .ok a e₁ ∧ f a e₁ = .stop s e' := by
  simp only [bind_apply] at h
  cases hm : m e with
  | ok a e₁ => rw [hm] at h; exact .inr ⟨a, e₁, rfl, h⟩
  | stop s₁ e₁ => rw [hm] at h; cases h; exact .inl rfl

end Exec

namespace Process

/-- The process points at a coroutine object. -/
def HasCoroutine (p : Process) : Prop := (p.coroutineAt? p.coroutine).isSome

@[simp] theorem setBody_coroutine (p : Process) (a : Nat) (b : Body) :
    (p.setBody a b).coroutine = p.coroutine := rfl

@[simp] theorem setBody_heap_length (p : Process) (a : Nat) (b : Body) :
    (p.setBody a b).heap.length = p.heap.length := List.length_modify _ _ _

theorem getElem?_setBody (p : Process) (a b : Nat) (body : Body) :
    (p.setBody a body).heap[b]? = if a = b then (p.heap[b]?).map ({ · with body }) else p.heap[b]? := by
  simp only [setBody, List.getElem?_modify]
  split <;> simp_all

theorem coroutineAt?_setBody_ne {p : Process} {a b : Nat} (body : Body) (h : a ≠ b) :
    (p.setBody a body).coroutineAt? b = p.coroutineAt? b := by
  simp only [coroutineAt?, getElem?_setBody, h, if_false]

theorem coroutineAt?_setBody_coroutine {p : Process} {a : Nat} (stack : Option (List Value))
    (caller : Nat) (h : (p.coroutineAt? a).isSome) :
    (p.setBody a (.coroutine stack caller)).coroutineAt? a = some (stack, caller) := by
  unfold coroutineAt? at h ⊢
  rw [getElem?_setBody, if_pos rfl]
  split at h <;> simp_all

theorem coroutineAt?_setCoroutineStack_ne {p : Process} {a b : Nat} (s : Option (List Value))
    (h : a ≠ b) : (p.setCoroutineStack a s).coroutineAt? b = p.coroutineAt? b := by
  unfold setCoroutineStack
  split
  · exact coroutineAt?_setBody_ne _ h
  · rfl

theorem coroutineAt?_setCoroutineStack_self {p : Process} {a : Nat} {view : Option (List Value) × Nat}
    (s : Option (List Value)) (h : p.coroutineAt? a = some view) :
    (p.setCoroutineStack a s).coroutineAt? a = some (s, view.2) := by
  simp only [setCoroutineStack, h]
  exact coroutineAt?_setBody_coroutine _ _ (by simp [h])

@[simp] theorem setCoroutineStack_coroutine (p : Process) (a : Nat) (s : Option (List Value)) :
    (p.setCoroutineStack a s).coroutine = p.coroutine := by
  unfold setCoroutineStack; split <;> rfl

@[simp] theorem setStack_coroutine (p : Process) (s : List Value) :
    (p.setStack s).coroutine = p.coroutine :=
  setCoroutineStack_coroutine _ _ _

@[simp] theorem setStack_debugInfo (p : Process) (s : List Value) :
    (p.setStack s).debugInfo = p.debugInfo := by
  unfold setStack setCoroutineStack; split <;> rfl

theorem stack?_setStack {p : Process} (h : p.HasCoroutine) (s : List Value) :
    (p.setStack s).stack? = some s := by
  obtain ⟨view, hv⟩ := Option.isSome_iff_exists.mp h
  simp only [stack?, setStack, setCoroutineStack_coroutine,
    coroutineAt?_setCoroutineStack_self _ hv]

theorem hasCoroutine_setStack {p : Process} (h : p.HasCoroutine) (s : List Value) :
    (p.setStack s).HasCoroutine := by
  obtain ⟨view, hv⟩ := Option.isSome_iff_exists.mp h
  simp [HasCoroutine, setStack, coroutineAt?_setCoroutineStack_self _ hv]

/-- An object whose body is not a coroutine is not a coroutine. -/
theorem coroutineAt?_eq_none {p : Process} {a : Nat} {b : Body} (h : p.body? (.heap a) = some b)
    (hb : ∀ s c, b ≠ .coroutine s c) : p.coroutineAt? a = none := by
  unfold body? at h
  unfold coroutineAt?
  obtain ⟨⟨classId, body⟩, ho, rfl⟩ := Option.map_eq_some'.mp h
  rw [ho]
  cases body <;> simp_all

/-- `q` has the coroutines of `p`: the same current one, and at every address the same
coroutine, stack and caller, or no coroutine in both. -/
def SameCoroutines (p q : Process) : Prop :=
  q.coroutine = p.coroutine ∧ ∀ a, q.coroutineAt? a = p.coroutineAt? a

theorem SameCoroutines.hasCoroutine {p q : Process} (h : p.SameCoroutines q) (hp : p.HasCoroutine) :
    q.HasCoroutine := by
  unfold HasCoroutine at *
  rw [h.1, h.2]
  exact hp

theorem SameCoroutines.stack? {p q : Process} (h : p.SameCoroutines q) : q.stack? = p.stack? := by
  unfold Process.stack?
  rw [h.1, h.2]

/-- `stack?` and `coroutineAt?` read only the heap and the current coroutine. -/
theorem stack?_congr {p q : Process} (hh : q.heap = p.heap) (hc : q.coroutine = p.coroutine) :
    q.stack? = p.stack? := by
  simp only [stack?, coroutineAt?, hh, hc]

end Process

namespace World

theorem lookup_cons_eq_ite {β : Type} (a k : Nat) (v : β) (es : List (Nat × β)) :
    ((k, v) :: es).lookup a = if a = k then some v else es.lookup a := by
  by_cases h : a = k
  · simp [h]
  · simp [List.lookup_cons, h, beq_false_of_ne h]

@[simp] theorem alloc_snd (w : World) (d : CData) (size : Nat) : (w.alloc d size).2 = w.brk := rfl

@[simp] theorem alloc_brk (w : World) (d : CData) (size : Nat) :
    (w.alloc d size).1.brk = w.brk + max size 1 := rfl

@[simp] theorem alloc_libraries (w : World) (d : CData) (size : Nat) :
    (w.alloc d size).1.libraries = w.libraries := rfl

@[simp] theorem block?_alloc (w : World) (d : CData) (size a : Nat) :
    (w.alloc d size).1.block? a = if a = w.brk then some { data := d, live := true } else w.block? a :=
  lookup_cons_eq_ite _ _ _ _

theorem calloc_of_fits {w : World} {size : Nat} (h : w.brk + max size 1 ≤ w.heapEnd) :
    w.calloc size =
      ({ (w.alloc (.buffer size) size).1 with
          memory := fun b => if w.brk ≤ b ∧ b < w.brk + size then 0 else w.memory b }, w.brk) :=
  if_pos h

theorem calloc_of_lt {w : World} {size : Nat} (h : w.heapEnd < w.brk + max size 1) :
    w.calloc size = (w, 0) :=
  if_neg (Nat.not_le_of_lt h)

@[simp] theorem release_brk (w : World) (a : Nat) : (w.release a).brk = w.brk := rfl

@[simp] theorem release_libraries (w : World) (a : Nat) : (w.release a).libraries = w.libraries :=
  rfl

@[simp] theorem release_mutex (w : World) (a : Nat) : (w.release a).mutex = w.mutex := rfl

theorem lookup_release (a b : Nat) : ∀ bs : List (Nat × Block),
    (bs.map fun x => if x.1 = a then (a, { x.2 with live := false }) else x).lookup b =
      if b = a then (bs.lookup b).map ({ · with live := false }) else bs.lookup b
  | [] => by simp
  | (k, blk) :: bs => by
    have ih := lookup_release a b bs
    by_cases hk : k = a <;> by_cases hb : b = a <;> simp_all [lookup_cons_eq_ite]
    rw [if_neg (Ne.symm hk), if_neg (Ne.symm hk)]

@[simp] theorem block?_release (w : World) (a b : Nat) :
    (w.release a).block? b =
      if b = a then (w.block? b).map ({ · with live := false }) else w.block? b :=
  lookup_release a b w.blocks

end World

/-- The collector keeps the heap, the statics, the current coroutine, the stack limit and
the debug info; it may run finalizers, which act on the world. -/
def Runtime.PreservesIdentity (R : Runtime) : Prop :=
  ∀ p, R.collectGarbage p =
    { p with world := (R.collectGarbage p).world, finalizers := (R.collectGarbage p).finalizers }

namespace Engine

variable {P : Program} {R : Runtime} {e : Engine}

@[simp] theorem fatal_apply {α : Type} (message : String) :
    (fatal message : Exec α) e = .stop (.fatal message) e := rfl

@[simp] theorem surrender_apply {α : Type} (kind : InterruptKind) (target : Option Value) :
    (surrender kind target : Exec α) e = .stop (.surrender kind target) e := rfl

@[simp] theorem readByte_apply (offset : Nat) :
    readByte P offset e = .ok (P.code (e.bcp + offset)).toNat e := rfl

@[simp] theorem readInt32_apply (offset : Nat) :
    Engine.readInt32 P offset e = .ok (Utils.readInt32 P.code (e.bcp + offset)) e := rfl

@[simp] theorem readConstant_apply : readConstant P e = .ok (P.unfolded e.bcp) e := rfl

@[simp] theorem goto_apply (b : Nat) : goto b e = .ok () { e with bcp := b } := rfl

@[simp] theorem push_apply (v : Value) : push v e = .ok () { e with sp := v :: e.sp } := rfl

@[simp] theorem computeReturnAddress_apply (offset : Nat) :
    computeReturnAddress offset e = .ok (e.bcp + offset) e := rfl

@[simp] theorem pushReturnAddress_apply (offset : Nat) :
    pushReturnAddress offset e = .ok () { e with sp := .bytecode (e.bcp + offset) :: e.sp } := rfl

theorem advance_natCast (n : Nat) : advance (n : Int) e = .ok () { e with bcp := e.bcp + n } := by
  simp only [advance]
  rw [if_pos (by omega)]
  congr

theorem local_of_getElem? {n : Nat} {v : Value} (h : e.sp[n]? = some v) : «local» n e = .ok v e := by
  simp [«local», h]

@[simp] theorem local_cons_zero (v : Value) (rest : List Value) (e : Engine) (h : e.sp = v :: rest) :
    «local» 0 e = .ok v e := local_of_getElem? (by simp [h])

theorem pop_cons {v : Value} {rest : List Value} (h : e.sp = v :: rest) :
    pop e = .ok v { e with sp := rest } := by
  simp [pop, h]

theorem drop_of_le {n : Nat} (h : n ≤ e.sp.length) : drop n e = .ok () { e with sp := e.sp.drop n } := by
  simp [drop, h]

theorem setLocal_of_lt {n : Nat} (v : Value) (h : n < e.sp.length) :
    setLocal n v e = .ok () { e with sp := e.sp.set n v } := by
  simp [setLocal, h]

theorem setTop_cons {v w : Value} {rest : List Value} (h : e.sp = v :: rest) :
    setTop w e = .ok () { e with sp := w :: rest } := by
  simp [setTop, setLocal, h]

@[simp] theorem saveState_apply :
    saveState e = .ok ()
      { e with
        sp := .bytecode e.bcp :: e.sp
        process := e.process.setStack (.bytecode e.bcp :: e.sp) } := rfl

theorem restoreState_of_stack {b : Nat} {s : List Value} (h : e.process.stack? = some (.bytecode b :: s)) :
    restoreState e = .ok () { e with sp := s, bcp := b } := by
  simp [restoreState, h]

/-- `CollectGarbage` saves the state, collects, and restores the same `sp` and `bcp`. -/
theorem collectGarbage_apply (hgc : R.PreservesIdentity) (hc : e.process.HasCoroutine) :
    collectGarbage R e =
      .ok () { e with process := R.collectGarbage (e.process.setStack (.bytecode e.bcp :: e.sp)) } := by
  have hs : (R.collectGarbage (e.process.setStack (.bytecode e.bcp :: e.sp))).stack? =
      some (.bytecode e.bcp :: e.sp) := by
    rw [← Process.stack?_setStack hc (.bytecode e.bcp :: e.sp)]
    exact Process.stack?_congr (by rw [hgc]) (by rw [hgc])
  simp only [collectGarbage, Exec.bind_apply, saveState_apply, Result.ok_bind, modify_apply]
  rw [restoreState_of_stack hs]

end Engine

end Fletch
