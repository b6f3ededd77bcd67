import Fletch.Proofs.Calls

/-!
# Unwinding across coroutines

`HandleThrow` asks the stack walker for a catch block in the current coroutine's stack; when
there is none it makes the caller current, nulls the stack of the coroutine it leaves and
makes that coroutine its own caller, and tries again. `CallerChain p cs` names the coroutines
it walks: each one's caller is the next, the last one is its own caller, and each has a
stack. Over such a chain of distinct coroutines the loop ends within the turns `Throw` gives
it: at the first coroutine whose stack has a catch block, with every coroutine before it
marked done and every other coroutine as it was (`handleThrow_caught`), or, when none has one,
at the last coroutine (`handleThrow_uncaught`). `Throw` then resumes at the catch block with
the stack delta's slots dropped and the exception on top (`throw_caught_resumes`).

The loop ends whatever the callers are, cycles included: a turn that does not return takes
away the stack of the coroutine it leaves, so the turns `Throw` gives it always suffice
(`handleThrow_ends`).
-/

namespace Fletch

open Exec Engine Interpret

namespace Process

variable {p : Process}

theorem coroutineAt?_updateCoroutine (c a : Nat) :
    (p.updateCoroutine c).coroutineAt? a = p.coroutineAt? a := rfl

theorem coroutineAt?_setCoroutineCaller_ne {a b : Nat} (caller : Nat) (h : a ≠ b) :
    (p.setCoroutineCaller a caller).coroutineAt? b = p.coroutineAt? b := by
  unfold setCoroutineCaller
  split
  · exact coroutineAt?_setBody_ne _ h
  · rfl

@[simp] theorem setCoroutineCaller_coroutine (a caller : Nat) :
    (p.setCoroutineCaller a caller).coroutine = p.coroutine := by
  unfold setCoroutineCaller; split <;> rfl

/-- One turn of `HandleThrow` leaves the current coroutine for its caller: the caller is
current, the coroutine left has no stack and is its own caller, and every other coroutine is
as it was. -/
def abandon (p : Process) (caller : Nat) : Process :=
  ((p.updateCoroutine caller).setCoroutineStack p.coroutine none).setCoroutineCaller p.coroutine p.coroutine

@[simp] theorem abandon_coroutine (caller : Nat) : (p.abandon caller).coroutine = caller := by
  simp [abandon, updateCoroutine]

theorem coroutineAt?_abandon_ne {caller a : Nat} (h : a ≠ p.coroutine) :
    (p.abandon caller).coroutineAt? a = p.coroutineAt? a := by
  rw [abandon, coroutineAt?_setCoroutineCaller_ne _ (Ne.symm h),
    coroutineAt?_setCoroutineStack_ne _ (Ne.symm h), coroutineAt?_updateCoroutine]

theorem coroutineAt?_abandon_self {caller : Nat} {view : Option (List Value) × Nat}
    (h : p.coroutineAt? p.coroutine = some view) :
    (p.abandon caller).coroutineAt? p.coroutine = some (none, p.coroutine) := by
  have hs : ((p.updateCoroutine caller).setCoroutineStack p.coroutine none).coroutineAt? p.coroutine =
      some (none, view.2) :=
    coroutineAt?_setCoroutineStack_self (p := p.updateCoroutine caller) none h
  simp only [abandon, setCoroutineCaller, hs]
  exact coroutineAt?_setBody_coroutine _ _ (by simp [hs])

theorem stack?_of_coroutineAt? {s : List Value} {caller : Nat}
    (h : p.coroutineAt? p.coroutine = some (some s, caller)) : p.stack? = some s := by
  simp [stack?, h]

/-- `CallerChain p cs`: the coroutines of `cs`, with the stacks `cs` gives them, follow one
another as callers, and the last one is its own caller. -/
inductive CallerChain (p : Process) : List (Nat × List Value) → Prop
  | last {c : Nat} {s : List Value} : p.coroutineAt? c = some (some s, c) → CallerChain p [(c, s)]
  | cons {c : Nat} {s : List Value} {next : Nat × List Value} {cs : List (Nat × List Value)} :
      c ≠ next.1 → p.coroutineAt? c = some (some s, next.1) → CallerChain p (next :: cs) →
      CallerChain p ((c, s) :: next :: cs)

/-- A chain stays a chain in a process that has the same coroutines at its addresses. -/
theorem CallerChain.congr {q : Process} {cs : List (Nat × List Value)} (h : CallerChain p cs)
    (hq : ∀ x ∈ cs, q.coroutineAt? x.1 = p.coroutineAt? x.1) : CallerChain q cs := by
  induction h with
  | last hc => exact .last ((hq _ (List.mem_singleton_self _)).trans hc)
  | cons hne hc _ ih =>
    exact .cons hne ((hq _ (List.mem_cons_self _ _)).trans hc)
      (ih fun x hx => hq x (List.mem_cons_of_mem _ hx))

/-- The first coroutine of a chain has the chain's stack. -/
theorem CallerChain.head {c : Nat} {s : List Value} {cs : List (Nat × List Value)}
    (h : CallerChain p ((c, s) :: cs)) : ∃ caller, p.coroutineAt? c = some (some s, caller) := by
  cases h with
  | last hc => exact ⟨_, hc⟩
  | cons _ hc _ => exact ⟨_, hc⟩

/-- A coroutine is an object of the heap. -/
theorem lt_length_of_coroutineAt? {c : Nat} {view : Option (List Value) × Nat}
    (h : p.coroutineAt? c = some view) : c < p.heap.length := by
  unfold coroutineAt? at h
  split at h
  · rename_i hget
    exact (List.getElem?_eq_some_iff.mp hget).1
  · cases h

/-- Every coroutine of a chain is an object of the heap. -/
theorem CallerChain.lt_length {cs : List (Nat × List Value)} (h : CallerChain p cs) :
    ∀ x ∈ cs, x.1 < p.heap.length := by
  induction h with
  | last hc => simpa using lt_length_of_coroutineAt? hc
  | cons _ hc _ ih =>
    intro x hx
    rcases List.mem_cons.mp hx with rfl | hx
    · exact lt_length_of_coroutineAt? hc
    · exact ih x hx

/-- A chain of distinct coroutines is no longer than the heap. -/
theorem CallerChain.length_le {cs : List (Nat × List Value)} (h : CallerChain p cs)
    (hnd : (cs.map Prod.fst).Nodup) : cs.length ≤ p.heap.length := by
  have hsub : cs.map Prod.fst ⊆ List.range p.heap.length := fun a ha => by
    obtain ⟨x, hx, rfl⟩ := List.mem_map.mp ha
    exact List.mem_range.mpr (h.lt_length x hx)
  simpa using (hnd.subperm hsub).length_le

/-- The coroutines that still have a stack. A turn of `HandleThrow` that does not return
takes the one it leaves out of them, whatever the callers are. -/
def withStacks (p : Process) : Finset Nat :=
  (Finset.range p.heap.length).filter fun a => ((p.coroutineAt? a).bind Prod.fst).isSome

theorem card_withStacks_le : p.withStacks.card ≤ p.heap.length :=
  (Finset.card_filter_le _ _).trans (Finset.card_range _).le

@[simp] theorem setCoroutineStack_heap_length (a : Nat) (s : Option (List Value)) :
    (p.setCoroutineStack a s).heap.length = p.heap.length := by
  unfold setCoroutineStack; split <;> simp

@[simp] theorem setCoroutineCaller_heap_length (a caller : Nat) :
    (p.setCoroutineCaller a caller).heap.length = p.heap.length := by
  unfold setCoroutineCaller; split <;> simp

@[simp] theorem abandon_heap_length (caller : Nat) : (p.abandon caller).heap.length = p.heap.length := by
  simp [abandon, updateCoroutine]

theorem withStacks_abandon {caller : Nat} {view : Option (List Value) × Nat}
    (h : p.coroutineAt? p.coroutine = some view) :
    (p.abandon caller).withStacks = p.withStacks.erase p.coroutine := by
  ext a
  by_cases ha : a = p.coroutine
  · subst ha
    simp [withStacks, coroutineAt?_abandon_self h]
  · simp [withStacks, ha, coroutineAt?_abandon_ne ha]

theorem card_withStacks_abandon (caller : Nat) {s : List Value} {next : Nat}
    (h : p.coroutineAt? p.coroutine = some (some s, next)) :
    (p.abandon caller).withStacks.card + 1 = p.withStacks.card := by
  have hmem : p.coroutine ∈ p.withStacks := by
    simp [withStacks, h, lt_length_of_coroutineAt? h]
  rw [withStacks_abandon h, Finset.card_erase_add_one hmem]

end Process

/-- The process `Throw` hands `HandleThrow`: the engine's state saved into the current
coroutine. -/
def Engine.savedProcess (e : Engine) : Process := e.process.setStack (.bytecode e.bcp :: e.sp)

section HandleThrow

open Process

variable {R : Runtime} {p : Process}

/-- A turn of `HandleThrow` in a coroutine whose stack has no catch block and whose caller
is another coroutine. -/
theorem handleThrow_abandon {fuel : Nat} {s : List Value} {caller : Nat}
    (hs : p.coroutineAt? p.coroutine = some (some s, caller)) (hcb : R.computeCatchBlock s = none)
    (hne : caller ≠ p.coroutine) :
    handleThrow R (fuel + 1) p = handleThrow R fuel (p.abandon caller) := by
  simp [handleThrow, stack?_of_coroutineAt? hs, hcb, hs, hne, abandon]

/-- `HandleThrow` walks the coroutines `pre` at the head of a chain of distinct coroutines,
none of whose stacks has a catch block: after as many turns it stands at the next coroutine
of the chain, with those of `pre` done and every other coroutine as it was. -/
theorem handleThrow_walk (fuel : Nat) :
    ∀ {pre rest : List (Nat × List Value)} {p : Process}, CallerChain p (pre ++ rest) → rest ≠ [] →
      ((pre ++ rest).map Prod.fst).Nodup →
      ((pre ++ rest).map Prod.fst).head? = some p.coroutine →
      (∀ x ∈ pre, R.computeCatchBlock x.2 = none) →
      ∃ q, handleThrow R (fuel + pre.length) p = handleThrow R fuel q ∧
        (rest.map Prod.fst).head? = some q.coroutine ∧ CallerChain q rest ∧
        (∀ x ∈ pre, q.coroutineAt? x.1 = some (none, x.1)) ∧
        ∀ a, a ∉ pre.map Prod.fst → q.coroutineAt? a = p.coroutineAt? a
  | [], rest, p, hchain, _, _, hcur, _ =>
    ⟨p, rfl, by simpa using hcur, by simpa using hchain, by simp, fun _ _ => rfl⟩
  | (c, s) :: pre, rest, p, hchain, hrest, hnd, hcur, hpre => by
    obtain ⟨next, more, hnm⟩ : ∃ next more, pre ++ rest = next :: more := by
      cases pre with
      | nil => cases rest with
        | nil => exact absurd rfl hrest
        | cons next more => exact ⟨next, more, rfl⟩
      | cons next more => exact ⟨next, more ++ rest, rfl⟩
    rw [List.cons_append, hnm] at hchain
    have hc : c = p.coroutine := by simpa using hcur
    subst hc
    obtain - | ⟨hne, hs, htail⟩ := hchain
    have hnd' : ((pre ++ rest).map Prod.fst).Nodup := (List.nodup_cons.mp hnd).2
    have hout : p.coroutine ∉ (pre ++ rest).map Prod.fst := (List.nodup_cons.mp hnd).1
    have hframe : ∀ x ∈ pre ++ rest, (p.abandon next.1).coroutineAt? x.1 = p.coroutineAt? x.1 :=
      fun x hx => coroutineAt?_abandon_ne fun h => hout (List.mem_map.mpr ⟨x, hx, h⟩)
    have hchain' : CallerChain (p.abandon next.1) (pre ++ rest) := by
      rw [hnm] at hframe ⊢
      exact htail.congr hframe
    obtain ⟨q, hrun, hhead, hq, hdone, hkeep⟩ :=
      handleThrow_walk fuel hchain' hrest hnd' (by simp [hnm]) fun x hx => hpre x (List.mem_cons_of_mem _ hx)
    refine ⟨q, ?_, hhead, hq, ?_, ?_⟩
    · rw [List.length_cons, ← Nat.add_assoc, handleThrow_abandon hs (hpre _ (List.mem_cons_self _ _))
        (Ne.symm hne), hrun]
    · intro x hx
      rcases List.mem_cons.mp hx with rfl | hx
      · have hnp : p.coroutine ∉ pre.map Prod.fst := fun h =>
          hout (List.map_append _ _ _ ▸ List.mem_append_left _ h)
        rw [hkeep _ hnp]
        exact coroutineAt?_abandon_self hs
      · exact hdone x hx
    · intro a ha
      have ha' : a ≠ p.coroutine ∧ a ∉ pre.map Prod.fst := by simpa [eq_comm] using ha
      rw [hkeep a ha'.2, coroutineAt?_abandon_ne ha'.1]

/-- The first coroutine of a chain of distinct coroutines whose stack has a catch block is
where `HandleThrow` stops: it is current, with its stack, every coroutine before it is done,
and every other coroutine is as it was. -/
theorem handleThrow_caught (fuel : Nat) {pre post : List (Nat × List Value)} {c : Nat}
    {s : List Value} {bcp δ : Nat} (hchain : CallerChain p (pre ++ (c, s) :: post))
    (hnd : ((pre ++ (c, s) :: post).map Prod.fst).Nodup)
    (hcur : ((pre ++ (c, s) :: post).map Prod.fst).head? = some p.coroutine)
    (hpre : ∀ x ∈ pre, R.computeCatchBlock x.2 = none) (hcatch : R.computeCatchBlock s = some (bcp, δ))
    (hfuel : pre.length < fuel) :
    ∃ q, handleThrow R fuel p = (.caught bcp δ, q) ∧ q.coroutine = c ∧ q.stack? = some s ∧
      (∀ x ∈ pre, q.coroutineAt? x.1 = some (none, x.1)) ∧
      ∀ a, a ∉ pre.map Prod.fst → q.coroutineAt? a = p.coroutineAt? a := by
  obtain ⟨f, rfl⟩ : ∃ f, fuel = f + 1 + pre.length := ⟨fuel - 1 - pre.length, by omega⟩
  obtain ⟨q, hrun, hhead, hq, hdone, hkeep⟩ :=
    handleThrow_walk (f + 1) hchain (List.cons_ne_nil _ _) hnd hcur hpre
  have hqc : q.coroutine = c := by simpa using hhead.symm
  obtain ⟨caller, hs⟩ := hq.head
  have hstack : q.stack? = some s := stack?_of_coroutineAt? (by rw [hqc]; exact hs)
  refine ⟨q, ?_, hqc, hstack, hdone, hkeep⟩
  rw [hrun]
  simp [handleThrow, hstack, hcatch]

/-- When no coroutine of the chain has a catch block, `HandleThrow` stops at the last one,
which is its own caller, with every coroutine before it done: it reports the exception to a
debugging session, and exits otherwise. -/
theorem handleThrow_uncaught (fuel : Nat) {pre : List (Nat × List Value)} {c : Nat} {s : List Value}
    (hchain : CallerChain p (pre ++ [(c, s)])) (hnd : ((pre ++ [(c, s)]).map Prod.fst).Nodup)
    (hcur : ((pre ++ [(c, s)]).map Prod.fst).head? = some p.coroutine)
    (hnone : ∀ x ∈ pre ++ [(c, s)], R.computeCatchBlock x.2 = none) (hfuel : pre.length < fuel) :
    ∃ q, handleThrow R fuel p = (if R.sessionDebugging then .uncaught else .exit, q) ∧
      q.coroutine = c ∧ q.stack? = some s ∧
      (∀ x ∈ pre, q.coroutineAt? x.1 = some (none, x.1)) ∧
      ∀ a, a ∉ pre.map Prod.fst → q.coroutineAt? a = p.coroutineAt? a := by
  obtain ⟨f, rfl⟩ : ∃ f, fuel = f + 1 + pre.length := ⟨fuel - 1 - pre.length, by omega⟩
  obtain ⟨q, hrun, hhead, hq, hdone, hkeep⟩ :=
    handleThrow_walk (f + 1) hchain (List.cons_ne_nil _ _) hnd hcur
      fun x hx => hnone x (List.mem_append_left _ hx)
  have hqc : q.coroutine = c := by simpa using hhead.symm
  cases hq with
  | last hs =>
    have hs' : q.coroutineAt? q.coroutine = some (some s, q.coroutine) := by rw [hqc]; exact hs
    refine ⟨q, ?_, hqc, stack?_of_coroutineAt? hs', hdone, hkeep⟩
    rw [hrun]
    simp [handleThrow, stack?_of_coroutineAt? hs', hs', hnone (c, s) (by simp)]

/-- One turn of `HandleThrow`: it has its answer, which is not the exhausted fuel and is the
same however many turns are left, or it leaves a coroutine with a stack for its caller. -/
theorem handleThrow_turn (p : Process) :
    (∃ u, u ≠ .fatal "unwinding did not end" ∧ ∀ fuel, handleThrow R (fuel + 1) p = (u, p)) ∨
    ∃ s caller, p.coroutineAt? p.coroutine = some (some s, caller) ∧
      ∀ fuel, handleThrow R (fuel + 1) p = handleThrow R fuel (p.abandon caller) := by
  have hfatal : ∀ message, message ≠ "unwinding did not end" →
      Unwind.fatal message ≠ .fatal "unwinding did not end" := fun _ hm h => hm (Unwind.fatal.inj h)
  rcases hview : p.coroutineAt? p.coroutine with _ | ⟨_ | s, caller⟩
  · exact .inl ⟨.fatal "no stack to walk", hfatal _ (by decide),
      fun _ => by simp [handleThrow, stack?, hview]⟩
  · exact .inl ⟨.fatal "no stack to walk", hfatal _ (by decide),
      fun _ => by simp [handleThrow, stack?, hview]⟩
  cases hcb : R.computeCatchBlock s with
  | some c => exact .inl ⟨.caught c.1 c.2, nofun, fun _ => by simp [handleThrow, stack?, hview, hcb]⟩
  | none =>
    by_cases hc : caller = p.coroutine
    · exact .inl ⟨if R.sessionDebugging then .uncaught else .exit, by split <;> nofun,
        fun _ => by simp [handleThrow, stack?, hview, hcb, hc]⟩
    · exact .inr ⟨s, caller, rfl, fun _ => handleThrow_abandon hview hcb hc⟩

/-- With more turns than there are coroutines with a stack, `HandleThrow` has its answer:
more turns change nothing, and the fuel does not run out. -/
theorem handleThrow_stable (fuel : Nat) : ∀ p : Process, p.withStacks.card < fuel →
    (∀ k, handleThrow R (fuel + k) p = handleThrow R fuel p) ∧
      (handleThrow R fuel p).1 ≠ .fatal "unwinding did not end" := by
  induction fuel with
  | zero => intro p h; omega
  | succ f ih =>
    intro p hf
    rcases handleThrow_turn p with ⟨u, hu, hturn⟩ | ⟨s, caller, hs, hturn⟩
    · exact ⟨fun k => by rw [Nat.add_right_comm, hturn, hturn], by rw [hturn]; exact hu⟩
    · have hcard := card_withStacks_abandon caller hs
      obtain ⟨hmore, hend⟩ := ih (p.abandon caller) (by omega)
      exact ⟨fun k => by rw [Nat.add_right_comm, hturn, hturn, hmore], by rw [hturn]; exact hend⟩

/-- `HandleThrow`'s loop ends in every process, whatever its coroutines' callers: within the
turns `Throw` gives it, one more than the heap has objects, it has the answer that any number
of further turns would give, and that answer is never the exhausted fuel. -/
theorem handleThrow_ends (p : Process) :
    (∀ k, handleThrow R (p.heap.length + 1 + k) p = handleThrow R (p.heap.length + 1) p) ∧
      (handleThrow R (p.heap.length + 1) p).1 ≠ .fatal "unwinding did not end" :=
  handleThrow_stable _ p (Nat.lt_succ_of_le card_withStacks_le)

end HandleThrow

namespace Interpret

open Process

variable {R : Runtime} {e : Engine}

/-- `Throw` after `HandleThrow` found a catch block: the state of the coroutine it stopped in
is restored, `bcp` is the catch block, and the stack delta's slots are dropped under the
exception. -/
theorem throw_caught_eq {exception : Value} {below rest : List Value} {q : Process} {b bcp δ : Nat}
    (hsp : e.sp = exception :: below)
    (hrun : handleThrow R (e.savedProcess.heap.length + 1) e.savedProcess = (.caught bcp δ, q))
    (hq : q.stack? = some (.bytecode b :: rest)) (hδ₀ : 0 < δ) (hδ : δ ≤ rest.length) :
    throw R e = .ok () { process := q, sp := exception :: rest.drop δ, bcp := bcp } := by
  obtain ⟨d, rfl⟩ : ∃ d, δ = d + 1 := ⟨δ - 1, by omega⟩
  have hset : (rest.drop d).set 0 exception = exception :: rest.drop (d + 1) := by
    rw [List.drop_eq_getElem_cons (by omega)]
    rfl
  simp only [savedProcess] at hrun
  simp [throw, local_cons_zero _ _ e hsp, hrun, restoreState, hq, drop, setTop, setLocal, hset,
    show d ≤ rest.length by omega, show d < rest.length by omega]

/-- `Throw` after `HandleThrow` reported the exception to a debugging session. -/
theorem throw_uncaught_eq {exception : Value} {below : List Value} {q : Process}
    (hsp : e.sp = exception :: below)
    (hrun : handleThrow R (e.savedProcess.heap.length + 1) e.savedProcess = (.uncaught, q)) :
    throw R e =
      .stop (.surrender .uncaughtException none) { process := q, sp := .bytecode e.bcp :: e.sp, bcp := e.bcp } := by
  simp only [savedProcess] at hrun
  simp [throw, local_cons_zero _ _ e hsp, hrun]

/-- `Throw` in a coroutine whose callers form a chain of distinct coroutines with stacks:
`HandleThrow` ends within the turns `Throw` gives it and only makes coroutines of the chain
current. When the first coroutine of the chain whose stack has a catch block is `c`, it ends
there with the coroutines before `c` done and every other coroutine as it was, and `Throw`
resumes at the catch block with `c`'s saved state, the stack delta's slots dropped and the
exception on top. When none has one and a debugging session is attached, it ends at the last
coroutine with every other one of the chain done, and `Throw` reports the exception. -/
theorem throw_unwinds_caller_chain {cs : List (Nat × List Value)} {exception : Value}
    {below : List Value} (hsp : e.sp = exception :: below)
    (hchain : CallerChain e.savedProcess cs) (hnd : (cs.map Prod.fst).Nodup)
    (hcur : (cs.map Prod.fst).head? = some e.process.coroutine) :
    (∀ pre post c b rest bcp δ, cs = pre ++ (c, .bytecode b :: rest) :: post →
      (∀ x ∈ pre, R.computeCatchBlock x.2 = none) →
      R.computeCatchBlock (.bytecode b :: rest) = some (bcp, δ) → δ ≤ rest.length →
      ∃ q, handleThrow R (e.savedProcess.heap.length + 1) e.savedProcess = (.caught bcp δ, q) ∧
        q.coroutine = c ∧ q.stack? = some (.bytecode b :: rest) ∧
        (∀ x ∈ pre, q.coroutineAt? x.1 = some (none, x.1)) ∧
        (∀ a, a ∉ pre.map Prod.fst → q.coroutineAt? a = e.savedProcess.coroutineAt? a) ∧
        throw R e = .ok () { process := q, sp := exception :: rest.drop δ, bcp := bcp }) ∧
    (∀ pre c s, cs = pre ++ [(c, s)] → (∀ x ∈ cs, R.computeCatchBlock x.2 = none) →
      R.sessionDebugging = true →
      ∃ q, handleThrow R (e.savedProcess.heap.length + 1) e.savedProcess = (.uncaught, q) ∧
        q.coroutine = c ∧ q.stack? = some s ∧
        (∀ x ∈ pre, q.coroutineAt? x.1 = some (none, x.1)) ∧
        (∀ a, a ∉ pre.map Prod.fst → q.coroutineAt? a = e.savedProcess.coroutineAt? a) ∧
        throw R e =
          .stop (.surrender .uncaughtException none)
            { process := q, sp := .bytecode e.bcp :: e.sp, bcp := e.bcp }) := by
  have hlen := hchain.length_le hnd
  have hcur' : (cs.map Prod.fst).head? = some e.savedProcess.coroutine := by simpa [savedProcess] using hcur
  constructor
  · rintro pre post c b rest bcp δ rfl hpre hcatch hδ
    obtain ⟨q, hrun, hc, hstack, hdone, hkeep⟩ :=
      handleThrow_caught (e.savedProcess.heap.length + 1) hchain hnd hcur' hpre hcatch
        (by simp at hlen; omega)
    exact ⟨q, hrun, hc, hstack, hdone, hkeep,
      throw_caught_eq hsp hrun hstack (R.catchDelta_pos _ _ _ hcatch) hδ⟩
  · rintro pre c s rfl hnone hdebug
    obtain ⟨q, hrun, hc, hstack, hdone, hkeep⟩ :=
      handleThrow_uncaught (e.savedProcess.heap.length + 1) hchain hnd hcur' hnone
        (by simp at hlen; omega)
    rw [hdebug, if_pos rfl] at hrun
    exact ⟨q, hrun, hc, hstack, hdone, hkeep, throw_uncaught_eq hsp hrun⟩

/-- A runtime whose stack walker finds the catch block `40`, one slot deep, in every stack of
three slots, and none in other stacks. -/
def catchingRuntime : Runtime :=
  { plainRuntime with
    computeCatchBlock := fun s => if s.length = 3 then some (40, 1) else none
    catchDelta_pos := fun s _ _ h => by
      by_cases hs : s.length = 3
      · simp only [hs, if_true, Option.some.injEq, Prod.mk.injEq] at h
        omega
      · simp [hs] at h }

/-- `Throw` of `5` at `7` in coroutine `1`, whose caller is coroutine `0`, suspended at `30`
with two slots and its own caller. -/
def throwingInCallee : Engine where
  process :=
    { callingWithSlot.process with
      heap := [⟨9, .coroutine (some [.bytecode 30, .smi 1, .smi 2]) 0⟩, ⟨9, .coroutine (some []) 0⟩]
      coroutine := 1 }
  sp := [.smi 5]
  bcp := 7

theorem throwingInCallee_caught_by_caller :
    ∃ q, throw catchingRuntime throwingInCallee =
        .ok () { process := q, sp := [.smi 5, .smi 2], bcp := 40 } ∧
      q.coroutine = 0 ∧ q.coroutineAt? 1 = some (none, 1) := by
  have hsp : throwingInCallee.sp = .smi 5 :: [] := rfl
  obtain ⟨h, -⟩ := throw_unwinds_caller_chain (R := catchingRuntime) hsp
    (.cons (by decide) rfl (.last rfl) :
      CallerChain throwingInCallee.savedProcess [(1, [.bytecode 7, .smi 5]), (0, [.bytecode 30, .smi 1, .smi 2])])
    (by decide) rfl
  obtain ⟨q, -, hc, -, hdone, -, hthrow⟩ :=
    h [(1, [.bytecode 7, .smi 5])] [] 0 30 [.smi 1, .smi 2] 40 1 rfl (by decide) rfl (by decide)
  exact ⟨q, hthrow, hc, hdone _ (List.mem_singleton_self _)⟩

end Interpret

end Fletch
