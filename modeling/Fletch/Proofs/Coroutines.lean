import Fletch.Proofs.Unwinding

/-!
# Coroutines

The engine runs on the stack of the current coroutine. Every other coroutine that has a
stack is suspended: `SaveState` left the `bcp` of a `CoroutineChange` on top of it, above
the two operand slots that opcode nulled. `CoroutineChange` saves the current coroutine in
exactly that shape and resumes the one it is given (`coroutineChange_eq`), so that switching
from `A` to `B` and later back to `A` gives `A` its stack and `bcp` back
(`coroutineChange_round_trip`).

Every other opcode keeps the current coroutine and every other coroutine object as they
were (`Process.KeepsOthers`, by the sweep of `Effects.lean`); a native may also create
coroutines, suspended ones (`Runtime.NativesKeepCoroutines`). `Throw` only marks done the
coroutines its unwinding reaches through callers on its way to the catch block
(`handleThrow_frame`, `Process.CallerStep`). Together these give the invariant
`CoroutinesWellFormed`: the current coroutine has a stack and every other one with a stack is
suspended. Every dispatch that does not fail keeps it, and leaves every coroutine that does
not become current as it was, except those a `Throw` unwinds through
(`dispatch_keeps_coroutinesWellFormed`, `LeavesSuspended`), so it holds along every run of
`loop` from a well-formed process (`run_keeps_coroutinesWellFormed`).
-/

namespace Fletch

open Exec Engine Interpret

namespace Process

variable {p : Process}

/-- Writing a body that is not a coroutine over an object that is not one changes no
coroutine. -/
theorem coroutineAt?_setBody_of_not_coroutine {a : Nat} {b : Body} (ha : p.coroutineAt? a = none)
    (hb : ∀ s c, b ≠ .coroutine s c) (a' : Nat) : (p.setBody a b).coroutineAt? a' = p.coroutineAt? a' := by
  by_cases h : a = a'
  · subst h
    rw [ha]
    unfold coroutineAt?
    rw [getElem?_setBody, if_pos rfl]
    cases p.heap[a]? with
    | none => rfl
    | some o => cases b <;> simp_all
  · exact coroutineAt?_setBody_ne _ h

/-- A new object that is not a coroutine changes no coroutine. -/
theorem coroutineAt?_allocate {o : HeapObject} (ho : ∀ s c, o.body ≠ .coroutine s c) (a : Nat) :
    (p.allocate o).1.coroutineAt? a = p.coroutineAt? a := by
  unfold coroutineAt? allocate
  rcases Nat.lt_trichotomy a p.heap.length with h | rfl | h
  · rw [List.getElem?_append_left h]
  · rw [List.getElem?_append_right (Nat.le_refl _), Nat.sub_self, List.getElem?_eq_none (Nat.le_refl _)]
    obtain ⟨c, body⟩ := o
    cases body <;> simp_all
  · rw [List.getElem?_eq_none (by simp; omega), List.getElem?_eq_none (by omega)]

/-- `q` has the current coroutine of `p`, still a coroutine, with a stack if it had one, and
every other coroutine of `p` as it was. -/
structure KeepsOthers (p q : Process) : Prop where
  coroutine : q.coroutine = p.coroutine
  hasCoroutine : p.HasCoroutine → q.HasCoroutine
  hasStack : p.stack?.isSome → q.stack?.isSome
  others : ∀ a, a ≠ p.coroutine → q.coroutineAt? a = p.coroutineAt? a

theorem KeepsOthers.of_coroutineAt? {q : Process} (hc : q.coroutine = p.coroutine)
    (h : ∀ a, q.coroutineAt? a = p.coroutineAt? a) : KeepsOthers p q := by
  have hs : q.stack? = p.stack? := by unfold stack?; rw [hc, h]
  refine ⟨hc, fun hp => ?_, fun hp => hs ▸ hp, fun a _ => h a⟩
  unfold HasCoroutine at *
  rwa [hc, h]

theorem hasCoroutine_of_stack (h : p.stack?.isSome) : p.HasCoroutine := by
  unfold HasCoroutine
  unfold stack? at h
  split at h <;> simp_all

theorem keepsOthers_keeps : Keeps KeepsOthers where
  refl p := .of_coroutineAt? rfl fun _ => rfl
  trans h₁ h₂ :=
    ⟨h₂.coroutine.trans h₁.coroutine, h₂.hasCoroutine ∘ h₁.hasCoroutine, h₂.hasStack ∘ h₁.hasStack,
      fun a ha => (h₂.others a (h₁.coroutine ▸ ha)).trans (h₁.others a ha)⟩
  setStack p s := by
    refine ⟨setStack_coroutine p s, fun h => hasCoroutine_setStack h s,
      fun h => by simp [stack?_setStack (hasCoroutine_of_stack h)],
      fun a ha => coroutineAt?_setCoroutineStack_ne _ (Ne.symm ha)⟩
  statics p statics := .of_coroutineAt? rfl fun _ => rfl
  setBody p a b ha hb := .of_coroutineAt? rfl (coroutineAt?_setBody_of_not_coroutine ha hb)
  allocate p o ho := .of_coroutineAt? rfl (coroutineAt?_allocate ho)
  stackLimit p stackLimit := .of_coroutineAt? rfl fun _ => rfl

theorem SameCoroutines.keepsOthers {q : Process} (h : p.SameCoroutines q) : KeepsOthers p q :=
  .of_coroutineAt? h.1 h.2

/-- `q` has the current coroutine of `p`, still a coroutine, with a stack if it had one, and
every other coroutine of `p` as it was; `q` may have coroutines `p` does not. -/
structure KeepsCoroutines (p q : Process) : Prop where
  coroutine : q.coroutine = p.coroutine
  hasCoroutine : p.HasCoroutine → q.HasCoroutine
  hasStack : p.stack?.isSome → q.stack?.isSome
  others : ∀ a view, a ≠ p.coroutine → p.coroutineAt? a = some view → q.coroutineAt? a = some view

theorem KeepsOthers.keepsCoroutines {q : Process} (h : KeepsOthers p q) : KeepsCoroutines p q :=
  ⟨h.coroutine, h.hasCoroutine, h.hasStack, fun a _ ha hv => (h.others a ha).trans hv⟩

theorem KeepsCoroutines.trans {q r : Process} (h₁ : KeepsCoroutines p q) (h₂ : KeepsCoroutines q r) :
    KeepsCoroutines p r :=
  ⟨h₂.coroutine.trans h₁.coroutine, h₂.hasCoroutine ∘ h₁.hasCoroutine, h₂.hasStack ∘ h₁.hasStack,
    fun a view ha hv => h₂.others a view (h₁.coroutine ▸ ha) (h₁.others a view ha hv)⟩

/-- `HandleThrow` goes on from coroutine `a` to `b`: `b` is the caller of `a`, another
coroutine. -/
def CallerStep (p : Process) (a b : Nat) : Prop := (p.coroutineAt? a).map Prod.snd = some b ∧ a ≠ b

theorem caller_setCoroutineStack (c a : Nat) (s : Option (List Value)) :
    ((p.setCoroutineStack c s).coroutineAt? a).map Prod.snd = (p.coroutineAt? a).map Prod.snd := by
  by_cases h : c = a
  · subst h
    cases hv : p.coroutineAt? c with
    | none => simp [setCoroutineStack, hv]
    | some view => rw [coroutineAt?_setCoroutineStack_self s hv]; rfl
  · rw [coroutineAt?_setCoroutineStack_ne s h]

/-- Saving the engine's state changes no caller. -/
theorem callerStep_setStack (s : List Value) : (p.setStack s).CallerStep = p.CallerStep := by
  funext a b
  simp only [CallerStep, setStack, caller_setCoroutineStack]

/-- Every caller step after a turn of `HandleThrow` is one before it: the coroutine the turn
leaves is its own caller. -/
theorem CallerStep.of_abandon {caller a b : Nat} {view : Option (List Value) × Nat}
    (hp : p.coroutineAt? p.coroutine = some view) (h : (p.abandon caller).CallerStep a b) :
    p.CallerStep a b := by
  obtain ⟨hb, hne⟩ := h
  by_cases ha : a = p.coroutine
  · subst ha
    rw [coroutineAt?_abandon_self hp] at hb
    cases hb
    exact absurd rfl hne
  · rw [coroutineAt?_abandon_ne ha] at hb
    exact ⟨hb, hne⟩

theorem coroutineAt?_of_body? {a : Nat} {s : Option (List Value)} {c : Nat}
    (h : p.body? (.heap a) = some (.coroutine s c)) : p.coroutineAt? a = some (s, c) := by
  unfold body? at h
  unfold coroutineAt?
  obtain ⟨⟨classId, body⟩, ho, hb⟩ := Option.map_eq_some'.mp h
  simp_all

theorem body?_of_coroutineAt? {a : Nat} {s : Option (List Value)} {c : Nat}
    (h : p.coroutineAt? a = some (s, c)) : p.body? (.heap a) = some (.coroutine s c) := by
  unfold coroutineAt? at h
  unfold body?
  split at h
  · rename_i hget
    simp_all
  · cases h

end Process

namespace Exec

theorem bind_eq_ok {α β : Type} {m : Exec α} {f : α → Exec β} {e e' : Engine} {b : β}
    (h : (m >>= f) e = .ok b e') : ∃ a e₁, m e = .ok a e₁ ∧ f a e₁ = .ok b e' := by
  simp only [bind_apply] at h
  cases hm : m e with
  | ok a e₁ => rw [hm] at h; exact ⟨a, e₁, rfl, h⟩
  | stop s e₁ => rw [hm] at h; cases h

end Exec

namespace Engine

variable {P : Program} {R : Runtime} {e e' : Engine}

theorem setLocal_eq_ok {n : Nat} {v : Value} (h : setLocal n v e = .ok () e') :
    n < e.sp.length ∧ e' = { e with sp := e.sp.set n v } := by
  unfold setLocal at h
  split at h <;> simp_all

theorem restoreState_eq_ok (h : restoreState e = .ok () e') :
    ∃ b s, e.process.stack? = some (.bytecode b :: s) ∧ e' = { e with sp := s, bcp := b } := by
  unfold restoreState at h
  split at h
  · rename_i b s hs
    exact ⟨b, s, hs, (Result.ok.inj h).2.symm⟩
  · cases h

theorem advance_eq_ok {d : Int} (h : advance d e = .ok () e') : e'.process = e.process ∧ e'.sp = e.sp := by
  unfold advance at h
  split at h
  · cases h; exact ⟨rfl, rfl⟩
  · cases h

theorem coroutineOf_eq_ok {v : Value} {c : Nat} (h : coroutineOf v e = .ok c e') :
    v = .heap c ∧ (e.process.coroutineAt? c).isSome ∧ e' = e := by
  unfold coroutineOf at h
  obtain ⟨b, e₁, hb, h⟩ := bind_eq_ok h
  simp only [bodyOf, bind_apply, read_apply, Result.ok_bind] at hb
  cases hv : e.process.body? v with
  | none => simp [hv] at hb
  | some body =>
    simp only [hv, some?_some, pure_apply, Result.ok.injEq] at hb
    obtain ⟨rfl, rfl⟩ := hb
    cases body <;> simp only [fatal_apply, reduceCtorEq] at h
    cases v <;> simp only [address, fatal_apply, pure_apply, Result.ok.injEq, reduceCtorEq] at h
    obtain ⟨rfl, rfl⟩ := h
    exact ⟨rfl, by simp [Process.coroutineAt?_of_body? hv], rfl⟩

/-- The state the breakpoint gate leaves when it stops: saved, and marked as at a
breakpoint. -/
def atBreakpoint (e : Engine) : Engine :=
  { e with
    sp := .bytecode e.bcp :: e.sp
    process :=
      { e.process.setStack (.bytecode e.bcp :: e.sp) with debugInfo := some { isAtBreakpoint := true } } }

end Engine

namespace Interpret

variable {P : Program} {R : Runtime} {e e' : Engine}

/-- `DISPATCH()`: the breakpoint gate stops with the state saved when the debugger asks for
it; otherwise the opcode at `bcp` runs from the state the dispatch started in. -/
theorem dispatch_eq (noBreak : Bool) (a : Allocation) (e : Engine) :
    dispatch P R noBreak a e =
      if !noBreak && e.process.debugInfo.isSome && R.shouldBreak e.bcp e.sp then
        .stop (.surrender .breakPoint none) e.atBreakpoint
      else match Opcode.ofByte (P.code e.bcp) with
        | some op => execute P R a op e
        | none => .stop (.fatal "Failed to interpret. Bad bytecode") e := by
  have hrun : ∀ e : Engine, (readOpcode P e).bind (fun op => execute P R a op) =
      match Opcode.ofByte (P.code e.bcp) with
        | some op => execute P R a op e
        | none => .stop (.fatal "Failed to interpret. Bad bytecode") e := by
    intro e
    cases ho : Opcode.ofByte (P.code e.bcp) <;> simp [readOpcode, ho, some?]
  unfold dispatch shouldBreak
  cases noBreak <;> cases hd : e.process.debugInfo <;> cases hs : R.shouldBreak e.bcp e.sp <;>
    simp [hd, hs, atBreakpoint, hrun]

/-- A dispatch that does not fail stops at the gate, or runs an opcode. -/
theorem dispatch_cases {noBreak : Bool} {a : Allocation} {r : Result Unit}
    (h : dispatch P R noBreak a e = r) (hr : ∀ m e', r ≠ .stop (.fatal m) e') :
    r = .stop (.surrender .breakPoint none) e.atBreakpoint ∨
      ∃ op, Opcode.ofByte (P.code e.bcp) = some op ∧ execute P R a op e = r := by
  rw [dispatch_eq] at h
  split at h
  · exact .inl h.symm
  · split at h
    · exact .inr ⟨_, ‹_›, h⟩
    · exact absurd h.symm (hr _ _)

/-! ## `Throw` -/

/-- What `HandleThrow` does to the coroutines when it does not fail: the coroutine it ends in
has a stack, the coroutine it started in is done unless it ends there, and every other
coroutine is as it was, or done after the walk reached it through callers from the
coroutine it started in. -/
theorem handleThrow_frame {fuel : Nat} {p q : Process} {u : Unwind}
    (h : handleThrow R fuel p = (u, q)) (hu : ∀ m, u ≠ .fatal m) :
    q.stack?.isSome ∧ (q.coroutine ≠ p.coroutine → q.coroutineAt? p.coroutine = some (none, p.coroutine)) ∧
      ∀ a, a ≠ q.coroutine → q.coroutineAt? a = p.coroutineAt? a ∨
        q.coroutineAt? a = some (none, a) ∧ Relation.ReflTransGen p.CallerStep p.coroutine a := by
  induction fuel generalizing p with
  | zero => cases h; exact absurd rfl (hu _)
  | succ fuel ih =>
    unfold handleThrow at h
    split at h
    · cases h; exact absurd rfl (hu _)
    · rename_i s hs
      have hq : q = p → q.stack?.isSome ∧ (q.coroutine ≠ p.coroutine → q.coroutineAt? p.coroutine =
          some (none, p.coroutine)) ∧ ∀ a, a ≠ q.coroutine → q.coroutineAt? a = p.coroutineAt? a ∨
            q.coroutineAt? a = some (none, a) ∧ Relation.ReflTransGen p.CallerStep p.coroutine a := by
        rintro rfl
        exact ⟨by simp [hs], fun h => absurd rfl h, fun _ _ => .inl rfl⟩
      split at h
      · exact hq (Prod.mk.inj h).2.symm
      · split at h
        · cases h; exact absurd rfl (hu _)
        · rename_i caller hc
          split at h
          · exact hq (Prod.mk.inj h).2.symm
          · rename_i hne
            change handleThrow R fuel (p.abandon caller) = (u, q) at h
            obtain ⟨hs', -, hframe⟩ := ih h
            have hself : (p.abandon caller).coroutineAt? p.coroutine = some (none, p.coroutine) :=
              Process.coroutineAt?_abandon_self hc
            have hstep : p.CallerStep p.coroutine caller := ⟨by rw [hc]; rfl, Ne.symm hne⟩
            rw [Process.abandon_coroutine] at hframe
            refine ⟨hs', fun hqp => ?_, fun a ha => ?_⟩
            · rcases hframe p.coroutine (Ne.symm hqp) with h'' | ⟨h'', -⟩
              · exact h''.trans hself
              · exact h''
            · rcases hframe a ha with h' | ⟨h', hchain⟩
              · by_cases hap : a = p.coroutine
                · subst hap; exact .inr ⟨h'.trans hself, .refl⟩
                · exact .inl (h'.trans (Process.coroutineAt?_abandon_ne hap))
              · exact .inr ⟨h', .head hstep (hchain.mono fun _ _ => Process.CallerStep.of_abandon hc)⟩

/-- A `Throw` that does not fail ends with the process that a `HandleThrow` that did not fail
left. -/
theorem throw_outcome {r : Result Unit} (h : Interpret.throw R e = r)
    (hr : ∀ m e', r ≠ .stop (.fatal m) e') :
    ∃ u q, handleThrow R (e.savedProcess.heap.length + 1) e.savedProcess = (u, q) ∧
      (∀ m, u ≠ .fatal m) ∧ r.engine.process = q := by
  subst h
  cases hsp : e.sp with
  | nil => exact (hr "stack underflow" e (by simp [Interpret.throw, «local», hsp])).elim
  | cons x rest =>
    rcases hu : handleThrow R (e.savedProcess.heap.length + 1) e.savedProcess with ⟨u, q⟩
    have hu' := hu
    simp only [savedProcess, hsp] at hu'
    refine ⟨u, q, rfl, ?_, ?_⟩
    · rintro m rfl
      exact hr m { process := q, sp := .bytecode e.bcp :: x :: rest, bcp := e.bcp }
        (by simp [Interpret.throw, «local», hsp, hu'])
    · cases u <;> simp [Interpret.throw, «local», hsp, hu', restoreState]
      split <;> simp only [Result.ok_bind, Result.stop_bind, bind_apply, goto_apply, drop, setTop]
      · split_ifs <;> simp [setLocal, apply_ite]
      · rfl

/-! ## `CoroutineChange` -/

/-- `CoroutineChange` from the current coroutine to a coroutine `B` suspended at `b`: the
current coroutine is saved with its two operands nulled, and `B` resumes after its own
`CoroutineChange` with the argument in place of the two slots beneath its saved `bcp`. -/
theorem coroutineChange_eq {x u w : Value} {rest restB : List Value} {B b callerB : Nat}
    (hsp : e.sp = x :: .heap B :: rest) (hne : B ≠ e.process.coroutine)
    (hB : e.process.coroutineAt? B = some (some (.bytecode b :: u :: w :: restB), callerB)) :
    coroutineChange P e =
      .ok ()
        { process :=
            (e.process.setStack (.bytecode e.bcp :: P.nullObject :: P.nullObject :: rest)).updateCoroutine B
          sp := x :: restB
          bcp := b + Opcode.coroutineChange.length } := by
  have hB' : ((e.process.setStack (.bytecode e.bcp :: P.nullObject :: P.nullObject :: rest)).updateCoroutine
      B).stack? = some (.bytecode b :: u :: w :: restB) := by
    unfold Process.stack?
    rw [show ((e.process.setStack (.bytecode e.bcp :: P.nullObject :: P.nullObject :: rest)).updateCoroutine
      B).coroutine = B from rfl, Process.coroutineAt?_updateCoroutine, Process.setStack,
      Process.coroutineAt?_setCoroutineStack_ne _ (Ne.symm hne), hB]
  simp [coroutineChange, «local», hsp, setLocal, coroutineOf, bodyOf, Process.body?_of_coroutineAt? hB, address,
    restoreState, hB', advance_natCast, drop, setTop]

/-- What a completed `CoroutineChange` did: it saved the current coroutine with its two
operands nulled and made the coroutine of its second operand current, which has a stack. -/
theorem coroutineChange_ok (h : coroutineChange P e = .ok () e') :
    ∃ x B rest, e.sp = x :: .heap B :: rest ∧ (e.process.coroutineAt? B).isSome ∧
      e'.process =
        (e.process.setStack (.bytecode e.bcp :: P.nullObject :: P.nullObject :: rest)).updateCoroutine B ∧
      e'.process.stack?.isSome := by
  obtain ⟨x, e₁, h₁, k₁⟩ := bind_eq_ok h
  obtain ⟨hx, he₁⟩ := local_eq_ok h₁
  subst e₁
  obtain ⟨_, e₂, h₂, k₂⟩ := bind_eq_ok k₁
  obtain ⟨-, rfl⟩ := setLocal_eq_ok h₂
  obtain ⟨v, e₃, h₃, k₃⟩ := bind_eq_ok k₂
  obtain ⟨hv, he₃⟩ := local_eq_ok h₃
  subst e₃
  obtain ⟨B, e₄, h₄, k₄⟩ := bind_eq_ok k₃
  obtain ⟨rfl, hB, he₄⟩ := coroutineOf_eq_ok h₄
  subst e₄
  obtain ⟨_, e₅, h₅, k₅⟩ := bind_eq_ok k₄
  obtain ⟨-, rfl⟩ := setLocal_eq_ok h₅
  obtain ⟨_, e₆, h₆, k₆⟩ := bind_eq_ok k₅
  rw [saveState_apply, Result.ok.injEq] at h₆
  obtain ⟨-, rfl⟩ := h₆
  obtain ⟨_, e₇, h₇, k₇⟩ := bind_eq_ok k₆
  rw [modify_apply, Result.ok.injEq] at h₇
  obtain ⟨-, rfl⟩ := h₇
  obtain ⟨_, e₈, h₈, k₈⟩ := bind_eq_ok k₇
  obtain ⟨b, s, hs, rfl⟩ := restoreState_eq_ok h₈
  obtain ⟨_, e₉, h₉, k₉⟩ := bind_eq_ok k₈
  obtain ⟨hp₉, -⟩ := advance_eq_ok h₉
  obtain ⟨_, e₁₀, h₁₀, k₁₀⟩ := bind_eq_ok k₉
  obtain ⟨-, rfl⟩ := drop_eq_ok h₁₀
  obtain ⟨-, rfl⟩ := setLocal_eq_ok k₁₀
  obtain ⟨rest, hsp⟩ : ∃ rest, e.sp = x :: .heap B :: rest := by
    match hsp : e.sp, hx, hv with
    | y :: z :: rest, hx, hv =>
      simp only [List.getElem?_cons_zero, List.set_cons_zero, List.getElem?_cons_succ,
        Option.some.injEq] at hx hv
      exact ⟨rest, by rw [hx, hv]⟩
    | [], hx, _ => simp at hx
    | [_], _, hv => simp at hv
  refine ⟨x, B, rest, hsp, hB, ?_, ?_⟩
  · rw [hp₉]
    simp [hsp]
  · rw [hp₉]
    simp [hs]

/-- Switching from the current coroutine `A` to a suspended coroutine `B`, and later, from
any other coroutine while `A`'s stack is as the switch left it (whatever its caller is then),
back to `A`: `B` resumes
past its own `CoroutineChange` with the argument in place of its two saved operand slots,
`A` is saved with its two operands nulled under the `bcp` of its `CoroutineChange`, and the
switch back gives `A` its stack, with the new argument in place of the two operands, and the
`bcp` past its `CoroutineChange`. -/
theorem coroutineChange_round_trip {x u w : Value} {rest restB : List Value} {B b callerB : Nat}
    (hsp : e.sp = x :: .heap B :: rest) (hA : e.process.HasCoroutine) (hne : B ≠ e.process.coroutine)
    (hB : e.process.coroutineAt? B = some (some (.bytecode b :: u :: w :: restB), callerB)) :
    ∃ callerA,
      coroutineChange P e =
          .ok ()
            { process :=
                (e.process.setStack (.bytecode e.bcp :: P.nullObject :: P.nullObject :: rest)).updateCoroutine B
              sp := x :: restB
              bcp := b + Opcode.coroutineChange.length } ∧
        ((e.process.setStack (.bytecode e.bcp :: P.nullObject :: P.nullObject :: rest)).updateCoroutine
            B).coroutineAt? e.process.coroutine =
          some (some (.bytecode e.bcp :: P.nullObject :: P.nullObject :: rest), callerA) ∧
        ∀ (e₂ : Engine) (y : Value) (rest₂ : List Value) (caller₂ : Nat),
          e₂.sp = y :: .heap e.process.coroutine :: rest₂ → e₂.process.coroutine ≠ e.process.coroutine →
          e₂.process.coroutineAt? e.process.coroutine =
            some (some (.bytecode e.bcp :: P.nullObject :: P.nullObject :: rest), caller₂) →
          coroutineChange P e₂ =
            .ok ()
              { process :=
                  (e₂.process.setStack (.bytecode e₂.bcp :: P.nullObject :: P.nullObject :: rest₂)).updateCoroutine
                    e.process.coroutine
                sp := y :: rest
                bcp := e.bcp + Opcode.coroutineChange.length } := by
  obtain ⟨view, hv⟩ := Option.isSome_iff_exists.mp hA
  refine ⟨view.2, coroutineChange_eq hsp hne hB, ?_, fun e₂ y rest₂ _ hsp₂ hne₂ hA₂ =>
    coroutineChange_eq hsp₂ (Ne.symm hne₂) hA₂⟩
  rw [Process.coroutineAt?_updateCoroutine]
  exact Process.coroutineAt?_setCoroutineStack_self _ hv

/-! ## The invariant -/

/-- A suspended stack: its top slot is the saved `bcp` of a `CoroutineChange`, with at least
two slots beneath it. -/
def Suspended (P : Program) (s : List Value) : Prop :=
  ∃ b x y rest, s = .bytecode b :: x :: y :: rest ∧ Opcode.ofByte (P.code b) = some .coroutineChange

/-- The current coroutine has a stack, and every other coroutine with a stack is suspended. -/
structure CoroutinesWellFormed (P : Program) (p : Process) : Prop where
  current : p.stack?.isSome
  suspended : ∀ c s caller, c ≠ p.coroutine → p.coroutineAt? c = some (some s, caller) → Suspended P s

theorem CoroutinesWellFormed.of_keepsOthers {p q : Process} (hw : CoroutinesWellFormed P p)
    (hk : p.KeepsOthers q) : CoroutinesWellFormed P q :=
  ⟨hk.hasStack hw.current, fun c s caller hc hs =>
    hw.suspended c s caller (hk.coroutine ▸ hc) ((hk.others c (hk.coroutine ▸ hc)).symm.trans hs)⟩

/-- What a dispatch from `e` that ends with process `q` does to the coroutines that were not
current: one that does not become current is left as it was, unless the dispatch is a
`Throw` whose unwinding reached it through callers from the current coroutine and left it
done; the one that was current and is no longer is done by a `Throw`, or suspended by its
`CoroutineChange` at `e.bcp` with both operand slots nulled. -/
structure LeavesSuspended (P : Program) (e : Engine) (q : Process) : Prop where
  others : ∀ c view, c ≠ e.process.coroutine → c ≠ q.coroutine → e.process.coroutineAt? c = some view →
    q.coroutineAt? c = some view ∨
      Opcode.ofByte (P.code e.bcp) = some .throw ∧
        Relation.ReflTransGen e.process.CallerStep e.process.coroutine c ∧ q.coroutineAt? c = some (none, c)
  previous : q.coroutine ≠ e.process.coroutine →
    Opcode.ofByte (P.code e.bcp) = some .throw ∧
        q.coroutineAt? e.process.coroutine = some (none, e.process.coroutine) ∨
      ∃ rest caller, q.coroutineAt? e.process.coroutine =
          some (some (.bytecode e.bcp :: P.nullObject :: P.nullObject :: rest), caller) ∧
        Opcode.ofByte (P.code e.bcp) = some .coroutineChange

theorem LeavesSuspended.of_keepsCoroutines {q : Process} (hk : e.process.KeepsCoroutines q) :
    LeavesSuspended P e q :=
  ⟨fun c view hc _ hv => .inl (hk.others c view hc hv), fun hne => absurd hk.coroutine hne⟩

/-- `q` keeps the coroutines of `p` and keeps them well formed. -/
def CoroutinesKept (P : Program) (p q : Process) : Prop :=
  p.KeepsCoroutines q ∧ (CoroutinesWellFormed P p → CoroutinesWellFormed P q)

theorem CoroutinesKept.of_keepsOthers {p q : Process} (h : p.KeepsOthers q) : CoroutinesKept P p q :=
  ⟨h.keepsCoroutines, fun hw => hw.of_keepsOthers h⟩

theorem coroutinesKept_keeps (P : Program) : Keeps (CoroutinesKept P) where
  refl p := .of_keepsOthers (Process.keepsOthers_keeps.refl p)
  trans h₁ h₂ := ⟨h₁.1.trans h₂.1, h₂.2 ∘ h₁.2⟩
  setStack p s := .of_keepsOthers (Process.keepsOthers_keeps.setStack p s)
  statics p statics := .of_keepsOthers (Process.keepsOthers_keeps.statics p statics)
  setBody p a b ha hb := .of_keepsOthers (Process.keepsOthers_keeps.setBody p a b ha hb)
  allocate p o ho := .of_keepsOthers (Process.keepsOthers_keeps.allocate p o ho)
  stackLimit p stackLimit := .of_keepsOthers (Process.keepsOthers_keeps.stackLimit p stackLimit)

end Interpret

/-- The natives keep the current coroutine and every other one as it was, and keep the
coroutines well formed: a native may create coroutines, suspended ones. -/
def Runtime.NativesKeepCoroutines (P : Program) (R : Runtime) : Prop :=
  R.NativesKeep P (Interpret.CoroutinesKept P)

theorem Runtime.NativesKeepCoroutines.hasCoroutine {P : Program} {R : Runtime}
    (hn : R.NativesKeepCoroutines P) : R.NativesKeep P fun p q => p.HasCoroutine → q.HasCoroutine :=
  fun _ _ _ _ _ _ h => (hn _ _ _ _ _ _ h).1.hasCoroutine

namespace Interpret

variable {P : Program} {R : Runtime} {e e' : Engine}

/-- The breakpoint gate writes the current stack and the debug info, and nothing else. -/
theorem keepsOthers_atBreakpoint (e : Engine) : e.process.KeepsOthers e.atBreakpoint.process :=
  Process.keepsOthers_keeps.trans (Process.keepsOthers_keeps.setStack _ _)
    (.of_coroutineAt? rfl fun _ => rfl)

/-- A `Throw` that does not fail keeps `CoroutinesWellFormed`: the unwinding marks done every
coroutine it leaves, the one it started in included. -/
theorem throw_keeps_coroutinesWellFormed {r : Result Unit}
    (hop : Opcode.ofByte (P.code e.bcp) = some .throw) (hw : CoroutinesWellFormed P e.process)
    (h : Interpret.throw R e = r) (hr : ∀ m e', r ≠ .stop (.fatal m) e') :
    CoroutinesWellFormed P r.engine.process ∧ LeavesSuspended P e r.engine.process := by
  obtain ⟨u, q, hu, hnf, rfl⟩ := throw_outcome h hr
  obtain ⟨hstack, hleft, hframe⟩ := handleThrow_frame hu hnf
  have hsaved : ∀ c, c ≠ e.process.coroutine → e.savedProcess.coroutineAt? c = e.process.coroutineAt? c :=
    fun c hc => Process.coroutineAt?_setCoroutineStack_ne _ (Ne.symm hc)
  have hcur : e.savedProcess.coroutine = e.process.coroutine := Process.setStack_coroutine _ _
  have hsteps : e.savedProcess.CallerStep = e.process.CallerStep := Process.callerStep_setStack _
  rw [hcur, hsteps] at hframe
  rw [hcur] at hleft
  refine ⟨⟨hstack, fun c s caller hc hs => ?_⟩, ⟨fun c view hc hcq hv => ?_, fun hne => .inl ⟨hop, hleft hne⟩⟩⟩
  · by_cases hce : c = e.process.coroutine
    · subst hce
      rw [hleft (Ne.symm hc)] at hs
      cases hs
    · rcases hframe c hc with h' | ⟨h', -⟩
      · exact hw.suspended c s caller hce ((hsaved c hce).symm.trans (h'.symm.trans hs))
      · rw [h'] at hs
        cases hs
  · rcases hframe c hcq with h' | ⟨h', hchain⟩
    · exact .inl (h'.trans ((hsaved c hc).trans hv))
    · exact .inr ⟨hop, hchain, h'⟩

/-- A `CoroutineChange` that does not fail keeps `CoroutinesWellFormed`: it suspends the
coroutine it leaves at its own `bcp`. -/
theorem coroutineChange_keeps_coroutinesWellFormed {r : Result Unit}
    (hop : Opcode.ofByte (P.code e.bcp) = some .coroutineChange) (hw : CoroutinesWellFormed P e.process)
    (h : coroutineChange P e = r) (hr : ∀ m e', r ≠ .stop (.fatal m) e') :
    CoroutinesWellFormed P r.engine.process ∧ LeavesSuspended P e r.engine.process := by
  cases r with
  | stop s e' =>
    obtain ⟨m, rfl⟩ := coroutineChange_stops.fatal_of_stop h
    exact absurd rfl (hr m e')
  | ok _ e' =>
    obtain ⟨x, B, rest, hsp, hB, hproc, hstack⟩ := coroutineChange_ok h
    obtain ⟨view, hv⟩ := Option.isSome_iff_exists.mp (Process.hasCoroutine_of_stack hw.current)
    have hA : e'.process.coroutineAt? e.process.coroutine =
        some (some (.bytecode e.bcp :: P.nullObject :: P.nullObject :: rest), view.2) := by
      rw [hproc, Process.coroutineAt?_updateCoroutine]
      exact Process.coroutineAt?_setCoroutineStack_self _ hv
    have hothers : ∀ c, c ≠ e.process.coroutine → e'.process.coroutineAt? c = e.process.coroutineAt? c :=
      fun c hc => by
        rw [hproc, Process.coroutineAt?_updateCoroutine]
        exact Process.coroutineAt?_setCoroutineStack_ne _ (Ne.symm hc)
    refine ⟨⟨hstack, fun c s caller hc (hs : e'.process.coroutineAt? c = _) => ?_⟩,
      ⟨fun c _ hc _ hv => .inl ((hothers c hc).trans hv), fun _ => .inr ⟨rest, view.2, hA, hop⟩⟩⟩
    by_cases hce : c = e.process.coroutine
    · subst hce
      rw [hA] at hs
      cases hs
      exact ⟨e.bcp, _, _, rest, rfl, hop⟩
    · exact hw.suspended c s caller hce ((hothers c hce).symm.trans hs)

/-- Every dispatch that does not fail keeps `CoroutinesWellFormed`, and leaves the coroutines
that were not current as `LeavesSuspended` says. The gate and every opcode but `Throw` and
`CoroutineChange` keep every other coroutine (`execute_within`). -/
theorem dispatch_keeps_coroutinesWellFormed (hgc : R.PreservesIdentity)
    (hn : R.NativesKeepCoroutines P) {noBreak : Bool} {a : Allocation} {r : Result Unit}
    (hw : CoroutinesWellFormed P e.process) (h : dispatch P R noBreak a e = r)
    (hr : ∀ m e', r ≠ .stop (.fatal m) e') :
    CoroutinesWellFormed P r.engine.process ∧ LeavesSuspended P e r.engine.process := by
  rcases dispatch_cases h hr with rfl | ⟨op, hop, hx⟩
  · have hk := keepsOthers_atBreakpoint e
    exact ⟨hw.of_keepsOthers hk, .of_keepsCoroutines hk.keepsCoroutines⟩
  cases hsw : op.switchesCoroutine
  · have hk := (execute_within (coroutinesKept_keeps P)
      (fun p => .of_keepsOthers (.of_coroutineAt? (by rw [hgc]) fun _ => by rw [hgc]; rfl)) hn a op
      hsw).keeps e
    rw [hx] at hk
    exact ⟨hk.2 hw, .of_keepsCoroutines hk.1⟩
  cases op
  case throw => exact throw_keeps_coroutinesWellFormed hop hw hx hr
  case coroutineChange => exact coroutineChange_keeps_coroutinesWellFormed hop hw hx hr
  all_goals exact (Bool.false_ne_true hsw).elim

/-! ## Runs -/

/-- One turn of `loop` that goes on: a dispatch that completes its opcode, or one that asks
for its opcode to be dispatched again after a collection. -/
def Continues (P : Program) (R : Runtime) (e e' : Engine) : Prop :=
  ∃ noBreak a, dispatch P R noBreak a e = .ok () e' ∨ dispatch P R noBreak a e = .stop .redispatch e'

/-- Every answer of `loop` is the stop of a dispatch from an engine that its turns reach. -/
theorem loop_stops {fuel : Nat} {answers : List Allocation} {noBreak : Bool} {s : Stop} {e' : Engine}
    (h : loop P R fuel answers noBreak e = some (s, e')) :
    ∃ e₁, Relation.ReflTransGen (Continues P R) e e₁ ∧ s ≠ .redispatch ∧
      ∃ noBreak a, dispatch P R noBreak a e₁ = .stop s e' := by
  induction fuel generalizing answers noBreak e with
  | zero => cases h
  | succ fuel ih =>
    simp only [loop] at h
    split at h
    · obtain ⟨e₁, hrun, hd⟩ := ih h
      exact ⟨e₁, .head ⟨_, _, .inl ‹_›⟩ hrun, hd⟩
    · obtain ⟨e₁, hrun, hd⟩ := ih h
      exact ⟨e₁, .head ⟨_, _, .inr ‹_›⟩ hrun, hd⟩
    · cases h
      exact ⟨e, .refl, by rintro rfl; simp_all, _, _, ‹_›⟩

/-- Every engine that turns of `loop` reach from a process with well-formed coroutines has
well-formed coroutines. -/
theorem coroutinesWellFormed_of_run (hgc : R.PreservesIdentity)
    (hn : R.NativesKeepCoroutines P) {e₀ : Engine} (hw : CoroutinesWellFormed P e₀.process)
    (hrun : Relation.ReflTransGen (Continues P R) e₀ e) : CoroutinesWellFormed P e.process := by
  induction hrun with
  | refl => exact hw
  | tail _ hstep ih =>
    obtain ⟨_, _, hd | hd⟩ := hstep
    · exact (dispatch_keeps_coroutinesWellFormed hgc hn ih hd (by simp)).1
    · exact (dispatch_keeps_coroutinesWellFormed hgc hn ih hd (by simp)).1

/-- A program whose every byte is `CoroutineChange`. -/
def switchingProgram : Program where
  code := fun _ => Opcode.coroutineChange.toByte
  constants := []
  unfolded := fun _ => .smi 0
  classes := []
  staticMethods := []
  dispatchTable := []
  vtable := []
  smiClass := 0
  nullObject := .heap 2
  trueObject := .heap 3
  falseObject := .heap 4
  objectFromFailure := fun _ => .heap 2
  largeIntegerClass := 5
  boxedClass := 6
  portClass := 7

/-- Coroutine `0` running at `0` with `5` above coroutine `1` on its stack, and coroutine `1`
suspended at `0` with two nulls above coroutine `0`. -/
def switchingEngine : Engine where
  process :=
    { heap := [⟨9, .coroutine (some []) 0⟩, ⟨9, .coroutine (some [.bytecode 0, .heap 2, .heap 2, .heap 0]) 1⟩,
        ⟨1, .instance [] true⟩, ⟨2, .instance [] true⟩, ⟨3, .instance [] true⟩]
      statics := []
      coroutine := 0
      stackLimit := 100
      debugInfo := none
      finalizers := []
      world := emptyWorld }
  sp := [.smi 5, .heap 1]
  bcp := 0

/-- The natives of `plainRuntime` keep the process. -/
theorem plainRuntime_natives_keep (P : Program) : plainRuntime.NativesKeepCoroutines P :=
  fun _ _ _ _ _ _ h => by
    cases h
    exact (coroutinesKept_keeps P).refl _

/-- Coroutine `1` is suspended at a `CoroutineChange`. -/
theorem switchingEngine_wellFormed : CoroutinesWellFormed switchingProgram switchingEngine.process := by
  refine ⟨rfl, fun c s caller hc hs => ?_⟩
  rcases c with _ | _ | _ | _ | _ | c
  · exact absurd rfl hc
  · cases hs
    exact ⟨0, _, _, _, rfl, rfl⟩
  all_goals simp [Process.coroutineAt?, switchingEngine] at hs

/-- The engine after coroutine `0` switched to coroutine `1`. -/
def switchedEngine : Engine := (dispatch switchingProgram plainRuntime false .succeeds switchingEngine).engine

/-- Coroutine `0` switches to coroutine `1` at `0`, suspended over two nulls, and resumes at `1`
with `[y]` when switched back to with `y`. -/
theorem switchingEngine_round_trip :
    switchingEngine.process.HasCoroutine ∧
      ∃ callerA,
        coroutineChange switchingProgram switchingEngine =
            .ok ()
              { process := (switchingEngine.process.setStack [.bytecode 0, .heap 2, .heap 2]).updateCoroutine 1
                sp := [.smi 5, .heap 0]
                bcp := 1 } ∧
          ((switchingEngine.process.setStack [.bytecode 0, .heap 2, .heap 2]).updateCoroutine 1).coroutineAt? 0 =
            some (some [.bytecode 0, .heap 2, .heap 2], callerA) ∧
          ∀ (e₂ : Engine) (y : Value) (rest₂ : List Value) (caller₂ : Nat), e₂.sp = y :: .heap 0 :: rest₂ →
            e₂.process.coroutine ≠ 0 →
            e₂.process.coroutineAt? 0 = some (some [.bytecode 0, .heap 2, .heap 2], caller₂) →
            coroutineChange switchingProgram e₂ =
              .ok ()
                { process := (e₂.process.setStack (.bytecode e₂.bcp :: .heap 2 :: .heap 2 :: rest₂)).updateCoroutine 0
                  sp := [y]
                  bcp := 1 } :=
  ⟨rfl, coroutineChange_round_trip rfl rfl (by decide) rfl⟩

end Interpret

end Fletch
