import Fletch.Proofs.Calls

/-!
# Objects: allocation and identity

`Allocate` and its three variants pop the class's field count of operands into a new
instance, the operand pushed last into the last field, and push the instance in their place
(`allocations_store_operands`). The pop loop runs from the top of the stack down
(`popFields_eq`), and the immutability scan of the two `Immutable` variants reads the same
slots from the top up (`localsImmutable_eq`): over a list of operands the two meet in
`List.all`, whatever the field count.

`HandleIdentical` compares what `identity` says a value is: one NaN, one zero, the bits of
any other double, the value of a large integer, or the word itself (`handleIdentical_eq`).
The relation it computes is therefore the kernel of a function, an equivalence relation,
and `IdenticalNonNumeric` answering `true` makes `Identical` answer `true` as well
(`identical_is_equivalence`). The two opcodes agree exactly where operands of one identity
are one word, so whenever one operand is neither a Double nor a LargeInteger
(`identicalNonNumeric_agrees`).

The `Unfold` opcodes take the constant `Function::ConstantForBytecode` finds for the
bytecode, where their folded forms index a program table with the operand after the opcode.
Where the two name one value, the two opcodes run alike, up to the state a fatal error
leaves (`folded_agrees_with_unfolded`).
-/

namespace Fletch

open Exec Engine Interpret

/-! ## Identity -/

/-- What `HandleIdentical` compares a value by. -/
inductive Identity where
  | nan
  | zero
  | double (bits : UInt64)
  | large (value : Int)
  | object (v : Value)
  deriving DecidableEq, Repr

namespace Double

/-- The identity of a double: every NaN is one, the two zeros are one, any other double is
its bits. -/
def identity (bits : UInt64) : Identity :=
  if isNaN bits then .nan else if bits.toNat % 2 ^ 63 = 0 then .zero else .double bits

/-- The comparison of two doubles in `HandleIdentical` is equality of their identities. -/
theorem identical_iff (l r : UInt64) :
    (if isNaN l && isNaN r then true else eq l r) = decide (identity l = identity r) := by
  unfold identity eq
  cases hl : isNaN l <;> cases hr : isNaN r <;> simp
  · by_cases hl0 : l.toNat % 2 ^ 63 = 0 <;> by_cases hr0 : r.toNat % 2 ^ 63 = 0 <;>
      simp only [Nat.reducePow] at hl0 hr0 <;> simp [hl0, hr0]
    · rintro rfl; exact hr0 hl0
    · rintro rfl; exact hl0 hr0
  all_goals split <;> nofun

end Double

namespace Process

/-- The identity of a value in a process: a double's or a large integer's by its contents,
any other value's by the word itself. -/
def identity (p : Process) (v : Value) : Identity :=
  match p.body? v with
  | some (.double bits) => Double.identity bits
  | some (.largeInteger n) => .large n
  | _ => .object v

variable {p : Process} {v w : Value}

/-- Only a double has the identity of a double. -/
theorem identity_of_double {i : Identity} (h : p.identity v = i) (hi : ∀ n w, i ≠ .large n ∧ i ≠ .object w) :
    ∃ bits, p.body? v = some (.double bits) ∧ Double.identity bits = i := by
  unfold identity at h
  split at h
  · exact ⟨_, ‹_›, h⟩
  · exact absurd h.symm (hi _ v).1
  · exact absurd h.symm (hi 0 v).2

theorem identity_of_large {n : Int} (h : p.identity v = .large n) : p.body? v = some (.largeInteger n) := by
  unfold identity at h
  split at h
  · unfold Double.identity at h; split_ifs at h
  · cases h; assumption
  · cases h

theorem identity_of_object (h : p.identity v = .object w) : w = v := by
  unfold identity at h
  split at h
  · unfold Double.identity at h; split_ifs at h
  · cases h
  · cases h; rfl

end Process

/-- `HandleIdentical` answers `true` exactly for two values of one identity. -/
theorem handleIdentical_eq (P : Program) (p : Process) (x y : Value) :
    handleIdentical P p x y = if p.identity x = p.identity y then P.trueObject else P.falseObject := by
  unfold handleIdentical
  split
  · rename_i hx hy
    rw [Double.identical_iff, Process.identity, Process.identity, hx, hy]
    simp only [decide_eq_true_eq]
  · rename_i hx hy
    simp [Process.identity, hx, hy]
  · rename_i hd hl
    have hxy : x = y ↔ p.identity x = p.identity y := by
      refine ⟨fun h => h ▸ rfl, fun h => ?_⟩
      cases hi : p.identity x with
      | object w =>
        rw [hi] at h
        exact (Process.identity_of_object hi).symm.trans (Process.identity_of_object h.symm)
      | large n =>
        rw [hi] at h
        exact absurd (Process.identity_of_large h.symm) (hl n n (Process.identity_of_large hi))
      | _ =>
        obtain ⟨l, hlx, -⟩ := Process.identity_of_double hi fun _ _ => ⟨nofun, nofun⟩
        obtain ⟨r, hry, -⟩ := Process.identity_of_double (h.symm.trans hi) fun _ _ => ⟨nofun, nofun⟩
        exact absurd hry (hd l r hlx)
    simp only [hxy, decide_eq_true_eq]

/-! ## Allocation -/

namespace Engine

variable {P : Program} {R : Runtime} {e : Engine}

/-- The engine after an allocation that replaced the operands by the new object `o`: `o` at
the end of the heap, its address on top of `below`, and `bcp` past the opcode. -/
def allocated (e : Engine) (o : HeapObject) (below : List Value) (length : Nat) : Engine where
  process := { e.process with heap := e.process.heap ++ [o] }
  sp := .heap e.process.heap.length :: below
  bcp := e.bcp + length

theorem setInstanceField_eq {a id i : Nat} {fields : List Value} {immutable : Bool} {v : Value}
    (ho : e.process.heap[a]? = some ⟨id, .instance fields immutable⟩) (hi : i < fields.length) :
    setInstanceField (.heap a) i v e =
      .ok () { e with process := { e.process with
        heap := e.process.heap.set a ⟨id, .instance (fields.set i v) immutable⟩ } } := by
  simp [setInstanceField, bodyOf, Process.body?, ho, some?, hi, address, Process.setBody,
    List.modify_eq_set_get?]

/-- The pop loop of the allocating opcodes stores the operands `ws` (top first) into the
fields below `ws.length`, the top one into the last of them, and pops them. -/
theorem popFields_eq {a id : Nat} {immutable : Bool} {below : List Value} :
    ∀ (ws fields : List Value) {e : Engine}, e.sp = ws ++ below →
      ws.length ≤ fields.length → e.process.heap[a]? = some ⟨id, .instance fields immutable⟩ →
      popFields (.heap a) ws.length e =
        .ok () { e with sp := below, process := { e.process with
          heap := e.process.heap.set a ⟨id, .instance (ws.reverse ++ fields.drop ws.length) immutable⟩ } }
  | [], fields, e, hsp, _, ho => by
    have hheap : e.process.heap.set a ⟨id, .instance fields immutable⟩ = e.process.heap := by
      apply List.ext_getElem?
      intro j
      by_cases h : a = j
      · subst h
        simp [ho, (List.getElem?_eq_some_iff.mp ho).1]
      · simp [List.getElem?_set, h]
    obtain ⟨p, sp, bcp⟩ := e
    simp only [List.nil_append] at hsp
    subst hsp
    simp [popFields, hheap]
  | w :: ws, fields, e, hsp, hlen, ho => by
    have hi : ws.length < fields.length := by simp at hlen; omega
    have hsp' : e.sp = w :: (ws ++ below) := hsp
    rw [List.length_cons, popFields, bind_apply, Engine.pop_cons hsp', Result.ok_bind, bind_apply,
      setInstanceField_eq (e := { e with sp := ws ++ below }) ho hi, Result.ok_bind,
      popFields_eq ws (fields.set ws.length w) rfl (by simp; omega)
        (List.getElem?_set_self (List.getElem?_eq_some_iff.mp ho).1)]
    have hdrop : (fields.set ws.length w).drop ws.length = w :: fields.drop (ws.length + 1) := by
      rw [List.drop_set, if_neg (Nat.lt_irrefl _), Nat.sub_self, List.drop_eq_getElem_cons hi]
      rfl
    simp only [List.set_set, hdrop, List.length_set, List.reverse_cons, List.append_assoc,
      List.singleton_append]

/-- The scan of `AllocateImmutable`: whether every one of the `count` slots from `start` on
holds an immutable value. -/
theorem localsImmutable_eq : ∀ (count start : Nat) {e : Engine}, start + count ≤ e.sp.length →
    localsImmutable start count e = .ok (((e.sp.drop start).take count).all (isImmutable e.process)) e
  | 0, _, _, _ => by simp [localsImmutable]
  | count + 1, start, e, h => by
    have hs : start < e.sp.length := by omega
    rw [localsImmutable, bind_apply, local_of_getElem? (List.getElem?_eq_getElem hs), Result.ok_bind,
      bind_apply, read_apply, Result.ok_bind, List.drop_eq_getElem_cons hs, List.take_succ_cons,
      List.all_cons]
    cases isImmutable e.process e.sp[start]
    · rfl
    · simpa using localsImmutable_eq count (start + 1) (by omega)

theorem classAt_of {index : Int} {k : Value} {id fields : Nat} (hidx : valueAt P.classes index = some k)
    (hk : e.process.body? k = some (.klass id fields)) : classAt P index e = .ok (id, fields) e := by
  simp [classAt, bind_apply, element_of_valueAt hidx, classOf, bodyOf_of_body hk]

theorem classOf_of {k : Value} {id fields : Nat} (hk : e.process.body? k = some (.klass id fields)) :
    classOf k e = .ok (id, fields) e := by
  simp [classOf, bind_apply, bodyOf_of_body hk]

end Engine

/-! ## Folded and unfolded operands -/

/-- The folded form of an unfolded opcode and the program table it indexes: `LoadConst`
reads `constant_at`, `InvokeStatic` and `InvokeFactory` read `static_method_at`, and
`Allocate` and `AllocateImmutable` read `class_at` at the index after the opcode, where the
`Unfold` forms read the constant `Function::ConstantForBytecode` finds for the bytecode. -/
def Program.folding (P : Program) : Opcode → Option (Opcode × List Value)
  | .loadConstUnfold => some (.loadConst, P.constants)
  | .invokeStaticUnfold => some (.invokeStatic, P.staticMethods)
  | .invokeFactoryUnfold => some (.invokeFactory, P.staticMethods)
  | .allocateUnfold => some (.allocate, P.classes)
  | .allocateImmutableUnfold => some (.allocateImmutable, P.classes)
  | _ => none

/-- Two results no caller tells apart: the same result, or the same fatal error, which
aborts the VM whatever state it leaves. -/
def Result.Agrees {α : Type} (r r' : Result α) : Prop :=
  r = r' ∨ ∃ message e e', r = .stop (.fatal message) e ∧ r' = .stop (.fatal message) e'

namespace Interpret

variable {P : Program} {R : Runtime} {e e' : Engine}

/-- With the operands `ws` (top first) for every field, an allocation that succeeds stores
them in a new instance and pushes it in their place. -/
theorem allocateInstance_succeeds {klass : Nat × Nat} {immutable : Bool} {length : Nat}
    {ws below : List Value} (hsp : e.sp = ws ++ below) (hn : ws.length = klass.2) :
    allocateInstance P R .succeeds klass immutable length e =
      .ok () (e.allocated ⟨klass.1, .instance ws.reverse immutable⟩ below length) := by
  obtain ⟨id, n⟩ := klass
  subst hn
  simp only [allocateInstance, newInstance, Process.allocate, retryOnAllocationFailure, bind_apply,
    Result.ok_bind, pure_apply]
  rw [popFields_eq (e := { e with process := { e.process with heap := e.process.heap ++
    [⟨id, .instance (List.replicate ws.length P.nullObject) immutable⟩] } }) ws _ hsp (by simp)
    (List.getElem?_concat_length _ _)]
  simp [allocated, advance_natCast, List.set_append_right]

/-- The retry of a failed allocation never completes the opcode. -/
theorem allocateInstance_retry {klass : Nat × Nat} {immutable : Bool} {length : Nat} :
    allocateInstance P R .retryAfterGc klass immutable length e ≠ .ok () e' := by
  intro h
  simp only [allocateInstance, newInstance, bind_apply, Result.ok_bind, retryOnAllocationFailure] at h
  cases hc : collectGarbage R e <;> simp [hc] at h

theorem allocateInstance_iff {klass : Nat × Nat} {immutable : Bool} {length : Nat}
    {a : Allocation} {ws below : List Value} (hsp : e.sp = ws ++ below) (hn : ws.length = klass.2) :
    allocateInstance P R a klass immutable length e = .ok () e' ↔
      a = .succeeds ∧ e' = e.allocated ⟨klass.1, .instance ws.reverse immutable⟩ below length := by
  cases a
  · simp only [allocateInstance_succeeds hsp hn, Result.ok.injEq, true_and, eq_comm]
  · exact ⟨fun h => absurd h allocateInstance_retry, fun ⟨h, _⟩ => nomatch h⟩

/-- `Allocate`, `AllocateUnfold`, `AllocateImmutable` and `AllocateImmutableUnfold` over a
class with `n` fields and the stack `below ++ [v_0, ..., v_(n-1)]` (`v_(n-1)` on top) complete
exactly when the allocation succeeds. They leave `below ++ [o]`, `o` a new instance of the
class whose field `i` is `v_i`; it is immutable for the two `Immutable` variants exactly when
every one of `v_0, ..., v_(n-1)` is. -/
theorem allocations_store_operands {a : Allocation} {k : Value} {id : Nat} {vs below : List Value}
    (hk : e.process.body? k = some (.klass id vs.length)) (hsp : e.sp = vs.reverse ++ below) :
    (valueAt P.classes (Utils.readInt32 P.code (e.bcp + 1)) = some k →
      (allocate P R a e = .ok () e' ↔
        a = .succeeds ∧ e' = e.allocated ⟨id, .instance vs false⟩ below Opcode.allocate.length) ∧
      (allocateImmutable P R a e = .ok () e' ↔
        a = .succeeds ∧ e' = e.allocated ⟨id, .instance vs (vs.all (isImmutable e.process))⟩ below
          Opcode.allocateImmutable.length)) ∧
    (P.unfolded e.bcp = k →
      (allocateUnfold P R a e = .ok () e' ↔
        a = .succeeds ∧ e' = e.allocated ⟨id, .instance vs false⟩ below Opcode.allocate.length) ∧
      (allocateImmutableUnfold P R a e = .ok () e' ↔
        a = .succeeds ∧ e' = e.allocated ⟨id, .instance vs (vs.all (isImmutable e.process))⟩ below
          Opcode.allocateImmutableUnfold.length)) := by
  have hn : vs.reverse.length = (id, vs.length).2 := List.length_reverse vs
  have hscan : localsImmutable 0 vs.length e = .ok (vs.all (isImmutable e.process)) e := by
    rw [localsImmutable_eq _ _ (by simp [hsp]), hsp]
    simp
  have hiff : ∀ immutable length, allocateInstance P R a (id, vs.length) immutable length e = .ok () e' ↔
      a = .succeeds ∧ e' = e.allocated ⟨id, .instance vs immutable⟩ below length := fun _ _ => by
    simpa only [List.reverse_reverse] using allocateInstance_iff hsp hn
  refine ⟨fun hidx => ⟨?_, ?_⟩, fun hunfolded => ⟨?_, ?_⟩⟩
  · simp only [allocate, bind_apply, readInt32_apply, Result.ok_bind, classAt_of hidx hk, hiff]
  · simp only [allocateImmutable, bind_apply, readInt32_apply, Result.ok_bind, classAt_of hidx hk, hscan, hiff]
  · simp only [allocateUnfold, bind_apply, readConstant_apply, Result.ok_bind, hunfolded, classOf_of hk, hiff]
  · simp only [allocateImmutableUnfold, bind_apply, readConstant_apply, Result.ok_bind, hunfolded,
      classOf_of hk, hscan, hiff]

/-- `AllocateImmutable 0` at `0`; class `0` has two fields. -/
def pairProgram : Program where
  code := fun a => [Opcode.allocateImmutable.toByte, 0, 0, 0, 0].getD a 0
  constants := []
  unfolded := fun _ => .heap 0
  classes := [.heap 0]
  staticMethods := []
  dispatchTable := []
  vtable := []
  smiClass := 0
  nullObject := .heap 1
  trueObject := .heap 2
  falseObject := .heap 3
  objectFromFailure := fun _ => .heap 1
  largeIntegerClass := 5
  boxedClass := 6
  portClass := 7

/-- The class of two fields, with `1` and then `2` pushed for them. -/
def pairEngine : Engine where
  process :=
    { heap := [⟨0, .klass 4 2⟩], statics := [], coroutine := 0, stackLimit := 100, debugInfo := none,
      finalizers := [], world := emptyWorld }
  sp := [.smi 2, .smi 1]
  bcp := 0

/-- The pair `(1, 2)` as an immutable instance of class `4`. -/
theorem pairEngine_allocates_immutable_pair :
    allocateImmutable pairProgram plainRuntime .succeeds pairEngine =
      .ok () (pairEngine.allocated ⟨4, .instance [.smi 1, .smi 2] true⟩ [] 5) := by
  have hk : pairEngine.process.body? (.heap 0) = some (.klass 4 [Value.smi 1, .smi 2].length) := rfl
  have hsp : pairEngine.sp = [Value.smi 1, .smi 2].reverse ++ [] := rfl
  have hidx : valueAt pairProgram.classes (Utils.readInt32 pairProgram.code (pairEngine.bcp + 1)) =
      some (.heap 0) := rfl
  exact ((allocations_store_operands hk hsp).1 hidx).2.mpr ⟨rfl, rfl⟩

/-- Where the index after a folded opcode names, in the table it reads, the constant its
unfolded form reads, the two opcodes run alike: the same result, or the same fatal error.
Only the error engines can differ, as `InvokeStatic` pushes the return address before it
reads the target's entry and `InvokeStaticUnfold` after. -/
theorem folded_agrees_with_unfolded {op folded : Opcode} {table : List Value}
    (hf : P.folding op = some (folded, table))
    (hlit : valueAt table (Utils.readInt32 P.code (e.bcp + 1)) = some (P.unfolded e.bcp)) (a : Allocation) :
    (execute P R a folded e).Agrees (execute P R a op e) := by
  have hel := element_of_valueAt (e := e) hlit
  cases op <;> cases hf <;> delta execute <;> dsimp only
  case loadConstUnfold | allocateUnfold | allocateImmutableUnfold =>
    refine .inl ?_
    simp only [loadConst, loadConstUnfold, allocate, allocateUnfold, allocateImmutable,
      allocateImmutableUnfold, classAt, bind_apply, readInt32_apply, readConstant_apply, Result.ok_bind, hel] <;> rfl
  all_goals
    simp only [invokeStatic, invokeStaticUnfold, bind_apply, readInt32_apply, readConstant_apply,
      Result.ok_bind, hel, pushReturnAddress_apply, functionEntry, bodyOf, read_apply]
    cases hb : e.process.body? (P.unfolded e.bcp) with
    | none => exact .inr ⟨_, _, _, rfl, rfl⟩
    | some b => cases b <;> first | exact .inr ⟨_, _, _, rfl, rfl⟩ | exact .inl rfl

/-- `AllocateImmutableUnfold` on the pair program, whose class table holds at index `0` the
class its constant names, runs as `AllocateImmutable` does. -/
theorem pairEngine_unfolded_allocation_agrees :
    (execute pairProgram plainRuntime .succeeds .allocateImmutable pairEngine).Agrees
      (execute pairProgram plainRuntime .succeeds .allocateImmutableUnfold pairEngine) :=
  have hf : pairProgram.folding .allocateImmutableUnfold = some (.allocateImmutable, pairProgram.classes) := rfl
  folded_agrees_with_unfolded (e := pairEngine) hf rfl .succeeds

/-- Two NaNs, boxed at two addresses, on the stack. -/
def twoNaNsEngine : Engine where
  process :=
    { heap := [⟨0, .double 0x7FF8000000000000⟩, ⟨0, .double 0x7FF8000000000000⟩], statics := [],
      coroutine := 0, stackLimit := 100, debugInfo := none, finalizers := [], world := emptyWorld }
  sp := [.heap 0, .heap 1]
  bcp := 0

variable {x y : Value} {rest : List Value}

theorem identical_of_sp (hsp : e.sp = x :: y :: rest) :
    identical P e =
      .ok () { e with sp := handleIdentical P e.process y x :: rest, bcp := e.bcp + Opcode.identical.length } := by
  simp [identical, «local», hsp, some?, drop, setTop, setLocal, advance_natCast]

theorem identicalNonNumeric_of_sp (hsp : e.sp = x :: y :: rest) :
    identicalNonNumeric P e = .ok ()
      { e with sp := toBool P (decide (x = y)) :: rest, bcp := e.bcp + Opcode.identicalNonNumeric.length } := by
  simp [identicalNonNumeric, «local», hsp, some?, drop, setTop, setLocal, advance_natCast]

/-- The relation `HandleIdentical` computes is an equivalence relation on all values, and
where `IdenticalNonNumeric` answers `true`, `Identical` does the same. -/
theorem identical_is_equivalence (P : Program) (p : Process) :
    Equivalence (fun x y => handleIdentical P p x y = P.trueObject) ∧
      ∀ {e e' : Engine}, identicalNonNumeric P e = .ok () e' → e'.sp.head? = some P.trueObject →
        identical P e = .ok () e' := by
  have key : ∀ {p : Process} {x y : Value}, handleIdentical P p x y = P.trueObject ↔
      p.identity x = p.identity y ∨ P.falseObject = P.trueObject := by
    intro p x y
    rw [handleIdentical_eq]
    split <;> simp [*]
  refine ⟨⟨fun _ => key.mpr (.inl rfl), fun h => ?_, fun h₁ h₂ => ?_⟩, fun {e e'} h htop => ?_⟩
  · exact key.mpr ((key.mp h).imp Eq.symm id)
  · rcases key.mp h₁ with h₁ | hf
    · exact key.mpr ((key.mp h₂).imp h₁.trans id)
    · exact key.mpr (.inr hf)
  · match hsp : e.sp with
    | x :: y :: rest =>
      rw [identicalNonNumeric_of_sp hsp] at h
      cases h
      simp only [List.head?_cons, Option.some.injEq] at htop
      rw [identical_of_sp hsp, htop, key.mpr]
      · rfl
      · unfold Engine.toBool at htop
        split at htop
        · exact .inl (by simp_all)
        · exact .inr htop
    | [] => simp [identicalNonNumeric, «local», hsp, some?] at h
    | [_] => simp [identicalNonNumeric, «local», hsp, some?] at h

/-- `IdenticalNonNumeric` compares words where `Identical` compares identities. Over two
distinct truth objects the two opcodes agree on two operands exactly when operands of one
identity are one word, which only two Doubles or two LargeIntegers can break; so they agree
whenever one operand is neither. -/
theorem identicalNonNumeric_agrees (htf : P.trueObject ≠ P.falseObject) (hsp : e.sp = x :: y :: rest) :
    (identicalNonNumeric P e = identical P e ↔ (e.process.identity y = e.process.identity x → x = y)) ∧
      (e.process.identity x = .object x ∨ e.process.identity y = .object y →
        identicalNonNumeric P e = identical P e) := by
  have hagree : identicalNonNumeric P e = identical P e ↔
      (e.process.identity y = e.process.identity x → x = y) := by
    rw [identicalNonNumeric_of_sp hsp, identical_of_sp hsp, handleIdentical_eq,
      show Opcode.identicalNonNumeric.length = Opcode.identical.length from rfl]
    simp only [Result.ok.injEq, Engine.mk.injEq, List.cons.injEq, true_and, and_true, Engine.toBool]
    by_cases hxy : x = y
    · simp [hxy]
    · by_cases hid : e.process.identity y = e.process.identity x <;> simp [hxy, hid, htf.symm]
  refine ⟨hagree, fun hobj => hagree.mpr fun hid => ?_⟩
  rcases hobj with hx | hy
  · exact Process.identity_of_object (hid.trans hx)
  · exact (Process.identity_of_object (hid.symm.trans hy)).symm

/-- The agreement at two NaNs boxed at two addresses, which have one identity and are two
words. -/
theorem twoNaNs_identicalNonNumeric_agrees :
    (identicalNonNumeric pairProgram twoNaNsEngine = identical pairProgram twoNaNsEngine ↔
        (twoNaNsEngine.process.identity (.heap 1) = twoNaNsEngine.process.identity (.heap 0) →
          Value.heap 0 = .heap 1)) ∧
      (twoNaNsEngine.process.identity (.heap 0) = .object (.heap 0) ∨
          twoNaNsEngine.process.identity (.heap 1) = .object (.heap 1) →
        identicalNonNumeric pairProgram twoNaNsEngine = identical pairProgram twoNaNsEngine) :=
  identicalNonNumeric_agrees (by decide) rfl

end Interpret

end Fletch
