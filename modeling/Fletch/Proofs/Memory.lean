import Fletch.Proofs.Natives
import Fletch.Proofs.Calls

/-!
# Foreign memory through the typed accessors

`DEFINE_FOREIGN_ACCESSORS` gives eight pairs of natives, `ForeignGet<T>` and
`ForeignSet<T>` for the C integer types of one, two, four and eight bytes, signed and
unsigned. `ForeignSet<T>` stores `AsForeignWord(value)` through a `T*` and answers the value;
`ForeignGet<T>` reads through a `T*` and boxes what it reads with `Process::ToInteger`,
which takes an `int64`.

* `load_store`: reading through a `T*` what was just stored through it gives
  `ForeignType.wrap`, the value of `T` with the stored word's low `8 * width` bits. It lies
  in `T`'s range and is congruent to the word (`wrap_mem`, `wrap_emod`), and it is the word
  itself when the word is in that range (`wrap_of_mem`).
* `foreignGet_after_foreignSet`: `ForeignSet<T>` answers its value, and a following
  `ForeignGet<T>` at the same address boxes `int64Of (wrap word)`.
* `foreignGet_reads_back_wrapped_value`: on a host whose word holds `T`, for the seven types
  whose values are all `int64`s, a `ForeignGet<T>` after `ForeignSet<T>` of an integer `i`
  boxes the value of `T` congruent to `i`.
* `foreignGet_reads_back_int64_of_stored_bits`: for all eight types, `ForeignGet<T>` after
  `ForeignSet<T>` of `i` boxes the `int64` of the value of `T` congruent to `i`; for the
  64-bit types, the `int64` with the bits of `i`.
* `foreignGetUint64_reads_back_negative`: a `uint64` of `2 ^ 63` or more does not fit an
  `int64`, and `ForeignGetUint64` boxes it less `2 ^ 64`, a negative integer.
-/

namespace Fletch

namespace Platform

/-- The two's complement reading only depends on the low `bits` bits. -/
theorem signedOf_congr {bits : Nat} {n m : Int} (h : n % 2 ^ bits = m % 2 ^ bits) :
    signedOf bits n = signedOf bits m := by
  simp only [signedOf, h]

/-- `2 ^ bits` is twice `2 ^ (bits - 1)` for a positive `bits`. -/
theorem two_pow_eq {bits : Nat} (hb : 0 < bits) : (2 : Int) ^ bits = 2 * 2 ^ (bits - 1) := by
  rw [← pow_succ', Nat.sub_add_cancel hb]

/-- The two's complement reading keeps the low `bits` bits. -/
theorem signedOf_emod (bits : Nat) (n : Int) : signedOf bits n % 2 ^ bits = n % 2 ^ bits := by
  simp only [signedOf]
  split
  · exact Int.emod_emod _ _
  · rw [Int.sub_emod, Int.emod_self, sub_zero, Int.emod_emod, Int.emod_emod]

theorem signedOf_mem {bits : Nat} (hb : 0 < bits) (n : Int) :
    -2 ^ (bits - 1) ≤ signedOf bits n ∧ signedOf bits n < 2 ^ (bits - 1) := by
  have hM := two_pow_eq hb
  have h0 := Int.emod_nonneg n (by positivity : (2 : Int) ^ bits ≠ 0)
  have h1 := Int.emod_lt_of_pos n (by positivity : (0 : Int) < 2 ^ bits)
  simp only [signedOf]
  split <;> omega

/-- An integer in the two's complement range of `bits` bits reads as itself. -/
theorem signedOf_of_mem {bits : Nat} {n : Int} (hb : 0 < bits) (hlo : -2 ^ (bits - 1) ≤ n)
    (hhi : n < 2 ^ (bits - 1)) : signedOf bits n = n := by
  have hM := two_pow_eq hb
  unfold signedOf
  by_cases hn : 0 ≤ n
  · rw [Int.emod_eq_of_lt hn (by omega), if_pos hhi]
  · have hu : n % 2 ^ bits = n + 2 ^ bits := by
      rw [← Int.add_emod_self, Int.emod_eq_of_lt (by omega) (by omega)]
    rw [hu, if_neg (by omega)]
    omega

end Platform

namespace Natives

open Platform

variable {pl : Platform} {P : Program} {p : Process} {t : ForeignType}

/-! ## The value of a type a stored word stands for -/

/-- The least value of `t`: `-2 ^ (8 * width - 1)` for a signed type, `0` for an unsigned
one. The values of `t` are the `2 ^ (8 * width)` integers from it on. -/
def ForeignType.lowest (t : ForeignType) : Int :=
  if t.signed then -2 ^ (8 * t.width - 1) else 0

/-- The value of `t` a word stands for when it is stored through a pointer to `t`: its low
`8 * width` bits, read as two's complement when `t` is signed. -/
def ForeignType.wrap (t : ForeignType) (n : Int) : Int :=
  if t.signed then signedOf (8 * t.width) n else n % 2 ^ (8 * t.width)

/-- The stored value only depends on the word modulo `2 ^ (8 * width)`. -/
theorem wrap_congr {n m : Int} (h : n % 2 ^ (8 * t.width) = m % 2 ^ (8 * t.width)) :
    t.wrap n = t.wrap m := by
  simp only [ForeignType.wrap, signedOf, h]

theorem wrap_emod (t : ForeignType) (n : Int) :
    t.wrap n % 2 ^ (8 * t.width) = n % 2 ^ (8 * t.width) := by
  unfold ForeignType.wrap
  split
  · exact signedOf_emod _ _
  · exact Int.emod_emod _ _

theorem wrap_mem (ht : 0 < t.width) (n : Int) :
    t.lowest ≤ t.wrap n ∧ t.wrap n < t.lowest + 2 ^ (8 * t.width) := by
  have hM := two_pow_eq (show 0 < 8 * t.width by omega)
  unfold ForeignType.wrap ForeignType.lowest
  split
  · have := signedOf_mem (show 0 < 8 * t.width by omega) n
    omega
  · exact ⟨by simpa using Int.emod_nonneg n (by positivity),
      by simpa using Int.emod_lt_of_pos n (by positivity)⟩

/-- A word in `t`'s range stands for itself. -/
theorem wrap_of_mem {n : Int} (ht : 0 < t.width) (hlo : t.lowest ≤ n)
    (hhi : n < t.lowest + 2 ^ (8 * t.width)) : t.wrap n = n := by
  have hM := two_pow_eq (show 0 < 8 * t.width by omega)
  unfold ForeignType.wrap
  unfold ForeignType.lowest at hlo hhi
  split
  · simp_all only [if_true]
    exact signedOf_of_mem (by omega) hlo (by omega)
  · simp_all only [if_false, Bool.false_eq_true]
    exact Int.emod_eq_of_lt hlo (by omega)

/-- The values of the seven types other than `uint64` are `int64`s. -/
theorem int64Of_wrap (ht : 0 < t.width) (hw : t.width ≤ 8) (hfit : t.signed = true ∨ t.width < 8)
    (n : Int) : int64Of (t.wrap n) = t.wrap n := by
  obtain ⟨hlo, hhi⟩ := wrap_mem ht n
  have hbounds : -2 ^ 63 ≤ t.wrap n ∧ t.wrap n < 2 ^ 63 := by
    have hM := two_pow_eq (show 0 < 8 * t.width by omega)
    unfold ForeignType.lowest at hlo hhi
    cases hs : t.signed <;> simp only [hs, if_true, if_false, Bool.false_eq_true, false_or] at hlo hhi hfit
    · have h56 : (2 : Int) ^ (8 * t.width) ≤ 2 ^ 56 := pow_le_pow_right₀ (by norm_num) (by omega)
      omega
    · have h63 : (2 : Int) ^ (8 * t.width - 1) ≤ 2 ^ 63 := pow_le_pow_right₀ (by norm_num) (by omega)
      omega
  exact signedOf_of_mem (by norm_num) hbounds.1 hbounds.2

/-! ## Bytes -/

@[simp] theorem toNat_toUInt8 (x : Nat) : x.toUInt8.toNat = x % 256 := rfl

/-- The bytes of `N`, least significant first, add up to `N` modulo `2 ^ (8 * w)`. -/
theorem sum_bytes (N : Nat) : ∀ w : Nat,
    ((List.range w).map fun i => N / 2 ^ (8 * i) % 256 * 2 ^ (8 * i)).sum = N % 2 ^ (8 * w)
  | 0 => by simp [Nat.mod_one]
  | w + 1 => by
    rw [List.range_succ, List.map_append, List.sum_append, sum_bytes N w, List.map_singleton,
      List.sum_singleton, Nat.mul_succ, pow_add, Nat.mod_mul, Nat.mul_comm (2 ^ (8 * w))]
    rfl

/-- Reading through a pointer to `t` what was just stored through it gives the value of `t`
the stored word stands for. -/
theorem load_store (memory : Nat → UInt8) (address : Nat) (t : ForeignType) (n : Int) :
    load (store memory address t n) address t = t.wrap n := by
  have hM : (0 : Int) < 2 ^ (8 * t.width) := by positivity
  have hN : ((n % 2 ^ (8 * t.width)).toNat : Int) = n % 2 ^ (8 * t.width) :=
    Int.toNat_of_nonneg (Int.emod_nonneg n hM.ne')
  have hlt : (n % 2 ^ (8 * t.width)).toNat < 2 ^ (8 * t.width) :=
    Int.ofNat_lt.mp (by rw [hN]; exact_mod_cast Int.emod_lt_of_pos n hM)
  have hbytes : ∀ i ∈ List.range t.width, (store memory address t n (address + i)).toNat * 2 ^ (8 * i) =
      (n % 2 ^ (8 * t.width)).toNat / 2 ^ (8 * i) % 256 * 2 ^ (8 * i) := by
    intro i hi
    rw [List.mem_range] at hi
    simp [store, hi]
  simp only [load, List.map_congr_left hbytes, sum_bytes, Nat.mod_eq_of_lt hlt, hN, ForeignType.wrap]
  split
  · simp only [signedOf, Int.emod_emod]
  · rfl

/-- A store only depends on the word modulo `2 ^ (8 * width)`. -/
theorem store_congr {n m : Int} (memory : Nat → UInt8) (address : Nat)
    (h : n % 2 ^ (8 * t.width) = m % 2 ^ (8 * t.width)) :
    store memory address t n = store memory address t m := by
  funext x
  simp only [store, h]

/-! ## The accessors -/

/-- The process after a store of `n` through a pointer to `t` at `address`. -/
def stored (p : Process) (address : Nat) (t : ForeignType) (n : Int) : Process :=
  { p with world := { p.world with memory := store p.world.memory address t n } }

@[simp] theorem asForeignWord_stored (address : Nat) (n : Int) :
    asForeignWord pl (stored p address t n) = asForeignWord pl p := rfl

/-- `AsForeignWord` of an integer `i` is congruent to `i` modulo the word. -/
theorem asForeignWord_emod (pl : Platform) {v : Value} {i : Int}
    (hv : v = .smi i ∨ p.body? v = some (.largeInteger i)) :
    ∃ n, asForeignWord pl p v = .ok n ∧ n % 2 ^ pl.bitsPerWord = i % 2 ^ pl.bitsPerWord := by
  rcases hv with rfl | hb
  · exact ⟨i, rfl, rfl⟩
  · obtain ⟨a, rfl⟩ : ∃ a, v = .heap a := by cases v <;> simp_all [Process.body?]
    exact ⟨pl.signedWord i, by simp only [asForeignWord, hb], signedOf_emod _ _⟩

theorem foreignSet_eq {addr v : Value} {x n : Int} {a : Allocation} (more : List Value)
    (hx : asForeignWord pl p addr = .ok x) (hn : asForeignWord pl p v = .ok n) :
    foreignSet t pl P a (addr :: v :: more) p = .ok (.value v, stored p (pl.address x) t n) := by
  simp [foreignSet, argument, hx, hn, bind, Except.bind, pure, Except.pure, stored]

theorem foreignGet_eq {addr : Value} {x : Int} {a : Allocation} (more : List Value)
    (hx : asForeignWord pl p addr = .ok x) :
    foreignGet t pl P a (addr :: more) p =
      .ok (p.toInteger pl P a (int64Of (load p.world.memory (pl.address x) t))) := by
  simp [foreignGet, argument, hx, bind, Except.bind, pure, Except.pure]

/-- `ForeignSet<T>` answers its value, and a following `ForeignGet<T>` at the same address
boxes the stored word's value of `T`, converted to `int64`. -/
theorem foreignGet_after_foreignSet {addr v : Value} {x n : Int} {a : Allocation}
    (more more' : List Value) (hx : asForeignWord pl p addr = .ok x)
    (hn : asForeignWord pl p v = .ok n) :
    foreignSet t pl P a (addr :: v :: more) p = .ok (.value v, stored p (pl.address x) t n) ∧
      ∀ a', foreignGet t pl P a' (addr :: more') (stored p (pl.address x) t n) =
        .ok ((stored p (pl.address x) t n).toInteger pl P a' (int64Of (t.wrap n))) :=
  ⟨foreignSet_eq more hx hn, fun _ => by
    rw [foreignGet_eq more' (by rwa [asForeignWord_stored]), stored, load_store]⟩

/-- On a host whose word holds `T`, for each type whose values are all `int64`s,
`ForeignSet<T>` of an integer `i` answers its value, and a following `ForeignGet<T>` boxes
the value of `T` congruent to `i` modulo `2 ^ (8 * width)`. -/
theorem foreignGet_reads_back_wrapped_value (ht : 0 < t.width) (hw : 8 * t.width ≤ pl.bitsPerWord)
    (h64 : t.width ≤ 8) (hfit : t.signed = true ∨ t.width < 8) {addr v : Value} {x i : Int}
    {a : Allocation} (more more' : List Value) (hx : asForeignWord pl p addr = .ok x)
    (hv : v = .smi i ∨ p.body? v = some (.largeInteger i)) :
    foreignSet t pl P a (addr :: v :: more) p = .ok (.value v, stored p (pl.address x) t i) ∧
      (∀ a', foreignGet t pl P a' (addr :: more') (stored p (pl.address x) t i) =
        .ok ((stored p (pl.address x) t i).toInteger pl P a' (t.wrap i))) ∧
      t.lowest ≤ t.wrap i ∧ t.wrap i < t.lowest + 2 ^ (8 * t.width) ∧
      t.wrap i % 2 ^ (8 * t.width) = i % 2 ^ (8 * t.width) := by
  obtain ⟨n, hn, hmod⟩ := asForeignWord_emod pl hv
  have hdvd : (2 : Int) ^ (8 * t.width) ∣ 2 ^ pl.bitsPerWord := pow_dvd_pow 2 hw
  have hcongr : n % 2 ^ (8 * t.width) = i % 2 ^ (8 * t.width) := by
    rw [← Int.emod_emod_of_dvd n hdvd, hmod, Int.emod_emod_of_dvd i hdvd]
  obtain ⟨hset, hget⟩ := foreignGet_after_foreignSet (P := P) (a := a) more more' hx hn
  rw [stored, store_congr _ _ hcongr, ← stored] at hset hget
  exact ⟨hset, fun a' => by rw [hget, wrap_congr hcongr, int64Of_wrap ht h64 hfit],
    (wrap_mem ht i).1, (wrap_mem ht i).2, wrap_emod t i⟩

/-- On a host whose word holds `T`, for each of the eight types, `ForeignSet<T>` of an
integer `i` answers its value, and a following `ForeignGet<T>` boxes the `int64` of the value
of `T` congruent to `i`: that value itself for the seven types whose values are all `int64`s,
and for the 64-bit types the `int64` with the bits of `i`. -/
theorem foreignGet_reads_back_int64_of_stored_bits (ht : 0 < t.width)
    (hw : 8 * t.width ≤ pl.bitsPerWord) (h64 : t.width ≤ 8) {addr v : Value} {x i : Int}
    {a : Allocation} (more more' : List Value) (hx : asForeignWord pl p addr = .ok x)
    (hv : v = .smi i ∨ p.body? v = some (.largeInteger i)) :
    foreignSet t pl P a (addr :: v :: more) p = .ok (.value v, stored p (pl.address x) t i) ∧
      (∀ a', foreignGet t pl P a' (addr :: more') (stored p (pl.address x) t i) =
        .ok ((stored p (pl.address x) t i).toInteger pl P a' (int64Of (t.wrap i)))) ∧
      t.lowest ≤ t.wrap i ∧ t.wrap i < t.lowest + 2 ^ (8 * t.width) ∧
      t.wrap i % 2 ^ (8 * t.width) = i % 2 ^ (8 * t.width) ∧
      (t.signed = true ∨ t.width < 8 → int64Of (t.wrap i) = t.wrap i) ∧
      (t.width = 8 → int64Of (t.wrap i) = int64Of i) := by
  obtain ⟨n, hn, hmod⟩ := asForeignWord_emod pl hv
  have hdvd : (2 : Int) ^ (8 * t.width) ∣ 2 ^ pl.bitsPerWord := pow_dvd_pow 2 hw
  have hcongr : n % 2 ^ (8 * t.width) = i % 2 ^ (8 * t.width) := by
    rw [← Int.emod_emod_of_dvd n hdvd, hmod, Int.emod_emod_of_dvd i hdvd]
  obtain ⟨hset, hget⟩ := foreignGet_after_foreignSet (P := P) (a := a) more more' hx hn
  rw [stored, store_congr _ _ hcongr, ← stored] at hset hget
  refine ⟨hset, fun a' => by rw [hget, wrap_congr hcongr], (wrap_mem ht i).1, (wrap_mem ht i).2,
    wrap_emod t i, fun hfit => int64Of_wrap ht h64 hfit i, fun h8 => signedOf_congr ?_⟩
  have hbits := wrap_emod t i
  rwa [h8] at hbits

/-- On a 64-bit host `ForeignSetInt8` of `200` stores the bits of `-56`, and
`ForeignGetInt8` boxes `-56`. -/
theorem int8_reads_back_stored_bits :
    foreignSetInt8 Interpret.plainRuntime.platform nativeCallProgram .succeeds [.smi 8, .smi 200]
        highHeapProcess =
      .ok (.value (.smi 200), stored highHeapProcess 8 ⟨1, true⟩ 200) ∧
      foreignGetInt8 Interpret.plainRuntime.platform nativeCallProgram .succeeds [.smi 8]
        (stored highHeapProcess 8 ⟨1, true⟩ 200) =
      .ok (.value (.smi (-56)), stored highHeapProcess 8 ⟨1, true⟩ 200) := by
  have hx : asForeignWord Interpret.plainRuntime.platform highHeapProcess (.smi 8) = .ok 8 := rfl
  obtain ⟨hset, hget, -⟩ := foreignGet_reads_back_int64_of_stored_bits (P := nativeCallProgram)
    (a := .succeeds) (t := ⟨1, true⟩) (by decide) (by decide) (by decide) [] [] hx
    (.inl (rfl : Value.smi 200 = .smi 200))
  exact ⟨hset, (hget .succeeds).trans rfl⟩

/-- `ForeignSetInt16` of `40000` on a 64-bit host stores the bits of `-25536`. -/
theorem int16_reads_back_wrapped :
    foreignSetInt16 Interpret.plainRuntime.platform nativeCallProgram .succeeds [.smi 8, .smi 40000]
        highHeapProcess =
      .ok (.value (.smi 40000), stored highHeapProcess 8 ⟨2, true⟩ 40000) ∧
      foreignGetInt16 Interpret.plainRuntime.platform nativeCallProgram .succeeds [.smi 8]
        (stored highHeapProcess 8 ⟨2, true⟩ 40000) =
      .ok (.value (.smi (-25536)), stored highHeapProcess 8 ⟨2, true⟩ 40000) := by
  have hx : asForeignWord Interpret.plainRuntime.platform highHeapProcess (.smi 8) = .ok 8 := rfl
  obtain ⟨hset, hget, -⟩ := foreignGet_reads_back_wrapped_value (P := nativeCallProgram)
    (a := .succeeds) (t := ⟨2, true⟩) (by decide) (by decide) (by decide) (.inl rfl) [] [] hx
    (.inl (rfl : Value.smi 40000 = .smi 40000))
  exact ⟨hset, (hget .succeeds).trans rfl⟩

/-- A `uint64` of `2 ^ 63` or more is not an `int64`: `ForeignGetUint64` boxes it less
`2 ^ 64`, a negative integer, in place of the stored value. -/
theorem foreignGetUint64_reads_back_negative {addr v : Value} {x n : Int} {a : Allocation}
    (more more' : List Value) (hx : asForeignWord pl p addr = .ok x)
    (hn : asForeignWord pl p v = .ok n) (hhigh : 2 ^ 63 ≤ n % 2 ^ 64) :
    foreignSetUint64 pl P a (addr :: v :: more) p =
        .ok (.value v, stored p (pl.address x) ⟨8, false⟩ n) ∧
      (∀ a', foreignGetUint64 pl P a' (addr :: more') (stored p (pl.address x) ⟨8, false⟩ n) =
        .ok ((stored p (pl.address x) ⟨8, false⟩ n).toInteger pl P a' (n % 2 ^ 64 - 2 ^ 64))) ∧
      n % 2 ^ 64 - 2 ^ 64 < 0 := by
  obtain ⟨hset, hget⟩ := foreignGet_after_foreignSet (t := ⟨8, false⟩) (P := P) (a := a)
    more more' hx hn
  have hlt := Int.emod_lt_of_pos n (by norm_num : (0 : Int) < 2 ^ 64)
  refine ⟨hset, fun a' => ?_, by omega⟩
  rw [foreignGetUint64, hget]
  simp only [ForeignType.wrap, Bool.false_eq_true, if_false, int64Of, signedOf, Int.emod_emod,
    Nat.reduceMul, Nat.reduceSub, if_neg (not_lt.mpr hhigh)]

/-- On a 64-bit host `ForeignSetUint64` of `-1` stores `2 ^ 64 - 1`, and
`ForeignGetUint64` boxes `-1`. -/
theorem uint64_minusOne_reads_back_negative :
    foreignSetUint64 Interpret.plainRuntime.platform nativeCallProgram .succeeds [.smi 8, .smi (-1)]
        highHeapProcess =
      .ok (.value (.smi (-1)), stored highHeapProcess 8 ⟨8, false⟩ (-1)) ∧
      foreignGetUint64 Interpret.plainRuntime.platform nativeCallProgram .succeeds [.smi 8]
        (stored highHeapProcess 8 ⟨8, false⟩ (-1)) =
      .ok (.value (.smi (-1)), stored highHeapProcess 8 ⟨8, false⟩ (-1)) := by
  have hx : asForeignWord Interpret.plainRuntime.platform highHeapProcess (.smi 8) = .ok 8 := rfl
  have hn : asForeignWord Interpret.plainRuntime.platform highHeapProcess (.smi (-1)) = .ok (-1) := rfl
  obtain ⟨hset, hget, -⟩ := foreignGetUint64_reads_back_negative (P := nativeCallProgram)
    (a := .succeeds) [] [] hx hn (by decide)
  exact ⟨hset, (hget .succeeds).trans rfl⟩

end Natives

end Fletch
