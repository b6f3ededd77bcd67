import Fletch.Proofs.Memory
import Fletch.Proofs.Lifecycle

/-!
# C addresses through Dart integers

A native of `ffi.cc` gives a C address to the program as an integer. `ForeignLookup`
answers the address of a symbol and `ForeignAllocate` that of a new buffer, each cast to a
`word`, then to an `int64`, and boxed by `Process::ToInteger`. A later native takes the
integer back with `AsForeignWord` and casts it to a pointer. On a host of at most 64 bits
the two conversions agree (`Natives.address_of_toInteger`): the pointer a native receives
is the word another native answered, whether `ToInteger` made a small integer of it or a
new `LargeInteger`.

* `Natives.foreignFree_after_foreignAllocate`: `ForeignFree` of what `ForeignAllocate`
  answered frees the new buffer and no other block, so the C heap has again the live blocks
  it had before the allocation, and a second `ForeignFree` of it is a double free; when
  `calloc` answered `NULL`, every `ForeignFree` of the `0` it boxed changes nothing.
* `Natives.foreignCall_calls_looked_up_function`: `ForeignCall0` ... `ForeignCall6`, given
  what `ForeignLookup` answered, call the function at the address the lookup found, with the
  words of their next `N` arguments (`Natives.mapM_range_argument`).
-/

namespace Fletch

namespace Platform

/-- A word read as an `int64` is unchanged on a host of at most 64 bits. -/
theorem int64Of_signedWord {pl : Platform} (hb : 0 < pl.bitsPerWord) (h64 : pl.bitsPerWord ≤ 64)
    (n : Int) : int64Of (pl.signedWord n) = pl.signedWord n := by
  obtain ⟨hlo, hhi⟩ := signedOf_mem hb n
  have hle : (2 : Int) ^ (pl.bitsPerWord - 1) ≤ 2 ^ (64 - 1) := pow_le_pow_right₀ (by norm_num) (by omega)
  exact signedOf_of_mem (by norm_num) ((neg_le_neg hle).trans hlo) (hhi.trans_le hle)

/-- The two's complement reading of a word has the word's address. -/
theorem address_signedWord (pl : Platform) (n : Int) : pl.address (pl.signedWord n) = pl.address n := by
  simp only [address, signedWord, signedOf_emod]

@[simp] theorem address_zero (pl : Platform) : pl.address 0 = 0 := by
  simp [address]

/-- An address below `2 ^ bitsPerWord` is its own word. -/
theorem address_of_lt {pl : Platform} {r : Nat} (hr : r < 2 ^ pl.bitsPerWord) : pl.address r = r := by
  have hr' : (r : Int) < 2 ^ pl.bitsPerWord := by exact_mod_cast hr
  simp only [address, Int.emod_eq_of_lt (Int.natCast_nonneg r) hr', Int.toNat_natCast]

end Platform

open Platform

/-- Freeing a live block a second time is a double free. -/
theorem World.free_release_self {w : World} {a : Nat} {d : CData} (h : w.block? a = some ⟨d, true⟩)
    (ha : a ≠ 0) : (w.release a).free a = .error "double free" := by
  simp [World.free, ha, h]

namespace Natives

open ForeignFunctionInterface

variable {pl : Platform} {P : Program} {a : Allocation} {p q : Process}

@[simp] theorem asForeignWord_world (w : World) :
    asForeignWord pl { p with world := w } = asForeignWord pl p := rfl

/-- A word a native boxes with `ToInteger` reads back through `AsForeignWord` as a word with
the same address, whether it was boxed as a small integer or as a new `LargeInteger`. -/
theorem address_of_toInteger (hb : 0 < pl.bitsPerWord) (h64 : pl.bitsPerWord ≤ 64) {m : Int}
    {x : Value} (h : p.toInteger pl P a (int64Of (pl.signedWord m)) = (.value x, q)) :
    ∃ n, asForeignWord pl q x = .ok n ∧ pl.address n = pl.address m := by
  rw [int64Of_signedWord hb h64] at h
  have hx : x = .smi (pl.signedWord m) ∨ q.body? x = some (.largeInteger (pl.signedWord m)) := by
    unfold Process.toInteger at h
    split at h
    · cases h
      exact .inl rfl
    · cases a with
      | succeeds =>
        cases h
        exact .inr (by simp [Process.allocate, Process.body?])
      | retryAfterGc => cases h
  obtain ⟨n, hn, he⟩ := asForeignWord_emod pl hx
  exact ⟨n, hn, by rw [← address_signedWord pl m]; simp only [address, he]⟩

/-- `NULL` boxes as the small integer `0` on every host. -/
theorem toInteger_null (P : Program) (a : Allocation) (p : Process) :
    p.toInteger pl P a (int64Of (pl.signedWord 0)) = (.value (.smi 0), p) := by
  have hmax : (0 : Int) ≤ 2 ^ (pl.bitsPerWord - 2) - 1 := by
    have := pow_pos (by norm_num : (0 : Int) < 2) (pl.bitsPerWord - 2); omega
  simp [Process.toInteger, int64Of, signedWord, signedOf, Platform.smiValid, Platform.smiMin,
    Platform.smiMax, hmax]

/-- `ForeignAllocate` of a size for which `calloc` finds room boxes `brk`, the address of
the new buffer. -/
theorem foreignAllocate_of_room {v : Value} {more : List Value} {n : Int}
    (hn : asForeignWord pl p v = .ok n) (hroom : p.world.brk + max (pl.address n) 1 ≤ p.world.heapEnd) :
    foreignAllocate pl P a (v :: more) p =
      .ok ({ p with world := (p.world.calloc (pl.address n)).1 }.toInteger pl P a
        (int64Of (pl.signedWord p.world.brk))) := by
  simp only [foreignAllocate, argument, List.getElem?_cons_zero, except_ok_bind, hn,
    World.calloc_of_fits hroom]
  rfl

/-- `ForeignAllocate` of a size for which `calloc` answers `NULL` answers `0` and changes
nothing. -/
theorem foreignAllocate_of_null {v : Value} {more : List Value} {n : Int}
    (hn : asForeignWord pl p v = .ok n) (hnull : p.world.heapEnd < p.world.brk + max (pl.address n) 1) :
    foreignAllocate pl P a (v :: more) p = .ok (.value (.smi 0), p) := by
  simp only [foreignAllocate, argument, List.getElem?_cons_zero, except_ok_bind, hn,
    World.calloc_of_lt hnull, Nat.cast_zero, toInteger_null]
  rfl

/-- `ForeignFree` of the integer `ForeignAllocate` answered. When `calloc` found room, it frees
the buffer allocated and no other block, so the C heap has again the live blocks it had
before the allocation, and a second `ForeignFree` of it is a double free. When `calloc`
answered `NULL`, the integer is `0`, nothing was allocated, and `ForeignFree` of it changes
nothing, however often it is made. -/
theorem foreignFree_after_foreignAllocate (hb : 0 < pl.bitsPerWord) (h64 : pl.bitsPerWord ≤ 64)
    (hw : p.world.Allocated) (hbrk : 0 < p.world.brk) (hfit : p.world.brk < 2 ^ pl.bitsPerWord)
    {v : Value} {more₀ : List Value} {n : Int} (hn : asForeignWord pl p v = .ok n) {x : Value}
    (h : foreignAllocate pl P a (v :: more₀) p = .ok (.value x, q)) (more : List Value) (a' : Allocation) :
    (p.world.brk + max (pl.address n) 1 ≤ p.world.heapEnd →
      foreignFree pl P a' (x :: more) q =
          .ok (.value P.nullObject, { q with world := q.world.release p.world.brk }) ∧
        (∀ b, ((q.world.release p.world.brk).block? b).map Block.live = some true ↔
          (p.world.block? b).map Block.live = some true) ∧
        foreignFree pl P a' (x :: more) { q with world := q.world.release p.world.brk } =
          .error "double free") ∧
    (p.world.heapEnd < p.world.brk + max (pl.address n) 1 →
      x = .smi 0 ∧ q = p ∧ foreignFree pl P a' (x :: more) q = .ok (.value P.nullObject, q)) := by
  refine ⟨fun hroom => ?_, fun hnull => ?_⟩
  · have hq := Except.ok.inj ((foreignAllocate_of_room hn hroom).symm.trans h)
    obtain ⟨m, hm, hm'⟩ := address_of_toInteger hb h64 hq
    have haddr : pl.address m = p.world.brk := hm'.trans (address_of_lt hfit)
    have hqw := (congrArg (fun r => r.2.world) hq).symm.trans (Process.toInteger_world _ _ _ _ _)
    have hblock : ∀ b, q.world.block? b =
        if b = p.world.brk then some ⟨.buffer (pl.address n), true⟩ else p.world.block? b := by
      intro b
      rw [hqw, World.calloc_of_fits hroom]
      exact World.lookup_cons_eq_ite _ _ _ _
    have hlive : q.world.block? p.world.brk = some ⟨.buffer (pl.address n), true⟩ := by
      rw [hblock, if_pos rfl]
    have hnone : p.world.block? p.world.brk = none := by
      cases hblk : p.world.block? p.world.brk
      · rfl
      · exact absurd (hw.lt hblk) (lt_irrefl _)
    refine ⟨?_, fun b => ?_, ?_⟩
    · simp [foreignFree, argument, hm, haddr, World.free_live hlive hbrk.ne', bind, Except.bind, pure,
        Except.pure]
    · rw [World.block?_release, hblock]
      split_ifs with hb
      · simp [hb, hnone]
      · rfl
    · simp [foreignFree, argument, hm, haddr, World.free_release_self hlive hbrk.ne', bind, Except.bind]
  · obtain ⟨hx, rfl⟩ := Prod.mk.inj (Except.ok.inj ((foreignAllocate_of_null hn hnull).symm.trans h)).symm
    cases hx
    refine ⟨rfl, rfl, ?_⟩
    simp [foreignFree, argument, asForeignWord, World.free, bind, Except.bind, pure, Except.pure]

/-- `ForeignAllocate(16)` on a 32-bit host whose C heap is at `2 ^ 30`, past the small
integers, then `ForeignFree` of the `LargeInteger` it answered, twice; and
`ForeignAllocate(-1)`, a size of `2 ^ 32 - 1` bytes, for which `calloc` answers `NULL`. -/
theorem highBuffer_freed_once :
    ∃ x q, foreignAllocate foreignAllocateRuntime.platform nativeCallProgram .succeeds [.smi 16]
        highHeapProcess = .ok (.value x, q) ∧
      (foreignFree foreignAllocateRuntime.platform nativeCallProgram .succeeds [x] q =
          .ok (.value nativeCallProgram.nullObject, { q with world := q.world.release (2 ^ 30) }) ∧
        (∀ b, ((q.world.release (2 ^ 30)).block? b).map Block.live = some true ↔
          (highHeapProcess.world.block? b).map Block.live = some true) ∧
        foreignFree foreignAllocateRuntime.platform nativeCallProgram .succeeds [x]
          { q with world := q.world.release (2 ^ 30) } = .error "double free") ∧
      foreignAllocate foreignAllocateRuntime.platform nativeCallProgram .succeeds [.smi (-1)]
          highHeapProcess = .ok (.value (.smi 0), highHeapProcess) ∧
        foreignFree foreignAllocateRuntime.platform nativeCallProgram .succeeds [.smi 0] highHeapProcess =
          .ok (.value nativeCallProgram.nullObject, highHeapProcess) :=
  have h : foreignAllocate foreignAllocateRuntime.platform nativeCallProgram .succeeds [.smi 16]
      highHeapProcess = .ok (.value _, _) := rfl
  have hnull : foreignAllocate foreignAllocateRuntime.platform nativeCallProgram .succeeds [.smi (-1)]
      highHeapProcess = .ok (.value (.smi 0), highHeapProcess) := rfl
  have hn : asForeignWord foreignAllocateRuntime.platform highHeapProcess (.smi 16) = .ok 16 := rfl
  have hm : asForeignWord foreignAllocateRuntime.platform highHeapProcess (.smi (-1)) = .ok (-1) := rfl
  have hfree := (foreignFree_after_foreignAllocate (p := highHeapProcess) (by decide) (by decide)
    (by decide) (by decide) (by decide) hm hnull [] .succeeds).2 (by decide)
  ⟨_, _, h, (foreignFree_after_foreignAllocate (p := highHeapProcess) (by decide) (by decide)
    (by decide) (by decide) (by decide) hn h [] .succeeds).1 (by decide), hnull, hfree.2.2⟩

/-- The words `ForeignCall<N>` reads after the address are those of its next `N` arguments,
in order: the call fails unless there are `N` of them. -/
theorem mapM_range_argument {f : Value → Except String Int} (x : Value) (args : List Value) :
    ∀ {n : Nat} {words : List Int},
      (List.range n).mapM (fun i => do f (← argument (x :: args) (i + 1))) = .ok words →
        n ≤ args.length ∧ (args.take n).mapM f = .ok words
  | 0, words, h => by
    simp only [List.range_zero, List.mapM_nil] at h
    cases h
    exact ⟨Nat.zero_le _, rfl⟩
  | n + 1, words, h => by
    rw [List.range_succ, List.mapM_append] at h
    obtain ⟨ws, hws, h⟩ := Except.bind_eq_ok h
    obtain ⟨hle, ih⟩ := mapM_range_argument x args hws
    obtain ⟨w, hw, h⟩ := Except.bind_eq_ok h
    cases h
    simp only [List.mapM_cons, List.mapM_nil, argument, List.getElem?_cons_succ] at hw
    cases hn : args[n]? with
    | none => rw [hn] at hw; cases hw
    | some y =>
      rw [hn] at hw
      cases hf : f y with
      | error => rw [except_ok_bind, hf] at hw; cases hw
      | ok z =>
        rw [except_ok_bind, hf] at hw
        cases hw
        refine ⟨(List.getElem?_eq_some_iff.mp hn).1, ?_⟩
        rw [List.take_succ, hn, Option.toList_some, List.mapM_append, ih, List.mapM_cons, hf, List.mapM_nil]
        rfl

/-- `ForeignCall<N>` given the integer `ForeignLookup` answered calls the function at the
address the lookup found (the first of the named library, or the main program, and the
default libraries, newest first, in which the symbol resolves), with the words of its next
`N` arguments, and boxes the `int` it returns. -/
theorem foreignCall_calls_looked_up_function (hb : 0 < pl.bitsPerWord) (h64 : pl.bitsPerWord ≤ 64)
    {w₀ : World} {added : List String} (hw₀ : w₀.Allocated) (hl : w₀.libraries = 0)
    (hm : w₀.read w₀.mutex = .ok .mutex)
    (hadd : added.foldlM (fun w l => addDefaultSharedLibrary l w) w₀ = .ok p.world)
    {nameV : Value} {symbol : String} (hname : p.body? nameV = some (.string symbol))
    (libV : Value) (more : List Value) {f : Nat}
    (hf : (namedLibrary p libV :: added.reverse.map some).findSome? (p.world.resolves symbol) = some f)
    (hfit : f < 2 ^ pl.bitsPerWord) {x : Value}
    (hlookup : foreignLookup pl P a (nameV :: libV :: more) p = .ok (.value x, q))
    (arity : Nat) (arguments : List Value) (a' : Allocation) {r : NativeResult} {q' : Process}
    (hcall : foreignCall arity pl P a' (x :: arguments) q = .ok (r, q')) :
    arity ≤ arguments.length ∧ ∃ words, (arguments.take arity).mapM (asForeignWord pl q) = .ok words ∧
      (r, q') = ({ q with world := { q.world with calls := (f, words) :: q.world.calls } }).toInteger
        pl P a' (int32Of (q.world.foreign f words)) := by
  have hreg := foldlM_addDefaultSharedLibrary_registered added (World.Registered.empty hw₀ hl hm) hadd
  rw [List.append_nil] at hreg
  obtain ⟨w', hlookup', -⟩ := foreignLookup_eq hreg hname libV more a
  rw [hf, hlookup] at hlookup'
  obtain ⟨n, hn, hn'⟩ := address_of_toInteger hb h64 (Except.ok.inj hlookup').symm
  have haddr : pl.address n = f := hn'.trans (address_of_lt hfit)
  obtain ⟨_, hx, hcall⟩ := Except.bind_eq_ok hcall
  simp only [argument, List.getElem?_cons_zero] at hx
  cases hx
  obtain ⟨_, hn'', hcall⟩ := Except.bind_eq_ok hcall
  rw [hn] at hn''
  cases hn''
  obtain ⟨words, hwords, hcall⟩ := Except.bind_eq_ok hcall
  obtain ⟨hle, hwords⟩ := mapM_range_argument x arguments hwords
  rw [haddr] at hcall
  exact ⟨hle, words, hwords, (Except.ok.inj hcall).symm⟩

/-- `sin`, found at `300` in `libm`, called by `ForeignCall1` with the argument `7`. -/
theorem sin_called_with_seven :
    ∃ x q r q', foreignLookup foreignAllocateRuntime.platform nativeCallProgram .succeeds
        [.heap 4, .smi 0] sinLookupProcess = .ok (.value x, q) ∧
      foreignCall 1 foreignAllocateRuntime.platform nativeCallProgram .succeeds [x, .smi 7] q = .ok (r, q') ∧
      1 ≤ [Value.smi 7].length ∧ ∃ words,
        ([Value.smi 7].take 1).mapM (asForeignWord foreignAllocateRuntime.platform q) = .ok words ∧
        (r, q') = ({ q with world := { q.world with calls := (300, words) :: q.world.calls } }).toInteger
          foreignAllocateRuntime.platform nativeCallProgram .succeeds (int32Of (q.world.foreign 300 words)) :=
  have hl : foreignLookup foreignAllocateRuntime.platform nativeCallProgram .succeeds [.heap 4, .smi 0]
      sinLookupProcess = .ok (.value _, _) := rfl
  have hc : foreignCall 1 foreignAllocateRuntime.platform nativeCallProgram .succeeds [.smi 300, .smi 7]
      { sinLookupProcess with world := _ } = .ok (_, _) := rfl
  have hadd : ["libc", "libm"].foldlM (fun w l => addDefaultSharedLibrary l w) mathWorld =
      .ok sinLookupProcess.world := rfl
  have hname : sinLookupProcess.body? (.heap 4) = some (.string "sin") := rfl
  have hf : (namedLibrary sinLookupProcess (.smi 0) :: ["libc", "libm"].reverse.map some).findSome?
      (sinLookupProcess.world.resolves "sin") = some 300 := rfl
  ⟨_, _, _, _, hl, hc, foreignCall_calls_looked_up_function (by decide) (by decide)
    (by decide : mathWorld.Allocated) rfl rfl hadd hname (.smi 0) [] hf (by decide)
    hl 1 [.smi 7] .succeeds hc⟩

end Natives

end Fletch
