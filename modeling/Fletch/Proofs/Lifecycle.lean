import Fletch.Proofs.Heap

/-!
# The lifecycle of the registry

`ForeignFunctionInterface::Setup` allocates the mutex, each `AddDefaultSharedLibrary` puts a
`strdup`ed copy of a library's name and a new entry in front of the list of default
libraries, and `TearDown` deletes every entry with its name and then the mutex. Between them
the program calls the natives of `ffi.cc`.

`World.Tidy w cells` says that the list from `libraries_` is `cells`, newest first, each cell
a library's name with the addresses of its copy and of its entry, at addresses that decrease
along the list; that the mutex is live; and that every live block of the C heap is the mutex,
a block of the list, or a buffer. `Session pl P p₀ added p` is a lifecycle from `p₀` to `p`:
`AddDefaultSharedLibrary` of the libraries `added`, in order, interleaved with calls of the
natives of `ffi.cc` that free only buffers.

* `ForeignFunctionInterface.session_tearDown_frees_registry`: after `Setup` on a C heap whose
  live blocks are all buffers, and any session, `TearDown` succeeds. It frees every copy of a
  name, every entry and the mutex, and keeps every buffer as it was, so the only live blocks
  it leaves are buffers: no `strdup`ed name is left, whatever `ForeignLookup`s ran between.
* `Natives.foreignLookup_in_session_tries_newest_first`: in every state of such a session,
  `ForeignLookup` tries the named library and then the libraries added, newest first.
-/

namespace Fletch

namespace World

/-! ## The blocks of the list -/

/-- The addresses a list owns: the copy of each name, then its entry. -/
def owned : List (String × Nat × Nat) → List Nat
  | [] => []
  | (_, name, entry) :: cells => name :: entry :: owned cells

/-- The list from `entry` as `AddDefaultSharedLibrary` builds it: `cells` hold each library's
name with the address of its copy and of its entry, newest first. Each entry is live and holds
the copy of the name and the next entry; it lies above the copy, which lies above the next
entry. -/
inductive Chain (blocks : List (Nat × Block)) : List (String × Nat × Nat) → Nat → Prop
  | nil : Chain blocks [] 0
  | cons {l : String} {cells : List (String × Nat × Nat)} {name entry next : Nat}
      (he : blocks.lookup entry = some ⟨.libraryEntry name next, true⟩)
      (hn : blocks.lookup name = some ⟨.string l, true⟩) (hnext : next < name) (hname : name < entry) :
      Chain blocks cells next → Chain blocks ((l, name, entry) :: cells) entry

namespace Chain

variable {bs bs' : List (Nat × Block)}

/-- The head entry lies above every other block of the list. -/
theorem le_head : ∀ {cells : List (String × Nat × Nat)} {e : Nat}, Chain bs cells e →
    ∀ a ∈ owned cells, a ≤ e
  | _, _, .nil => fun a ha => by simp [owned] at ha
  | _, _, .cons _ _ hnext hname rest => fun a ha => by
    simp only [owned, List.mem_cons] at ha
    rcases ha with rfl | rfl | ha
    · omega
    · exact le_rfl
    · have := rest.le_head a ha
      omega

/-- A list keeps its shape in any heap that keeps its blocks. -/
theorem mono : ∀ {cells : List (String × Nat × Nat)} {e : Nat},
    (∀ a ∈ owned cells, ∀ b, bs.lookup a = some b → bs'.lookup a = some b) →
      Chain bs cells e → Chain bs' cells e
  | _, _, _, .nil => .nil
  | _, _, h, .cons he hn hnext hname rest =>
    .cons (h _ (by simp [owned]) _ he) (h _ (by simp [owned]) _ hn) hnext hname
      (mono (fun a ha => h a (by simp [owned, ha])) rest)

theorem registry : ∀ {cells : List (String × Nat × Nat)} {e : Nat},
    Chain bs cells e → Registry bs (cells.map Prod.fst) e
  | _, _, .nil => .nil
  | _, _, .cons he hn _ hname rest => .cons (by omega) he hn rest.registry

/-- Every block of the list is live, and holds a name or an entry. -/
theorem live : ∀ {cells : List (String × Nat × Nat)} {e : Nat}, Chain bs cells e →
    ∀ a ∈ owned cells, ∃ d, bs.lookup a = some ⟨d, true⟩ ∧ (∀ n, d ≠ .buffer n) ∧ d ≠ .mutex
  | _, _, .nil => fun a ha => by simp [owned] at ha
  | _, _, .cons he hn _ _ rest => fun a ha => by
    simp only [owned, List.mem_cons] at ha
    rcases ha with rfl | rfl | ha
    · exact ⟨_, hn, by simp, by simp⟩
    · exact ⟨_, he, by simp, by simp⟩
    · exact rest.live a ha

theorem lt_brk {w : World} {cells : List (String × Nat × Nat)} {e : Nat} (hw : w.Allocated)
    (hb : 0 < w.brk) : Chain w.blocks cells e → e < w.brk
  | .nil => hb
  | .cons he _ _ _ _ => hw.lt he

end Chain

/-! ## `TearDown` -/

/-- The world after the blocks at `as` are freed, in order. -/
def releaseAll (w : World) (as : List Nat) : World := as.foldl release w

theorem block?_releaseAll (w : World) (as : List Nat) (a : Nat) :
    (w.releaseAll as).block? a =
      if a ∈ as then (w.block? a).map ({ · with live := false }) else w.block? a := by
  induction as generalizing w with
  | nil => simp [releaseAll]
  | cons x as ih =>
    simp only [releaseAll, List.foldl_cons] at ih ⊢
    rw [ih, block?_release]
    by_cases hx : a = x <;> by_cases ha : a ∈ as <;> simp [hx, ha, Option.map_map, Function.comp_def]

@[simp] theorem releaseAll_mutex (w : World) (as : List Nat) : (w.releaseAll as).mutex = w.mutex := by
  induction as generalizing w with
  | nil => rfl
  | cons x as ih => exact ih (w.release x)

theorem free_live {w : World} {a : Nat} {d : CData} (h : w.block? a = some ⟨d, true⟩) (ha : a ≠ 0) :
    w.free a = .ok (w.release a) := by
  simp [free, ha, h]

/-- The loop of `TearDown` frees the blocks of the list, and nothing else. -/
theorem deleteEntries_chain : ∀ {cells : List (String × Nat × Nat)} {fuel e : Nat} {w : World},
    Chain w.blocks cells e → cells.length < fuel →
      ForeignFunctionInterface.deleteEntries fuel e w = .ok (w.releaseAll (owned cells))
  | [], _, _, w, .nil, hf => by
    obtain ⟨fuel, rfl⟩ := Nat.exists_eq_add_of_lt hf
    simp [ForeignFunctionInterface.deleteEntries, releaseAll, owned]
  | (l, name, entry) :: cells, _, _, w, .cons he hn hnext hname rest, hf => by
    obtain ⟨fuel, rfl⟩ := Nat.exists_eq_add_of_lt hf
    have h₁ : w.free name = .ok (w.release name) := free_live hn (by omega)
    have h₂ : (w.release name).free entry = .ok ((w.release name).release entry) :=
      free_live (by rw [block?_release, if_neg (by omega)]; exact he) (by omega)
    have hrest : Chain ((w.release name).release entry).blocks cells _ := rest.mono fun a ha b hb => by
      have := rest.le_head a ha
      show ((w.release name).release entry).block? a = some b
      rw [block?_release, if_neg (by omega), block?_release, if_neg (by omega)]
      exact hb
    simp only [ForeignFunctionInterface.deleteEntries, if_neg (show entry ≠ 0 by omega),
      read_of_lookup he, bind, Except.bind, h₁, h₂]
    rw [deleteEntries_chain hrest (by simp only [List.length_cons]; omega)]
    rfl

/-! ## The invariant of a lifecycle -/

/-- The registry as `Setup` and `AddDefaultSharedLibrary` leave it, whatever natives ran in
between: the list from `libraries_` is `cells`, the mutex is live, and every block lies below
`brk`. -/
structure Listed (w : World) (cells : List (String × Nat × Nat)) : Prop where
  allocated : w.Allocated
  mutex : w.read w.mutex = .ok .mutex
  mutex_pos : 0 < w.mutex
  chain : Chain w.blocks cells w.libraries
  length_le : cells.length ≤ w.blocks.length

/-- `Listed`, and every live block is a block of the list, the mutex, or a buffer. -/
structure Tidy (w : World) (cells : List (String × Nat × Nat)) extends Listed w cells : Prop where
  live : ∀ a b, w.block? a = some b → b.live = true →
    (∃ n, b.data = .buffer n) ∨ a = w.mutex ∨ a ∈ owned cells

/-- How a native of `ffi.cc` changes the C world: every block keeps its data and may only be
freed, every block allocated since that is still live is a buffer, every block lies below
`brk`, and the statics of `ForeignFunctionInterface` are kept. -/
structure Evolves (w w' : World) : Prop where
  libraries : w'.libraries = w.libraries
  mutex : w'.mutex = w.mutex
  allocated : w'.Allocated
  length_le : w.blocks.length ≤ w'.blocks.length
  old : ∀ a b, w.block? a = some b → w'.block? a = some b ∨ w'.block? a = some { b with live := false }
  new : ∀ a b, w.block? a = none → w'.block? a = some b → b.live = true → ∃ n, b.data = .buffer n

/-- Every block that a change frees is a buffer. -/
def FreesOnlyBuffers (w w' : World) : Prop :=
  ∀ a b, w.block? a = some b → b.live = true → w'.block? a = some { b with live := false } →
    ∃ n, b.data = .buffer n

/-- A change that adds freed blocks in front of the C heap, at fresh addresses below the new
`brk`, and changes no block. -/
theorem evolves_of_temps {w w' : World} {temps : List (Nat × Block)} (hw : w.Allocated)
    (hb : w'.blocks = temps ++ w.blocks) (hdead : ∀ x ∈ temps, x.2.live = false)
    (haddr : ∀ x ∈ temps, w.brk ≤ x.1 ∧ x.1 < w'.brk) (hbrk : w.brk ≤ w'.brk)
    (hl : w'.libraries = w.libraries) (hm : w'.mutex = w.mutex) : Evolves w w' where
  libraries := hl
  mutex := hm
  allocated x hx := by
    rw [hb, List.mem_append] at hx
    rcases hx with hx | hx
    · exact (haddr x hx).2
    · exact Nat.lt_of_lt_of_le (hw x hx) hbrk
  length_le := by simp [hb]
  old a b hab := by
    have hlt := hw.lt hab
    have hnone : temps.lookup a = none :=
      List.lookup_eq_none_iff.mpr fun x hx => by have := (haddr x hx).1; simp; omega
    exact .inl (by rw [block?, hb, List.lookup_append, hnone, Option.none_or]; exact hab)
  new a b ha hab hlive := by
    rw [block?, hb, List.lookup_append] at hab
    rw [block?] at ha
    rw [ha, Option.or_none] at hab
    obtain ⟨l₁, l₂, ht, -⟩ := List.lookup_eq_some_iff.mp hab
    have := hdead (a, b) (by rw [ht]; simp)
    simp_all

/-- A change that keeps every block. -/
theorem evolves_of_blocks {w w' : World} (hw : w.Allocated) (hb : w'.blocks = w.blocks)
    (hbrk : w'.brk = w.brk) (hl : w'.libraries = w.libraries) (hm : w'.mutex = w.mutex) : Evolves w w' :=
  @evolves_of_temps w w' [] hw hb (by simp) (by simp) hbrk.ge hl hm

theorem evolves_alloc_buffer {w : World} (hw : w.Allocated) (n size : Nat) :
    Evolves w (w.alloc (.buffer n) size).1 where
  libraries := rfl
  mutex := rfl
  allocated := hw.alloc _ _
  length_le := by simp [World.alloc]
  old a b hab := .inl (by rw [block?_alloc, if_neg (Nat.ne_of_lt (hw.lt hab))]; exact hab)
  new a b ha hab _ := by
    rw [block?_alloc] at hab
    split at hab
    · cases hab
      exact ⟨n, rfl⟩
    · rw [ha] at hab
      cases hab

theorem evolves_calloc {w : World} (hw : w.Allocated) (size : Nat) : Evolves w (w.calloc size).1 := by
  unfold World.calloc
  split
  · have h := evolves_alloc_buffer hw size size
    exact ⟨h.1, h.2, h.3, h.4, h.5, h.6⟩
  · exact evolves_of_blocks hw rfl rfl rfl rfl

theorem evolves_free {w w' : World} {a : Nat} (hw : w.Allocated) (h : w.free a = .ok w') : Evolves w w' := by
  by_cases ha : a = 0
  · rw [ha, free_zero, Except.ok.injEq] at h
    exact h ▸ evolves_of_blocks hw rfl rfl rfl rfl
  obtain ⟨-, rfl⟩ := free_eq_release h ha
  refine ⟨rfl, rfl, hw.release a, by simp [release], fun x b hxb => ?_, fun x b hx hxb _ => ?_⟩
  · rw [block?_release]
    split
    · exact .inr (by rw [hxb]; rfl)
    · exact .inl hxb
  · rw [block?_release, hx] at hxb
    split at hxb <;> cases hxb

namespace Listed

variable {w w' : World} {cells : List (String × Nat × Nat)}

theorem brk_pos (h : Listed w cells) : 0 < w.brk :=
  Nat.zero_lt_of_lt (h.allocated.lt (read_eq_ok.mp h.mutex))

theorem registered (h : Listed w cells) : Registered w (cells.map Prod.fst) :=
  ⟨h.allocated, h.brk_pos, h.mutex, h.chain.registry, by simpa using h.length_le⟩

/-- The mutex and the blocks of the list are live, and none is a buffer. -/
theorem kept (h : Listed w cells) {a : Nat} (ha : a = w.mutex ∨ a ∈ owned cells) :
    ∃ d, w.block? a = some ⟨d, true⟩ ∧ ∀ n, d ≠ .buffer n := by
  rcases ha with rfl | ha
  · exact ⟨_, read_eq_ok.mp h.mutex, by simp⟩
  · obtain ⟨d, hd, hb, -⟩ := h.chain.live a ha
    exact ⟨d, hd, hb⟩

theorem mutex_not_owned (h : Listed w cells) : w.mutex ∉ owned cells := fun hin => by
  obtain ⟨d, hd, -, hne⟩ := h.chain.live _ hin
  have hm : w.blocks.lookup w.mutex = some ⟨.mutex, true⟩ := read_eq_ok.mp h.mutex
  rw [hd] at hm
  cases hm
  exact hne rfl

/-- `TearDown` frees the blocks of the list and then the mutex. -/
theorem tearDown_eq (h : Listed w cells) :
    ForeignFunctionInterface.tearDown w = .ok ((w.releaseAll (owned cells)).release w.mutex) := by
  have hmb : (w.releaseAll (owned cells)).block? w.mutex = some ⟨.mutex, true⟩ := by
    rw [block?_releaseAll, if_neg h.mutex_not_owned]
    exact read_eq_ok.mp h.mutex
  have hd : ForeignFunctionInterface.deleteEntries (w.blocks.length + 1) w.libraries w =
      .ok (w.releaseAll (owned cells)) := deleteEntries_chain h.chain (by have := h.length_le; omega)
  simp only [ForeignFunctionInterface.tearDown, hd, bind, Except.bind, releaseAll_mutex]
  exact free_live hmb (Nat.ne_of_gt h.mutex_pos)

/-- `Setup` on a C heap with no list. -/
theorem setup (hw : w.Allocated) (hb : 0 < w.brk) (hl : w.libraries = 0) :
    Listed (ForeignFunctionInterface.setup w) [] where
  allocated := hw.alloc .mutex 1
  mutex := by
    show (ForeignFunctionInterface.setup w).read w.brk = _
    rw [read_eq_ok, ForeignFunctionInterface.block?_setup, if_pos rfl]
  mutex_pos := hb
  chain := by rw [ForeignFunctionInterface.setup_libraries, hl]; exact .nil
  length_le := Nat.zero_le _

/-- `AddDefaultSharedLibrary` puts a new cell in front, its copy at `brk` and its entry just
above. -/
theorem add {l : String} (h : Listed w cells)
    (hadd : ForeignFunctionInterface.addDefaultSharedLibrary l w = .ok w') :
    w' = { ((w.alloc (.string l) (l.length + 1)).1.alloc (.libraryEntry w.brk w.libraries) 2).1 with
      libraries := w.brk + max (l.length + 1) 1 } ∧
    Listed w' ((l, w.brk, w.brk + max (l.length + 1) 1) :: cells) := by
  simp only [ForeignFunctionInterface.addDefaultSharedLibrary, ForeignFunctionInterface.lock, h.mutex,
    bind, Except.bind, pure, Except.pure, Except.ok.injEq] at hadd
  subst hadd
  refine ⟨rfl, ?_⟩
  have h₁ := h.allocated.alloc (.string l) (l.length + 1)
  have hkeep : ∀ a b, w.blocks.lookup a = some b →
      ((w.alloc (.string l) (l.length + 1)).1.alloc (.libraryEntry w.brk w.libraries) 2).1.blocks.lookup a =
        some b :=
    fun _ _ hb => lookup_alloc_of_allocated h₁ _ _ (lookup_alloc_of_allocated h.allocated _ _ hb)
  refine ⟨h₁.alloc _ _, read_of_lookup (hkeep _ _ (read_eq_ok.mp h.mutex)), h.mutex_pos, ?_, ?_⟩
  · exact .cons (lookup_alloc_self (w.alloc (.string l) (l.length + 1)).1 _ 2)
      (lookup_alloc_of_allocated h₁ (.libraryEntry w.brk w.libraries) 2
        (lookup_alloc_self w (.string l) (l.length + 1))) (h.chain.lt_brk h.allocated h.brk_pos) (by simp)
      (h.chain.mono fun a _ => hkeep a)
  · simp only [World.alloc, List.length_cons]
    have := h.length_le
    omega

/-- A change that frees only buffers keeps the list and the mutex. -/
theorem evolve (h : Listed w cells) (he : Evolves w w') (hf : FreesOnlyBuffers w w') :
    Listed w' cells := by
  have keep : ∀ a, (a = w.mutex ∨ a ∈ owned cells) → ∀ b, w.block? a = some b → w'.block? a = some b := by
    intro a ha b hb
    obtain ⟨d, hd, hnb⟩ := h.kept ha
    rw [hd] at hb
    cases hb
    rcases he.old a _ hd with h' | h'
    · exact h'
    · obtain ⟨n, hn⟩ := hf a _ hd rfl h'
      exact absurd hn (hnb n)
  refine ⟨he.allocated, ?_, he.mutex ▸ h.mutex_pos, ?_, h.length_le.trans he.length_le⟩
  · rw [he.mutex]
    exact read_of_lookup (keep _ (.inl rfl) _ (read_eq_ok.mp h.mutex))
  · rw [he.libraries]
    exact h.chain.mono fun a ha => keep a (.inr ha)

end Listed

namespace Tidy

variable {w w' : World} {cells : List (String × Nat × Nat)}

/-- `Setup` on a C heap with no list and only buffers live. -/
theorem setup (hw : w.Allocated) (hb : 0 < w.brk) (hl : w.libraries = 0)
    (hbuf : ∀ a b, w.block? a = some b → b.live = true → ∃ n, b.data = .buffer n) :
    Tidy (ForeignFunctionInterface.setup w) [] where
  toListed := .setup hw hb hl
  live a b hab hl := by
    rw [ForeignFunctionInterface.block?_setup] at hab
    split at hab
    · exact .inr (.inl ‹_›)
    · exact .inl (hbuf a b hab hl)

theorem add {l : String} (h : Tidy w cells)
    (hadd : ForeignFunctionInterface.addDefaultSharedLibrary l w = .ok w') :
    Tidy w' ((l, w.brk, w.brk + max (l.length + 1) 1) :: cells) := by
  obtain ⟨rfl, hl⟩ := h.toListed.add hadd
  refine ⟨hl, fun a b hab hlive => ?_⟩
  simp only [block?, World.alloc, lookup_cons_eq_ite] at hab
  split at hab
  · exact .inr (.inr (by simp [owned, *]))
  · split at hab
    · exact .inr (.inr (by simp [owned, *]))
    · rcases h.live a b hab hlive with hb | hb | hb
      · exact .inl hb
      · exact .inr (.inl hb)
      · exact .inr (.inr (by simp [owned, hb]))

theorem evolve (h : Tidy w cells) (he : Evolves w w') (hf : FreesOnlyBuffers w w') : Tidy w' cells := by
  refine ⟨h.toListed.evolve he hf, fun a b hab hlive => ?_⟩
  cases hw : w.block? a with
  | none => exact .inl (he.new a b hw hab hlive)
  | some b₀ =>
    rcases he.old a b₀ hw with h' | h' <;> rw [h'] at hab <;> cases hab
    · rw [he.mutex]
      exact h.live a _ hw hlive
    · cases hlive

end Tidy

/-- An allocation frees nothing. -/
theorem freesOnlyBuffers_alloc (w : World) (d : CData) (size : Nat) :
    FreesOnlyBuffers w (w.alloc d size).1 := by
  intro a b hab hlive h
  rw [block?_alloc] at h
  split at h
  · cases h
  · rw [hab] at h
    have := congrArg (Option.map Block.live) h
    simp [hlive] at this

/-- A `calloc` frees nothing. -/
theorem freesOnlyBuffers_calloc (w : World) (size : Nat) : FreesOnlyBuffers w (w.calloc size).1 := by
  unfold World.calloc
  split
  · exact freesOnlyBuffers_alloc w (.buffer size) size
  · intro a b hab hlive h
    have := congrArg (Option.map Block.live) (hab.symm.trans h)
    simp [hlive] at this

end World

/-! ## What the natives do to the C heap -/

@[simp] theorem Process.toInteger_world (pl : Platform) (P : Program) (a : Allocation) (v : Int)
    (p : Process) : (p.toInteger pl P a v).2.world = p.world := by
  unfold Process.toInteger
  split
  · rfl
  · cases a <;> rfl

namespace Natives

open World

variable {pl : Platform} {P : Program} {a : Allocation} {arguments : List Value} {p q : Process}
  {r : NativeResult}

/-- A `ForeignLookup` that returns had a `String` to look up, and a second argument. -/
theorem foreignLookup_arguments (h : foreignLookup pl P a arguments p = .ok (r, q)) :
    ∃ nameV libV more symbol, arguments = nameV :: libV :: more ∧ p.body? nameV = some (.string symbol) := by
  have key : ∀ p₁ : Process, p₁.heap = p.heap → ∀ v x, asForeignString p₁ v = .ok x →
      ∃ s, p.body? v = some (.string s) := by
    intro p₁ hp v x hx
    have hb : p₁.body? v = p.body? v := by cases v <;> simp [Process.body?, hp]
    unfold asForeignString at hx
    rw [hb] at hx
    split at hx
    · exact ⟨_, ‹_›⟩
    · cases hx
  match arguments, h with
  | [], h => simp [foreignLookup, argument, bind, Except.bind] at h
  | [_], h => simp [foreignLookup, argument, bind, Except.bind] at h
  | nameV :: libV :: more, h =>
    simp only [foreignLookup, argument, List.getElem?_cons_zero, List.getElem?_cons_succ, except_ok_bind] at h
    split at h
    · obtain ⟨y, h₁, h⟩ := Except.bind_eq_ok h
      obtain ⟨x, h₂, -⟩ := Except.bind_eq_ok h
      have hp : y.1.heap = p.heap := by
        unfold asForeignString at h₁
        split at h₁
        · cases h₁; rfl
        · cases h₁
      obtain ⟨s, hs⟩ := key y.1 hp nameV x h₂
      exact ⟨nameV, libV, more, s, rfl, hs⟩
    · obtain ⟨y, h₁, h⟩ := Except.bind_eq_ok h
      cases h₁
      obtain ⟨x, h₂, -⟩ := Except.bind_eq_ok h
      obtain ⟨s, hs⟩ := key p rfl nameV x h₂
      exact ⟨nameV, libV, more, s, rfl, hs⟩

theorem foreignLookup_evolves {libs : List String} (hr : Registered p.world libs)
    (h : foreignLookup pl P a arguments p = .ok (r, q)) : p.world.Evolves q.world := by
  obtain ⟨nameV, libV, more, symbol, rfl, hname⟩ := foreignLookup_arguments h
  obtain ⟨w', hl, -, ⟨temps, hb, ht, haddr⟩, hlib, hm, hbrk⟩ :=
    @foreignLookup_frame pl P p libs nameV symbol hr hname libV more a
  have hq : q.world = w' := by
    rw [hl, Except.ok.injEq] at h
    have h₂ := congrArg (fun x => x.2.world) h
    split at h₂ <;> simpa using h₂.symm
  subst hq
  refine evolves_of_temps hr.allocated hb (fun x hx => ?_) haddr hbrk hlib hm
  have hx' := List.mem_map_of_mem Prod.snd hx
  rw [ht] at hx'
  obtain ⟨s, -, hs⟩ := List.mem_map.mp hx'
  rw [← hs]

theorem foreignAllocate_evolves (hw : p.world.Allocated) (h : foreignAllocate pl P a arguments p = .ok (r, q)) :
    p.world.Evolves q.world := by
  obtain ⟨_, -, h⟩ := Except.bind_eq_ok h
  obtain ⟨_, -, h⟩ := Except.bind_eq_ok h
  rw [← snd_of_ok h, Process.toInteger_world]
  exact evolves_calloc hw _

theorem foreignFree_evolves (hw : p.world.Allocated) (h : foreignFree pl P a arguments p = .ok (r, q)) :
    p.world.Evolves q.world := by
  obtain ⟨_, -, h⟩ := Except.bind_eq_ok h
  obtain ⟨_, -, h⟩ := Except.bind_eq_ok h
  obtain ⟨_, hf, h⟩ := Except.bind_eq_ok h
  rw [← snd_of_ok h]
  exact evolves_free hw hf

theorem foreignMarkForFinalization_evolves (hw : p.world.Allocated)
    (h : foreignMarkForFinalization pl P a arguments p = .ok (r, q)) : p.world.Evolves q.world := by
  obtain ⟨v, -, h⟩ := Except.bind_eq_ok h
  cases v <;> cases h
  exact evolves_of_blocks hw rfl rfl rfl rfl

theorem foreignConvertPort_evolves (hw : p.world.Allocated)
    (h : foreignConvertPort pl P a arguments p = .ok (r, q)) : p.world.Evolves q.world := by
  simp only [foreignConvertPort, bind, Except.bind, pure, Except.pure] at h
  repeat' split at h
  all_goals first
    | (cases h; done)
    | rw [← snd_of_ok h]; exact evolves_of_blocks hw rfl rfl rfl rfl
    | rw [← snd_of_ok h, Process.toInteger_world]; exact evolves_of_blocks hw rfl rfl rfl rfl

theorem foreignCall_evolves (arity : Nat) (hw : p.world.Allocated)
    (h : foreignCall arity pl P a arguments p = .ok (r, q)) : p.world.Evolves q.world := by
  obtain ⟨_, -, h⟩ := Except.bind_eq_ok h
  obtain ⟨_, -, h⟩ := Except.bind_eq_ok h
  obtain ⟨_, -, h⟩ := Except.bind_eq_ok h
  rw [← snd_of_ok h, Process.toInteger_world]
  exact evolves_of_blocks hw rfl rfl rfl rfl

theorem foreignGet_evolves (t : ForeignType) (hw : p.world.Allocated)
    (h : foreignGet t pl P a arguments p = .ok (r, q)) : p.world.Evolves q.world := by
  obtain ⟨_, -, h⟩ := Except.bind_eq_ok h
  obtain ⟨_, -, h⟩ := Except.bind_eq_ok h
  rw [← snd_of_ok h, Process.toInteger_world]
  exact evolves_of_blocks hw rfl rfl rfl rfl

theorem foreignSet_evolves (t : ForeignType) (hw : p.world.Allocated)
    (h : foreignSet t pl P a arguments p = .ok (r, q)) : p.world.Evolves q.world := by
  obtain ⟨_, -, h⟩ := Except.bind_eq_ok h
  obtain ⟨_, -, h⟩ := Except.bind_eq_ok h
  obtain ⟨_, -, h⟩ := Except.bind_eq_ok h
  obtain ⟨_, -, h⟩ := Except.bind_eq_ok h
  rw [← snd_of_ok h]
  exact evolves_of_blocks hw rfl rfl rfl rfl

/-- Every native of `ffi.cc` changes the C heap as `World.Evolves` says, when the list of
default libraries is well formed (`ForeignLookup` walks it). -/
theorem ffi_natives_evolve {f : NativeFunction} {libs : List String} (hf : f ∈ ffi)
    (hr : Registered p.world libs) (h : f pl P a arguments p = .ok (r, q)) : p.world.Evolves q.world := by
  have hw := hr.allocated
  have hsame : q = p → p.world.Evolves q.world := by
    rintro rfl
    exact evolves_of_blocks hw rfl rfl rfl rfl
  simp only [ffi, List.mem_cons, List.mem_nil_iff, or_false] at hf
  rcases hf with rfl | rfl | rfl | rfl | rfl | rfl | rfl | rfl | rfl | rfl | rfl | rfl | rfl | rfl | rfl |
    rfl | rfl | rfl | rfl | rfl | rfl | rfl | rfl | rfl | rfl | rfl | rfl | rfl | rfl | rfl | rfl
  exacts [foreignLookup_evolves hr h, foreignAllocate_evolves hw h, foreignFree_evolves hw h,
    foreignMarkForFinalization_evolves hw h, hsame (snd_of_ok h).symm, hsame (snd_of_ok h).symm,
    hsame (snd_of_ok h).symm, foreignConvertPort_evolves hw h, foreignCall_evolves 0 hw h,
    foreignCall_evolves 1 hw h, foreignCall_evolves 2 hw h, foreignCall_evolves 3 hw h,
    foreignCall_evolves 4 hw h, foreignCall_evolves 5 hw h, foreignCall_evolves 6 hw h,
    foreignGet_evolves _ hw h, foreignSet_evolves _ hw h, foreignGet_evolves _ hw h,
    foreignSet_evolves _ hw h, foreignGet_evolves _ hw h, foreignSet_evolves _ hw h,
    foreignGet_evolves _ hw h, foreignSet_evolves _ hw h, foreignGet_evolves _ hw h,
    foreignSet_evolves _ hw h, foreignGet_evolves _ hw h, foreignSet_evolves _ hw h,
    foreignGet_evolves _ hw h, foreignSet_evolves _ hw h, foreignGet_evolves _ hw h,
    foreignSet_evolves _ hw h]

end Natives

/-! ## Sessions -/

namespace ForeignFunctionInterface

open World

/-- A lifecycle of the registry from `p₀` on a host `pl` running `P`: `AddDefaultSharedLibrary`
of the libraries `added`, in order, interleaved with calls of the natives of `ffi.cc` that free
only buffers. -/
inductive Session (pl : Platform) (P : Program) (p₀ : Process) : List String → Process → Prop
  | start : Session pl P p₀ [] p₀
  | add {added : List String} {p : Process} {l : String} {w : World} :
      Session pl P p₀ added p → addDefaultSharedLibrary l p.world = .ok w →
      Session pl P p₀ (added ++ [l]) { p with world := w }
  | native {added : List String} {p q : Process} {f : NativeFunction} {a : Allocation}
      {arguments : List Value} {r : NativeResult} :
      Session pl P p₀ added p → f ∈ Natives.ffi → f pl P a arguments p = .ok (r, q) →
      p.world.FreesOnlyBuffers q.world → Session pl P p₀ added q

namespace Session

variable {pl : Platform} {P : Program} {p₀ : Process}

/-- Every state of a session from a `Listed` world is `Listed`, with the libraries added,
newest first. -/
theorem listed (h₀ : p₀.world.Listed []) {added : List String} {p : Process}
    (hs : Session pl P p₀ added p) : ∃ cells, p.world.Listed cells ∧ cells.map Prod.fst = added.reverse := by
  induction hs with
  | start => exact ⟨[], h₀, rfl⟩
  | add _ hadd ih =>
    obtain ⟨_, h, hc⟩ := ih
    exact ⟨_, (h.add hadd).2, by simp [hc]⟩
  | native _ hf hc hfree ih =>
    obtain ⟨cells, h, hcs⟩ := ih
    exact ⟨cells, h.evolve (Natives.ffi_natives_evolve hf h.registered hc) hfree, hcs⟩

/-- Every state of a session from a `Tidy` world is `Tidy`. -/
theorem tidy (h₀ : p₀.world.Tidy []) {added : List String} {p : Process}
    (hs : Session pl P p₀ added p) : ∃ cells, p.world.Tidy cells := by
  induction hs with
  | start => exact ⟨[], h₀⟩
  | add _ hadd ih =>
    obtain ⟨_, h⟩ := ih
    exact ⟨_, h.add hadd⟩
  | native _ hf hc hfree ih =>
    obtain ⟨_, h⟩ := ih
    exact ⟨_, h.evolve (Natives.ffi_natives_evolve hf h.registered hc) hfree⟩

end Session

/-- After `Setup` on a C heap with no list and only buffers live, and any session, `TearDown`
succeeds: it frees every copy of a name, every entry and the mutex, and keeps every buffer,
so every block it leaves live is a buffer. -/
theorem session_tearDown_frees_registry {pl : Platform} {P : Program} {w₀ : World}
    (hw₀ : w₀.Allocated) (hb : 0 < w₀.brk) (hl : w₀.libraries = 0)
    (hbuf : ∀ a b, w₀.block? a = some b → b.live = true → ∃ n, b.data = .buffer n)
    {p₀ p : Process} {added : List String} (h₀ : p₀.world = setup w₀) (hs : Session pl P p₀ added p) :
    ∃ w', tearDown p.world = .ok w' ∧
      (∀ a b, w'.block? a = some b → b.live = true → ∃ n, b.data = .buffer n) ∧
      ∀ a b n, p.world.block? a = some b → b.data = .buffer n → w'.block? a = some b := by
  obtain ⟨cells, h⟩ := hs.tidy (h₀ ▸ Tidy.setup hw₀ hb hl hbuf)
  refine ⟨_, h.tearDown_eq, fun a b hab hlive => ?_, fun a b n hab hn => ?_⟩
  · rw [block?_release, block?_releaseAll] at hab
    split_ifs at hab with h₁ h₂ h₂
    any_goals
      obtain ⟨_, -, rfl⟩ := Option.map_eq_some'.mp hab
      cases hlive
    rcases h.live a b hab hlive with hb' | hb' | hb'
    · exact hb'
    · exact absurd hb' h₁
    · exact absurd hb' h₂
  · have hne : ¬(a = p.world.mutex ∨ a ∈ owned cells) := fun ha => by
      obtain ⟨d, hd, hnb⟩ := h.kept ha
      rw [hd] at hab
      cases hab
      exact hnb n hn
    rw [block?_release, if_neg fun h' => hne (.inl h'), block?_releaseAll, if_neg fun h' => hne (.inr h')]
    exact hab

/-- `Setup` on `mathWorld`'s host: no block yet, `brk` at `1`. -/
def mathHost : World := { Natives.mathWorld with blocks := [], brk := 1 }

/-- A process holding the `String` `"sin"` at `4`, whose C heap is `mathHost` after `Setup`. -/
def sessionStart : Process :=
  { Natives.sinLookupProcess with world := setup mathHost }

/-- `sessionStart` after `AddDefaultSharedLibrary("libm")`, its name at `2` and its entry at
`7`, and `ForeignAllocate(16)`, whose zeroed buffer is at `9`. -/
def libmState : Process :=
  { sessionStart with
    world :=
      { mathHost with
        blocks := [(9, ⟨.buffer 16, true⟩), (7, ⟨.libraryEntry 2 0, true⟩), (2, ⟨.string "libm", true⟩),
          (1, ⟨.mutex, true⟩)]
        brk := 25
        memory := fun b => if 9 ≤ b ∧ b < 9 + 16 then 0 else 0
        libraries := 7
        mutex := 1 } }

theorem libmState_session :
    Session foreignAllocateRuntime.platform nativeCallProgram sessionStart ["libm"] libmState :=
  @Session.native _ _ _ _ _ _ Natives.foreignAllocate .succeeds [.smi 16] _ (.add .start rfl)
    (by simp [Natives.ffi]) rfl (freesOnlyBuffers_calloc _ 16)

/-- Tearing down after `libmState`: `TearDown` succeeds and leaves only the buffer live. -/
theorem libmState_tearDown : ∃ w', tearDown libmState.world = .ok w' ∧
    (∀ a b, w'.block? a = some b → b.live = true → ∃ n, b.data = .buffer n) ∧
    ∀ a b n, libmState.world.block? a = some b → b.data = .buffer n → w'.block? a = some b :=
  session_tearDown_frees_registry (by decide) (by decide) rfl
    (fun _ _ h => by simp [block?, mathHost] at h) rfl libmState_session

/-- In every state of a session from `Setup`, `ForeignLookup` tries the named library (the main
program when the argument is not a `String`), then the libraries added, newest first: it
answers the address the first of them resolves, and `index_out_of_bounds` exactly when none
does. Every handle it opens is closed once, and the C strings it copied are freed, with the
rest of the C heap kept. -/
theorem foreignLookup_in_session_tries_newest_first (pl : Platform) (P : Program) {w₀ : World}
    (hw₀ : w₀.Allocated) (hb : 0 < w₀.brk) (hl : w₀.libraries = 0) {p₀ p : Process}
    {added : List String} (h₀ : p₀.world = setup w₀) (hs : Session pl P p₀ added p)
    {nameV : Value} {symbol : String} (hname : p.body? nameV = some (.string symbol))
    (libV : Value) (more : List Value) (a : Allocation) :
    ∃ w', Natives.foreignLookup pl P a (nameV :: libV :: more) p =
        .ok (match (Natives.namedLibrary p libV :: added.reverse.map some).findSome?
            (p.world.resolves symbol) with
          | some r => { p with world := w' }.toInteger pl P a (Platform.int64Of (pl.signedWord r))
          | none => (.failure .indexOutOfBounds, { p with world := w' })) ∧
      (∃ hs, w'.opened = hs ++ p.world.opened ∧ w'.closed = hs ++ p.world.closed) ∧
      ∃ temps, w'.blocks = temps ++ p.world.blocks ∧
        temps.map Prod.snd =
          (symbol :: (Natives.namedLibrary p libV).toList).map fun s => ⟨.string s, false⟩ := by
  obtain ⟨cells, h, hc⟩ := hs.listed (h₀ ▸ Listed.setup hw₀ hb hl)
  have := @Natives.foreignLookup_eq pl P p _ nameV symbol h.registered hname libV more a
  rwa [hc] at this

/-- After `libmState`'s session, looking `sin` up with no named library finds it in `libm`. -/
theorem libmState_finds_sin : ∃ w',
    Natives.foreignLookup foreignAllocateRuntime.platform nativeCallProgram .succeeds [.heap 4, .smi 0]
      libmState = .ok (.value (.smi 300), { libmState with world := w' }) := by
  obtain ⟨w', h, -⟩ := foreignLookup_in_session_tries_newest_first foreignAllocateRuntime.platform
    nativeCallProgram (by decide) (by decide) rfl rfl libmState_session
    (show libmState.body? (.heap 4) = some (.string "sin") from rfl) (.smi 0) [] .succeeds
  exact ⟨w', h.trans rfl⟩

end ForeignFunctionInterface

end Fletch
