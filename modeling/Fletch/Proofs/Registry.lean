import Fletch.Proofs.Natives

/-!
# The registry of default shared libraries

`ForeignFunctionInterface::TearDown` deletes every entry of the list and the mutex, but it
leaves `libraries_` pointing at the first entry it deleted. A lifecycle whose list was not
empty therefore hands the next lifecycle a freed list head, and the next `TearDown` reads
that entry again before deleting it a second time
(`tearDown_after_nonempty_lifecycle_reads_freed_entry`).

A successful free marks one block dead, and a dead block stays dead (`World.Frees`).

`World.Registered w libs` says that the list from `libraries_` holds the names `libs`, newest
first, each entry and name live, with the mutex live and every block below `brk`.
`AddDefaultSharedLibrary` keeps it, putting the new name in front
(`addDefaultSharedLibrary_registered`), and the loop of `LookupInDefaultLibraries` answers
what the first library of the list resolves (`lookupEntries_eq`). `ForeignLookup` therefore
tries the named library, or the main program, and then the default libraries newest first; it
closes each handle it opens once and frees the C strings it copied
(`foreignLookup_eq`, `foreignLookup_tries_named_then_newest_first`).
-/

namespace Fletch

namespace World

/-- Every block lies below `brk`: the allocator never hands out an address twice. -/
def Allocated (w : World) : Prop := ∀ x ∈ w.blocks, x.1 < w.brk

instance : DecidablePred Allocated := fun w =>
  inferInstanceAs (Decidable (∀ x ∈ w.blocks, x.1 < w.brk))

theorem lt_of_lookup {n a : Nat} {b : Block} :
    ∀ {bs : List (Nat × Block)}, (∀ x ∈ bs, x.1 < n) → bs.lookup a = some b → a < n
  | [], _, h => by simp at h
  | (k, v) :: bs, hb, h => by
    rw [lookup_cons_eq_ite] at h
    split at h
    · subst a; exact hb _ (List.mem_cons_self _ _)
    · exact lt_of_lookup (fun x hx => hb x (List.mem_cons_of_mem _ hx)) h

theorem Allocated.lt {w : World} (hw : w.Allocated) {a : Nat} {b : Block} (h : w.block? a = some b) :
    a < w.brk :=
  lt_of_lookup hw h

theorem Allocated.release {w : World} (hw : w.Allocated) (a : Nat) : (w.release a).Allocated := by
  intro x hx
  obtain ⟨y, hy, rfl⟩ := List.mem_map.mp hx
  split
  · subst a; exact hw y hy
  · exact hw y hy

/-- The block at `a` exists and has been freed. -/
def Dead (w : World) (a : Nat) : Prop := (w.block? a).map Block.live = some false

theorem read_of_dead {w : World} {a : Nat} (h : w.Dead a) : w.read a = .error "use after free" := by
  unfold Dead at h
  unfold read
  match hb : w.block? a, h with
  | some { live := false, .. }, _ => rfl

/-- What a successful `free` keeps: the statics and `brk`, that every block lies below
`brk`, and every freed block freed. -/
structure Frees (w w' : World) : Prop where
  libraries : w'.libraries = w.libraries
  brk : w'.brk = w.brk
  allocated : w.Allocated → w'.Allocated
  dead : ∀ b, w.Dead b → w'.Dead b

theorem Frees.refl (w : World) : Frees w w := ⟨rfl, rfl, id, fun _ => id⟩

theorem Frees.trans {w₁ w₂ w₃ : World} (h₁ : Frees w₁ w₂) (h₂ : Frees w₂ w₃) : Frees w₁ w₃ :=
  ⟨h₂.libraries.trans h₁.libraries, h₂.brk.trans h₁.brk, h₂.allocated ∘ h₁.allocated,
    fun b hb => h₂.dead b (h₁.dead b hb)⟩

theorem frees_release (w : World) (a : Nat) : Frees w (w.release a) := by
  refine ⟨rfl, rfl, fun hw => hw.release a, fun b hb => ?_⟩
  unfold Dead at hb ⊢
  rw [block?_release]
  split
  · cases h : w.block? b <;> simp_all
  · exact hb

/-- A successful `free` of a non-null address is `release` of a live block. -/
theorem free_eq_release {w w' : World} {a : Nat} (h : w.free a = .ok w') (ha : a ≠ 0) :
    (w.block? a).map Block.live = some true ∧ w' = w.release a := by
  unfold free at h
  rw [if_neg ha] at h
  match hb : w.block? a, h with
  | some { live := true, .. }, h => exact ⟨rfl, (Except.ok.inj h).symm⟩

theorem frees_of_free {w w' : World} {a : Nat} (h : w.free a = .ok w') : Frees w w' := by
  by_cases ha : a = 0
  · simp only [free, if_pos ha, Except.ok.injEq] at h
    exact h ▸ Frees.refl w
  · exact (free_eq_release h ha).2 ▸ frees_release w a

theorem dead_of_free {w w' : World} {a : Nat} (h : w.free a = .ok w') (ha : a ≠ 0) : w'.Dead a := by
  obtain ⟨hl, rfl⟩ := free_eq_release h ha
  simp only [Dead, block?_release, if_pos rfl, Option.map_map] at hl ⊢
  cases hb : w.block? a <;> simp_all

end World

namespace ForeignFunctionInterface

open World

theorem deleteEntries_frees {fuel current : Nat} {w w' : World}
    (h : deleteEntries fuel current w = .ok w') : Frees w w' := by
  induction fuel generalizing current w with
  | zero => cases h
  | succ fuel ih =>
    unfold deleteEntries at h
    split at h
    · cases h; exact Frees.refl _
    · simp only [bind, Except.bind] at h
      split at h
      · cases h
      · split at h
        · split at h
          · cases h
          · split at h
            · cases h
            · exact (frees_of_free ‹_›).trans ((frees_of_free ‹_›).trans (ih h))
        · cases h

/-- Every entry `TearDown` reaches is freed; in particular the head of a nonempty list. -/
theorem deleteEntries_dead_head {fuel current : Nat} {w w' : World}
    (h : deleteEntries fuel current w = .ok w') (hc : current ≠ 0) : w'.Dead current := by
  cases fuel with
  | zero => cases h
  | succ fuel =>
    unfold deleteEntries at h
    simp only [if_neg hc, bind, Except.bind] at h
    split at h
    · cases h
    · split at h
      · split at h
        · cases h
        · split at h
          · cases h
          · exact (deleteEntries_frees h).dead _ (dead_of_free ‹_› hc)
      · cases h

theorem tearDown_frees {w w' : World} (h : tearDown w = .ok w') :
    Frees w w' ∧ (w.libraries ≠ 0 → w'.Dead w.libraries) := by
  simp only [tearDown, bind, Except.bind] at h
  split at h
  · cases h
  · have hd := deleteEntries_frees ‹_›
    have hf := frees_of_free h
    exact ⟨hd.trans hf, fun hl => hf.dead _ (deleteEntries_dead_head ‹_› hl)⟩

@[simp] theorem setup_libraries (w : World) : (setup w).libraries = w.libraries := rfl

@[simp] theorem setup_brk (w : World) : (setup w).brk = w.brk + 1 := rfl

@[simp] theorem block?_setup (w : World) (a : Nat) :
    (setup w).block? a = if a = w.brk then some { data := .mutex, live := true } else w.block? a :=
  block?_alloc w .mutex 1 a

theorem tearDown_of_dead_head {w : World} (hl : w.libraries ≠ 0) (hd : w.Dead w.libraries) :
    tearDown w = .error "use after free" := by
  simp [tearDown, deleteEntries, hl, read_of_dead hd, bind, Except.bind]

/-- A lifecycle that ends with a nonempty list leaves `libraries_` at the entry its
`TearDown` freed, so the `TearDown` of the next lifecycle reads that entry again: in C, a
use after free and then a second `delete` of it. -/
theorem tearDown_after_nonempty_lifecycle_reads_freed_entry {w w' : World} (hw : w.Allocated)
    (hl : w.libraries ≠ 0) (ht : tearDown w = .ok w') :
    tearDown (setup w') = .error "use after free" := by
  obtain ⟨hf, hdead⟩ := tearDown_frees ht
  have hd : w'.Dead w.libraries := hdead hl
  obtain ⟨b, hb⟩ : ∃ b, w'.block? w.libraries = some b := by
    unfold Dead at hd
    cases h : w'.block? w.libraries <;> simp_all
  have hlt : w.libraries < w'.brk := (hf.allocated hw).lt hb
  apply tearDown_of_dead_head
  · simpa [hf.libraries] using hl
  · simpa [Dead, hf.libraries, Nat.ne_of_lt hlt] using hd

/-- A registry set up over a fresh C heap, holding the one library `"x"`: the world
`Setup; AddDefaultSharedLibrary("x")` leaves. -/
def oneLibrary : World where
  blocks := [(4, ⟨.libraryEntry 2 0, true⟩), (2, ⟨.string "x", true⟩), (1, ⟨.mutex, true⟩)]
  brk := 6
  heapEnd := 6
  memory := fun _ => 0
  increments := []
  calls := []
  foreign := fun _ _ => 0
  errno := 0
  errors := []
  dlopen := fun _ => none
  dlsym := fun _ _ => none
  dlopen_ne_zero := fun _ h => nomatch h
  dlsym_ne_zero := fun _ _ h => nomatch h
  dlcloseFails := fun _ => false
  opened := []
  closed := []
  libraries := 4
  mutex := 1

theorem oneLibrary_second_tearDown_reads_freed_entry :
    oneLibrary.Allocated ∧ oneLibrary.libraries ≠ 0 ∧
      tearDown oneLibrary = .ok (((oneLibrary.release 2).release 4).release 1) ∧
      tearDown (setup (((oneLibrary.release 2).release 4).release 1)) = .error "use after free" :=
  ⟨by decide, by decide, rfl,
    @tearDown_after_nonempty_lifecycle_reads_freed_entry oneLibrary _ (by decide) (by decide) rfl⟩

end ForeignFunctionInterface

/-! ## Foreign lookups -/

namespace World

/-- What `PerformForeignLookup` finds for `symbol` in a library (the main program for
`none`): the address `dlsym` answers, when `dlopen`, `dlsym` and `dlclose` all succeed. -/
def resolves (w : World) (symbol : String) (library : Option String) : Option Nat :=
  match w.dlopen library with
  | none => none
  | some handle => if w.dlcloseFails handle then none else w.dlsym handle symbol

/-- The world after the handles `hs` (most recent first) were each opened and closed once. -/
def opening (w : World) (hs : List Nat) : World :=
  { w with opened := hs ++ w.opened, closed := hs ++ w.closed }

@[simp] theorem opening_nil (w : World) : w.opening [] = w := rfl

@[simp] theorem opening_opening (w : World) (hs hs' : List Nat) :
    (w.opening hs).opening hs' = w.opening (hs' ++ hs) := by
  simp [opening]

@[simp] theorem opening_blocks (w : World) (hs : List Nat) : (w.opening hs).blocks = w.blocks := rfl

@[simp] theorem opening_brk (w : World) (hs : List Nat) : (w.opening hs).brk = w.brk := rfl

@[simp] theorem resolves_opening (w : World) (hs : List Nat) :
    (w.opening hs).resolves = w.resolves := rfl

@[simp] theorem resolves_alloc (w : World) (d : CData) (size : Nat) :
    (w.alloc d size).1.resolves = w.resolves := rfl

theorem read_of_lookup {w : World} {a : Nat} {d : CData}
    (h : w.blocks.lookup a = some ⟨d, true⟩) : w.read a = .ok d := by
  simp [read, block?, h]

theorem read_eq_ok {w : World} {a : Nat} {d : CData} :
    w.read a = .ok d ↔ w.block? a = some ⟨d, true⟩ := by
  unfold read
  split <;> simp_all

@[simp] theorem lookup_alloc_self (w : World) (d : CData) (size : Nat) :
    (w.alloc d size).1.blocks.lookup w.brk = some ⟨d, true⟩ := by
  simp [World.alloc]

theorem read_alloc_of_ne {w : World} {a : Nat} (d : CData) (size : Nat) (h : a ≠ w.brk) :
    (w.alloc d size).1.read a = w.read a := by
  simp only [read, block?_alloc, if_neg h]

theorem Allocated.alloc {w : World} (hw : w.Allocated) (d : CData) (size : Nat) :
    (w.alloc d size).1.Allocated := by
  intro x hx
  rcases List.mem_cons.mp hx with rfl | hx
  · simp
  · have := hw x hx
    simp only [alloc_brk]
    omega

/-- The list of default libraries from `entry` on: each entry live and holding a live name
and the next entry, ending at `NULL`; `libs` are the names, in the order of the list. -/
inductive Registry (blocks : List (Nat × Block)) : List String → Nat → Prop
  | nil : Registry blocks [] 0
  | cons {l : String} {libs : List String} {entry name next : Nat} (hentry : entry ≠ 0)
      (he : blocks.lookup entry = some ⟨.libraryEntry name next, true⟩)
      (hn : blocks.lookup name = some ⟨.string l, true⟩) :
      Registry blocks libs next → Registry blocks (l :: libs) entry

theorem Registry.mono {bs bs' : List (Nat × Block)}
    (h : ∀ a b, bs.lookup a = some b → bs'.lookup a = some b) {libs : List String} {entry : Nat} :
    Registry bs libs entry → Registry bs' libs entry
  | .nil => .nil
  | .cons hentry he hn rest => .cons hentry (h _ _ he) (h _ _ hn) (rest.mono h)

/-- An allocation keeps every block below `brk`. -/
theorem lookup_alloc_of_allocated {w : World} (hw : w.Allocated) (d : CData) (size : Nat)
    {a : Nat} {b : Block} (h : w.blocks.lookup a = some b) : (w.alloc d size).1.blocks.lookup a = some b := by
  have hlt : a < w.brk := hw.lt h
  show (w.alloc d size).1.block? a = some b
  rw [block?_alloc, if_neg (Nat.ne_of_lt hlt)]
  exact h

/-- A world whose default libraries are `libs`, newest first: the invariant
`AddDefaultSharedLibrary` keeps, with the mutex live and every block below `brk`. -/
structure Registered (w : World) (libs : List String) : Prop where
  allocated : w.Allocated
  brk_pos : 0 < w.brk
  mutex : w.read w.mutex = .ok .mutex
  entries : Registry w.blocks libs w.libraries
  length_le : libs.length ≤ w.blocks.length

/-- A world with a live mutex and an empty list; `brk` is positive since the mutex lies
below it. -/
theorem Registered.empty {w : World} (hw : w.Allocated) (hl : w.libraries = 0)
    (hm : w.read w.mutex = .ok .mutex) : Registered w [] :=
  ⟨hw, Nat.zero_lt_of_lt (hw.lt (read_eq_ok.mp hm)), hm, hl ▸ .nil, Nat.zero_le _⟩

theorem Registered.alloc {w : World} {libs : List String} (h : Registered w libs) (d : CData)
    (size : Nat) : Registered (w.alloc d size).1 libs where
  allocated := h.allocated.alloc d size
  brk_pos := by simp only [alloc_brk]; omega
  mutex := by
    show (w.alloc d size).1.read w.mutex = _
    rw [read_alloc_of_ne d size (Nat.ne_of_lt (h.allocated.lt (read_eq_ok.mp h.mutex))), h.mutex]
  entries := h.entries.mono fun _ _ => lookup_alloc_of_allocated h.allocated d size
  length_le := by simp only [World.alloc, List.length_cons]; exact Nat.le_succ_of_le h.length_le

theorem Registered.opening {w : World} {libs : List String} (h : Registered w libs) (hs : List Nat) :
    Registered (w.opening hs) libs :=
  ⟨h.allocated, h.brk_pos, h.mutex, h.entries, h.length_le⟩

@[simp] theorem free_zero (w : World) : w.free 0 = .ok w := rfl

theorem lookup_append_of_ne {β : Type} {a : Nat} {v : β} :
    ∀ (pre bs : List (Nat × β)), (∀ x ∈ pre, x.1 ≠ a) → (pre ++ (a, v) :: bs).lookup a = some v
  | [], _, _ => by simp
  | (k, u) :: pre, bs, h => by
    rw [List.cons_append, lookup_cons_eq_ite, if_neg (Ne.symm (h _ (List.mem_cons_self _ _))),
      lookup_append_of_ne pre bs fun x hx => h x (List.mem_cons_of_mem _ hx)]

/-- Freeing a live block whose address no other block has marks it dead and changes
nothing else. -/
theorem free_of_blocks {w : World} {a : Nat} {d : CData} (pre bs : List (Nat × Block))
    (hb : w.blocks = pre ++ (a, ⟨d, true⟩) :: bs) (ha : a ≠ 0) (hpre : ∀ x ∈ pre, x.1 ≠ a)
    (hbs : ∀ x ∈ bs, x.1 ≠ a) :
    w.free a = .ok { w with blocks := pre ++ (a, ⟨d, false⟩) :: bs } := by
  have hkeep : ∀ l : List (Nat × Block), (∀ x ∈ l, x.1 ≠ a) →
      l.map (fun b => if b.1 = a then (a, { b.2 with live := false }) else b) = l :=
    fun l hl => (List.map_congr_left fun x hx => if_neg (hl x hx)).trans (List.map_id _)
  simp only [free, if_neg ha, block?, hb, lookup_append_of_ne pre _ hpre, release, List.map_append,
    List.map_cons, hkeep pre hpre, hkeep bs hbs, if_pos rfl, if_true]

end World

namespace ForeignFunctionInterface

open World

theorem performForeignLookup_eq (library : Option String) (symbol : String) (w : World) :
    performForeignLookup library symbol w =
      (w.opening (w.dlopen library).toList, w.resolves symbol library) := by
  unfold performForeignLookup resolves
  cases w.dlopen library with
  | none => rfl
  | some handle => by_cases hc : w.dlcloseFails handle <;> simp [hc, opening]

theorem addDefaultSharedLibrary_registered {w w' : World} {libs : List String} {l : String}
    (h : Registered w libs) (hadd : addDefaultSharedLibrary l w = .ok w') :
    Registered w' (l :: libs) := by
  simp only [addDefaultSharedLibrary, lock, h.mutex, bind, Except.bind, pure, Except.pure,
    Except.ok.injEq] at hadd
  subst hadd
  have h₂ := (h.alloc (.string l) (l.length + 1)).alloc (.libraryEntry w.brk w.libraries) 2
  have hlen := h.length_le
  refine ⟨h₂.allocated, h₂.brk_pos, h₂.mutex, ?_, by simp [World.alloc]; omega⟩
  have hframe' := @lookup_alloc_of_allocated _ (h.allocated.alloc (.string l) (l.length + 1))
    (.libraryEntry w.brk w.libraries) 2
  have hframe : ∀ a b, w.blocks.lookup a = some b →
      ((w.alloc (.string l) (l.length + 1)).1.alloc (.libraryEntry w.brk w.libraries) 2).1.blocks.lookup a = some b :=
    fun _ _ hb => hframe' (lookup_alloc_of_allocated h.allocated _ _ hb)
  exact .cons (by simp) (lookup_alloc_self _ (.libraryEntry w.brk w.libraries) 2)
    (hframe' (lookup_alloc_self w (.string l) (l.length + 1))) (h.entries.mono hframe)

/-- A sequence of `AddDefaultSharedLibrary` calls from `libs` on leaves the names it added in
front of `libs`, newest first. -/
theorem foldlM_addDefaultSharedLibrary_registered :
    ∀ (added : List String) {w₀ w : World} {libs : List String}, Registered w₀ libs →
      added.foldlM (fun w l => addDefaultSharedLibrary l w) w₀ = .ok w →
      Registered w (added.reverse ++ libs)
  | [], _, _, _, h, hadd => by cases hadd; exact h
  | l :: added, w₀, w, libs, h, hadd => by
    simp only [List.foldlM_cons, bind, Except.bind] at hadd
    split at hadd
    · cases hadd
    · simpa using foldlM_addDefaultSharedLibrary_registered added
        (addDefaultSharedLibrary_registered h ‹_›) hadd

/-- The loop of `LookupInDefaultLibraries` answers what the first library of the list
resolves, opening and closing each handle it gets once. -/
theorem lookupEntries_eq (symbol : String) :
    ∀ {libs : List String} {current fuel : Nat} {w : World}, Registry w.blocks libs current →
      libs.length < fuel → ∃ hs, lookupEntries symbol fuel current w =
        .ok (w.opening hs, (libs.map some).findSome? (w.resolves symbol))
  | [], current, fuel, w, hreg, hfuel => by
    cases hreg
    obtain ⟨fuel, rfl⟩ := Nat.exists_eq_add_of_lt hfuel
    exact ⟨[], by simp [lookupEntries]⟩
  | l :: libs, current, fuel, w, .cons hentry he hn rest, hfuel => by
    obtain ⟨fuel, rfl⟩ := Nat.exists_eq_add_of_lt hfuel
    simp only [lookupEntries, if_neg hentry, read_of_lookup he, read_of_lookup hn, bind,
      Except.bind, performForeignLookup_eq, List.map_cons, List.findSome?_cons]
    cases hr : w.resolves symbol (some l) with
    | some r => exact ⟨_, rfl⟩
    | none =>
      obtain ⟨hs, h⟩ := lookupEntries_eq symbol (w := w.opening (w.dlopen (some l)).toList) rest
        (show libs.length < (l :: libs).length + fuel by simp; omega)
      exact ⟨hs ++ (w.dlopen (some l)).toList, by simpa using h⟩

theorem lookupInDefaultLibraries_eq {w : World} {libs : List String} (h : Registered w libs)
    (symbol : String) : ∃ hs, lookupInDefaultLibraries symbol w =
      .ok (w.opening hs, (libs.map some).findSome? (w.resolves symbol)) := by
  simp only [lookupInDefaultLibraries, lock, h.mutex, bind, Except.bind, pure, Except.pure]
  exact lookupEntries_eq symbol h.entries (by have := h.length_le; omega)

end ForeignFunctionInterface

namespace Natives

open World ForeignFunctionInterface

@[simp] theorem except_ok_bind {ε α β : Type} (x : α) (f : α → Except ε β) :
    (Except.ok x : Except ε α) >>= f = f x := rfl

/-- The library `ForeignLookup` tries first: the one its `String` argument names, or the
main program (`none`) when the argument is not a `String`. -/
def namedLibrary (p : Process) (v : Value) : Option String :=
  match p.body? v with
  | some (.string s) => some s
  | _ => none

theorem asForeignString_eq {p : Process} {v : Value} {s : String} (h : p.body? v = some (.string s)) :
    asForeignString p v =
      .ok ({ p with world := (p.world.alloc (.string s) (s.length + 1)).1 }, p.world.brk) := by
  simp [asForeignString, h]

theorem cString_of_lookup {w : World} {a : Nat} {s : String}
    (h : w.blocks.lookup a = some ⟨.string s, true⟩) : cString w a = .ok s := by
  simp [cString, read_of_lookup h, pure, Except.pure]

/-- `ForeignLookup` in a world whose default libraries are `libs`, newest first: what
`foreignLookup_eq` says, with where the copied C strings were: at fresh addresses, from `brk` on. The
statics of `ForeignFunctionInterface` are kept. -/
theorem foreignLookup_frame {pl : Platform} {P : Program} {p : Process} {libs : List String}
    {nameV : Value} {symbol : String} (h : Registered p.world libs)
    (hname : p.body? nameV = some (.string symbol)) (libV : Value) (more : List Value)
    (a : Allocation) :
    ∃ w', foreignLookup pl P a (nameV :: libV :: more) p =
        .ok (match (namedLibrary p libV :: libs.map some).findSome? (p.world.resolves symbol) with
          | some r => { p with world := w' }.toInteger pl P a (Platform.int64Of (pl.signedWord r))
          | none => (.failure .indexOutOfBounds, { p with world := w' })) ∧
      (∃ hs, w'.opened = hs ++ p.world.opened ∧ w'.closed = hs ++ p.world.closed) ∧
      (∃ temps, w'.blocks = temps ++ p.world.blocks ∧
        temps.map Prod.snd = (symbol :: (namedLibrary p libV).toList).map (fun s => ⟨.string s, false⟩) ∧
        ∀ x ∈ temps, p.world.brk ≤ x.1 ∧ x.1 < w'.brk) ∧
      w'.libraries = p.world.libraries ∧ w'.mutex = p.world.mutex ∧ p.world.brk ≤ w'.brk := by
  have hfresh : ∀ x ∈ p.world.blocks, x.1 ≠ p.world.brk := fun x hx => Nat.ne_of_lt (h.allocated x hx)
  simp only [foreignLookup, argument, List.getElem?_cons_zero, List.getElem?_cons_succ, except_ok_bind]
  split
  · -- a named library: its name is copied first, at `brk`, and the symbol after it
    rename_i l hlib
    have hname' : ({ p with world := (p.world.alloc (.string l) (l.length + 1)).1 } : Process).body? nameV =
      some (.string symbol) := hname
    have hB := (h.alloc (.string l) (l.length + 1)).alloc (.string symbol) (symbol.length + 1)
    have hfresh' : ∀ x ∈ (p.world.brk, ⟨.string l, false⟩) :: p.world.blocks,
        x.1 ≠ (p.world.alloc (.string l) (l.length + 1)).1.brk := by
      intro x hx
      rcases List.mem_cons.mp hx with rfl | hx
      · simp
      · have := h.allocated x hx
        simp only [alloc_brk]
        omega
    simp only [asForeignString_eq hlib, except_ok_bind, asForeignString_eq hname',
      if_neg (Nat.ne_of_gt h.brk_pos), cString_of_lookup (lookup_alloc_self _ _ _), Except.map_ok,
      cString_of_lookup (lookup_alloc_of_allocated (h.allocated.alloc (.string l) (l.length + 1))
        (.string symbol) (symbol.length + 1) (lookup_alloc_self p.world (.string l) (l.length + 1))),
      performForeignLookup_eq, resolves_alloc, namedLibrary, hlib, List.findSome?_cons]
    cases hr : p.world.resolves symbol (some l) with
    | some r =>
      simp only [pure, Except.pure, except_ok_bind, reduceCtorEq, ↓reduceIte]
      rw [free_of_blocks [_] p.world.blocks rfl (Nat.ne_of_gt h.brk_pos) (by simp) hfresh,
        except_ok_bind, free_of_blocks [] _ rfl (by simp) (by simp) hfresh']
      exact ⟨_, rfl, ⟨_, rfl, rfl⟩, ⟨[(_, _), (_, _)], rfl, rfl, by simp; omega⟩, rfl, rfl, by simp; omega⟩
    | none =>
      obtain ⟨hs, hL⟩ := lookupInDefaultLibraries_eq (hB.opening
        (((p.world.alloc (.string l) (l.length + 1)).1.alloc (.string symbol)
          (symbol.length + 1)).1.dlopen (some l)).toList) symbol
      simp only [hL, except_ok_bind, resolves_opening, resolves_alloc]
      cases (libs.map some).findSome? (p.world.resolves symbol) <;>
      · simp only [pure, Except.pure, except_ok_bind, reduceCtorEq, ↓reduceIte]
        rw [free_of_blocks [_] p.world.blocks rfl (Nat.ne_of_gt h.brk_pos) (by simp) hfresh,
          except_ok_bind, free_of_blocks [] _ rfl (by simp) (by simp) hfresh']
        exact ⟨_, rfl, ⟨_, (List.append_assoc _ _ _).symm, (List.append_assoc _ _ _).symm⟩,
          ⟨[(_, _), (_, _)], rfl, rfl, by simp; omega⟩, rfl, rfl, by simp; omega⟩
  · -- the main program: only the symbol is copied, at `brk`
    rename_i hlib
    have hnone : namedLibrary p libV = none := by
      unfold namedLibrary
      split
      · exact absurd ‹_› (hlib _)
      · rfl
    have hB := h.alloc (.string symbol) (symbol.length + 1)
    simp only [pure, Except.pure, except_ok_bind, asForeignString_eq hname, if_pos rfl,
      cString_of_lookup (lookup_alloc_self _ _ _), performForeignLookup_eq, resolves_alloc, hnone,
      List.findSome?_cons, free_zero]
    cases hr : p.world.resolves symbol none with
    | some r =>
      simp only [except_ok_bind, reduceCtorEq, ↓reduceIte, free_zero]
      rw [free_of_blocks [] _ rfl (Nat.ne_of_gt h.brk_pos) (by simp) hfresh]
      exact ⟨_, rfl, ⟨_, rfl, rfl⟩, ⟨[(_, _)], rfl, rfl, by simp⟩, rfl, rfl, by simp⟩
    | none =>
      obtain ⟨hs, hL⟩ := lookupInDefaultLibraries_eq (hB.opening
        ((p.world.alloc (.string symbol) (symbol.length + 1)).1.dlopen none).toList) symbol
      simp only [hL, except_ok_bind, resolves_opening, resolves_alloc]
      cases (libs.map some).findSome? (p.world.resolves symbol) <;>
      · simp only [except_ok_bind, reduceCtorEq, ↓reduceIte, free_zero]
        rw [free_of_blocks [] _ rfl (Nat.ne_of_gt h.brk_pos) (by simp) hfresh]
        exact ⟨_, rfl, ⟨_, (List.append_assoc _ _ _).symm, (List.append_assoc _ _ _).symm⟩,
          ⟨[(_, _)], rfl, rfl, by simp⟩, rfl, rfl, by simp⟩

/-- `ForeignLookup` in a world whose default libraries are `libs`, newest first: it answers
the address that the first library of `namedLibrary :: libs` resolves, boxed, or
`index_out_of_bounds` when none does; it closes every handle it opens once, and it leaves the
two C strings it copied (one when there is no named library) freed and the rest of the C heap
as it was. -/
theorem foreignLookup_eq {pl : Platform} {P : Program} {p : Process} {libs : List String}
    {nameV : Value} {symbol : String} (h : Registered p.world libs)
    (hname : p.body? nameV = some (.string symbol)) (libV : Value) (more : List Value)
    (a : Allocation) :
    ∃ w', foreignLookup pl P a (nameV :: libV :: more) p =
        .ok (match (namedLibrary p libV :: libs.map some).findSome? (p.world.resolves symbol) with
          | some r => { p with world := w' }.toInteger pl P a (Platform.int64Of (pl.signedWord r))
          | none => (.failure .indexOutOfBounds, { p with world := w' })) ∧
      (∃ hs, w'.opened = hs ++ p.world.opened ∧ w'.closed = hs ++ p.world.closed) ∧
      ∃ temps, w'.blocks = temps ++ p.world.blocks ∧
        temps.map Prod.snd = (symbol :: (namedLibrary p libV).toList).map fun s => ⟨.string s, false⟩ :=
  let ⟨w', hl, ho, ⟨temps, hb, ht, _⟩, _⟩ :=
    @foreignLookup_frame pl P p libs nameV symbol h hname libV more a
  ⟨w', hl, ho, temps, hb, ht⟩

/-- After `AddDefaultSharedLibrary` of `L_1, ..., L_m` from an empty registry, `ForeignLookup`
tries the named library (the main program when the argument is not a `String`), then `L_m`
down to `L_1`: it answers the address the first of them resolves, and `index_out_of_bounds`
exactly when none does (`NULL` is `none`). Every handle `dlopen` returns is closed once, and the
C strings it copied are freed, with the rest of the C heap kept. -/
theorem foreignLookup_tries_named_then_newest_first (pl : Platform) (P : Program) {w₀ : World}
    {added : List String} (hw₀ : w₀.Allocated) (hl : w₀.libraries = 0)
    (hm : w₀.read w₀.mutex = .ok .mutex) {p : Process}
    (hadd : added.foldlM (fun w l => addDefaultSharedLibrary l w) w₀ = .ok p.world)
    {nameV : Value} {symbol : String} (hname : p.body? nameV = some (.string symbol))
    (libV : Value) (more : List Value) (a : Allocation) :
    ∃ w', foreignLookup pl P a (nameV :: libV :: more) p =
        .ok (match (namedLibrary p libV :: added.reverse.map some).findSome?
            (p.world.resolves symbol) with
          | some r => { p with world := w' }.toInteger pl P a (Platform.int64Of (pl.signedWord r))
          | none => (.failure .indexOutOfBounds, { p with world := w' })) ∧
      (∃ hs, w'.opened = hs ++ p.world.opened ∧ w'.closed = hs ++ p.world.closed) ∧
      ∃ temps, w'.blocks = temps ++ p.world.blocks ∧
        temps.map Prod.snd = (symbol :: (namedLibrary p libV).toList).map fun s => ⟨.string s, false⟩ := by
  have h := foldlM_addDefaultSharedLibrary_registered added (Registered.empty hw₀ hl hm) hadd
  rw [List.append_nil] at h
  exact foreignLookup_eq h hname libV more a

/-- A C heap holding only the mutex of `Setup`, where the main program, `libc` and `libm`
open as handles `1`, `2` and `3`, and only `libm` has `sin`, at `300`. -/
def mathWorld : World where
  blocks := [(1, ⟨.mutex, true⟩)]
  brk := 2
  heapEnd := 2 ^ 16
  memory := fun _ => 0
  increments := []
  calls := []
  foreign := fun _ _ => 0
  errno := 0
  errors := []
  dlopen := fun l => if l = none then some 1 else if l = some "libc" then some 2 else
    if l = some "libm" then some 3 else none
  dlsym := fun h s => if h = 3 ∧ s = "sin" then some 300 else none
  dlopen_ne_zero l := by dsimp only; split_ifs <;> simp
  dlsym_ne_zero h s := by dsimp only; split_ifs <;> simp
  dlcloseFails := fun _ => false
  opened := []
  closed := []
  libraries := 0
  mutex := 1

/-- `mathWorld` after `AddDefaultSharedLibrary("libc")` and `AddDefaultSharedLibrary("libm")`:
`libc`'s name at `2` and entry at `7`, `libm`'s name at `9` and entry at `14`. -/
def mathLibrariesWorld : World :=
  { mathWorld with
    blocks := [(14, ⟨.libraryEntry 9 7, true⟩), (9, ⟨.string "libm", true⟩),
      (7, ⟨.libraryEntry 2 0, true⟩), (2, ⟨.string "libc", true⟩), (1, ⟨.mutex, true⟩)]
    brk := 16
    libraries := 14 }

/-- A process holding the `String` `"sin"` at `4`, over `mathLibrariesWorld`. -/
def sinLookupProcess : Process :=
  { highHeapProcess with
    heap := highHeapProcess.heap ++ [⟨8, .string "sin"⟩]
    world := mathLibrariesWorld }

/-- Looking `sin` up with no named library tries the main program, then `libm`, which has
it. -/
theorem sin_found_in_libm : ∃ w',
    foreignLookup foreignAllocateRuntime.platform nativeCallProgram .succeeds [.heap 4, .smi 0]
      sinLookupProcess = .ok (.value (.smi 300), { sinLookupProcess with world := w' }) := by
  have hm : mathWorld.read mathWorld.mutex = .ok .mutex := rfl
  have hadd : ["libc", "libm"].foldlM (fun w l => addDefaultSharedLibrary l w) mathWorld =
      .ok sinLookupProcess.world := rfl
  have hname : sinLookupProcess.body? (.heap 4) = some (.string "sin") := rfl
  obtain ⟨w', h, -⟩ := foreignLookup_tries_named_then_newest_first foreignAllocateRuntime.platform
    nativeCallProgram (by decide) rfl hm hadd hname (.smi 0) [] .succeeds
  exact ⟨w', h.trans rfl⟩

end Natives

end Fletch
