import Fletch.Proofs.Calls

/-!
# Three ways to find a method

A call site of a selector is compiled to one of three invokes, each with its own structure
for finding the receiver's method: `InvokeMethod` asks the lookup cache (`LookupEntry`),
`InvokeMethodFast` scans the rows of a dispatch-table segment for the first range that holds
the receiver's class id, and `InvokeMethodVtable` reads the vtable entry at the class id
plus the selector's offset, falling back to the entry at `0` when that entry is another
selector's.

What the three are for is one map: the method each class has for the selector, or none,
in which case the call goes to the no-such-method stub. `CacheEncodes`, `TableEncodes` and
`VtableEncodes` say that each structure encodes that map at a class id. The scan stops at
the first row that holds the class id (`scanRows_first`), and reads no row after it
(`scanSegment_first`), so an encoded segment answers the class's method, or its catch-all
row with the stub (`scanSegment_encoded`). Over any rows that end with the catch-all row,
the scans of `InvokeMethodFast` and `InvokeTestFast` stop at the first row that holds a
class id below `kMaxSmi` (`fast_scans_stop_at_first_row`). Each invoke then
calls `(method classId).getD nsm` (`invokeMethod_encoded`, `invokeMethodFast_encoded`,
`invokeMethodVtable_encoded`), so the three agree for every receiver and stack
(`invokes_agree`). The three test opcodes answer whether the class has a method, again
alike (`tests_agree`).
-/

namespace Fletch

open Exec Engine Interpret

/-! ## Dispatch-table rows -/

/-- A row `[lower, upper, _, function]` of a dispatch-table segment. -/
structure Row where
  lower : Int
  upper : Int
  target : Value
  deriving DecidableEq, Repr

/-- The row's range `[lower, upper)` holds the class id. -/
def Row.holds (r : Row) (classId : Int) : Bool := decide (r.lower ≤ classId ∧ classId < r.upper)

/-- The rows lie four words apart in the table, the first at `index + offset`. -/
def RowsAt (table : List Value) (index : Int) : Nat → List Row → Prop
  | _, [] => True
  | offset, r :: rows =>
      smiAt table (index + offset) = some r.lower ∧ smiAt table (index + offset + 1) = some r.upper ∧
        valueAt table (index + offset + 3) = some r.target ∧ RowsAt table index (offset + 4) rows

namespace Engine

variable {table : List Value} {index : Int}

theorem valueAt_bounds {i : Int} {v : Value} (h : valueAt table i = some v) :
    0 ≤ i ∧ i < table.length := by
  unfold valueAt at h
  split at h
  · exact ⟨‹_›, by have := (List.getElem?_eq_some_iff.mp h).1; omega⟩
  · cases h

theorem smiAt_bounds {i n : Int} (h : smiAt table i = some n) : 0 ≤ i ∧ i < table.length := by
  unfold smiAt at h
  split at h
  · exact valueAt_bounds ‹_›
  · cases h

theorem RowsAt.drop : ∀ {skipped rows : List Row} {offset : Nat},
    RowsAt table index offset (skipped ++ rows) → RowsAt table index (offset + 4 * skipped.length) rows
  | [], _, _, h => h
  | _ :: skipped, _, offset, ⟨_, _, _, h⟩ => by
    rw [List.length_cons, show offset + 4 * (skipped.length + 1) = offset + 4 + 4 * skipped.length by omega]
    exact RowsAt.drop h

/-- The scan skips every row whose range does not hold the class id and stops at the first
one that does, answering its offset and upper bound. -/
theorem scanRows_first {classId : Int} {r : Row} {more : List Row} (hr : r.holds classId = true) :
    ∀ {skipped : List Row} {rows offset : Nat}, RowsAt table index offset (skipped ++ r :: more) →
      (∀ x ∈ skipped, x.holds classId = false) → skipped.length < rows →
      scanRows table index classId rows offset = some (offset + 4 * skipped.length, r.upper)
  | [], _ + 1, _, ⟨hl, hu, _⟩, _, _ => by
    simp only [Row.holds, decide_eq_true_eq] at hr
    simp [scanRows, hl, hu, not_lt.mpr hr.1, not_le.mpr hr.2]
  | x :: skipped, rows + 1, offset, ⟨hl, hu, _, hrest⟩, hskip, hlen => by
    have ih := scanRows_first hr hrest (fun y hy => hskip y (List.mem_cons_of_mem _ hy))
      (show skipped.length < rows by simp at hlen; omega)
    have hx := hskip x (List.mem_cons_self _ _)
    rw [List.length_cons, show offset + 4 * (skipped.length + 1) = offset + 4 + 4 * skipped.length by omega]
    simp only [Row.holds, decide_eq_false_iff_not, not_and_or, not_le, not_lt] at hx
    rcases hx with hlt | hge
    · simp [scanRows, hl, hlt, ih]
    · by_cases hlt : classId < x.lower
      · simp [scanRows, hl, hlt, ih]
      · simp [scanRows, hl, hlt, hu, hge, ih]

theorem RowsAt.append_left : ∀ {rows more : List Row} {offset : Nat},
    RowsAt table index offset (rows ++ more) → RowsAt table index offset rows
  | [], _, _, _ => trivial
  | _ :: _, _, _, ⟨hl, hu, ht, h⟩ => ⟨hl, hu, ht, RowsAt.append_left h⟩

/-- The scan from offset `4` reads the rows before the first one that holds the class id,
and that row, and nothing after it: whatever the table holds further on, it answers that
row. -/
theorem scanSegment_first {classId : Int} {skipped : List Row} {r : Row}
    (hrows : RowsAt table index 4 (skipped ++ [r])) (hr : r.holds classId = true)
    (hskip : ∀ x ∈ skipped, x.holds classId = false) :
    scanSegment table index classId = some (4 + 4 * skipped.length, r.upper) := by
  have hfirst : 0 ≤ index + (4 : Nat) := by
    cases skipped with
    | nil => exact (smiAt_bounds hrows.1).1
    | cons y ys => exact (smiAt_bounds hrows.1).1
  have hlast := smiAt_bounds (RowsAt.drop hrows).1
  exact scanRows_first hr hrows hskip (by push_cast at hfirst hlast; omega)

/-- A class id below `kMaxSmi` is held by some row of rows that end with the catch-all
row: the first such row, with the rows before it. -/
theorem exists_first_row {classId : Nat} {upper : Int} (nsm : Value) (body : List Row)
    (hc : (classId : Int) < upper) :
    ∃ skipped r more, body ++ [⟨0, upper, nsm⟩] = skipped ++ r :: more ∧
      r.holds classId = true ∧ ∀ x ∈ skipped, x.holds classId = false := by
  have hcatch : (⟨0, upper, nsm⟩ : Row).holds classId = true := by simpa [Row.holds] using hc
  obtain ⟨r, hf⟩ : ∃ r, (body ++ [(⟨0, upper, nsm⟩ : Row)]).find? (·.holds classId) = some r := by
    rw [← Option.isSome_iff_exists, List.find?_isSome]
    exact ⟨_, List.mem_append_right _ (List.mem_singleton_self _), hcatch⟩
  obtain ⟨hr, skipped, more, hsplit, hskip⟩ := List.find?_eq_some.mp hf
  exact ⟨skipped, r, more, hsplit, hr, fun x hx => by simpa using hskip x hx⟩

end Engine

/-! ## What each structure encodes -/

section Encodings

variable (P : Program) (R : Runtime) (p : Process) (method : Nat → Option Value) (nsm : Value)

/-- `LookupEntry` answers the class's method with a nonzero tag, or the stub with tag `0`. -/
structure CacheEncodes (selector : Int) (classId : Nat) : Prop where
  target : (R.lookupEntry classId selector).target = (method classId).getD nsm
  tag : (R.lookupEntry classId selector).tag ≠ 0 ↔ (method classId).isSome

/-- The segment at `index` names the selector and holds, from offset `4` on, the rows `body`
and then the catch-all row `[0, kMaxSmi, _, nsm]`. No row of `body` reaches `kMaxSmi`, and
the first one that holds the class id carries its method; none does when it has none. Class
ids are small integers. -/
structure TableEncodes (index selector : Int) (body : List Row) (classId : Nat) : Prop where
  selector : valueAt P.dispatchTable (index + 1) = some (.smi selector)
  rows : RowsAt P.dispatchTable index 4 (body ++ [⟨0, R.platform.smiMax, nsm⟩])
  upper : ∀ r ∈ body, r.upper ≠ R.platform.smiMax
  first : (body.find? (·.holds classId)).map Row.target = method classId
  classId_lt : (classId : Int) < R.platform.smiMax

/-- The vtable entry at the class id plus the selector's offset is an array whose first
element is that offset exactly when the class has a method, and whose third element is then
the method; the entry at `0` holds the stub third. -/
structure VtableEncodes (selector : Int) (classId : Nat) : Prop where
  entry : ∃ row elements stored, valueAt P.vtable (classId + R.selector.id selector) = some row ∧
    p.body? row = some (.array elements) ∧ valueAt elements 0 = some (.smi stored) ∧
    (stored = R.selector.id selector ↔ (method classId).isSome) ∧
    ∀ f, method classId = some f → valueAt elements 2 = some f
  stub : ∃ row elements, valueAt P.vtable 0 = some row ∧ p.body? row = some (.array elements) ∧
    valueAt elements 2 = some nsm

end Encodings

namespace Engine

variable {P : Program} {R : Runtime} {method : Nat → Option Value} {nsm : Value}

/-- An encoded segment answers the row of the class's method, or the catch-all row with the
stub; the row reaches `kMaxSmi` exactly when the class has no method. -/
theorem scanSegment_encoded {index selector : Int} {body : List Row} {classId : Nat}
    (h : TableEncodes P R method nsm index selector body classId) :
    ∃ offset upper, scanSegment P.dispatchTable index classId = some (offset, upper) ∧
      valueAt P.dispatchTable (index + offset + 3) = some ((method classId).getD nsm) ∧
      (upper ≠ R.platform.smiMax ↔ (method classId).isSome) := by
  -- the first row that holds the class id, the rows before it and after it
  obtain ⟨skipped, r, more, hsplit, hr, hskip, htarget, hupper⟩ :
      ∃ skipped r more, body ++ [⟨0, R.platform.smiMax, nsm⟩] = skipped ++ r :: more ∧
        r.holds classId = true ∧ (∀ x ∈ skipped, x.holds classId = false) ∧
        r.target = (method classId).getD nsm ∧ (r.upper ≠ R.platform.smiMax ↔ (method classId).isSome) := by
    have hfirst := h.first
    cases hf : body.find? (·.holds classId) with
    | none =>
      rw [hf] at hfirst
      refine ⟨body, _, [], rfl, ?_, fun x hx => by simpa using List.find?_eq_none.mp hf x hx, ?_⟩
      · simpa [Row.holds] using h.classId_lt
      · simp [← hfirst]
    | some r =>
      rw [hf] at hfirst
      obtain ⟨hr, skipped, more, rfl, hskip⟩ := List.find?_eq_some.mp hf
      refine ⟨skipped, r, more ++ [⟨0, R.platform.smiMax, nsm⟩], by simp, hr, fun x hx => by simpa using hskip x hx, ?_⟩
      simp only [← hfirst, Option.map_some', Option.getD_some, Option.isSome_some, iff_true, true_and]
      exact h.upper r (by simp)
  have hrows := h.rows
  rw [hsplit, ← List.singleton_append, ← List.append_assoc] at hrows
  have hprefix := RowsAt.append_left hrows
  exact ⟨_, _, scanSegment_first hprefix hr hskip, htarget ▸ (RowsAt.drop hprefix).2.2.1, hupper⟩

end Engine

/-! ## The three invokes -/

namespace Interpret

variable {P : Program} {R : Runtime} {e : Engine} {method : Nat → Option Value} {nsm : Value}
  {selector : Int} {receiver : Value} {classId entry : Nat}

/-- `InvokeMethod` calls what the cache answers. -/
theorem invokeMethod_encoded (hcache : CacheEncodes R method nsm selector classId)
    (hsel : Utils.readInt32 P.code (e.bcp + 1) = selector)
    (hr : e.sp[R.selector.arity selector]? = some receiver)
    (hc : e.process.classIdOf P receiver = some classId)
    (hf : e.process.body? ((method classId).getD nsm) = some (.function entry)) :
    invokeMethod P R e =
      pollStack R 0 { e with sp := .bytecode (e.bcp + Opcode.invokeMethod.length) :: e.sp, bcp := entry } :=
  invokeMethod_eq hsel hr hc (hcache.target ▸ hf)

/-- `InvokeMethodFast` calls what the segment's first matching row carries. -/
theorem invokeMethodFast_encoded {index : Int} {body : List Row}
    (htable : TableEncodes P R method nsm index selector body classId)
    (hi : Utils.readInt32 P.code (e.bcp + 1) = index)
    (hr : e.sp[R.selector.arity selector]? = some receiver)
    (hc : e.process.classIdOf P receiver = some classId)
    (hf : e.process.body? ((method classId).getD nsm) = some (.function entry)) :
    invokeMethodFast P R e =
      pollStack R 0 { e with sp := .bytecode (e.bcp + Opcode.invokeMethod.length) :: e.sp, bcp := entry } := by
  obtain ⟨offset, upper, hscan, ht, -⟩ := scanSegment_encoded htable
  exact invokeMethodFast_eq hi htable.selector hr hc hscan ht hf

/-- `InvokeMethodVtable` calls the method its entry carries, or the stub at `0` when the
entry is another selector's. -/
theorem invokeMethodVtable_encoded (hvtable : VtableEncodes P R e.process method nsm selector classId)
    (hsel : Utils.readInt32 P.code (e.bcp + 1) = selector)
    (hr : e.sp[R.selector.arity selector]? = some receiver)
    (hc : e.process.classIdOf P receiver = some classId)
    (hf : e.process.body? ((method classId).getD nsm) = some (.function entry)) :
    invokeMethodVtable P R e =
      pollStack R 0 { e with sp := .bytecode (e.bcp + Opcode.invokeMethod.length) :: e.sp, bcp := entry } := by
  obtain ⟨row, elements, stored, hv, ha, h0, hstored, htarget⟩ := hvtable.entry
  cases hm : method classId with
  | some f =>
    rw [hm] at hstored hf
    rw [hstored.mpr rfl] at h0
    exact invokeMethodVtable_hit hsel hr hc hv ha h0 (htarget f hm) hf
  | none =>
    rw [hm] at hstored hf
    obtain ⟨row₀, elements₀, hv₀, ha₀, ht₀⟩ := hvtable.stub
    exact invokeMethodVtable_miss hsel hr hc hv ha h0 (by simpa using hstored) hv₀ ha₀ ht₀ hf

/-- Where the cache, the dispatch-table segment at `index` and the vtable encode one map from
class ids to methods, `InvokeMethod`, `InvokeMethodFast` and `InvokeMethodVtable` compiled at
one call site select the same receiver, push the same return address and jump to the entry
of the same function: the receiver class's method, or the stub. -/
theorem invokes_agree {index : Int} {body : List Row} {args below : List Value}
    (hcache : CacheEncodes R method nsm selector classId)
    (htable : TableEncodes P R method nsm index selector body classId)
    (hvtable : VtableEncodes P R e.process method nsm selector classId)
    (hsp : e.sp = args ++ receiver :: below) (hargs : args.length = R.selector.arity selector)
    (hc : e.process.classIdOf P receiver = some classId)
    (hf : e.process.body? ((method classId).getD nsm) = some (.function entry)) :
    (∀ code, Utils.readInt32 code (e.bcp + 1) = selector →
      invokeMethod { P with code } R e =
        pollStack R 0 { e with sp := .bytecode (e.bcp + Opcode.invokeMethod.length) :: e.sp, bcp := entry }) ∧
    (∀ code, Utils.readInt32 code (e.bcp + 1) = index →
      invokeMethodFast { P with code } R e =
        pollStack R 0 { e with sp := .bytecode (e.bcp + Opcode.invokeMethod.length) :: e.sp, bcp := entry }) ∧
    (∀ code, Utils.readInt32 code (e.bcp + 1) = selector →
      invokeMethodVtable { P with code } R e =
        pollStack R 0 { e with sp := .bytecode (e.bcp + Opcode.invokeMethod.length) :: e.sp, bcp := entry }) := by
  have hr : e.sp[R.selector.arity selector]? = some receiver := by
    rw [hsp, ← hargs, List.getElem?_append_right (le_refl _), Nat.sub_self, List.getElem?_cons_zero]
  exact ⟨fun _ hsel => invokeMethod_encoded hcache hsel hr hc hf,
    fun _ hi => invokeMethodFast_encoded ⟨htable.1, htable.2, htable.3, htable.4, htable.5⟩ hi hr hc hf,
    fun _ hsel => invokeMethodVtable_encoded ⟨hvtable.1, hvtable.2⟩ hsel hr hc hf⟩

/-! ## The three tests -/

/-- `InvokeTest` answers the cache's tag. -/
theorem invokeTest_encoded {below : List Value} (hcache : CacheEncodes R method nsm selector classId)
    (hsel : Utils.readInt32 P.code (e.bcp + 1) = selector) (hsp : e.sp = receiver :: below)
    (hc : e.process.classIdOf P receiver = some classId) :
    invokeTest P R e =
      .ok () { e with sp := toBool P (method classId).isSome :: below, bcp := e.bcp + Opcode.invokeTest.length } := by
  have htag : (!decide ((R.lookupEntry classId selector).tag = 0)) = (method classId).isSome :=
    Bool.eq_iff_iff.mpr (by simpa using hcache.tag)
  simp [invokeTest, hsel, local_cons_zero _ _ e hsp, lookupEntry, classIdOf_of hc, htag,
    setTop_cons hsp, advance_natCast]

/-- `InvokeTestFast` answers whether the matching row stops short of `kMaxSmi`. -/
theorem invokeTestFast_encoded {index : Int} {body : List Row} {below : List Value}
    (htable : TableEncodes P R method nsm index selector body classId)
    (hi : Utils.readInt32 P.code (e.bcp + 1) = index) (hsp : e.sp = receiver :: below)
    (hc : e.process.classIdOf P receiver = some classId) :
    invokeTestFast P R e =
      .ok () { e with sp := toBool P (method classId).isSome :: below, bcp := e.bcp + Opcode.invokeTestFast.length } := by
  obtain ⟨offset, upper, hscan, -, hupper⟩ := scanSegment_encoded htable
  have htest : (!decide (upper = R.platform.smiMax)) = (method classId).isSome :=
    Bool.eq_iff_iff.mpr (by simpa using hupper)
  simp [invokeTestFast, hi, local_cons_zero _ _ e hsp, classIdOf_of hc, hscan, htest,
    setTop_cons hsp, advance_natCast]

/-- `InvokeTestVtable` answers whether the entry carries the selector's offset. -/
theorem invokeTestVtable_encoded {below : List Value}
    (hvtable : VtableEncodes P R e.process method nsm selector classId)
    (hsel : Utils.readInt32 P.code (e.bcp + 1) = selector) (hsp : e.sp = receiver :: below)
    (hc : e.process.classIdOf P receiver = some classId) :
    invokeTestVtable P R e =
      .ok () { e with sp := toBool P (method classId).isSome :: below, bcp := e.bcp + Opcode.invokeTestVtable.length } := by
  obtain ⟨row, elements, stored, hv, ha, h0, hstored, -⟩ := hvtable.entry
  have htest : decide (stored = R.selector.id selector) = (method classId).isSome :=
    Bool.eq_iff_iff.mpr (by simpa using hstored)
  simp [invokeTestVtable, hsel, local_cons_zero _ _ e hsp, classIdOf_of hc, element_of_valueAt hv,
    arrayElements_of_body ha, element_of_valueAt h0, smiValue, htest, setTop_cons hsp, advance_natCast]

/-- Where the three structures encode one map, `InvokeTest`, `InvokeTestFast` and
`InvokeTestVtable` compiled at one call site replace the receiver by the same answer:
whether its class has a method. -/
theorem tests_agree {index : Int} {body : List Row} {below : List Value}
    (hcache : CacheEncodes R method nsm selector classId)
    (htable : TableEncodes P R method nsm index selector body classId)
    (hvtable : VtableEncodes P R e.process method nsm selector classId)
    (hsp : e.sp = receiver :: below) (hc : e.process.classIdOf P receiver = some classId) :
    (∀ code, Utils.readInt32 code (e.bcp + 1) = selector →
      invokeTest { P with code } R e =
        .ok () { e with sp := toBool P (method classId).isSome :: below, bcp := e.bcp + Opcode.invokeTest.length }) ∧
    (∀ code, Utils.readInt32 code (e.bcp + 1) = index →
      invokeTestFast { P with code } R e =
        .ok () { e with sp := toBool P (method classId).isSome :: below, bcp := e.bcp + Opcode.invokeTest.length }) ∧
    (∀ code, Utils.readInt32 code (e.bcp + 1) = selector →
      invokeTestVtable { P with code } R e =
        .ok () { e with sp := toBool P (method classId).isSome :: below, bcp := e.bcp + Opcode.invokeTest.length }) :=
  ⟨fun _ hsel => invokeTest_encoded hcache hsel hsp hc,
    fun _ hi => invokeTestFast_encoded ⟨htable.1, htable.2, htable.3, htable.4, htable.5⟩ hi hsp hc,
    fun _ hsel => invokeTestVtable_encoded ⟨hvtable.1, hvtable.2⟩ hsel hsp hc⟩

/-! ## The scan of a segment -/

/-- `InvokeTestFast` answers whether the row the scan stops at ends short of `kMaxSmi`. -/
theorem invokeTestFast_eq {index : Int} {below : List Value} {offset : Nat} {upper : Int}
    (hi : Utils.readInt32 P.code (e.bcp + 1) = index) (hsp : e.sp = receiver :: below)
    (hc : e.process.classIdOf P receiver = some classId)
    (hscan : scanSegment P.dispatchTable index classId = some (offset, upper)) :
    invokeTestFast P R e = .ok ()
      { e with
        sp := toBool P (decide (upper ≠ R.platform.smiMax)) :: below
        bcp := e.bcp + Opcode.invokeTestFast.length } := by
  simp [invokeTestFast, hi, local_cons_zero _ _ e hsp, classIdOf_of hc, hscan, setTop_cons hsp,
    advance_natCast]

/-- For rows that end with the catch-all row `[0, kMaxSmi, _, nsm]` and a class id below
`kMaxSmi`, the scans of `InvokeMethodFast` and `InvokeTestFast` stop at the first row `r` that
holds the class id, having read only the rows up to it: in every program whose segment at
`index` starts with those rows, whatever follows them. `InvokeMethodFast` then calls the
function of `r`, and `InvokeTestFast` answers whether `r` ends short of `kMaxSmi`. -/
theorem fast_scans_stop_at_first_row (nsm : Value) (index : Int) (body : List Row)
    (hc : (classId : Int) < R.platform.smiMax) :
    ∃ skipped r more, body ++ [⟨0, R.platform.smiMax, nsm⟩] = skipped ++ r :: more ∧
      r.holds classId = true ∧ (∀ x ∈ skipped, x.holds classId = false) ∧
      ∀ P : Program, RowsAt P.dispatchTable index 4 (skipped ++ [r]) →
        scanSegment P.dispatchTable index classId = some (4 + 4 * skipped.length, r.upper) ∧
        ∀ (e : Engine) (receiver : Value), Utils.readInt32 P.code (e.bcp + 1) = index →
          e.process.classIdOf P receiver = some classId →
          (∀ selector entry, valueAt P.dispatchTable (index + 1) = some (.smi selector) →
            e.sp[R.selector.arity selector]? = some receiver →
            e.process.body? r.target = some (.function entry) →
            invokeMethodFast P R e =
              pollStack R 0 { e with sp := .bytecode (e.bcp + Opcode.invokeMethodFast.length) :: e.sp, bcp := entry }) ∧
          ∀ below, e.sp = receiver :: below →
            invokeTestFast P R e = .ok ()
              { e with
                sp := toBool P (decide (r.upper ≠ R.platform.smiMax)) :: below
                bcp := e.bcp + Opcode.invokeTestFast.length } := by
  obtain ⟨skipped, r, more, hsplit, hr, hskip⟩ := exists_first_row nsm body hc
  refine ⟨skipped, r, more, hsplit, hr, hskip, fun P hrows => ?_⟩
  have hscan := scanSegment_first hrows hr hskip
  refine ⟨hscan, fun e receiver hi hc' => ⟨fun selector entry hs hrecv hf => ?_, fun below hsp => ?_⟩⟩
  · exact invokeMethodFast_eq hi hs hrecv hc' hscan (RowsAt.drop hrows).2.2.1 hf
  · exact invokeTestFast_eq hi hsp hc' hscan

/-! ## One selector on class `7` -/

/-- Selector `0` takes no arguments and has vtable offset `1`; the cache answers the function
at `3` for class `7` and the stub at `4` for every other class. -/
def lookupRuntime : Runtime :=
  { plainRuntime with
    selector := { arity := fun _ => 0, id := fun _ => 1, isSetter := fun _ => false }
    lookupEntry := fun c _ => if c = 7 then { target := .heap 3, tag := 1 } else { target := .heap 4, tag := 0 } }

/-- Class `7` has the method at `3` for selector `0`; no other class has one. -/
def class7Method (c : Nat) : Option Value := if c = 7 then some (.heap 3) else none

/-- The segment at `0` names selector `0` and has the row `[7, 8, _, 3]` before the catch-all
row; the vtable entry at `7 + 1` is `[1, _, 3, _]` and the one at `0` holds the stub. -/
def lookupProgram : Program :=
  { calleeWritesCallerProgram with
    dispatchTable := [.smi 0, .smi 0, .smi 0, .smi 0, .smi 7, .smi 8, .smi 0, .heap 3,
      .smi 0, .smi (2 ^ 62 - 1), .smi 0, .heap 4]
    vtable := [.heap 2, .smi 0, .smi 0, .smi 0, .smi 0, .smi 0, .smi 0, .smi 0, .heap 1] }

/-- An instance of class `7` alone on the stack, with the two vtable entries and the two
functions in the heap. -/
def class7Receiver : Engine :=
  { callingWithSlot with
    process :=
      { callingWithSlot.process with
        heap := [⟨7, .instance [] false⟩, ⟨0, .array [.smi 1, .smi 0, .heap 3, .smi 0]⟩,
          ⟨0, .array [.smi 0, .smi 0, .heap 4, .smi 0]⟩, ⟨0, .function 40⟩, ⟨0, .function 60⟩] }
    sp := [.heap 0] }

theorem class7_encodings :
    CacheEncodes lookupRuntime class7Method (.heap 4) 0 7 ∧
      TableEncodes lookupProgram lookupRuntime class7Method (.heap 4) 0 0 [⟨7, 8, .heap 3⟩] 7 ∧
      VtableEncodes lookupProgram lookupRuntime class7Receiver.process class7Method (.heap 4) 0 7 :=
  ⟨⟨rfl, by decide⟩, ⟨rfl, ⟨rfl, rfl, rfl, rfl, rfl, rfl, trivial⟩, by decide, rfl, by decide⟩,
    ⟨⟨_, _, 1, rfl, rfl, rfl, by decide, fun f hf => by cases hf; rfl⟩, ⟨_, _, rfl, rfl, rfl⟩⟩⟩

theorem class7_invokes_agree :
    (∀ code, Utils.readInt32 code 1 = 0 →
      invokeMethod { lookupProgram with code } lookupRuntime class7Receiver =
        pollStack lookupRuntime 0 { class7Receiver with sp := [.bytecode 5, .heap 0], bcp := 40 }) ∧
    (∀ code, Utils.readInt32 code 1 = 0 →
      invokeMethodFast { lookupProgram with code } lookupRuntime class7Receiver =
        pollStack lookupRuntime 0 { class7Receiver with sp := [.bytecode 5, .heap 0], bcp := 40 }) ∧
    (∀ code, Utils.readInt32 code 1 = 0 →
      invokeMethodVtable { lookupProgram with code } lookupRuntime class7Receiver =
        pollStack lookupRuntime 0 { class7Receiver with sp := [.bytecode 5, .heap 0], bcp := 40 }) :=
  have hsp : class7Receiver.sp = [] ++ .heap 0 :: [] := rfl
  invokes_agree (e := class7Receiver) class7_encodings.1 class7_encodings.2.1 class7_encodings.2.2 hsp
    rfl rfl rfl

theorem class7_tests_agree :
    (∀ code, Utils.readInt32 code 1 = 0 →
      invokeTest { lookupProgram with code } lookupRuntime class7Receiver =
        .ok () { class7Receiver with sp := [lookupProgram.trueObject], bcp := 5 }) ∧
    (∀ code, Utils.readInt32 code 1 = 0 →
      invokeTestFast { lookupProgram with code } lookupRuntime class7Receiver =
        .ok () { class7Receiver with sp := [lookupProgram.trueObject], bcp := 5 }) ∧
    (∀ code, Utils.readInt32 code 1 = 0 →
      invokeTestVtable { lookupProgram with code } lookupRuntime class7Receiver =
        .ok () { class7Receiver with sp := [lookupProgram.trueObject], bcp := 5 }) :=
  have hsp : class7Receiver.sp = .heap 0 :: [] := rfl
  tests_agree (e := class7Receiver) class7_encodings.1 class7_encodings.2.1 class7_encodings.2.2 hsp rfl

/-- Class `7` is held by the first row of the segment at `0`, which the scan answers. -/
theorem class7_scan_stops :
    ((7 : Nat) : Int) < lookupRuntime.platform.smiMax ∧
      scanSegment lookupProgram.dispatchTable 0 7 = some (4, 8) := by
  have hc : ((7 : Nat) : Int) < lookupRuntime.platform.smiMax := by decide
  obtain ⟨skipped, r, more, hsplit, hr, hskip, h⟩ := fast_scans_stop_at_first_row (.heap 4) 0 [⟨7, 8, .heap 3⟩] hc
  refine ⟨hc, ?_⟩
  cases skipped with
  | nil =>
    obtain ⟨rfl, -⟩ := List.cons.inj hsplit
    exact (h lookupProgram ⟨rfl, rfl, rfl, trivial⟩).1
  | cons x xs =>
    obtain ⟨rfl, -⟩ := List.cons.inj hsplit
    exact absurd (hskip _ (List.mem_cons_self _ _)) (by decide)

end Interpret

end Fletch
