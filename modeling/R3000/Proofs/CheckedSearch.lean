import R3000.Proofs.Checks
import R3000.Proofs.Inspection
import R3000.Proofs.SearchOrder

/-!
# The search with checks

A search order is kept as a row of sixty-four bytes. A search reads them one after the other, each
as the index of an entry, and when it ends with a hit that is not the first it swaps two of them.
Nothing about a byte says that there is an entry of that number.

What makes it right is that a row always is the list of all slots in some order: the rows of a
complete buffer. A search with checks goes through such a row as the search goes through the
order, and leaves the row of the order that the promotion gives.
-/
namespace R3000.Strict

/-- The search order of one kind of access. -/
abbrev Row := Vector Byte 64

/-- The row of an order of all slots. -/
def Row.of (order : SearchOrder) : Row :=
  Vector.ofFn fun place => (order[place.val]?.map fun slot => BitVec.ofNat 8 slot.val).getD 0

/-- Move the slot at a place one place towards the front. -/
def swapBack (row : Row) (place : Nat) : Checked Row := do
  let ⟨front, frontInside⟩ ← within 64 (← difference place 1)
  let ⟨back, backInside⟩ ← within 64 place
  return row.swap front back frontInside backInside

/-- Look at the entries that the remaining bytes of a row name, from a place on. -/
def scan (buffer : Tlb) (key : Word) (intent : Intent) (row : Row) :
    (remaining place : Nat) → Checked (Lookup × Row)
  | 0, _ => return (.miss, row)
  | remaining + 1, place => do
    let index ← within 64 place
    let slot ← within 64 (row.get index).toNat
    let entry := buffer.entry slot
    if !entry.covers key then scan buffer key intent row remaining (place + 1)
    else
      match entry.answer intent with
      | .hit frame => return (.hit frame, ← if 0 < place then swapBack row place else pure row)
      | failure => return (failure, row)

/-- The rows of the three kinds of access. -/
abbrev Rows := Vector Row 3

/-- The place of a kind of access among the rows. -/
def rowOf : Intent → Nat
  | .read => 0
  | .write => 1
  | .fetch => 2

def lookup (buffer : Tlb) (rows : Rows) (key : Word) (intent : Intent) :
    Checked (Lookup × Rows) := do
  let place ← within 3 (rowOf intent)
  let (answer, row) ← scan buffer key intent rows[place] 64 0
  return (answer, rows.set place row)

/-! ### Promotion -/

theorem promote_behind {slot before : Fin 64} {front : SearchOrder} (rest : SearchOrder)
    (apart : before ≠ slot) (absent : slot ∉ front) :
    SearchOrder.promote slot (front ++ before :: slot :: rest) =
      front ++ slot :: before :: rest := by
  induction front with
  | nil => simp [SearchOrder.promote, apart]
  | cons first front ih =>
    obtain ⟨apart', absent'⟩ : slot ≠ first ∧ slot ∉ front := by
      simpa only [List.mem_cons, not_or] using absent
    have later := ih absent'
    -- The promotion looks two slots ahead, so the front is split once more.
    cases front with
    | nil => simp_all [SearchOrder.promote, apart'.symm]
    | cons second front =>
      have apart'' : slot ≠ second := by
        rintro rfl
        exact absent' List.mem_cons_self
      simp_all [SearchOrder.promote, apart'.symm, apart''.symm]

theorem getElem_row (order : SearchOrder) {place : Nat} (inside : place < 64) :
    (Row.of order)[place] =
      (order[place]?.map fun slot => BitVec.ofNat 8 slot.val).getD 0 := by
  simp only [Row.of, Vector.getElem_ofFn]

/-- Two neighbours in a row are swapped as in the order. -/
theorem swapBack_row {front : SearchOrder} (rest : SearchOrder) (slot before : Fin 64)
    (inside : front.length + 1 < 64) :
    swapBack (Row.of (front ++ before :: slot :: rest)) (front.length + 1) =
      .ok (Row.of (front ++ slot :: before :: rest)) := by
  rw [swapBack, difference_of_le (by omega)]
  simp only [ok_bind, Nat.add_sub_cancel, within_of_lt inside,
    within_of_lt (Nat.lt_of_succ_lt inside), pure_eq_ok]
  apply congrArg Except.ok
  apply Vector.ext
  intro place bound
  simp only [Vector.getElem_swap, getElem_row, List.getElem?_append]
  have behind : ¬front.length + 1 < front.length := by omega
  by_cases first : place = front.length
  · simp [first, behind]
  · by_cases second : place = front.length + 1
    · simp [second, behind]
    · simp only [first, second, if_false]
      split
      · rfl
      · -- The two places are behind, and the rest begins at the second place of what follows.
        obtain ⟨later, rfl⟩ : ∃ later, place = front.length + (later + 2) :=
          ⟨place - front.length - 2, by omega⟩
        simp only [Nat.add_sub_cancel_left, List.getElem?_cons_succ]

/-! ### Searching a row -/

theorem scan_row (buffer : Tlb) (key : Word) (intent : Intent) (passed : SearchOrder)
    {rest : SearchOrder}
    (length : (passed ++ rest).length = 64) (distinct : (passed ++ rest).Nodup) :
    scan buffer key intent (Row.of (passed ++ rest)) rest.length passed.length =
      .ok (match rest.find? fun slot => (buffer.entry slot).covers key with
        | none => (.miss, Row.of (passed ++ rest))
        | some slot =>
          let answer := (buffer.entry slot).answer intent
          (answer, Row.of (SearchOrder.afterAnswer (passed ++ rest) slot true answer))) := by
  induction rest generalizing passed with
  | nil => rfl
  | cons slot rest ih =>
    have inside : passed.length < 64 := by
      simp only [List.length_append, List.length_cons] at length
      omega
    have named : ((Row.of (passed ++ slot :: rest)).get ⟨passed.length, inside⟩).toNat =
        slot.val := by
      change ((Row.of (passed ++ slot :: rest))[passed.length]).toNat = slot.val
      rw [getElem_row]
      simp only [List.getElem?_append_right (Nat.le_refl _), Nat.sub_self, List.getElem?_cons_zero,
        Option.map_some, Option.getD_some, BitVec.toNat_ofNat]
      omega
    simp only [List.length_cons, scan, within_of_lt inside, ok_bind, named, within_val,
      List.find?_cons]
    cases covers : (buffer.entry slot).covers key with
    | false =>
      -- The slot is passed, and the rest is searched behind it.
      have moved : passed ++ slot :: rest = (passed ++ [slot]) ++ rest := by simp
      rw [moved] at length distinct ⊢
      have searched := ih (passed ++ [slot]) length distinct
      rw [List.length_append] at searched
      simp only [Bool.not_false, if_true]
      exact searched
    | true =>
      simp only [Bool.not_true, Bool.false_eq_true, if_false]
      cases answered : (buffer.entry slot).answer intent with
      | miss | invalid | modified => rfl
      | hit frame =>
        rcases List.eq_nil_or_concat passed with rfl | ⟨front, before, rfl⟩
        · -- A hit in the first place is the first of the order already.
          have kept := SearchOrder.afterAnswer_of_head slot rest true (.hit frame)
          simp only [List.nil_append, kept]
          rfl
        · -- Every slot stands in the order once, so the one before it is another.
          rw [List.concat_eq_append] at length distinct ⊢
          have split : (front ++ [before]) ++ slot :: rest = front ++ before :: slot :: rest := by
            simp
          rw [split] at length distinct ⊢
          have parts := List.nodup_append.mp distinct
          have absent : slot ∉ front := fun member =>
            parts.2.2 slot member slot (List.mem_cons_of_mem _ List.mem_cons_self) rfl
          have apart : before ≠ slot := by
            rintro rfl
            exact (List.nodup_cons.mp parts.2.1).1 List.mem_cons_self
          have inside : front.length + 1 < 64 := by
            simp only [List.length_append, List.length_cons] at length
            omega
          have swapped := swapBack_row rest slot before inside
          simp only [List.length_append, List.length_singleton, Nat.succ_pos, if_true, swapped,
            ok_bind, pure_eq_ok, SearchOrder.afterAnswer, promote_behind rest apart absent]

/-- The row of an order of all slots is searched as the order is. -/
theorem scan_order (buffer : Tlb) (key : Word) (intent : Intent) {order : SearchOrder}
    (complete : order.Perm (List.finRange 64)) :
    scan buffer key intent (Row.of order) 64 0 =
      .ok ((order.search (buffer.answerAt key intent) true).1,
        Row.of (order.search (buffer.answerAt key intent) true).2) := by
  have length : order.length = 64 := complete.length_eq.trans (List.length_finRange)
  have distinct : order.Nodup := complete.nodup_iff.mpr (List.nodup_finRange 64)
  have scanned := scan_row buffer key intent [] length distinct
  rw [length] at scanned
  have covering : (fun slot => (buffer.answerAt key intent slot).isSome) =
      fun slot => (buffer.entry slot).covers key := by
    funext slot
    cases covers : (buffer.entry slot).covers key <;> simp [Tlb.answerAt, covers]
  rw [SearchOrder.search_eq, covering]
  refine scanned.trans ?_
  cases found : order.find? fun slot => (buffer.entry slot).covers key with
  | none => rfl
  | some slot =>
    have covers : (buffer.entry slot).covers key = true := (List.find?_some found :)
    simp only [List.nil_append, Tlb.answerAt, covers, if_true, Option.getD_some]

/-- A byte that names no slot does not pass. -/
example (buffer : Tlb) (key : Word) (intent : Intent) :
    scan buffer key intent (Vector.replicate 64 64) 64 0 = .error .index := rfl

/-! ### Searching the buffer -/

/-- The rows after a reset: every kind of access searches the slots by their numbers. -/
def Rows.initial : Rows := Vector.replicate 3 (Row.of .initial)

/-- The rows of the search orders of a buffer; without one they are those of a reset. -/
def Rows.of (mmu : Mmu) : Rows :=
  let row (intent : Intent) := Row.of ((mmu.buffer?.map (·.order intent)).getD .initial)
  #v[row .read, row .write, row .fetch]

theorem rows_setOrder (buffer : Tlb) (intent : Intent) (order : SearchOrder)
    (inside : rowOf intent < 3) :
    (Rows.of (.tlb buffer)).set (rowOf intent) (Row.of order) inside =
      Rows.of (.tlb (buffer.setOrder intent order)) := by
  cases intent <;> rfl

/-- A search reads and rearranges the row of its own kind of access; it knows the entries only. -/
theorem lookup_rows {buffer : Tlb} (complete : buffer.Complete) (key : Word) (intent : Intent) :
    lookup buffer.resetOrders (Rows.of (.tlb buffer)) key intent =
      .ok (buffer.lookup key intent, Rows.of (.tlb (buffer.promote key intent))) := by
  have inside : rowOf intent < 3 := by cases intent <;> decide
  have row : (Rows.of (.tlb buffer))[rowOf intent] = Row.of (buffer.order intent) := by
    cases intent <;> rfl
  have scanned := scan_order buffer.resetOrders key intent (complete intent)
  have searched : buffer.search key intent true =
      (buffer.lookup key intent, buffer.promote key intent) := buffer.search_eq key intent true
  obtain ⟨answer, moved⟩ := Prod.mk.inj searched
  rw [← answer, ← moved]
  simp only [lookup, within_of_lt inside, ok_bind, Fin.getElem_fin, row, scanned, pure_eq_ok,
    rows_setOrder]
  rfl

end R3000.Strict
