import Mathlib.Data.List.InsertIdx
import R3000.Proofs.Lookups

/-!
# Promotion by one place

A hit moves the slot that answered one place towards the front of the order that was used, and a
slot in front stays there. The slot is passed by no other that covers the key, so the next search
finds it again, and after as many searches as it had slots before it the slot is in front.

A slot is moved by taking it out of the order and putting it back at an earlier place. The others
then stand as before.
-/
namespace R3000

namespace SearchOrder

variable {order : SearchOrder} {slot : Fin 64} {place : Nat}

theorem promote_eq (stands : order[place]? = some slot) (first : slot ∉ order.take place) :
    order.promote slot = (order.eraseIdx place).insertIdx (place - 1) slot := by
  -- By the three slots that a promotion looks at: the first, the second, and one further behind.
  fun_induction SearchOrder.promote slot order generalizing place with
  | case1 second rest =>
    cases place with
    | zero => rfl
    | succ place => exact absurd List.mem_cons_self first
  | case2 front rest apart =>
    rcases place with _ | _ | place
    · exact absurd (Option.some.inj stands) apart
    · rfl
    · exact absurd (List.mem_cons_of_mem _ List.mem_cons_self) first
  | case3 front second rest apart later ih =>
    rcases place with _ | _ | place
    · exact absurd (Option.some.inj stands) apart
    · exact absurd (Option.some.inj stands) later
    · have behind : slot ∉ (second :: rest).take (place + 1) := fun member =>
        first (List.mem_cons_of_mem _ member)
      exact congrArg (front :: ·) (ih stands behind)
  | case4 order short =>
    rcases order with _ | ⟨only, _ | ⟨second, rest⟩⟩
    · cases stands
    · cases place with
      | zero =>
        cases stands
        rfl
      | succ place => cases stands
    · exact absurd rfl (short only second rest)

/-- In front of the place to which a slot is moved nothing changes. -/
theorem take_move {target : Nat} (forward : target ≤ place) :
    ((order.eraseIdx place).insertIdx target slot).take target = order.take target := by
  apply List.ext_getElem?
  intro index
  simp only [List.getElem?_take]
  split
  next before =>
    have unmoved : index < place := Nat.lt_of_lt_of_le before forward
    rw [List.getElem?_insertIdx_of_lt before, List.getElem?_eraseIdx_of_lt unmoved]
  next => rfl

theorem getElem?_move {target : Nat} (stands : order[place]? = some slot)
    (forward : target ≤ place) :
    ((order.eraseIdx place).insertIdx target slot)[target]? = some slot := by
  obtain ⟨inside, -⟩ := List.getElem?_eq_some_iff.mp stands
  have room : target ≤ (order.eraseIdx place).length := by
    rw [List.length_eraseIdx_of_lt inside]
    omega
  rw [List.getElem?_insertIdx_self, if_pos room]

end SearchOrder

namespace Tlb

variable {tlb : Tlb} {key : Word} {intent : Intent} {place : Nat} {slot : Fin 64} {frame : Word}

/-- The buffer with a slot moved to an earlier place of one order. -/
def moved (tlb : Tlb) (intent : Intent) (place target : Nat) (slot : Fin 64) : Tlb :=
  tlb.setOrder intent (((tlb.order intent).eraseIdx place).insertIdx target slot)

@[simp] theorem entries_moved (tlb : Tlb) (intent : Intent) (place target : Nat) (slot : Fin 64) :
    (tlb.moved intent place target slot).entries = tlb.entries := entries_setOrder ..

theorem entry_moved (tlb : Tlb) (intent : Intent) (place target : Nat) (slot : Fin 64) :
    (tlb.moved intent place target slot).entry = tlb.entry := by
  funext other
  exact congrArg (·[other]) (entries_moved tlb intent place target slot)

theorem order_moved (tlb : Tlb) (intent other : Intent) (place target : Nat) (slot : Fin 64) :
    (tlb.moved intent place target slot).order other =
      if other = intent then ((tlb.order intent).eraseIdx place).insertIdx target slot
      else tlb.order other := order_setOrder ..

@[simp] theorem setOrder_setOrder (tlb : Tlb) (intent : Intent) (order later : SearchOrder) :
    (tlb.setOrder intent order).setOrder intent later = tlb.setOrder intent later := by
  cases intent <;> rfl

/-- Of two moves of one slot only the last place counts. -/
theorem moved_moved (tlb : Tlb) (intent : Intent) (place target last : Nat) (slot : Fin 64) :
    (tlb.moved intent place target slot).moved intent target last slot =
      tlb.moved intent place last slot := by
  rw [moved, order_moved, if_pos rfl, List.eraseIdx_insertIdx_self, moved, setOrder_setOrder, moved]

/-- The slot that answers still does from an earlier place. -/
theorem FirstAt.moved {target : Nat} (first : tlb.FirstAt key intent place slot)
    (forward : target ≤ place) :
    (tlb.moved intent place target slot).FirstAt key intent target slot := by
  constructor
  case stands =>
    rw [order_moved, if_pos rfl]
    exact SearchOrder.getElem?_move first.stands forward
  case covers =>
    rw [entry_moved]
    exact first.covers
  case passed =>
    rw [order_moved, if_pos rfl, SearchOrder.take_move forward, entry_moved]
    intro earlier member
    exact first.passed earlier ((List.take_subset_take_left _ forward) member)

/-- A slot that is put back at its own place has not moved. -/
theorem FirstAt.moved_same (first : tlb.FirstAt key intent place slot) :
    tlb.moved intent place place slot = tlb := by
  obtain ⟨inside, stands⟩ := List.getElem?_eq_some_iff.mp first.stands
  rw [Tlb.moved, ← stands, List.insertIdx_eraseIdx_getElem inside, setOrder_order]

/-- A search that hits moves the slot that answers one place forward. -/
theorem search_of_hit (first : tlb.FirstAt key intent place slot)
    (hit : (tlb.entry slot).answer intent = .hit frame) :
    tlb.search key intent true = (.hit frame, tlb.moved intent place (place - 1) slot) := by
  have found := firstCovering_eq_some_iff.mpr ⟨place, first⟩
  have absent : slot ∉ (tlb.order intent).take place := by
    intro member
    have covers := first.covers
    rw [first.passed slot member] at covers
    cases covers
  have promoted := SearchOrder.promote_eq first.stands absent
  simp only [search_eq, lookup, promote, found, hit, if_true, promoted, Tlb.moved]

/-! ### Consecutive searches -/

/-- The answers of searches for one key, one after the other, each of which promotes what it finds,
and the buffer after them. -/
def searches (tlb : Tlb) (key : Word) (intent : Intent) : Nat → List Lookup × Tlb
  | 0 => ([], tlb)
  | count + 1 =>
    let (answer, after) := tlb.search key intent true
    let (answers, last) := after.searches key intent count
    (answer :: answers, last)

/-- All of them answer alike, and move the slot by a place each until it is in front. -/
theorem searches_of_hit (first : tlb.FirstAt key intent place slot)
    (hit : (tlb.entry slot).answer intent = .hit frame) (count : Nat) :
    tlb.searches key intent count =
      (List.replicate count (.hit frame), tlb.moved intent place (place - count) slot) := by
  induction count generalizing tlb place with
  | zero =>
    simp only [searches, Nat.sub_zero, first.moved_same, List.replicate_zero]
  | succ count ih =>
    have later := first.moved (place.sub_le 1)
    have again : ((tlb.moved intent place (place - 1) slot).entry slot).answer intent =
        .hit frame := by
      rw [entry_moved]
      exact hit
    have rest : place - 1 - count = place - (count + 1) := by omega
    simp only [searches, search_of_hit first hit, ih later again, moved_moved, rest,
      List.replicate_succ]

/-- A hit moves its slot forward by one place. When the search for a key hits the slot at some
place of the order, any number of such searches after each other all give this answer. They leave
the order with this slot taken out and put back as many places further in front, or in the first
place if there are not so many, and the others as they stood. The entries and the orders of the
other kinds of access stay. -/
theorem promotes_by_one_per_hit (first : tlb.FirstAt key intent place slot)
    (hit : (tlb.search key intent true).1 = .hit frame) (count : Nat) :
    let (answers, after) := tlb.searches key intent count
    answers = List.replicate count (.hit frame) ∧
      after.order intent = ((tlb.order intent).eraseIdx place).insertIdx (place - count) slot ∧
      after.entries = tlb.entries ∧
      ∀ other ≠ intent, after.order other = tlb.order other := by
  have answered : (tlb.entry slot).answer intent = .hit frame := by
    rw [search_eq, lookup_of_firstAt first] at hit
    exact hit
  rw [searches_of_hit first answered count]
  refine ⟨rfl, ?_, entries_moved .., ?_⟩
  · rw [order_moved, if_pos rfl]
  · intro other apart
    rw [order_moved, if_neg apart]

/-- A buffer that was never searched, with an entry in slot 3. -/
def withThird : Tlb := Tlb.initial.setEntry 3 ⟨0x5000, 0x12600⟩

/-- Five searches move slot 3 to the front, where it stays. -/
theorem promotes_by_one_per_hit_third :
    withThird.FirstAt 0x5000 .read 3 3 ∧
      (withThird.search 0x5000 .read true).1 = .hit 0x12000 ∧
      (withThird.searches 0x5000 .read 5).1 = List.replicate 5 (.hit 0x12000) ∧
      (withThird.searches 0x5000 .read 5).2.order .read =
        3 :: 0 :: 1 :: 2 :: SearchOrder.initial.drop 4 := by
  have first : withThird.FirstAt 0x5000 .read 3 3 :=
    ⟨by decide +kernel, by decide +kernel, by decide +kernel⟩
  have hit : (withThird.search 0x5000 .read true).1 = .hit 0x12000 := by decide +kernel
  obtain ⟨answers, moved, -, -⟩ := promotes_by_one_per_hit first hit 5
  exact ⟨first, hit, answers, moved.trans (by decide +kernel)⟩

end Tlb

end R3000
