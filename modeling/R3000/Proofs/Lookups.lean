import R3000.Proofs.Inspection

/-!
# What a search answers

A search looks at the slots in the order of its kind of access and stops at the first that covers
the key. What it answers is read off the lower word of that entry. A probe looks at the slots by
their numbers instead, and does not look at the lower word.

Every order lists all slots, so both find something when the other does. They may find different
slots if several entries cover one key; the answer is the same when these agree in what an answer
is read off.
-/
namespace R3000

namespace TlbEntry

/-- The answer of an entry, by the bits of its lower word. -/
theorem answer_eq (entry : TlbEntry) (intent : Intent) :
    entry.answer intent =
      if entry.lo &&& 0x200 = 0 then .invalid
      else if intent = .write ∧ entry.lo &&& 0x400 = 0 then .modified
      else .hit (entry.lo &&& 0xfffff000) := by
  simp [answer, valid, dirty, frame, hasAny, validBit, dirtyBit, frameMask]

/-- A covering entry always answers. -/
theorem answer_ne_miss (entry : TlbEntry) (intent : Intent) : entry.answer intent ≠ .miss := by
  simp only [answer]
  split
  · nofun
  · split <;> nofun

end TlbEntry

namespace Tlb

/-! ### The slot that answers -/

/-- The slot stands at a place of the order, covers the key, and no slot in front of it does. -/
structure FirstAt (tlb : Tlb) (key : Word) (intent : Intent) (place : Nat) (slot : Fin 64) :
    Prop where
  stands : (tlb.order intent)[place]? = some slot
  covers : (tlb.entry slot).covers key = true
  passed : ∀ earlier ∈ (tlb.order intent).take place, (tlb.entry earlier).covers key = false

section

variable {tlb : Tlb} {key : Word} {intent : Intent} {slot : Fin 64}

theorem FirstAt.split {place : Nat} (first : tlb.FirstAt key intent place slot) :
    tlb.order intent =
      (tlb.order intent).take place ++ slot :: (tlb.order intent).drop (place + 1) := by
  obtain ⟨inside, here⟩ := List.getElem?_eq_some_iff.mp first.stands
  rw [← here, List.getElem_cons_drop, List.take_append_drop]

/-- The search finds the first slot that covers the key. -/
theorem firstCovering_eq_some_iff :
    tlb.firstCovering key intent = some slot ↔ ∃ place, tlb.FirstAt key intent place slot := by
  simp only [firstCovering]
  constructor
  · intro found
    obtain ⟨covers, front, rest, split, passed⟩ := List.find?_eq_some_iff_append.mp found
    refine ⟨front.length, ?_, covers, ?_⟩
    · rw [split]
      simp
    · intro earlier member
      rw [split, List.take_left] at member
      simpa using passed earlier member
  · rintro ⟨place, first⟩
    refine List.find?_eq_some_iff_append.mpr ⟨first.covers, _, _, first.split, ?_⟩
    intro earlier member
    simpa using first.passed earlier member

theorem lookup_of_firstAt {place : Nat} (first : tlb.FirstAt key intent place slot) :
    tlb.lookup key intent = (tlb.entry slot).answer intent := by
  have found := firstCovering_eq_some_iff.mpr ⟨place, first⟩
  simp only [lookup, found]

theorem exists_firstAt_of_lookup (answered : tlb.lookup key intent ≠ .miss) :
    ∃ place slot, tlb.FirstAt key intent place slot := by
  cases found : tlb.firstCovering key intent with
  | none => simp [lookup, found] at answered
  | some slot =>
    obtain ⟨place, first⟩ := firstCovering_eq_some_iff.mp found
    exact ⟨place, slot, first⟩

/-- A search through all slots fails exactly on the keys that no entry covers. -/
theorem lookup_eq_miss_iff (complete : tlb.Complete) :
    tlb.lookup key intent = .miss ↔ ∀ slot, (tlb.entry slot).covers key = false := by
  constructor
  · intro missed slot
    cases covers : (tlb.entry slot).covers key with
    | false => rfl
    | true =>
      -- The slot stands somewhere in the order, so the search has stopped there at the latest.
      have listed : slot ∈ tlb.order intent :=
        (complete intent).mem_iff.mpr (List.mem_finRange slot)
      cases found : tlb.firstCovering key intent with
      | none =>
        exact absurd covers (List.find?_eq_none.mp found slot listed)
      | some other =>
        simp only [lookup, found] at missed
        exact absurd missed (TlbEntry.answer_ne_miss _ _)
  · intro uncovered
    exact lookup_of_uncovered uncovered intent

/-! ### Probes -/

theorem probe_eq_none_iff :
    tlb.probe key = none ↔ ∀ slot, (tlb.entry slot).covers key = false := by
  simp [probe, List.find?_eq_none]

theorem lowest_of_probe (found : tlb.probe key = some slot) :
    (tlb.entry slot).covers key = true ∧
      ∀ lower < slot, (tlb.entry lower).covers key = false := by
  obtain ⟨covers, front, rest, split, passed⟩ := List.find?_eq_some_iff_append.mp found
  refine ⟨covers, ?_⟩
  intro lower below
  -- The slots are probed in ascending order, so a lower one has been passed.
  have listed : lower ∈ front ++ slot :: rest := by
    rw [← split]
    exact List.mem_finRange lower
  have ascending : (front ++ slot :: rest).Pairwise (· < ·) := by
    rw [← split]
    exact List.pairwise_lt_finRange 64
  obtain ⟨-, later, -⟩ := List.pairwise_append.mp ascending
  rcases List.mem_append.mp listed with member | member
  · simpa using passed lower member
  · rcases List.mem_cons.mp member with rfl | behind
    · exact absurd below (Fin.lt_irrefl _)
    · have above : slot < lower := (List.pairwise_cons.mp later).1 lower behind
      exact absurd (Fin.lt_trans below above) (Fin.lt_irrefl _)

/-- A probe finds the lowest slot that covers the key. -/
theorem probe_eq_some_iff :
    tlb.probe key = some slot ↔
      (tlb.entry slot).covers key = true ∧
        ∀ lower < slot, (tlb.entry lower).covers key = false := by
  constructor
  · exact lowest_of_probe
  · rintro ⟨covers, lowest⟩
    cases found : tlb.probe key with
    | none =>
      rw [probe_eq_none_iff.mp found slot] at covers
      cases covers
    | some other =>
      obtain ⟨covers', lowest'⟩ := lowest_of_probe found
      -- Neither of the two is lower than the other.
      rcases Nat.lt_trichotomy other.val slot.val with below | same | above
      · rw [lowest other below] at covers'
        cases covers'
      · rw [Fin.ext same]
      · rw [lowest' slot above] at covers
        cases covers

/-! ### Searches and probes -/

/-- The entries that cover a key agree in what an answer is read off. -/
def Agreeing (tlb : Tlb) (key : Word) : Prop :=
  ∀ slot other, (tlb.entry slot).covers key = true → (tlb.entry other).covers key = true →
    (tlb.entry slot).valid = (tlb.entry other).valid ∧
      (tlb.entry slot).dirty = (tlb.entry other).dirty ∧
      (tlb.entry slot).frame = (tlb.entry other).frame

theorem Agreeing.answer {other : Fin 64} (agreeing : tlb.Agreeing key)
    (covers : (tlb.entry slot).covers key = true) (covers' : (tlb.entry other).covers key = true)
    (intent : Intent) : (tlb.entry slot).answer intent = (tlb.entry other).answer intent := by
  obtain ⟨valid, dirty, frame⟩ := agreeing slot other covers covers'
  simp only [TlbEntry.answer, valid, dirty, frame]

theorem entries_search (tlb : Tlb) (key : Word) (intent : Intent) (promoting : Bool) :
    (tlb.search key intent promoting).2.entries = tlb.entries := by
  rw [search_eq]
  cases promoting with
  | true => exact entries_promote tlb key intent
  | false => rfl

/-- Only a hit that is promoted leaves a trace. -/
theorem search_moves {promoting : Bool} (moved : (tlb.search key intent promoting).2 ≠ tlb) :
    promoting = true ∧ ∃ frame, tlb.lookup key intent = .hit frame := by
  rw [search_eq] at moved
  cases promoting with
  | false => exact absurd rfl moved
  | true =>
    refine ⟨rfl, ?_⟩
    rcases tlb.promote_cases key intent with unmoved | ⟨slot, frame, found, hit, -⟩
    · exact absurd unmoved moved
    · refine ⟨frame, ?_⟩
      simp only [lookup, found, hit]

/-- Searching agrees with probing. A search misses exactly when a probe finds nothing, which is
when no entry covers the key. Otherwise its answer is read off the first covering entry in the
order of its kind of access: invalid, or write-protected for a write, or the frame. When all
covering entries agree in these fields, that is the answer of the entry which the probe finds. The
entries stay as they are, and the orders too unless a hit is promoted. -/
theorem search_agrees_with_probe (requests : List TlbRequest) (key : Word) (intent : Intent)
    (promoting : Bool) :
    let tlb := requests.foldl Tlb.serve Tlb.initial
    let answer := (tlb.search key intent promoting).1
    let after := (tlb.search key intent promoting).2
    let classified (entry : TlbEntry) : Lookup :=
      if entry.lo &&& 0x200 = 0 then .invalid
      else if intent = .write ∧ entry.lo &&& 0x400 = 0 then .modified
      else .hit (entry.lo &&& 0xfffff000)
    ((answer = .miss ↔ tlb.probe key = none) ∧
        (answer = .miss ↔ ∀ slot, (tlb.entry slot).covers key = false)) ∧
      (answer ≠ .miss → ∃ place slot, tlb.FirstAt key intent place slot ∧
        answer = classified (tlb.entry slot)) ∧
      (tlb.Agreeing key → ∀ slot, tlb.probe key = some slot →
        answer = classified (tlb.entry slot)) ∧
      after.entries = tlb.entries ∧
      (after ≠ tlb → promoting = true ∧ ∃ frame, answer = .hit frame) := by
  intro tlb answer after classified
  have complete : tlb.Complete := Tlb.complete_initial.serve_all requests
  have answered : answer = tlb.lookup key intent := by
    simp only [answer, search_eq]
  have missed : tlb.lookup key intent = .miss ↔ ∀ slot, (tlb.entry slot).covers key = false :=
    lookup_eq_miss_iff complete
  have classify (entry : TlbEntry) : entry.answer intent = classified entry :=
    entry.answer_eq intent
  rw [answered]
  refine ⟨⟨?_, missed⟩, ?_, ?_, tlb.entries_search key intent promoting, search_moves⟩
  · rw [missed, probe_eq_none_iff]
  · intro found
    obtain ⟨place, slot, first⟩ := exists_firstAt_of_lookup found
    exact ⟨place, slot, first, (lookup_of_firstAt first).trans (classify _)⟩
  · intro agreeing slot found
    have covers := (lowest_of_probe found).1
    rw [← classify]
    exact lookup_of_alike complete covers fun other covers' =>
      agreeing.answer covers' covers intent

end

/-- A host stores an entry in slot 13, uses it once for a read, and stores another entry for the
same key in slot 12. -/
def rivals : List TlbRequest :=
  [.write 13 ⟨0x2000, 0x8700⟩, .lookup 0x2000 .read true, .write 12 ⟨0x2040, 0x8700⟩]

/-- A read finds slot 13, which stands in front of slot 12 by then, and a probe finds slot 12. The
answer is the same, and the read moves slot 13 once more. -/
theorem search_agrees_with_probe_rivals :
    let tlb := rivals.foldl Tlb.serve Tlb.initial
    tlb.Agreeing 0x2000 ∧ tlb.probe 0x2000 = some 12 ∧ tlb.FirstAt 0x2000 .read 12 13 ∧
      (tlb.search 0x2000 .read true).1 = .hit 0x8000 ∧
      (tlb.search 0x2000 .read true).2.entries = tlb.entries ∧
      (tlb.search 0x2000 .read true).2 ≠ tlb := by
  intro tlb
  have only : ∀ slot, (tlb.entry slot).covers 0x2000 = true → slot = 12 ∨ slot = 13 := by
    decide +kernel
  have agreeing : tlb.Agreeing 0x2000 := by
    intro slot other covers covers'
    rcases only slot covers with rfl | rfl <;> rcases only other covers' with rfl | rfl <;>
      decide +kernel
  have probed : tlb.probe 0x2000 = some 12 := by decide +kernel
  have first : tlb.FirstAt 0x2000 .read 12 13 :=
    ⟨by decide +kernel, by decide +kernel, by decide +kernel⟩
  have moved : (tlb.search 0x2000 .read true).2 ≠ tlb := by decide +kernel
  have agrees := search_agrees_with_probe rivals 0x2000 .read true
  obtain ⟨-, -, answered, kept, -⟩ := agrees
  exact ⟨agreeing, probed, first, (answered agreeing 12 probed).trans (by decide +kernel), kept,
    moved⟩

end Tlb

end R3000
