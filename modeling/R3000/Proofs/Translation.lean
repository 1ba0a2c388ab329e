import R3000.Proofs.ByteLanes
import R3000.Proofs.Demands
import R3000.Proofs.Entering
import R3000.Proofs.SearchOrder

/-!
# Stability of translations

An access promotes the entry that answered it, which must not change where later accesses go.
Entries of other pages cannot answer for a key, so moving one of them shows to no search for it;
and an entry of the same page that answered once stays in front of its rivals when it is moved.

Addresses of one word share their page and their segment, so all of them are translated alike,
and keep the lane that they have in the word.
-/
namespace R3000

/-! ### Searching after a promotion -/

namespace SearchOrder

/-- Moving a slot that is not looked for does not change which slot is found. -/
theorem find?_promote_of_neg {covers : Fin 64 → Bool} {slot : Fin 64} (order : SearchOrder)
    (passed : covers slot = false) : (order.promote slot).find? covers = order.find? covers := by
  fun_induction SearchOrder.promote slot order with
  | case1 second rest => rfl
  | case2 first rest apart => simp [List.find?_cons, passed]
  | case3 first second rest apart later ih =>
    rw [List.find?_cons, ih]
    rfl
  | case4 order short => rfl

/-- The slot that is found first is still found first when it is moved. -/
theorem find?_promote_of_found {covers : Fin 64 → Bool} {slot : Fin 64} {order : SearchOrder}
    (found : order.find? covers = some slot) : (order.promote slot).find? covers = some slot := by
  have covering : covers slot = true := List.find?_some found
  fun_induction SearchOrder.promote slot order with
  | case1 second rest => exact found
  | case2 first rest apart => simp [covering]
  | case3 first second rest apart later ih =>
    have passed : covers first = false := by
      cases answers : covers first with
      | false => rfl
      | true =>
        rw [List.find?_cons_of_pos answers] at found
        exact absurd (Option.some.inj found) apart
    rw [List.find?_cons_of_neg (by simp [passed])] at found ⊢
    exact ih found
  | case4 order short => exact found

end SearchOrder

/-- An entry answers for one page only. -/
theorem TlbEntry.page_of_covers {entry : TlbEntry} {key : Word} (covers : entry.covers key = true) :
    entry.hi &&& pageMask = key &&& pageMask := by
  have agree : entry.hi &&& entry.keyMask = key &&& entry.keyMask := by
    simpa [TlbEntry.covers] using covers
  apply and_of_subset agree
  simp only [keyMask]
  split <;> decide

theorem page_searchKey (address entryHi : Word) :
    searchKey address entryHi &&& pageMask = address &&& pageMask := by
  have noSpace : spaceMask &&& pageMask = 0 := by decide
  rw [searchKey, BitVec.and_or_distrib_right, BitVec.and_assoc, BitVec.and_self, BitVec.and_assoc,
    noSpace]
  simp

namespace Tlb

/-- A promotion shows to no search in the same address space. -/
theorem lookup_promote (tlb : Tlb) (entryHi address other : Word) (intent later : Intent) :
    (tlb.promote (searchKey address entryHi) intent).lookup (searchKey other entryHi) later =
      tlb.lookup (searchKey other entryHi) later := by
  by_cases kind : intent = later
  · subst kind
    rcases tlb.promote_cases (searchKey address entryHi) intent with unmoved |
      ⟨slot, frame, found, -, moved⟩
    · rw [unmoved]
    · have sameEntry : (tlb.promote (searchKey address entryHi) intent).entry = tlb.entry := by
        funext slot
        exact congrArg (·[slot]) (entries_promote tlb _ intent)
      have sameAnswer :
          (tlb.promote (searchKey address entryHi) intent).firstCovering (searchKey other entryHi)
              intent = tlb.firstCovering (searchKey other entryHi) intent := by
        rw [firstCovering, sameEntry, moved, order_setOrder, if_pos rfl]
        by_cases page : address &&& pageMask = other &&& pageMask
        · -- Both keys are the same, and the slot that moves is the one that is found.
          have sameKey : searchKey other entryHi = searchKey address entryHi := by
            rw [searchKey, searchKey, page]
          rw [sameKey, found]
          exact SearchOrder.find?_promote_of_found found
        · have passed : (tlb.entry slot).covers (searchKey other entryHi) = false := by
            cases covers : (tlb.entry slot).covers (searchKey other entryHi) with
            | false => rfl
            | true =>
              have covering : (tlb.entry slot).covers (searchKey address entryHi) = true :=
                (List.find?_some found :)
              have one := TlbEntry.page_of_covers covering
              have two := TlbEntry.page_of_covers covers
              rw [page_searchKey] at one two
              exact absurd (one.symm.trans two) page
          exact SearchOrder.find?_promote_of_neg _ passed
      simp only [lookup, sameAnswer, sameEntry]
  · -- Each intent has an order of its own.
    exact tlb.lookup_promote_of_ne _ _ kind

end Tlb

namespace Mmu

theorem translate_promote (mmu : Mmu) (entryHi address other : Word) (intent later : Intent) :
    (mmu.promote entryHi address intent).translate entryHi other later =
      mmu.translate entryHi other later := by
  cases mmu with
  | fixed | bypass buffer => rfl
  | tlb buffer => simp only [promote, translate, Tlb.lookup_promote]

end Mmu

/-- An access does not change how any address is translated. -/
theorem Core.resolve_touch (core : Core) (address other : Word) (intent later : Intent)
    (user : Bool) :
    (core.touch address intent).resolve user other later = core.resolve user other later := by
  rcases core.touch_cases address intent with same | ⟨-, moved⟩
  · rw [same]
  · rw [moved]
    simp only [resolve, Mmu.translate_promote]

/-- Nor does it change where a demanded access goes. -/
theorem Core.place_mark (core : Core) (first demand : Demand) :
    (core.mark first).place demand = core.place demand := by
  simp only [place, userMode_mark]
  rw [mark, resolve_touch]

/-! ### Addresses of one word -/

/-- A place is known by its word and its lane. -/
theorem eq_of_word_lane {place word : Word} {index : Nat}
    (sameWord : containingWord place = containingWord word) (sameLane : lane place = index) :
    place = containingWord word + BitVec.ofNat 32 index := by
  have words := congrArg BitVec.toNat sameWord
  rw [toNat_containingWord, toNat_containingWord, sameLane] at words
  rw [lane_eq] at words sameLane
  apply BitVec.eq_of_toNat_eq
  rw [BitVec.toNat_add, toNat_containingWord, BitVec.toNat_ofNat, lane_eq]
  omega

section

variable {address other : Word}

/-- What does not look at the lanes is the same for all addresses of a word. -/
theorem and_of_sameWord {mask : Word} (same : containingWord other = containingWord address)
    (within : ~~~3 &&& mask = mask) : other &&& mask = address &&& mask :=
  and_of_subset same within

theorem containingWord_and (same : containingWord other = containingWord address) (mask : Word) :
    containingWord (other &&& mask) = containingWord (address &&& mask) := by
  have within : ~~~3 &&& (mask &&& ~~~3) = mask &&& ~~~3 := by
    rw [BitVec.and_comm mask, ← BitVec.and_assoc, BitVec.and_self]
  have masked := and_of_sameWord same within
  rw [← BitVec.and_assoc, ← BitVec.and_assoc] at masked
  exact masked

theorem containingWord_add (same : containingWord other = containingWord address) {distance : Word}
    (whole : lane distance = 0) :
    containingWord (other + distance) = containingWord (address + distance) := by
  have words := congrArg BitVec.toNat same
  rw [toNat_containingWord, toNat_containingWord] at words
  simp only [lane_eq] at words whole
  apply BitVec.eq_of_toNat_eq
  simp only [toNat_containingWord, lane_eq, BitVec.toNat_add]
  omega

theorem lane_add {distance : Word} (whole : lane distance = 0) :
    lane (address + distance) = lane address := by
  simp only [lane_eq, BitVec.toNat_add] at whole ⊢
  omega

theorem lane_and {mask : Word} (whole : mask &&& 3 = 3) :
    lane (address &&& mask) = lane address := by
  simp only [lane]
  rw [BitVec.and_assoc, whole]

theorem route_of_sameWord (same : containingWord other = containingWord address) (user : Bool) :
    route user other =
      match route user address with
      | .unmapped _ => .unmapped (other &&& 0x1fffffff)
      | .mapped => .mapped
      | .refused => .refused := by
  have high : other &&& 0x80000000 = address &&& 0x80000000 := and_of_sameWord same (by decide)
  have space : inUserSpace other = inUserSpace address := by
    simp only [inUserSpace, hasAny, high]
  have segment : other &&& 0xc0000000 = address &&& 0xc0000000 := and_of_sameWord same (by decide)
  have window : inWindow other = inWindow address := by
    simp only [inWindow, segment]
  simp only [route, space, window]
  cases inUserSpace address <;> cases user <;> cases inWindow address <;> rfl

theorem eq_of_unmapped {user : Bool} {place : Word}
    (unmapped : route user address = .unmapped place) : place = address &&& 0x1fffffff := by
  simp only [route] at unmapped
  split at unmapped
  · cases unmapped
  · split at unmapped
    · cases unmapped
    · split at unmapped
      · exact (Route.unmapped.inj unmapped).symm
      · cases unmapped

end

/-- Frames are whole pages. -/
theorem Tlb.frame_of_hit {tlb : Tlb} {key frame : Word} {intent : Intent}
    (hit : tlb.lookup key intent = .hit frame) : frame &&& ~~~TlbEntry.frameMask = 0 := by
  simp only [lookup] at hit
  split at hit
  · cases hit
  next slot found =>
    simp only [TlbEntry.answer] at hit
    split at hit
    · cases hit
    · split at hit
      · cases hit
      · cases hit
        rw [TlbEntry.frame, BitVec.and_assoc, BitVec.and_not_self]
        exact BitVec.and_zero

theorem Mmu.translate_of_sameWord {mmu : Mmu} {entryHi address other physical : Word}
    {intent : Intent} (same : containingWord other = containingWord address)
    (found : mmu.translate entryHi address intent = .ok physical) :
    mmu.translate entryHi other intent =
      .ok (containingWord physical + BitVec.ofNat 32 (lane other)) := by
  cases mmu with
  | fixed =>
    have gigabyte : lane 0x40000000 = 0 := by decide
    have high : other &&& 0x80000000 = address &&& 0x80000000 := and_of_sameWord same (by decide)
    have space : inUserSpace other = inUserSpace address := by
      simp only [inUserSpace, hasAny, high]
    simp only [translate, fixedAddress, space] at found ⊢
    cases found
    cases inUserSpace address with
    | true =>
      apply congrArg Except.ok
      exact eq_of_word_lane (containingWord_add same gigabyte) (lane_add gigabyte)
    | false => exact congrArg Except.ok (eq_of_word_lane same rfl)
  | bypass buffer =>
    cases found
    exact congrArg Except.ok (eq_of_word_lane same rfl)
  | tlb buffer =>
    have page : other &&& pageMask = address &&& pageMask := and_of_sameWord same (by decide)
    have sameKey : searchKey other entryHi = searchKey address entryHi := by
      rw [searchKey, searchKey, page]
    simp only [translate, sameKey] at found ⊢
    cases answer : buffer.lookup (searchKey address entryHi) intent with
    | hit frame =>
      simp only [answer] at found
      cases found
      have noLane : frame &&& 3 = 0 := by
        have clear : frame &&& ~~~TlbEntry.frameMask = 0 &&& ~~~TlbEntry.frameMask := by
          rw [Tlb.frame_of_hit answer]
          rfl
        exact and_of_subset clear (by decide)
      -- The frame replaces the page, and neither reaches into the lanes.
      apply congrArg Except.ok
      apply eq_of_word_lane
      · have words := containingWord_and same (~~~pageMask)
        simp only [containingWord, BitVec.and_or_distrib_right] at words ⊢
        rw [words]
      · have lanes : lane (other &&& ~~~pageMask) = lane other := lane_and (by decide)
        simp only [lane, BitVec.and_or_distrib_right, noLane] at lanes ⊢
        exact (congrArg BitVec.toNat BitVec.or_zero).trans lanes
    | miss | invalid | modified => simp [answer] at found

/-- All addresses of a word are translated alike, each to its lane of one physical word. -/
theorem Core.resolve_of_sameWord {core : Core} {user : Bool} {address other physical : Word}
    {intent : Intent} (same : containingWord other = containingWord address)
    (found : core.resolve user address intent = .ok physical) :
    core.resolve user other intent =
      .ok (containingWord physical + BitVec.ofNat 32 (lane other)) := by
  simp only [resolve, route_of_sameWord same] at found ⊢
  cases routed : route user address with
  | unmapped place =>
    simp only [routed] at found ⊢
    cases found
    rw [eq_of_unmapped routed]
    exact congrArg Except.ok (eq_of_word_lane (containingWord_and same _) (lane_and (by decide)))
  | refused => simp [routed] at found
  | mapped =>
    simp only [routed] at found ⊢
    cases answer : core.mmu.translate core.system.entryHi address intent with
    | error kind => simp [answer] at found
    | ok place =>
      simp only [answer] at found
      cases found
      rw [Mmu.translate_of_sameWord same answer]

/-- A physical address has the lane of the address that it was translated from. -/
theorem Core.lane_of_resolve {core : Core} {user : Bool} {address physical : Word}
    {intent : Intent} (found : core.resolve user address intent = .ok physical) :
    lane physical = lane address := by
  have again := core.resolve_of_sameWord rfl found
  rw [found] at again
  have places := congrArg BitVec.toNat (Except.ok.inj again)
  rw [BitVec.toNat_add, toNat_containingWord, BitVec.toNat_ofNat] at places
  simp only [lane_eq] at places ⊢
  omega

/-- An access that is aligned, or that goes to the word that contains its address, finds an
aligned place. -/
theorem Core.aligned_of_place {core : Core} {demand : Demand} {place : Word}
    (placed : core.place demand = .ok place)
    (aligns : demand.checked = true ∨ demand.width = .word) :
    demand.width.aligned place = true := by
  simp only [Core.place] at placed
  split at placed
  · cases placed
  next aligned =>
    split at placed
    · cases placed
    next physical resolved =>
      cases placed
      rw [Width.aligned_iff]
      split
      next checked =>
        -- Translation changes the page of an address, and no lane.
        have lanes := lane_of_resolve resolved
        simp only [Demand.misaligned, checked, Bool.true_and, Bool.not_eq_true',
          Bool.not_eq_false] at aligned
        rw [Width.aligned_iff] at aligned
        simp only [lane_eq] at lanes
        cases width : demand.width <;> simp only [width, Width.bytes] at aligned ⊢ <;> omega
      next unchecked =>
        rw [aligns.resolve_left unchecked, toNat_containingWord, lane_eq, Width.bytes]
        omega

end R3000
