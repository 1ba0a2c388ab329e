import R3000.Proofs.RunInvariants
import R3000.Proofs.UnalignedLoads

/-!
# Stores of unaligned words

A store of an unaligned word is split as a load is, into the bytes that belong to the word of the
first one and those that belong to the word of the last. Each of the two instructions stores a
whole word under a mask, that is, it slides some bytes of the register over the word that was
there, whose other bytes it stores back as they were.

Both ways of storing the four bytes, in two words or one by one, are sequences of stores at the
same four positions, and what is stored there decides what the memory is. A load of the same word
finds the same positions, if the translation for reading is the one for writing.
-/
namespace R3000

/-- The instruction that stores the bytes in the word of the first one. -/
def StoreOp.leading : ByteOrder → StoreOp
  | .big => wordLeft
  | .little => wordRight

/-- The instruction that stores the bytes in the word of the last one. -/
def StoreOp.trailing : ByteOrder → StoreOp
  | .big => wordRight
  | .little => wordLeft

/-! ### Four positions -/

section

variable {core : Core} {ram middle : Ram} {intent : Intent} {address physical physical' : Word}
  {position : Nat → Nat} {bytes : Nat → Byte} {touched : Nat → Prop}

/-- The four bytes have different lanes, so they lie at different positions. -/
theorem Core.Reaches.spanAt_apart (reaches : core.Reaches ram intent address physical)
    (reaches' : core.Reaches ram intent (address + 3) physical') {index other : Nat}
    (inside : index < 4) (inside' : other < 4)
    (same : ram.spanAt address physical physical' index =
      ram.spanAt address physical physical' other) : index = other := by
  obtain ⟨place, translated, found⟩ := reaches.locates reaches' index inside
  obtain ⟨place', translated', found'⟩ := reaches.locates reaches' other inside'
  have samePlace : place = place' := by
    apply ram.position_injective
    rw [(Ram.position_of_offset found).1, (Ram.position_of_offset found').1, same]
  -- A place keeps the lane of its address, and four successive lanes are different.
  have lanes : lane (address + BitVec.ofNat 32 index) = lane (address + BitVec.ofNat 32 other) := by
    rw [← Core.lane_of_resolve translated, ← Core.lane_of_resolve translated', samePlace]
  simp only [lane_eq, BitVec.toNat_add, BitVec.toNat_ofNat] at lanes
  omega

theorem Core.Reaches.of_stored (reaches : core.Reaches ram intent address physical)
    (stored : Ram.Stored position bytes touched ram middle) :
    core.Reaches middle intent address physical :=
  ⟨reaches.translated, stored.holds reaches.held⟩

theorem Ram.Stored.spanAt_eq (stored : Ram.Stored position bytes touched ram middle) :
    middle.spanAt address physical physical' = ram.spanAt address physical physical' := by
  funext index
  simp only [Ram.spanAt, stored.position_eq]

/-! ### What the two instructions store -/

/-- The leading instruction stores the bytes in the word of the first one, and no other. -/
theorem Core.Reaches.stored_leading (reaches : core.Reaches ram intent address physical)
    (value physical' : Word) :
    Ram.Stored (ram.spanAt address physical physical') (scatter ram.order .word value)
      (fun index => index + lane address < 4) ram
      (ram.storeAt .word (ram.position (containingWord physical))
        (slideUp ram.order (lane address)
          (ram.valueAt .word (ram.position (containingWord physical))) value)) := by
  apply Ram.stored_word reaches.held.inside
  · intro index within
    refine ⟨index + lane address, within, Ram.spanAt_first within, ?_⟩
    have slid : index + lane address - lane address = index := by omega
    rw [scatter_slideUp _ _ _ _ within, if_pos (by omega), slid]
  · intro place low untouched
    have below : ¬ lane address ≤ place := by
      intro above
      -- This lane is one of those that are stored.
      have within : place - lane address + lane address < 4 := by omega
      have slid : place - lane address + lane address = place := by omega
      apply untouched _ within
      rw [Ram.spanAt_first within, slid]
    rw [scatter_slideUp _ _ _ _ low, if_neg below, Ram.scatter_valueAt _ _ low]

theorem Core.Reaches.stored_trailing (reaches : core.Reaches ram intent address physical)
    (reaches' : core.Reaches ram intent (address + 3) physical') (value : Word) :
    Ram.Stored (ram.spanAt address physical physical') (scatter ram.order .word value)
      (fun index => index < 4 ∧ 3 - lane (address + 3) ≤ index) ram
      (ram.storeAt .word (ram.position (containingWord physical'))
        (slideDown ram.order (3 - lane (address + 3))
          (ram.valueAt .word (ram.position (containingWord physical'))) value)) := by
  apply Ram.stored_word reaches'.held.inside
  · rintro index ⟨inside, beyond⟩
    have low : index - (3 - lane (address + 3)) < 4 := by omega
    refine ⟨_, low, reaches.spanAt_last reaches' inside beyond, ?_⟩
    have slid : index - (3 - lane (address + 3)) + (3 - lane (address + 3)) = index := by omega
    rw [scatter_slideDown _ _ _ _ low, if_pos (by omega), slid]
  · intro place low untouched
    have above : ¬ place + (3 - lane (address + 3)) < 4 := by
      intro below
      have slid : place + (3 - lane (address + 3)) - (3 - lane (address + 3)) = place := by omega
      apply untouched (place + (3 - lane (address + 3))) ⟨below, by omega⟩
      rw [reaches.spanAt_last reaches' below (by omega), slid]
    rw [scatter_slideDown _ _ _ _ low, if_neg above, Ram.scatter_valueAt _ _ low]

end

/-! ### The instructions -/

namespace Core

section

variable {core : Core} {order : ByteOrder} (sameOrder : core.config.byteOrder = order)
  (value address : Word)

include sameOrder

theorem storeOf_leading : core.storeOf (.leading order) value address =
    ⟨.word, address, false, shiftDown order.mirror (lane address) value,
      shiftDown order.mirror (lane address) allBits⟩ := by
  cases order with
  | big =>
    simp only [StoreOp.leading, storeOf, leftShift, sameOrder, ByteOrder.mirror, shiftDown, lane]
  | little =>
    simp only [StoreOp.leading, storeOf, rightShift, sameOrder, ByteOrder.mirror, shiftDown, lane]

theorem storeOf_trailing : core.storeOf (.trailing order) value address =
    ⟨.word, address, false, shiftDown order (3 - lane address) value,
      shiftDown order (3 - lane address) allBits⟩ := by
  cases order with
  | big =>
    simp only [StoreOp.trailing, storeOf, rightShift, sameOrder, toNat_mirror_lane, shiftDown]
  | little =>
    simp only [StoreOp.trailing, storeOf, leftShift, sameOrder, toNat_mirror_lane, shiftDown]

end

end Core

namespace Cpu

section

variable {cpu : Cpu} {ram : Ram} {word first second address physical physical' : Word}
  {rt base base' : RegNum} {outcome : Outcome Ram}

/-- Both instructions store a word that is slid over the one in the memory. -/
theorem Performs.storeWord {op : StoreOp} {toward : ByteOrder} {lanes : Nat}
    (performs : cpu.Performs ram word outcome) (program : cpu.core.space = .program)
    (stores : cpu.core.Stores word op rt base address)
    (asked : cpu.core.storeOf op (cpu.core.reg rt) address =
      ⟨.word, address, false, shiftDown toward lanes (cpu.core.reg rt),
        shiftDown toward lanes allBits⟩)
    (reaches : cpu.core.Reaches ram .write address physical) :
    outcome.notes = [] ∧
      outcome.bus = ram.storeAt .word (ram.position (containingWord physical))
        (slideDown toward lanes
          (ram.valueAt .word (ram.position (containingWord physical))) (cpu.core.reg rt)) ∧
      cpu.core.Agrees outcome.cpu.core := by
  have stored := performs.store stores asked program (reaches.place .word)
    reaches.held.offset_word
  rw [mergeMasked_shiftDown] at stored
  exact stored

theorem Performs.storeLeading (performs : cpu.Performs ram word outcome)
    (sameOrder : cpu.core.config.byteOrder = ram.order) (program : cpu.core.space = .program)
    (stores : cpu.core.Stores word (.leading ram.order) rt base address)
    (reaches : cpu.core.Reaches ram .write address physical) :
    outcome.notes = [] ∧
      outcome.bus = ram.storeAt .word (ram.position (containingWord physical))
        (slideUp ram.order (lane address)
          (ram.valueAt .word (ram.position (containingWord physical))) (cpu.core.reg rt)) ∧
      cpu.core.Agrees outcome.cpu.core :=
  performs.storeWord program stores (Core.storeOf_leading sameOrder _ address) reaches

theorem Performs.storeTrailing (performs : cpu.Performs ram word outcome)
    (sameOrder : cpu.core.config.byteOrder = ram.order) (program : cpu.core.space = .program)
    (stores : cpu.core.Stores word (.trailing ram.order) rt base address)
    (reaches : cpu.core.Reaches ram .write address physical) :
    outcome.notes = [] ∧
      outcome.bus = ram.storeAt .word (ram.position (containingWord physical))
        (slideDown ram.order (3 - lane address)
          (ram.valueAt .word (ram.position (containingWord physical))) (cpu.core.reg rt)) ∧
      cpu.core.Agrees outcome.cpu.core :=
  performs.storeWord program stores (Core.storeOf_trailing sameOrder _ address) reaches

/-- A byte is stored where its address is translated to, whatever the address is. -/
theorem Performs.storeByte {place : Word} {position : Nat}
    (performs : cpu.Performs ram word outcome) (program : cpu.core.space = .program)
    (stores : cpu.core.Stores word .byte rt base address)
    (translated : cpu.core.resolve cpu.core.userMode address .write = .ok place)
    (found : ram.offset .byte place = .ok position) :
    outcome.notes = [] ∧
      outcome.bus = ram.storeAt .byte position ((cpu.core.reg rt).setWidth 8) ∧
      cpu.core.Agrees outcome.cpu.core := by
  have aligned : Width.byte.aligned address = true := by
    simp [Width.aligned, Width.alignMask, hasAny]
  have placed : cpu.core.place ⟨.byte, address, true, .write⟩ = .ok place :=
    Core.place_translated (by simp [Demand.misaligned, aligned]) translated
  have whole (old value : Byte) : mergeMasked old value (fullMask .byte) = value := by
    simp [mergeMasked, fullMask]
  have asked : cpu.core.storeOf .byte (cpu.core.reg rt) address =
      ⟨.byte, address, true, (cpu.core.reg rt).setWidth 8, fullMask .byte⟩ := rfl
  have stored := performs.store stores asked program placed found
  rw [whole] at stored
  exact stored

/-! ### Two words -/

/-- The two instructions, one after the other, store the four bytes of the register. -/
theorem Carries.storePair (carries : cpu.Carries ram [first, second] outcome)
    (sameOrder : cpu.core.config.byteOrder = ram.order) (program : cpu.core.space = .program)
    (leads : cpu.core.Stores first (.leading ram.order) rt base address)
    (trails : cpu.core.Stores second (.trailing ram.order) rt base' (address + 3))
    (reaches : cpu.core.Reaches ram .write address physical)
    (reaches' : cpu.core.Reaches ram .write (address + 3) physical') :
    outcome.notes = [] ∧ cpu.core.Agrees outcome.cpu.core ∧
      Ram.Stored (ram.spanAt address physical physical')
        (scatter ram.order .word (cpu.core.reg rt)) (· < 4) ram outcome.bus := by
  obtain ⟨one, two, performs, performs', rfl⟩ := carries.pair
  obtain ⟨quiet, written, agrees⟩ := performs.storeLeading sameOrder program leads reaches
  have stored := reaches.stored_leading (cpu.core.reg rt) physical'
  rw [← written] at stored
  have sameOrder' : one.cpu.core.config.byteOrder = one.bus.order := by
    rw [agrees.byteOrder, stored.order, sameOrder]
  have trails' := trails.of_base (agrees.reg base')
  rw [← stored.order] at trails'
  obtain ⟨quiet', written', agrees'⟩ := performs'.storeTrailing sameOrder'
    (agrees.space.trans program) trails' (agrees.reaches (reaches'.of_stored stored))
  have stored' := (reaches.of_stored stored).stored_trailing (reaches'.of_stored stored)
    (one.cpu.core.reg rt)
  rw [← written', stored.spanAt_eq, stored.order, agrees.reg] at stored'
  refine ⟨by rw [quiet, quiet']; rfl, agrees.trans agrees', ?_⟩
  have both := stored.trans stored' fun index later within beyond same =>
    reaches.spanAt_apart reaches' (by omega) beyond.1 same
  -- Each of the four bytes is stored by one of the instructions at least.
  have all : (fun index => index + lane address < 4 ∨
      index < 4 ∧ 3 - lane (address + 3) ≤ index) = (· < 4) := by
    funext index
    have either := first_or_last address index
    apply propext
    omega
  rw [all] at both
  exact both

/-! ### Four bytes -/

/-- Stores of single bytes, one after the other, store as many bytes. -/
theorem Carries.storeBytes {words : Nat → Word} {sources bases : Nat → RegNum}
    {bytes : Nat → Byte} {count : Nat}
    (carries : cpu.Carries ram ((List.range count).map words) outcome)
    (program : cpu.core.space = .program)
    (stores : ∀ index < 4, cpu.core.Stores (words index) .byte (sources index) (bases index)
      (address + BitVec.ofNat 32 index))
    (values : ∀ index < 4, (cpu.core.reg (sources index)).setWidth 8 = bytes index)
    (reaches : cpu.core.Reaches ram .write address physical)
    (reaches' : cpu.core.Reaches ram .write (address + 3) physical') (four : count ≤ 4) :
    outcome.notes = [] ∧ cpu.core.Agrees outcome.cpu.core ∧
      Ram.Stored (ram.spanAt address physical physical') bytes (· < count) ram outcome.bus := by
  -- By induction on the number of stores: the last one finds what the others have left.
  induction count generalizing outcome with
  | zero =>
    cases carries with
    | nothing =>
      refine ⟨rfl, .refl _, rfl, rfl, ?_, fun _ _ => rfl⟩
      intro index none
      exact absurd none (Nat.not_lt_zero index)
  | succ count ih =>
    rw [List.range_succ, List.map_append, List.map_singleton] at carries
    obtain ⟨before, after, carried, performs, rfl⟩ := carries.last
    obtain ⟨quiet, agrees, stored⟩ := ih carried (by omega)
    have inside : count < 4 := by omega
    obtain ⟨place, translated, found⟩ := reaches.locates reaches' count inside
    rw [← agrees.resolve] at translated
    rw [← stored.offset_eq] at found
    obtain ⟨quiet', written, agrees'⟩ := performs.storeByte (agrees.space.trans program)
      ((stores count inside).of_base (agrees.reg _)) translated found
    rw [agrees.reg, values count inside] at written
    have stored' : Ram.Stored (ram.spanAt address physical physical') bytes (· = count)
        before.bus after.bus := by
      rw [written]
      exact Ram.stored_byte (Ram.position_of_offset found).2
    have both := stored.trans stored' fun index later earlier same =>
      reaches.spanAt_apart reaches' (by omega) (by omega)
    have all : (fun index => index < count ∨ index = count) = (· < count + 1) := by
      funext index
      apply propext
      omega
    rw [all] at both
    exact ⟨by rw [quiet, quiet']; rfl, agrees.trans agrees', both⟩

end

end Cpu

/-! ### Loading back -/

/-- A key that a single entry covers is answered the same for reading as for writing. -/
theorem Tlb.lookup_read_of_write {tlb : Tlb} {key frame : Word} (complete : tlb.Complete)
    (only : ∀ slot other, (tlb.entry slot).covers key = true →
      (tlb.entry other).covers key = true → slot = other)
    (hit : tlb.lookup key .write = .hit frame) : tlb.lookup key .read = .hit frame := by
  cases found : tlb.firstCovering key .write with
  | none => simp [lookup, found] at hit
  | some slot =>
    have covers : (tlb.entry slot).covers key = true := (List.find?_some found :)
    have answered : (tlb.entry slot).answer .write = .hit frame := by
      simpa only [lookup, found] using hit
    rw [lookup_of_unique complete covers (fun other covering => only other slot covering covers)]
    -- What may be written may be read.
    cases valid : (tlb.entry slot).valid with
    | false => simp [TlbEntry.answer, valid] at answered
    | true =>
      cases dirty : (tlb.entry slot).dirty with
      | false => simp [TlbEntry.answer, valid, dirty] at answered
      | true => simpa [TlbEntry.answer, valid, dirty] using answered

namespace Core

/-- No two entries of a buffer that is searched answer for the address. -/
def Unambiguous (core : Core) (address : Word) : Prop :=
  ∀ buffer, core.mmu = .tlb buffer → ∀ slot other,
    (buffer.entry slot).covers (searchKey address core.system.entryHi) = true →
      (buffer.entry other).covers (searchKey address core.system.entryHi) = true → slot = other

theorem Reaches.read_of_write {core : Core} {ram : Ram} {address physical : Word}
    (reaches : core.Reaches ram .write address physical) (complete : core.mmu.Complete)
    (unambiguous : core.Unambiguous address) : core.Reaches ram .read address physical := by
  refine ⟨?_, reaches.held⟩
  have translated := reaches.translated
  simp only [resolve] at translated ⊢
  cases routed : route core.userMode address with
  | unmapped place => simpa only [routed] using translated
  | refused => simp [routed] at translated
  | mapped =>
    simp only [routed] at translated ⊢
    cases hardware : core.mmu with
    | fixed | bypass buffer => simpa only [hardware, Mmu.translate] using translated
    | tlb buffer =>
      simp only [hardware, Mmu.translate] at translated ⊢
      cases answer : buffer.lookup (searchKey address core.system.entryHi) .write with
      | hit frame =>
        have same := Tlb.lookup_read_of_write (complete buffer (by rw [hardware]; rfl))
          (unambiguous buffer hardware) answer
        simpa only [answer, same] using translated
      | miss | invalid | modified => simp [answer] at translated

end Core

namespace Cpu

/-- The outcome of storing a word at an address, aligned or not. -/
structure StoresWord (cpu : Cpu) (ram : Ram) (address value : Word) (outcome : Outcome Ram) :
    Prop where
  quiet : outcome.notes = []
  registers : outcome.cpu.core.registers = cpu.core.registers
  /-- The bytes of the word are where the four addresses lie, and no other byte has changed. -/
  bytes : ∃ position : Nat → Nat, cpu.core.Locates ram .write address position ∧
    Ram.Stored position (scatter cpu.core.config.byteOrder .word value) (· < 4) ram outcome.bus
  /-- Stores of single bytes leave the same memory. -/
  bytewise : ∀ (words : Nat → Word) (sources bases : Nat → RegNum) (stored : Outcome Ram),
    (∀ index < 4, cpu.core.Stores (words index) .byte (sources index) (bases index)
      (address + BitVec.ofNat 32 index)) →
    (∀ index < 4, (cpu.core.reg (sources index)).setWidth 8 =
      scatter cpu.core.config.byteOrder .word value index) →
    cpu.Carries ram ((List.range 4).map words) stored →
      stored.notes = [] ∧ outcome.bus = stored.bus
  /-- If a single entry answers for the first byte and for the last, a pair of loads brings the
  word back. -/
  loadBack : cpu.core.mmu.Complete → cpu.core.Unambiguous address →
    cpu.core.Unambiguous (address + 3) →
    ∀ (lead trail : Word) (target source source' : RegNum) (loaded : Outcome Ram),
      target ≠ 0 → source' ≠ target →
      outcome.cpu.core.Loads lead (.leading cpu.core.config.byteOrder) target source address →
      outcome.cpu.core.Loads trail (.trailing cpu.core.config.byteOrder) target source'
        (address + 3) →
      outcome.cpu.Carries outcome.bus [lead, trail] loaded →
        loaded.notes = [] ∧ loaded.bus = outcome.bus ∧ loaded.cpu.core.reg target = value

section

variable {cpu : Cpu} {ram : Ram} {first second address physical physical' : Word}
  {rt base base' : RegNum}

/-- A pair of stores of an unaligned word is four stores of bytes. In either byte order, when the
first and the last of four bytes are translated for writing and the memory holds the words around
them, the pair is carried out without an exception. The memory is then what stores of single
bytes would leave, and a pair of loads brings the word back. The words may lie on different
pages. -/
theorem unaligned_store_eq_bytes (sameOrder : ram.order = cpu.core.config.byteOrder)
    (program : cpu.core.space = .program)
    (reaches : cpu.core.Reaches ram .write address physical)
    (reaches' : cpu.core.Reaches ram .write (address + 3) physical')
    (leads : cpu.core.Stores first (.leading cpu.core.config.byteOrder) rt base address)
    (trails : cpu.core.Stores second (.trailing cpu.core.config.byteOrder) rt base' (address + 3)) :
    (∃ outcome, cpu.Carries ram [first, second] outcome) ∧
      ∀ outcome, cpu.Carries ram [first, second] outcome →
        cpu.StoresWord ram address (cpu.core.reg rt) outcome := by
  rw [← sameOrder] at leads trails
  refine ⟨cpu.exists_carries ram _, ?_⟩
  intro outcome carries
  obtain ⟨quiet, agrees, stored⟩ :=
    carries.storePair sameOrder.symm program leads trails reaches reaches'
  constructor
  case quiet => exact quiet
  case registers => exact agrees.registers
  case bytes =>
    rw [← sameOrder]
    exact ⟨_, reaches.locates reaches', stored⟩
  case bytewise =>
    intro words sources bases bytewise stores values carried
    rw [← sameOrder] at values
    obtain ⟨quiet', -, stored'⟩ :=
      carried.storeBytes program stores values reaches reaches' (Nat.le_refl 4)
    exact ⟨quiet', stored'.unique stored⟩
  case loadBack =>
    intro complete only only' lead trail target source source' loaded written apart loads loads'
      carried
    -- The stores have moved nothing that the loads look for.
    have readable := agrees.reaches ((reaches.read_of_write complete only).of_stored stored)
    have readable' := agrees.reaches ((reaches'.read_of_write complete only').of_stored stored)
    rw [← sameOrder, ← stored.order] at loads loads'
    obtain ⟨quiet', kept, registers⟩ := carried.loadPair
      (by rw [agrees.byteOrder, stored.order, sameOrder]) (agrees.space.trans program) loads loads'
      readable readable' written apart
    refine ⟨quiet', kept, ?_⟩
    rw [Core.reg, registers, Registers.read_write, if_pos ⟨rfl, written⟩, stored.spanAt_eq,
      gather_congr _ stored.stored, stored.order]
    exact gather_scatter ram.order .word (cpu.core.reg rt)

end

/-- Only the entry in slot 5 answers for the first page, and only that in slot 6 for the second. -/
theorem crossing_unambiguous :
    crossing.core.mmu.Complete ∧ crossing.core.Unambiguous 0x1ffe ∧
      crossing.core.Unambiguous 0x2001 := by
  have reached : crossing.Reachable :=
    ⟨.ofModel .r3000A, Leads.refl.operateAll twoWords fun _ _ => trivial⟩
  have first : ∀ buffer ∈ crossing.core.mmu.buffer?, ∀ slot,
      (buffer.entry slot).covers (searchKey 0x1ffe crossing.core.system.entryHi) =
        decide (slot = 5) := by decide +kernel
  have second : ∀ buffer ∈ crossing.core.mmu.buffer?, ∀ slot,
      (buffer.entry slot).covers (searchKey 0x2001 crossing.core.system.entryHi) =
        decide (slot = 6) := by decide +kernel
  refine ⟨reached.complete, ?_, ?_⟩
  · intro buffer hardware slot other covers covers'
    have only := first buffer (by rw [hardware]; rfl)
    rw [only, decide_eq_true_eq] at covers covers'
    rw [covers, covers']
  · intro buffer hardware slot other covers covers'
    have only := second buffer (by rw [hardware]; rfl)
    rw [only, decide_eq_true_eq] at covers covers'
    rw [covers, covers']

/-- Register 1 is stored across the end of a page, two bytes on each side, and loaded back into
register 3. -/
theorem unaligned_store_eq_bytes_crossing :
    ∃ outcome loaded, crossing.Carries twoWords [0xa8410000, 0xb8410003] outcome ∧
      outcome.notes = [] ∧
      outcome.bus.data = #[0x11, 0x22, 0xaa, 0xbb, 0xcc, 0xdd, 0x77, 0x88] ∧
      outcome.cpu.Carries outcome.bus [0x88430000, 0x98430003] loaded ∧
      loaded.notes = [] ∧ loaded.cpu.core.reg 3 = 0xaabbccdd := by
  obtain ⟨reaches, reaches'⟩ := crossing_reaches .write
  obtain ⟨complete, only, only'⟩ := crossing_unambiguous
  have leads : crossing.core.Stores 0xa8410000 .wordLeft 1 2 0x1ffe := ⟨0, by decide, rfl⟩
  have trails : crossing.core.Stores 0xb8410003 .wordRight 1 2 (0x1ffe + 3) :=
    ⟨3, by decide, rfl⟩
  obtain ⟨-, store⟩ := unaligned_store_eq_bytes rfl rfl reaches reaches' leads trails
  have carries : crossing.Carries twoWords [0xa8410000, 0xb8410003] _ :=
    .next .given (.next .given (.nothing _ _))
  have stored := store _ carries
  have loads := stored.loadBack complete only only' 0x88430000 0x98430003 3 2 2 _ (by decide)
    (by decide) ⟨0, by decide, rfl⟩ ⟨3, by decide, rfl⟩ (.next .given (.next .given (.nothing _ _)))
  exact ⟨_, _, carries, stored.quiet, by decide +kernel,
    .next .given (.next .given (.nothing _ _)), loads.1, loads.2.2⟩

end Cpu

end R3000
