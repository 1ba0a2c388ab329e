import R3000.Proofs.Carrying
import R3000.Proofs.MemoryBytes
import R3000.Proofs.Reachability

/-!
# Loads of unaligned words

The four bytes from some address on lie in one aligned word or in two. One instruction loads
those in the word of the first byte, the other those in the word of the last; which is which
depends on the byte order. Each slides the bytes that it brings to their lanes in the register,
and leaves the other lanes alone.

The two words may lie on different pages, so each is found by a translation of its own. What the
argument needs is where each of the four bytes lies in the memory, and that both instructions and
the loads of single bytes find it there.
-/
namespace R3000

/-- The instruction that loads the bytes in the word of the first one. -/
def LoadOp.leading : ByteOrder → LoadOp
  | .big => wordLeft
  | .little => wordRight

/-- The instruction that loads the bytes in the word of the last one. -/
def LoadOp.trailing : ByteOrder → LoadOp
  | .big => wordRight
  | .little => wordLeft

/-! ### Four bytes in the memory -/

/-- The bytes that follow the first one in its word. -/
theorem sameWord_first {address : Word} {index : Nat} (within : index + lane address < 4) :
    containingWord (address + BitVec.ofNat 32 index) = containingWord address ∧
      lane (address + BitVec.ofNat 32 index) = index + lane address := by
  have low : lane address = address.toNat % 4 := lane_eq address
  have sum : (address + BitVec.ofNat 32 index).toNat = address.toNat + index := by
    rw [BitVec.toNat_add, BitVec.toNat_ofNat]
    omega
  have lanes : lane (address + BitVec.ofNat 32 index) = index + lane address := by
    rw [lane_eq, sum]
    omega
  refine ⟨BitVec.eq_of_toNat_eq ?_, lanes⟩
  rw [toNat_containingWord, toNat_containingWord, lanes, sum]
  omega

/-- The bytes that lead up to the last one in its word. -/
theorem sameWord_last {address : Word} {index : Nat} (inside : index < 4)
    (beyond : 3 - lane (address + 3) ≤ index) :
    containingWord (address + BitVec.ofNat 32 index) = containingWord (address + 3) ∧
      lane (address + BitVec.ofNat 32 index) = index - (3 - lane (address + 3)) := by
  have low : lane (address + 3) = (address + 3).toNat % 4 := lane_eq _
  have back : (address + BitVec.ofNat 32 index).toNat = (address + 3).toNat - (3 - index) := by
    have last : (address + 3).toNat = (address.toNat + 3) % 2 ^ 32 := BitVec.toNat_add ..
    rw [BitVec.toNat_add, BitVec.toNat_ofNat]
    omega
  have lanes : lane (address + BitVec.ofNat 32 index) = index - (3 - lane (address + 3)) := by
    rw [lane_eq, back]
    omega
  refine ⟨BitVec.eq_of_toNat_eq ?_, lanes⟩
  rw [toNat_containingWord, toNat_containingWord, lanes, back]
  omega

/-- Each of four bytes follows the first one in its word, or leads up to the last one in its. -/
theorem first_or_last (address : Word) (index : Nat) :
    index + lane address < 4 ∨ 3 - lane (address + 3) ≤ index := by
  have last : (address + 3).toNat = (address.toNat + 3) % 2 ^ 32 := BitVec.toNat_add ..
  rw [lane_eq, lane_eq, last]
  omega

namespace Core

/-- A data address is translated, and the memory holds the word around the physical address. -/
structure Reaches (core : Core) (ram : Ram) (intent : Intent) (address physical : Word) :
    Prop where
  translated : core.resolve core.userMode address intent = .ok physical
  held : ram.Holds (containingWord physical)

section

variable {core : Core} {ram : Ram} {intent : Intent} {address physical : Word}

/-- Every byte of the word is found in its lane. -/
theorem Reaches.byte (reaches : core.Reaches ram intent address physical) {other : Word}
    (same : containingWord other = containingWord address) :
    ∃ place, core.resolve core.userMode other intent = .ok place ∧
      ram.offset .byte place = .ok (ram.position (containingWord physical) + lane other) := by
  have inside : lane other < 4 := by
    rw [lane_eq]
    omega
  exact ⟨_, resolve_of_sameWord same reaches.translated, reaches.held.offset_byte inside⟩

theorem Reaches.read (reaches : core.Reaches ram intent address physical) :
    ram.read .word (containingWord physical) =
      .ok (ram.valueAt .word (ram.position (containingWord physical))) := by
  simp only [Ram.read, reaches.held.offset_word, Except.map]

theorem Agrees.reaches {other : Core} (agrees : core.Agrees other)
    (reaches : core.Reaches ram intent address physical) :
    other.Reaches ram intent address physical where
  translated := (agrees.resolve address intent).trans reaches.translated
  held := reaches.held

/-- The word is the place of an access that need not be aligned. -/
theorem Reaches.place (reaches : core.Reaches ram intent address physical) (width : Width) :
    core.place ⟨width, address, false, intent⟩ = .ok (containingWord physical) :=
  place_translated rfl reaches.translated

end

end Core

/-- Where the four bytes from an address on lie in the memory, when the first and the last are
translated to these physical addresses. -/
def Ram.spanAt (ram : Ram) (address physical physical' : Word) (index : Nat) : Nat :=
  if index + lane address < 4 then
    ram.position (containingWord physical) + (index + lane address)
  else ram.position (containingWord physical') + (index - (3 - lane (address + 3)))

section

variable {core : Core} {ram : Ram} {intent : Intent} {address physical physical' : Word}
  {index : Nat}

theorem Ram.spanAt_first (within : index + lane address < 4) :
    ram.spanAt address physical physical' index =
      ram.position (containingWord physical) + (index + lane address) := if_pos within

/-- Four bytes that make up a word are found the same from both ends. -/
theorem Core.Reaches.spanAt_last (first : core.Reaches ram intent address physical)
    (last : core.Reaches ram intent (address + 3) physical') (inside : index < 4)
    (beyond : 3 - lane (address + 3) ≤ index) :
    ram.spanAt address physical physical' index =
      ram.position (containingWord physical') + (index - (3 - lane (address + 3))) := by
  by_cases within : index + lane address < 4
  · -- The byte lies in the word of the first one and in that of the last, and is translated once.
    obtain ⟨word, lanes⟩ := sameWord_first within
    obtain ⟨word', lanes'⟩ := sameWord_last inside beyond
    obtain ⟨place, translated, found⟩ := first.byte word
    obtain ⟨place', translated', found'⟩ := last.byte word'
    have same : place = place' := Except.ok.inj (translated.symm.trans translated')
    subst same
    rw [lanes] at found
    rw [lanes'] at found'
    rw [Ram.spanAt_first within]
    exact Except.ok.inj (found.symm.trans found')
  · exact if_neg within

/-- The addresses of four bytes are translated, each to a place at its position in the memory. -/
def Core.Locates (core : Core) (ram : Ram) (intent : Intent) (address : Word)
    (position : Nat → Nat) : Prop :=
  ∀ index < 4, ∃ place,
    core.resolve core.userMode (address + BitVec.ofNat 32 index) intent = .ok place ∧
      ram.offset .byte place = .ok (position index)

theorem Core.Reaches.locates (first : core.Reaches ram intent address physical)
    (last : core.Reaches ram intent (address + 3) physical') :
    core.Locates ram intent address (ram.spanAt address physical physical') := by
  intro index inside
  rcases first_or_last address index with within | beyond
  · obtain ⟨word, lanes⟩ := sameWord_first within
    obtain ⟨place, translated, found⟩ := first.byte word
    refine ⟨place, translated, ?_⟩
    rw [found, Ram.spanAt_first within, lanes]
  · obtain ⟨word, lanes⟩ := sameWord_last inside beyond
    obtain ⟨place, translated, found⟩ := last.byte word
    refine ⟨place, translated, ?_⟩
    rw [found, first.spanAt_last last inside beyond, lanes]

end

/-! ### The two instructions -/

/-- Of two writes to a register the second counts. -/
theorem Registers.write_write (registers : Registers) (reg : RegNum) (value later : Word) :
    (registers.write reg value).write reg later = registers.write reg later := by
  by_cases zero : reg = 0
  · simp only [write, zero, if_true]
  · simp only [write, zero, if_false, Vector.set_set]

theorem Core.reg_setReg {core : Core} {reg : RegNum} {value : Word} (target : reg ≠ 0) :
    (core.setReg reg value).reg reg = value := by
  rw [Core.reg, Core.setReg, Registers.read_write, if_pos ⟨rfl, target⟩]

theorem Core.reg_setReg_of_ne {core : Core} {reg other : RegNum} (value : Word)
    (apart : other ≠ reg) : (core.setReg reg value).reg other = core.reg other := by
  rw [Core.reg, Core.setReg, Registers.read_write, if_neg fun same => apart same.1]
  rfl

/-- A loaded word goes to a register, its bytes slid down over those that are there. -/
def Destination.sliding (order : ByteOrder) (rt : RegNum) (lanes : Nat) : Destination :=
  match order with
  | .big => .left rt (8 * lanes)
  | .little => .right rt (8 * lanes)

namespace Core

theorem receive_sliding (core : Core) (order : ByteOrder) (rt : RegNum) (lanes : Nat)
    (value : BitVec Width.word.bits) :
    core.receive (.sliding order rt lanes) value =
      core.setReg rt (slideDown order lanes (core.reg rt) value) := by
  cases order <;> simp only [Destination.sliding, Core.receive, BitVec.setWidth_eq, slideDown]

section

variable {core : Core} {order : ByteOrder} (sameOrder : core.config.byteOrder = order)
  (rt : RegNum) (address : Word)

include sameOrder

theorem loadOf_leading : core.loadOf (.leading order) rt address =
    ⟨.word, address, false, .sliding order rt (lane address)⟩ := by
  cases order with
  | big => simp only [LoadOp.leading, loadOf, leftShift, sameOrder, Destination.sliding, lane]
  | little => simp only [LoadOp.leading, loadOf, rightShift, sameOrder, Destination.sliding, lane]

theorem loadOf_trailing : core.loadOf (.trailing order) rt address =
    ⟨.word, address, false, .sliding order.mirror rt (3 - lane address)⟩ := by
  cases order with
  | big =>
    simp only [LoadOp.trailing, loadOf, rightShift, sameOrder, toNat_mirror_lane,
      ByteOrder.mirror, Destination.sliding]
  | little =>
    simp only [LoadOp.trailing, loadOf, leftShift, sameOrder, toNat_mirror_lane,
      ByteOrder.mirror, Destination.sliding]

end

end Core

namespace Cpu

section

variable {cpu : Cpu} {ram : Ram} {word address physical : Word} {rt base : RegNum}
  {outcome : Outcome Ram}

/-- Both instructions load a word and slide it over the register, in one direction or the other. -/
theorem Performs.loadWord {op : LoadOp} {toward : ByteOrder} {lanes : Nat}
    (performs : cpu.Performs ram word outcome) (program : cpu.core.space = .program)
    (loads : cpu.core.Loads word op rt base address)
    (asked : cpu.core.loadOf op rt address = ⟨.word, address, false, .sliding toward rt lanes⟩)
    (reaches : cpu.core.Reaches ram .read address physical) :
    outcome.notes = [] ∧ outcome.bus = ram ∧
      (cpu.core.setReg rt (slideDown toward lanes (cpu.core.reg rt)
        (ram.valueAt .word (ram.position (containingWord physical))))).Agrees
        outcome.cpu.core := by
  have loaded := performs.load loads asked program (reaches.place .word) reaches.read
  rw [Core.receive_sliding] at loaded
  exact loaded

theorem Performs.loadLeading (performs : cpu.Performs ram word outcome)
    (sameOrder : cpu.core.config.byteOrder = ram.order) (program : cpu.core.space = .program)
    (loads : cpu.core.Loads word (.leading ram.order) rt base address)
    (reaches : cpu.core.Reaches ram .read address physical) :
    outcome.notes = [] ∧ outcome.bus = ram ∧
      (cpu.core.setReg rt (slideDown ram.order (lane address) (cpu.core.reg rt)
        (ram.valueAt .word (ram.position (containingWord physical))))).Agrees
        outcome.cpu.core :=
  performs.loadWord program loads (Core.loadOf_leading sameOrder rt address) reaches

theorem Performs.loadTrailing (performs : cpu.Performs ram word outcome)
    (sameOrder : cpu.core.config.byteOrder = ram.order) (program : cpu.core.space = .program)
    (loads : cpu.core.Loads word (.trailing ram.order) rt base address)
    (reaches : cpu.core.Reaches ram .read address physical) :
    outcome.notes = [] ∧ outcome.bus = ram ∧
      (cpu.core.setReg rt (slideUp ram.order (3 - lane address) (cpu.core.reg rt)
        (ram.valueAt .word (ram.position (containingWord physical))))).Agrees
        outcome.cpu.core :=
  performs.loadWord program loads (Core.loadOf_trailing sameOrder rt address) reaches

/-- Sliding the first bytes down and the last ones up leaves nothing of the old word. -/
theorem slide_span {core : Core} {physical' : Word} {intent : Intent}
    (reaches : core.Reaches ram intent address physical)
    (reaches' : core.Reaches ram intent (address + 3) physical') (old : Word) :
    slideUp ram.order (3 - lane (address + 3))
        (slideDown ram.order (lane address) old
          (ram.valueAt .word (ram.position (containingWord physical))))
        (ram.valueAt .word (ram.position (containingWord physical'))) =
      gather ram.order .word fun index =>
        ram.byteAt (ram.spanAt address physical physical' index) := by
  apply eq_gather
  intro index inside
  rw [scatter_slideUp _ _ _ _ inside]
  -- The second instruction covers some of what the first has brought, with the same bytes.
  by_cases beyond : 3 - lane (address + 3) ≤ index
  · rw [if_pos beyond, Ram.scatter_valueAt _ _ (by omega),
      reaches.spanAt_last reaches' inside beyond]
  · have within := (first_or_last address index).resolve_right beyond
    rw [if_neg beyond, scatter_slideDown _ _ _ _ inside, if_pos within,
      Ram.scatter_valueAt _ _ within, Ram.spanAt_first within]

end

section

variable {cpu : Cpu} {ram : Ram} {first second address physical physical' : Word}
  {rt base base' : RegNum} {outcome : Outcome Ram}

/-- The two instructions, one after the other, assemble the four bytes. -/
theorem Carries.loadPair (carries : cpu.Carries ram [first, second] outcome)
    (sameOrder : cpu.core.config.byteOrder = ram.order) (program : cpu.core.space = .program)
    (leads : cpu.core.Loads first (.leading ram.order) rt base address)
    (trails : cpu.core.Loads second (.trailing ram.order) rt base' (address + 3))
    (reaches : cpu.core.Reaches ram .read address physical)
    (reaches' : cpu.core.Reaches ram .read (address + 3) physical')
    (target : rt ≠ 0) (apart : base' ≠ rt) :
    outcome.notes = [] ∧ outcome.bus = ram ∧
      outcome.cpu.core.registers = cpu.core.registers.write rt
        (gather ram.order .word fun index =>
          ram.byteAt (ram.spanAt address physical physical' index)) := by
  obtain ⟨one, two, performs, performs', rfl⟩ := carries.pair
  obtain ⟨quiet, kept, agrees⟩ := performs.loadLeading sameOrder program leads reaches
  rw [kept] at performs'
  -- The first instruction changes the register it loads to, which is not the base of the second.
  have sameBase : one.cpu.core.reg base' = cpu.core.reg base' := by
    rw [agrees.reg base', Core.reg_setReg_of_ne _ apart]
  have still : one.cpu.core.Reaches ram .read (address + 3) physical' :=
    agrees.reaches ⟨reaches'.translated, reaches'.held⟩
  obtain ⟨quiet', kept', agrees'⟩ := performs'.loadTrailing (agrees.byteOrder.trans sameOrder)
    (agrees.space.trans program) (trails.of_base sameBase) still
  -- What the second slides its word over is what the first has left.
  have loaded := agrees.reg rt
  rw [Core.reg_setReg target] at loaded
  refine ⟨by rw [quiet, quiet']; rfl, kept', ?_⟩
  rw [agrees'.registers, loaded, slide_span reaches reaches']
  calc
    (one.cpu.core.setReg rt _).registers = one.cpu.core.registers.write rt _ := rfl
    _ = (cpu.core.setReg rt _).registers.write rt _ := by rw [agrees.registers]
    _ = cpu.core.registers.write rt _ := Registers.write_write _ _ _ _

/-- A byte is found where its address is translated to, whatever the address is. -/
theorem Performs.loadByte {word place : Word} {position : Nat}
    (performs : cpu.Performs ram word outcome) (program : cpu.core.space = .program)
    (loads : cpu.core.Loads word .byteUnsigned rt base address)
    (translated : cpu.core.resolve cpu.core.userMode address .read = .ok place)
    (found : ram.offset .byte place = .ok position) :
    outcome.notes = [] ∧ outcome.bus = ram ∧
      (cpu.core.setReg rt ((ram.byteAt position).setWidth 32)).Agrees outcome.cpu.core := by
  have aligned : Width.byte.aligned address = true := by
    simp [Width.aligned, Width.alignMask, hasAny]
  have placed : cpu.core.place ⟨.byte, address, true, .read⟩ = .ok place :=
    Core.place_translated (by simp [Demand.misaligned, aligned]) translated
  have read : ram.read .byte place = .ok (ram.byteAt position) := by
    simp only [Ram.read, found, Except.map, Ram.valueAt_byte]
  exact performs.load loads rfl program placed read

/-- A pair of loads of an unaligned word is four loads of bytes. In either byte order, when the
first and the last of four bytes are translated and the memory holds the words around them, the
pair is carried out without an exception, leaves the memory as it is, and assembles in its
register the bytes that loads of single bytes bring from the four addresses. The words may lie on
different pages, and what the register held before does not matter. -/
theorem unaligned_load_eq_bytes (sameOrder : ram.order = cpu.core.config.byteOrder)
    (program : cpu.core.space = .program)
    (reaches : cpu.core.Reaches ram .read address physical)
    (reaches' : cpu.core.Reaches ram .read (address + 3) physical')
    (leads : cpu.core.Loads first (.leading cpu.core.config.byteOrder) rt base address)
    (trails : cpu.core.Loads second (.trailing cpu.core.config.byteOrder) rt base' (address + 3))
    (target : rt ≠ 0) (apart : base' ≠ rt) :
    ∃ position : Nat → Nat, cpu.core.Locates ram .read address position ∧
      (∀ index < 4, ∀ (word : Word) (target source : RegNum) (loaded : Outcome Ram), target ≠ 0 →
        cpu.core.Loads word .byteUnsigned target source (address + BitVec.ofNat 32 index) →
        cpu.Performs ram word loaded →
          loaded.notes = [] ∧ loaded.bus = ram ∧
            loaded.cpu.core.reg target = (ram.byteAt (position index)).setWidth 32) ∧
      (∃ outcome, cpu.Carries ram [first, second] outcome) ∧
      ∀ outcome, cpu.Carries ram [first, second] outcome →
        outcome.notes = [] ∧ outcome.bus = ram ∧
          outcome.cpu.core.reg rt =
            gather cpu.core.config.byteOrder .word (fun index => ram.byteAt (position index)) ∧
          ∀ reg ≠ rt, outcome.cpu.core.reg reg = cpu.core.reg reg := by
  rw [← sameOrder] at leads trails ⊢
  have located := reaches.locates reaches'
  refine ⟨ram.spanAt address physical physical', located, ?_, cpu.exists_carries ram _, ?_⟩
  · intro index inside word other source loaded written loads performs
    obtain ⟨place, translated, found⟩ := located index inside
    obtain ⟨quiet, kept, agrees⟩ := performs.loadByte program loads translated found
    refine ⟨quiet, kept, ?_⟩
    rw [agrees.reg, Core.reg_setReg written]
  · intro outcome carries
    obtain ⟨quiet, kept, registers⟩ := carries.loadPair sameOrder.symm program leads trails
      reaches reaches' target apart
    refine ⟨quiet, kept, ?_, ?_⟩
    · rw [Core.reg, registers, Registers.read_write, if_pos ⟨rfl, target⟩]
    · intro reg other
      rw [Core.reg, registers, Registers.read_write, if_neg fun same => other same.1]
      rfl

end

/-- The last word of one frame and the first of the next. -/
def twoWords : Ram where
  base := 0x4ffc
  order := .big
  faults := []
  data := #[0x11, 0x22, 0x33, 0x44, 0x55, 0x66, 0x77, 0x88]

/-- Slots 5 and 6 map two pages of user space to the two frames. Register 2 points to the last
two bytes of the first page. -/
def mapFrames : List Operation :=
  [.setSystemReg 10 0x1000, .setSystemReg 2 0x4600, .setSystemReg 0 0x500, .execute 0x42000002,
    .setSystemReg 10 0x2000, .setSystemReg 2 0x5600, .setSystemReg 0 0x600, .execute 0x42000002,
    .setGpr 1 0xaabbccdd, .setGpr 2 0x1ffe]

def crossing : Cpu := (Cpu.build (.ofModel .r3000A)).1.operateAll twoWords mapFrames

theorem crossing_reaches (intent : Intent) :
    crossing.core.Reaches twoWords intent 0x1ffe 0x4ffe ∧
      crossing.core.Reaches twoWords intent 0x2001 0x5001 := by
  have sound (place : Word) : ∀ index < 4,
      twoWords.faults.any (·.contains (place + BitVec.ofNat 32 index)) = false := by
    intro index inside
    rfl
  constructor
  · refine ⟨?_, .of_size (by decide) (by decide) (sound _)⟩
    cases intent <;> rfl
  · refine ⟨?_, .of_size (by decide) (by decide) (sound _)⟩
    cases intent <;> rfl

/-- Two bytes come from each page, and nothing is left of what register 1 held. -/
theorem unaligned_load_eq_bytes_crossing :
    ∃ outcome, crossing.Carries twoWords [0x88410000, 0x98410003] outcome ∧
      outcome.notes = [] ∧ outcome.bus = twoWords ∧ outcome.cpu.core.reg 1 = 0x33445566 := by
  obtain ⟨reaches, reaches'⟩ := crossing_reaches .read
  have leads : crossing.core.Loads 0x88410000 .wordLeft 1 2 0x1ffe := ⟨0, by decide, rfl⟩
  have trails : crossing.core.Loads 0x98410003 .wordRight 1 2 (0x1ffe + 3) := ⟨3, by decide, rfl⟩
  obtain ⟨position, -, loads, ⟨outcome, carries⟩, assembled⟩ := unaligned_load_eq_bytes rfl rfl
    reaches reaches' leads trails (by decide) (by decide)
  obtain ⟨quiet, kept, loaded, -⟩ := assembled outcome carries
  have decoded : ∀ index < 4, decode (0x90430000 + BitVec.ofNat 32 index) =
      .load .byteUnsigned 3 2 (BitVec.ofNat 32 index) := by decide
  have single : ∀ index < 4,
      (crossing.execute twoWords (0x90430000 + BitVec.ofNat 32 index)).cpu.core.reg 3 =
        (twoWords.byteAt (2 + index)).setWidth 32 := by decide +kernel
  have bytes : ∀ index < 4, twoWords.byteAt (position index) = twoWords.byteAt (2 + index) := by
    intro index inside
    obtain ⟨-, -, brought⟩ := loads index inside _ 3 2 _ (by decide)
      ⟨_, decoded index inside, rfl⟩ .given
    have wide := brought.symm.trans (single index inside)
    simpa using congrArg (BitVec.setWidth 8) wide
  refine ⟨outcome, carries, quiet, kept, ?_⟩
  rw [loaded, gather_congr _ bytes]
  decide

end Cpu

end R3000
