import Mathlib.Algebra.BigOperators.Intervals
import R3000.Proofs.MemoryBytes
import R3000.Proofs.Requests

/-!
# Memory as single bytes

The plain picture of a memory is a byte at every address of a region, which may reach around the
top of the address space. A value of several bytes is the sum of its bytes, each of a weight that
the byte order says, and a masked write changes each byte by its part of the mask.

A block of random access memory without faulty ranges is such a memory: it gives the same
replies to all requests and holds the same bytes after them.
-/
namespace R3000

/-! ### Values as sums of bytes -/

/-- How many bytes of a value count less than the byte at an offset. -/
def ByteOrder.rank (order : ByteOrder) (width : Width) (index : Nat) : Nat :=
  match order with
  | .little => index
  | .big => width.bytes - 1 - index

/-- The value with given bytes at the successive offsets. -/
def assemble (order : ByteOrder) (width : Width) (bytes : Nat → Byte) : BitVec width.bits :=
  BitVec.ofNat width.bits
    (∑ index ∈ Finset.range width.bytes, (bytes index).toNat * 256 ^ order.rank width index)

/-- The byte of a value at an offset. -/
def byteOf (order : ByteOrder) (width : Width) (value : BitVec width.bits) (index : Nat) : Byte :=
  BitVec.ofNat 8 (value.toNat / 256 ^ order.rank width index)

theorem shift_eq_rank (order : ByteOrder) (width : Width) (index : Nat) :
    order.shift width index = 8 * order.rank width index := by
  cases order <;> rfl

theorem scatter_eq_byteOf (order : ByteOrder) (width : Width) (value : BitVec width.bits) :
    scatter order width value = byteOf order width value := by
  funext index
  have weight : 2 ^ order.shift width index = 256 ^ order.rank width index := by
    rw [shift_eq_rank, Nat.pow_mul]
  simp only [scatter, byteOf, BitVec.extractLsb', Nat.shiftRight_eq_div_pow, weight]

theorem assemble_congr {order : ByteOrder} {width : Width} {bytes other : Nat → Byte}
    (same : ∀ index < width.bytes, bytes index = other index) :
    assemble order width bytes = assemble order width other := by
  apply congrArg (BitVec.ofNat width.bits)
  apply Finset.sum_congr rfl
  intro index member
  rw [same index (Finset.mem_range.mp member)]

/-- The low digits of a number add up to its remainder. -/
theorem sum_digits (number count : Nat) :
    ∑ rank ∈ Finset.range count, number / 256 ^ rank % 256 * 256 ^ rank = number % 256 ^ count := by
  induction count with
  | zero => simp [Nat.mod_one]
  | succ count ih => rw [Finset.sum_range_succ, ih, Nat.mod_pow_succ, Nat.mul_comm (256 ^ count)]

/-- A value is the sum of its bytes. -/
theorem assemble_byteOf (order : ByteOrder) (width : Width) (value : BitVec width.bits) :
    assemble order width (byteOf order width value) = value := by
  let digit (rank : Nat) : Nat := value.toNat / 256 ^ rank % 256 * 256 ^ rank
  have ranked : ∑ index ∈ Finset.range width.bytes, digit (order.rank width index) =
      ∑ rank ∈ Finset.range width.bytes, digit rank := by
    cases order with
    | little => rfl
    -- The ranks run through the same numbers from the other end.
    | big => exact Finset.sum_range_reflect digit width.bytes
  have weight : 2 ^ width.bits = 256 ^ width.bytes := by
    rw [Width.bits_eq, Nat.pow_mul]
  apply BitVec.eq_of_toNat_eq
  calc
    (assemble order width (byteOf order width value)).toNat =
        (∑ index ∈ Finset.range width.bytes, digit (order.rank width index)) % 2 ^ width.bits := by
      simp only [assemble, byteOf, digit, BitVec.toNat_ofNat]
    _ = value.toNat % 2 ^ width.bits := by rw [ranked, sum_digits, ← weight, Nat.mod_mod]
    _ = value.toNat := Nat.mod_eq_of_lt value.isLt

/-- Gathering bytes into a value is adding them up. -/
theorem gather_eq_assemble (order : ByteOrder) (width : Width) (bytes : Nat → Byte) :
    gather order width bytes = assemble order width bytes := by
  calc
    gather order width bytes =
        assemble order width (byteOf order width (gather order width bytes)) :=
      (assemble_byteOf order width _).symm
    _ = assemble order width bytes := by
      rw [← scatter_eq_byteOf]
      exact assemble_congr fun _ inside => scatter_gather order width bytes inside

theorem byteOf_assemble (order : ByteOrder) (width : Width) (bytes : Nat → Byte) {index : Nat}
    (inside : index < width.bytes) :
    byteOf order width (assemble order width bytes) index = bytes index := by
  rw [← scatter_eq_byteOf, ← gather_eq_assemble]
  exact scatter_gather order width bytes inside

/-- A mask selects in each byte what it selects in the value. -/
theorem byteOf_mergeMasked (order : ByteOrder) (width : Width)
    (old value mask : BitVec width.bits) {index : Nat} (inside : index < width.bytes) :
    byteOf order width (mergeMasked old value mask) index =
      mergeMasked (byteOf order width old index) (byteOf order width value index)
        (byteOf order width mask index) := by
  have low : order.rank width index < width.bytes := by
    cases order <;> simp only [ByteOrder.rank] <;> omega
  have room : order.shift width index + 8 ≤ width.bits := by
    rw [shift_eq_rank, Width.bits_eq]
    omega
  simp only [← scatter_eq_byteOf]
  apply BitVec.eq_of_getLsbD_eq
  intro bit bound
  have within : order.shift width index + bit < width.bits := by omega
  simp [scatter, mergeMasked, bound, within]

/-! ### A byte at every address -/

structure ByteMemory where
  base : Word
  size : Nat
  order : ByteOrder
  bytes : Word → Byte

namespace ByteMemory

/-- The bytes from an address on lie in the region. -/
def Covers (memory : ByteMemory) (width : Width) (address : Word) : Prop :=
  (address - memory.base).toNat + width.bytes ≤ memory.size

instance (memory : ByteMemory) (width : Width) (address : Word) :
    Decidable (memory.Covers width address) := inferInstanceAs (Decidable (_ ≤ _))

def load (memory : ByteMemory) (width : Width) (address : Word) : BitVec width.bits :=
  assemble memory.order width fun index => memory.bytes (address + BitVec.ofNat 32 index)

/-- The memory after a write: the bytes from the address on change where their part of the mask
is set. -/
def store (memory : ByteMemory) (width : Width) (address : Word) (value mask : BitVec width.bits) :
    ByteMemory :=
  { memory with
    bytes := fun place =>
      let index := (place - address).toNat
      if index < width.bytes then
        mergeMasked (memory.bytes place) (byteOf memory.order width value index)
          (byteOf memory.order width mask index)
      else memory.bytes place }

instance : Bus ByteMemory where
  read memory width address :=
    (if memory.Covers width address then .ok (memory.load width address)
      else .error (.unmapped address), memory)
  write memory width address value mask :=
    if memory.Covers width address then (.ok (), memory.store width address value mask)
    else (.error (.unmapped address), memory)

theorem toNat_add_sub (address : Word) {index : Nat} (small : index < 0x100000000) :
    (address + BitVec.ofNat 32 index - address).toNat = index := by
  rw [BitVec.toNat_sub, BitVec.toNat_add, BitVec.toNat_ofNat]
  omega

theorem bytes_lt (width : Width) : width.bytes < 0x100000000 := by
  cases width <;> decide

/-- What is read after a write is the value under the mask, and what was there outside it. -/
theorem load_store (memory : ByteMemory) (width : Width) (address : Word)
    (value mask : BitVec width.bits) :
    (memory.store width address value mask).load width address =
      mergeMasked (memory.load width address) value mask := by
  have bytewise : ∀ index < width.bytes,
      (memory.store width address value mask).bytes (address + BitVec.ofNat 32 index) =
        byteOf memory.order width (mergeMasked (memory.load width address) value mask) index := by
    intro index inside
    have offset := toNat_add_sub address (Nat.lt_trans inside (bytes_lt width))
    simp only [store, offset, inside, if_true]
    rw [byteOf_mergeMasked _ _ _ _ _ inside, load, byteOf_assemble _ _ _ inside]
  calc
    (memory.store width address value mask).load width address =
        assemble memory.order width
          (byteOf memory.order width (mergeMasked (memory.load width address) value mask)) :=
      assemble_congr bytewise
    _ = mergeMasked (memory.load width address) value mask := assemble_byteOf _ _ _

theorem bytes_store_of_apart (memory : ByteMemory) {width : Width} {address place : Word}
    (apart : ∀ index < width.bytes, place ≠ address + BitVec.ofNat 32 index)
    (value mask : BitVec width.bits) :
    (memory.store width address value mask).bytes place = memory.bytes place := by
  have outside : ¬ (place - address).toNat < width.bytes := by
    intro inside
    apply apart _ inside
    rw [BitVec.ofNat_toNat, BitVec.setWidth_eq, BitVec.add_comm, BitVec.sub_add_cancel]
  simp only [store, outside, if_false]

theorem load_byte (memory : ByteMemory) (address : Word) :
    memory.load .byte address = memory.bytes address := by
  have single := byteOf_assemble memory.order .byte
    (fun index => memory.bytes (address + BitVec.ofNat 32 index)) (show 0 < 1 by decide)
  rw [← scatter_eq_byteOf, scatter_byte, BitVec.add_zero] at single
  exact single

end ByteMemory

/-! ### The bytes of a block -/

namespace Ram

/-- The block as single bytes. -/
def contents (ram : Ram) : ByteMemory where
  base := ram.base
  size := ram.data.size
  order := ram.order
  bytes place := ram.byteAt (ram.position place)

/-- No range is faulty, and the block fits into the address space. -/
structure Plain (ram : Ram) : Prop where
  sound : ram.faults = []
  fits : ram.data.size ≤ 0x100000000

section

variable {ram : Ram} {width : Width} {address : Word}

theorem Plain.offset_eq (plain : ram.Plain) (width : Width) (address : Word) :
    ram.offset width address =
      if ram.contents.Covers width address then .ok (ram.position address)
      else .error (.unmapped address) := by
  simp only [offset, plain.sound, List.any_nil, Bool.false_eq_true, if_false]
  rfl

/-- The bytes of an access lie one after the other. -/
theorem Plain.position_add (plain : ram.Plain) (covers : ram.contents.Covers width address)
    {index : Nat} (inside : index < width.bytes) :
    ram.position (address + BitVec.ofNat 32 index) = ram.position address + index := by
  have fits := plain.fits
  have room : ram.position address + width.bytes ≤ ram.data.size := covers
  exact Ram.position_add (by omega)

theorem Plain.valueAt_eq (plain : ram.Plain) (covers : ram.contents.Covers width address) :
    ram.valueAt width (ram.position address) = ram.contents.load width address := by
  rw [valueAt, gather_eq_assemble]
  apply assemble_congr
  intro index inside
  rw [← plain.position_add covers inside]
  rfl

theorem Plain.contents_storeAt (plain : ram.Plain) (covers : ram.contents.Covers width address)
    (value mask : BitVec width.bits) :
    (ram.storeAt width (ram.position address)
        (mergeMasked (ram.valueAt width (ram.position address)) value mask)).contents =
      ram.contents.store width address value mask := by
  have fits := plain.fits
  have room : ram.position address + width.bytes ≤ ram.data.size := covers
  have bytes (place : Word) :
      (ram.storeAt width (ram.position address)
          (mergeMasked (ram.valueAt width (ram.position address)) value mask)).byteAt
        (ram.position place) = (ram.contents.store width address value mask).bytes place := by
    rw [byteAt_storeAt room, scatter_eq_byteOf]
    simp only [ByteMemory.store]
    by_cases inside : (place - address).toNat < width.bytes
    · -- The place is that of one of the bytes that are written.
      have found : address + BitVec.ofNat 32 (place - address).toNat = place := by
        rw [BitVec.ofNat_toNat, BitVec.setWidth_eq, BitVec.add_comm, BitVec.sub_add_cancel]
      have placed := plain.position_add covers inside
      rw [found] at placed
      rw [if_pos inside, if_pos (by omega), placed, Nat.add_sub_cancel_left,
        byteOf_mergeMasked _ _ _ _ _ inside, plain.valueAt_eq covers, ByteMemory.load]
      simp only [contents, byteOf_assemble _ _ _ inside, found]
    · have outside : ¬ (ram.position address ≤ ram.position place ∧
          ram.position place < ram.position address + width.bytes) := by
        simp only [position, BitVec.toNat_sub] at room inside ⊢
        omega
      rw [if_neg inside, if_neg outside]
      rfl
  simp only [contents, ByteMemory.store, size_storeAt] at bytes ⊢
  simp only [ByteMemory.mk.injEq, true_and, funext_iff]
  exact ⟨rfl, rfl, bytes⟩

theorem Plain.read_eq (plain : ram.Plain) (width : Width) (address : Word) :
    ram.read width address = (Bus.read ram.contents width address).1 := by
  simp only [read, plain.offset_eq, Bus.read]
  by_cases covers : ram.contents.Covers width address
  · rw [if_pos covers, if_pos covers, ← plain.valueAt_eq covers]
    rfl
  · rw [if_neg covers, if_neg covers]
    rfl

theorem Plain.write_eq (plain : ram.Plain) (width : Width) (address : Word)
    (value mask : BitVec width.bits) :
    (ram.write width address value mask).1 =
        (Bus.write ram.contents width address value mask).1 ∧
      (ram.write width address value mask).2.contents =
        (Bus.write ram.contents width address value mask).2 ∧
      (ram.write width address value mask).2.Plain := by
  simp only [write, plain.offset_eq, Bus.write]
  by_cases covers : ram.contents.Covers width address
  · have size := size_storeAt ram width (ram.position address)
      (mergeMasked (ram.valueAt width (ram.position address)) value mask)
    simp only [if_pos covers, true_and]
    refine ⟨plain.contents_storeAt covers value mask, plain.sound, ?_⟩
    rw [size]
    exact plain.fits
  · simp only [if_neg covers, true_and]
    exact plain

/-- Every request to a block is answered as by its bytes, and done to them. -/
theorem follows_contents :
    Bus.Follows (fun (ram : Ram) memory => ram.Plain ∧ ram.contents = memory) (fun _ => True)
      id := by
  rintro ram memory request ⟨plain, rfl⟩ -
  cases request with
  | read width address =>
    exact ⟨congrArg (Reply.value width) (plain.read_eq width address), plain, rfl⟩
  | write width address value mask =>
    obtain ⟨answer, after, still⟩ := plain.write_eq width address value mask
    exact ⟨congrArg Reply.stored answer, still, after⟩

/-! ### What single accesses do -/

/-- Put a value into the block without looking at what is there. -/
def overwrite (ram : Ram) (width : Width) (address : Word) (value : BitVec width.bits) :
    Except BusError Unit × Ram :=
  match ram.offset width address with
  | .error refusal => (.error refusal, ram)
  | .ok start => (.ok (), ram.storeAt width start value)

/-- Accesses to the block are accesses to its bytes, at every address. -/
structure ByteAddressed (ram : Ram) : Prop where
  /-- An access that does not lie in the block is refused and changes nothing. -/
  refused : ∀ width address, ¬ (address - ram.base).toNat + width.bytes ≤ ram.data.size →
    ram.read width address = .error (.unmapped address) ∧
      ∀ value mask, ram.write width address value mask = (.error (.unmapped address), ram)
  /-- Any other read gives the value made up of the bytes that are read one by one. -/
  assembled : ∀ width address, (address - ram.base).toNat + width.bytes ≤ ram.data.size →
    ∃ bytes : Nat → Byte,
      (∀ index < width.bytes,
        ram.read .byte (address + BitVec.ofNat 32 index) = .ok (bytes index)) ∧
      ram.read width address = .ok (assemble ram.order width bytes)
  /-- Any other write puts the bits of the mask in place of those that were there, and changes
  no other byte. -/
  written : ∀ width address value mask,
    (address - ram.base).toNat + width.bytes ≤ ram.data.size →
    ∃ old after, ram.read width address = .ok old ∧
      ram.write width address value mask = (.ok (), after) ∧
      after.read width address = .ok ((old &&& ~~~mask) ||| (value &&& mask)) ∧
      ∀ place, (∀ index < width.bytes, place ≠ address + BitVec.ofNat 32 index) →
        after.read .byte place = ram.read .byte place
  /-- A write of all bits need not look at what was there. -/
  direct : ∀ width address value,
    ram.write width address value (fullMask width) = ram.overwrite width address value
  /-- Any write is to read, to merge, and to write all bits. -/
  merging : ∀ width address value mask, ram.write width address value mask =
    match ram.read width address with
    | .error refusal => (.error refusal, ram)
    | .ok old => ram.overwrite width address ((old &&& ~~~mask) ||| (value &&& mask))

theorem write_fullMask (ram : Ram) (width : Width) (address : Word) (value : BitVec width.bits) :
    ram.write width address value (fullMask width) = ram.overwrite width address value := by
  have whole (old : BitVec width.bits) : mergeMasked old value (fullMask width) = value := by
    simp [mergeMasked, fullMask]
  cases found : ram.offset width address <;> simp only [write, overwrite, found, whole]

theorem write_eq_merge (ram : Ram) (width : Width) (address : Word)
    (value mask : BitVec width.bits) :
    ram.write width address value mask =
      match ram.read width address with
      | .error refusal => (.error refusal, ram)
      | .ok old => ram.overwrite width address (mergeMasked old value mask) := by
  cases found : ram.offset width address <;> simp only [write, read, overwrite, found, Except.map]

theorem Plain.covers_byte (plain : ram.Plain) (covers : ram.contents.Covers width address)
    {index : Nat} (inside : index < width.bytes) :
    ram.contents.Covers .byte (address + BitVec.ofNat 32 index) := by
  have single : Width.byte.bytes = 1 := rfl
  have placed := plain.position_add covers inside
  simp only [position] at placed
  simp only [ByteMemory.Covers, contents, placed, single] at covers ⊢
  omega

theorem Plain.byteAddressed (plain : ram.Plain) : ram.ByteAddressed where
  refused := by
    intro width address outside
    have missed : ¬ ram.contents.Covers width address := outside
    refine ⟨?_, ?_⟩
    · simp only [plain.read_eq, Bus.read, if_neg missed]
    · intro value mask
      simp only [write, plain.offset_eq, if_neg missed]
  assembled := by
    intro width address covers
    refine ⟨fun index => ram.contents.bytes (address + BitVec.ofNat 32 index), ?_, ?_⟩
    · intro index inside
      simp only [plain.read_eq, Bus.read, if_pos (plain.covers_byte covers inside),
        ByteMemory.load_byte]
    · have whole : ram.contents.Covers width address := covers
      simp only [plain.read_eq, Bus.read, if_pos whole]
      rfl
  written := by
    intro width address value mask covers
    have whole : ram.contents.Covers width address := covers
    obtain ⟨answer, after, still⟩ := plain.write_eq width address value mask
    simp only [Bus.write, if_pos whole] at answer after
    refine ⟨ram.contents.load width address, (ram.write width address value mask).2, ?_, ?_, ?_, ?_⟩
    · simp only [plain.read_eq, Bus.read, if_pos whole]
    · exact Prod.ext answer rfl
    · rw [still.read_eq, after]
      have again : (ram.contents.store width address value mask).Covers width address := covers
      simp only [Bus.read, if_pos again, ByteMemory.load_store, mergeMasked]
    · intro place apart
      have same : (ram.contents.store width address value mask).Covers .byte place ↔
          ram.contents.Covers .byte place := Iff.rfl
      simp only [still.read_eq, plain.read_eq, after, Bus.read, same, ByteMemory.load_byte,
        ByteMemory.bytes_store_of_apart _ apart]
  direct := ram.write_fullMask
  merging := ram.write_eq_merge

end

/-- A block without faulty ranges is a memory of single bytes, whatever its base, its size up to
that of the address space, and its byte order: over all sequences of reads and masked writes, of
all widths and at all addresses, it gives the replies that the bytes give and holds the bytes
that they become. So at every point each access is one to the bytes at its address. -/
theorem refines_bytes (ram : Ram) (sound : ram.faults = []) (fits : ram.data.size ≤ 2 ^ 32)
    (requests : List Request) :
    (Bus.serveAll ram requests).1 = (Bus.serveAll ram.contents requests).1 ∧
      (Bus.serveAll ram requests).2.contents = (Bus.serveAll ram.contents requests).2 ∧
      (Bus.serveAll ram requests).2.ByteAddressed := by
  have initial : ram.Plain := ⟨sound, fits⟩
  have allowed : ∀ request ∈ requests, True := fun _ _ => trivial
  obtain ⟨replies, plain, bytes⟩ := follows_contents.serveAll ⟨initial, rfl⟩ allowed
  rw [List.map_id] at replies bytes
  exact ⟨replies, bytes, plain.byteAddressed⟩

/-- Six bytes, the last two of which are at the bottom of the address space. -/
def aroundTheTop : Ram :=
  { base := 0xfffffffc, order := .little, faults := [],
    data := #[0x11, 0x22, 0x33, 0x44, 0x55, 0x66] }

/-- A word is written to the last four of them, but for its highest byte, and read back in part.
The word after it does not fit. -/
def aroundRequests : List Request :=
  [.write .word 0xfffffffe 0xaabbccdd 0x00ffffff, .read .half 0xffffffff, .read .word 0]

theorem refines_bytes_around_the_top :
    (Bus.serveAll aroundTheTop.contents aroundRequests).1 =
        [.stored (.ok ()), .value .half (.ok 0xbbcc), .value .word (.error (.unmapped 0))] ∧
      (Bus.serveAll aroundTheTop aroundRequests).2.data =
        #[0x11, 0x22, 0xdd, 0xcc, 0xbb, 0x66] ∧
      (Bus.serveAll aroundTheTop aroundRequests).2.ByteAddressed := by
  obtain ⟨replies, -, addressed⟩ := aroundTheTop.refines_bytes rfl (by decide) aroundRequests
  exact ⟨replies.symm.trans (by rfl), by rfl, addressed⟩

end Ram

end R3000
