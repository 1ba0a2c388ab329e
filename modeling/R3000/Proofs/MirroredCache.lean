import R3000.CacheRam
import R3000.Proofs.ByteLanes
import R3000.Proofs.Requests
import R3000.Ram

/-!
# Caches as mirrored memories

A cache whose size is a power of two shows the same bytes again and again over the whole address
space. Aligned accesses do not reach from one copy into the next, so to them it is a plain block
of memory at address zero, of the size of the cache, in big-endian order, which they use at the
remainder of their address.

A cache that is absent reads as zero, and no cache, of whatever size, is looked at outside of its
data.
-/
namespace R3000

/-- Only the places of its bytes matter to what is stored. -/
theorem storeBytes_ext (order : ByteOrder) {width : Width} (value : BitVec width.bits)
    {place other : Nat → Nat} (same : ∀ index < width.bytes, place index = other index)
    (bytes : Array Byte) :
    storeBytes order width value place bytes = storeBytes order width value other bytes := by
  apply List.foldl_ext
  intro bytes index member
  rw [same index (List.mem_range.mp member)]

namespace CacheRam

/-! ### The plain block -/

/-- The data of the cache as a block of memory that starts at address zero. -/
def flat (cache : CacheRam) : Ram where
  base := 0
  order := .big
  faults := []
  data := cache.data

theorem flat_ofSize (size : Nat) : (ofSize size).flat = .zeroed 0 size .big := rfl

/-- The address in the first copy of a memory that is repeated after each `size` bytes. -/
def wrapped (size : Nat) (address : Word) : Word := BitVec.ofNat 32 (address.toNat % size)

section

variable {cache : CacheRam} {power : Nat} {width : Width} {address : Word}

theorem toNat_mask (size : cache.size = 2 ^ power) (fits : power ≤ 32) :
    cache.mask.toNat = 2 ^ power - 1 := by
  have positive : 0 < 2 ^ power := Nat.two_pow_pos power
  have bound : 2 ^ power ≤ 2 ^ 32 := Nat.pow_le_pow_right (by decide) fits
  have one : (1 : Word).toNat = 1 := rfl
  simp only [mask, size, BitVec.toNat_sub, BitVec.toNat_ofNat, one, Nat.reducePow] at bound ⊢
  omega

/-- Masking an address is taking the remainder. -/
theorem place_eq_mod (size : cache.size = 2 ^ power) (fits : power ≤ 32) (address : Word)
    (index : Nat) : place cache.mask address index = (address.toNat + index) % 2 ^ power := by
  have divides : 2 ^ power ∣ 2 ^ 32 := Nat.pow_dvd_pow 2 fits
  calc
    place cache.mask address index =
        (address + BitVec.ofNat 32 index).toNat &&& (2 ^ power - 1) := by
      rw [place, BitVec.toNat_and, toNat_mask size fits]
    _ = (address.toNat + index % 2 ^ 32) % 2 ^ 32 % 2 ^ power := by
      rw [Nat.and_two_pow_sub_one_eq_mod, BitVec.toNat_add, BitVec.toNat_ofNat]
    _ = (address.toNat + index) % 2 ^ power := by
      rw [Nat.add_mod_mod, Nat.mod_mod_of_dvd _ divides]

/-- An aligned access stays inside one copy. -/
theorem mod_add_le (large : 2 ≤ power) (aligned : width.aligned address = true) :
    address.toNat % 2 ^ power + width.bytes ≤ 2 ^ power := by
  have whole := (width.aligned_iff address).mp aligned
  have four : 2 ^ 2 ∣ 2 ^ power := Nat.pow_dvd_pow 2 large
  have low : address.toNat % 2 ^ power % 4 = address.toNat % 4 := Nat.mod_mod_of_dvd _ four
  have below : address.toNat % 2 ^ power < 2 ^ power := Nat.mod_lt _ (Nat.two_pow_pos power)
  cases width <;> simp only [Width.bytes] at whole ⊢ <;> omega

theorem place_eq_add (size : cache.size = 2 ^ power) (large : 2 ≤ power) (fits : power ≤ 32)
    (aligned : width.aligned address = true) {index : Nat} (inside : index < width.bytes) :
    place cache.mask address index = address.toNat % 2 ^ power + index := by
  have room := mod_add_le large aligned
  rw [place_eq_mod size fits, Nat.add_mod, Nat.mod_eq_of_lt (show index < 2 ^ power by omega),
    Nat.mod_eq_of_lt (by omega)]

theorem offset_flat (size : cache.size = 2 ^ power) (large : 2 ≤ power)
    (aligned : width.aligned address = true) :
    cache.flat.offset width (wrapped cache.size address) = .ok (address.toNat % 2 ^ power) := by
  have room := mod_add_le large aligned
  have bound : address.toNat % 2 ^ power < 2 ^ 32 :=
    Nat.lt_of_le_of_lt (Nat.mod_le _ _) address.isLt
  have start : (wrapped cache.size address - 0).toNat = address.toNat % 2 ^ power := by
    simp only [wrapped, size, BitVec.ofNat_eq_ofNat, BitVec.sub_zero, BitVec.toNat_ofNat,
      Nat.mod_eq_of_lt bound]
  have whole : cache.data.size = 2 ^ power := size
  simp only [Ram.offset, flat, List.any_nil, Bool.false_eq_true, if_false, start, whole, room,
    if_true]

theorem read_eq_valueAt (size : cache.size = 2 ^ power) (large : 2 ≤ power) (fits : power ≤ 32)
    (aligned : width.aligned address = true) :
    cache.read width address = cache.flat.valueAt width (address.toNat % 2 ^ power) := by
  apply gather_ext
  intro index inside
  rw [place_eq_add size large fits aligned inside]
  rfl

theorem flat_write (size : cache.size = 2 ^ power) (large : 2 ≤ power) (fits : power ≤ 32)
    (aligned : width.aligned address = true) (value mask : BitVec width.bits) :
    (cache.write width address value mask).flat =
      cache.flat.storeAt width (address.toNat % 2 ^ power)
        (mergeMasked (cache.flat.valueAt width (address.toNat % 2 ^ power)) value mask) := by
  have stored (merged : BitVec width.bits) := storeBytes_ext .big merged
    (fun index inside => place_eq_add size large fits aligned inside) cache.data
  simp only [write, flat, Ram.storeAt, stored, read_eq_valueAt size large fits aligned]

/-- Aligned requests to a cache are answered by the plain block, and leave the same data in it. -/
theorem follows_flat (large : 2 ≤ power) (fits : power ≤ 32) :
    Bus.Follows (fun (cache : CacheRam) ram => cache.size = 2 ^ power ∧ cache.flat = ram)
      Request.Aligned (·.moved (wrapped (2 ^ power))) := by
  rintro cache ram request ⟨size, rfl⟩ allowed
  cases request with
  | read width address =>
    have aligned : width.aligned address = true := allowed
    have found := offset_flat size large aligned
    have value := read_eq_valueAt size large fits aligned
    rw [size] at found
    refine ⟨?_, size, rfl⟩
    simp only [Bus.serve, Request.moved, Bus.read, Ram.read, found, value, Except.map]
  | write width address value mask =>
    have aligned : width.aligned address = true := allowed
    have found := offset_flat size large aligned
    have stored := flat_write size large fits aligned value mask
    have sameSize : (cache.write width address value mask).size = cache.size :=
      size_storeBytes _ _ _ _ _
    rw [size] at found
    simp only [Bus.serve, Request.moved, Bus.write, Ram.write, found, sameSize, size, stored,
      and_self]

end

/-! ### Looking inside the data only -/

/-- Replace the byte at a position that must be one of the array. -/
def putInside (bytes : Array Byte) (position : Nat) (byte : Byte) : Option (Array Byte) :=
  if position < bytes.size then some (bytes.setIfInBounds position byte) else none

/-- A read that fails when it looks for a byte outside of the data. -/
def readInside (cache : CacheRam) (width : Width) (address : Word) :
    Option (BitVec width.bits) :=
  if cache.size = 0 then some 0
  else
    (List.range width.bytes).foldlM
      (fun value index => do
        let byte ← cache.data[place cache.mask address index]?
        return value ||| byte.setWidth width.bits <<< ByteOrder.big.shift width index) 0

/-- A write that fails when it looks for a byte or puts one outside of the data. -/
def writeInside (cache : CacheRam) (width : Width) (address : Word)
    (value mask : BitVec width.bits) : Option CacheRam :=
  if cache.size = 0 then some cache
  else do
    let old ← cache.readInside width address
    let data ← (List.range width.bytes).foldlM
      (fun bytes index =>
        putInside bytes (place cache.mask address index)
          (scatter .big width (mergeMasked old value mask) index)) cache.data
    return ⟨data⟩

/-- A fold whose steps may fail does not fail when no step does from a state that is fine. -/
theorem foldlM_eq_some {σ α : Type} {step : σ → α → Option σ} {result : σ → α → σ}
    (fine : σ → Prop)
    (succeeds : ∀ state item, fine state →
      step state item = some (result state item) ∧ fine (result state item))
    {state : σ} (initial : fine state) (items : List α) :
    items.foldlM step state = some (items.foldl result state) := by
  induction items generalizing state with
  | nil => rfl
  | cons item rest ih =>
    obtain ⟨done, still⟩ := succeeds state item initial
    rw [List.foldlM_cons, done, List.foldl_cons]
    exact ih still

section

variable (cache : CacheRam) (width : Width) (address : Word)

theorem read_of_absent (absent : cache.size = 0) : cache.read width address = 0 := by
  have empty (position : Nat) : cache.data.getD position 0 = 0 := by
    have outside : cache.data.size ≤ position := 
      Nat.le_trans (Nat.le_of_eq absent) (Nat.zero_le position)
    rw [Array.getD_eq_getD_getElem?, Array.getElem?_eq_none outside, Option.getD_none]
  simp only [read, empty]
  cases width <;> rfl

theorem write_of_absent (absent : cache.size = 0) (value mask : BitVec width.bits) :
    cache.write width address value mask = cache := by
  have size : (cache.write width address value mask).data.size = 0 := by
    rw [← absent]
    exact size_storeBytes _ _ _ _ _
  have none : cache.data = #[] := Array.eq_empty_of_size_eq_zero absent
  have still : (cache.write width address value mask).data = #[] :=
    Array.eq_empty_of_size_eq_zero size
  exact congrArg mk (still.trans none.symm)

theorem readInside_eq : cache.readInside width address = some (cache.read width address) := by
  unfold readInside
  split
  · next absent => rw [cache.read_of_absent width address absent]
  · next present =>
    refine foldlM_eq_some (fun _ => True) ?_ trivial _
    intro value index _
    have inside := cache.place_lt address index (Nat.pos_of_ne_zero present)
    refine ⟨?_, trivial⟩
    simp only [Array.getD_eq_getD_getElem?, Array.getElem?_eq_getElem inside, Option.getD_some]
    rfl

theorem writeInside_eq (value mask : BitVec width.bits) :
    cache.writeInside width address value mask = some (cache.write width address value mask) := by
  unfold writeInside
  split
  · next absent => rw [cache.write_of_absent width address absent]
  · next present =>
    have stored (merged : BitVec width.bits) :
        (List.range width.bytes).foldlM
            (fun bytes index =>
              putInside bytes (place cache.mask address index) (scatter .big width merged index))
            cache.data =
          some (storeBytes .big width merged (place cache.mask address) cache.data) := by
      -- Every byte is put into an array that is still as large as the cache.
      refine foldlM_eq_some (fun bytes => bytes.size = cache.size) ?_ rfl _
      intro bytes index size
      have inside := cache.place_lt address index (Nat.pos_of_ne_zero present)
      rw [← size] at inside
      exact ⟨if_pos inside, Array.size_setIfInBounds.trans size⟩
    rw [cache.readInside_eq width address]
    simp only [Option.bind_eq_bind, Option.bind_some, stored]
    rfl

end

/-! ### A cache as a memory -/

/-- Bounds on a power of two are bounds on its exponent. -/
theorem exponent_bounds {power : Nat} (least : 4 ≤ 2 ^ power) (most : 2 ^ power ≤ 0x100000000) :
    2 ≤ power ∧ power ≤ 32 := by
  have grows {low high : Nat} : 2 ^ low ≤ 2 ^ high ↔ low ≤ high :=
    Nat.pow_le_pow_iff_right (by decide)
  have lower : 2 ^ 2 ≤ 2 ^ power := least
  have upper : 2 ^ power ≤ 2 ^ 32 := most
  exact ⟨grows.mp lower, grows.mp upper⟩

/-- A cache whose size is a power of two, from a word up to the address space, answers any
sequence of aligned requests as a block of memory of that size does, which gets them at the
remainders of their addresses, and both hold the same bytes afterwards. An absent cache reads as
zero and no write changes it. No cache, whatever its size and data, is looked at outside of its
data. -/
theorem refines_ram (cache : CacheRam) :
    ((∃ power : Nat, cache.size = 2 ^ power) → 4 ≤ cache.size → cache.size ≤ 0x100000000 →
      ∀ requests : List Request, (∀ request ∈ requests, request.Aligned) →
        let wrappedRequests := requests.map (·.moved (wrapped cache.size))
        (Bus.serveAll cache requests).1 = (Bus.serveAll cache.flat wrappedRequests).1 ∧
          (Bus.serveAll cache requests).2.flat = (Bus.serveAll cache.flat wrappedRequests).2) ∧
    (cache.size = 0 → ∀ width address,
      Bus.read cache width address = (.ok 0, cache) ∧
        ∀ value mask, Bus.write cache width address value mask = (.ok (), cache)) ∧
    (∀ width address,
      cache.readInside width address = some (cache.read width address) ∧
        ∀ value mask, cache.writeInside width address value mask =
          some (cache.write width address value mask)) := by
  refine ⟨?_, ?_, ?_⟩
  · rintro ⟨power, size⟩ least most requests aligned
    obtain ⟨large, fits⟩ := exponent_bounds (size ▸ least) (size ▸ most)
    obtain ⟨replies, -, same⟩ := (follows_flat large fits).serveAll ⟨size, rfl⟩ aligned
    rw [← size] at replies same
    exact ⟨replies, same⟩
  · intro absent width address
    refine ⟨?_, fun value mask => ?_⟩
    · exact congrArg (fun value => (Except.ok value, cache))
        (cache.read_of_absent width address absent)
    · exact congrArg (Prod.mk _) (cache.write_of_absent width address absent value mask)
  · intro width address
    exact ⟨cache.readInside_eq width address, cache.writeInside_eq width address⟩

/-- The word at the top of the address space is the second one of eight bytes, and is found again
at lower addresses. -/
def topRequests : List Request :=
  [.write .word 0xfffffffc 0x11223344 0xffff00ff, .read .half 0x1e, .write .byte 0x14 0x55 0xff,
    .read .word 4]

theorem refines_ram_eight_bytes :
    let block := Bus.serveAll (.zeroed 0 8 .big : Ram) (topRequests.map (·.moved (wrapped 8)))
    (Bus.serveAll (ofSize 8) topRequests).1 = block.1 ∧
      block.1 = [.stored (.ok ()), .value .half (.ok 0x0044), .stored (.ok ()),
        .value .word (.ok 0x55220044)] ∧
      (Bus.serveAll (ofSize 8) topRequests).2.data = #[0, 0, 0, 0, 0x55, 0x22, 0, 0x44] := by
  obtain ⟨replies, same⟩ :=
    (refines_ram (ofSize 8)).1 ⟨3, rfl⟩ (by decide) (by decide) topRequests (by decide)
  rw [flat_ofSize] at replies same
  exact ⟨replies, by rfl, (congrArg Ram.data same).trans (by rfl)⟩

end CacheRam

end R3000
