import R3000.CacheRam
import R3000.Proofs.ByteLanes
import R3000.Proofs.Checks

/-!
# The caches with checks

A cache keeps its bytes and a mask, which is made from their number once and for all. Every byte
that is read or written is looked up at an address cut by the mask. A size that is no power of two
gives a mask with holes, but never one that selects beyond the last byte, and a cache without
bytes is asked for none.
-/
namespace R3000.Strict

structure Cache where
  data : Array Byte
  mask : Word

namespace Cache

def ofSize (size : Nat) : Cache := ⟨Array.replicate size 0, BitVec.ofNat 32 size - 1⟩

def of (cache : CacheRam) : Cache := ⟨cache.data, cache.mask⟩

theorem of_ofSize (size : Nat) : of (.ofSize size) = ofSize size := by
  simp only [of, ofSize, CacheRam.mask, CacheRam.size, CacheRam.ofSize, Array.size_replicate]

/-- The bytes of a value are looked up one after the other, the high byte first. -/
def read (cache : Cache) (width : Width) (address : Word) : Checked (BitVec width.bits) :=
  if cache.data.isEmpty then return 0
  else
    (List.range width.bytes).foldlM (fun value index => do
      let place ← within cache.data.size (CacheRam.place cache.mask address index)
      let byte := cache.data[place]
      return value ||| byte.setWidth width.bits <<< ByteOrder.big.shift width index) 0

/-- The bytes after a value is stored. -/
def store (cache : Cache) (width : Width) (address : Word) (value : BitVec width.bits) :
    Checked (Array Byte) :=
  (List.range width.bytes).foldlM (fun bytes index => do
    let place ← within bytes.size (CacheRam.place cache.mask address index)
    return bytes.set place (scatter .big width value index)) cache.data

def write (cache : Cache) (width : Width) (address : Word) (value mask : BitVec width.bits) :
    Checked Cache := do
  let merged := mergeMasked (← cache.read width address) value mask
  if cache.data.isEmpty then return cache
  return { cache with data := ← cache.store width address merged }

theorem size_pos {cache : CacheRam} (present : ¬cache.data.isEmpty = true) : 0 < cache.size := by
  apply Nat.pos_of_ne_zero
  intro absent
  exact present (Array.isEmpty_iff_size_eq_zero.mpr absent)

theorem read_of (cache : CacheRam) (width : Width) (address : Word) :
    (of cache).read width address = .ok (cache.read width address) := by
  unfold read
  by_cases empty : cache.data.isEmpty = true
  · -- Where there are no bytes the value is made of zeros.
    have none : cache.data = #[] := Array.isEmpty_iff.mp empty
    have zeros : gather .big width (fun _ => 0) = 0 := by cases width <;> decide
    have absent : cache.read width address = gather .big width fun _ => 0 := by
      simp only [CacheRam.read, none]
      rfl
    rw [absent, zeros]
    exact if_pos empty
  · have present := size_pos empty
    refine (if_neg empty).trans ?_
    apply foldlM_eq_ok (fun _ => True) trivial
    intro index _ value _
    have inside : CacheRam.place cache.mask address index < cache.data.size :=
      cache.place_lt address index present
    have byte : cache.data.getD (CacheRam.place cache.mask address index) 0 =
        cache.data[CacheRam.place cache.mask address index] := by
      rw [Array.getD_eq_getD_getElem?, Array.getElem?_eq_getElem inside, Option.getD_some]
    simp only [of, within_of_lt inside, ok_bind, pure_eq_ok, byte, Fin.getElem_fin, and_self]

theorem store_of {cache : CacheRam} (present : 0 < cache.size) (width : Width) (address : Word)
    (value : BitVec width.bits) :
    (of cache).store width address value =
      .ok (storeBytes .big width value (CacheRam.place cache.mask address) cache.data) := by
  -- No byte that is stored changes how many there are.
  apply foldlM_eq_ok (fun bytes : Array Byte => bytes.size = cache.size) rfl
  intro index _ bytes size
  have inside : CacheRam.place cache.mask address index < bytes.size := by
    rw [size]
    exact cache.place_lt address index present
  have stored : bytes.setIfInBounds (CacheRam.place cache.mask address index)
      (scatter .big width value index) =
        bytes.set (CacheRam.place cache.mask address index) (scatter .big width value index)
          inside := dif_pos inside
  refine ⟨?_, Array.size_setIfInBounds.trans size⟩
  simp only [of, within_of_lt inside, ok_bind, pure_eq_ok, stored]

theorem write_of (cache : CacheRam) (width : Width) (address : Word)
    (value mask : BitVec width.bits) :
    (of cache).write width address value mask =
      .ok (of (cache.write width address value mask)) := by
  have kept : (cache.write width address value mask).size = cache.size := size_storeBytes ..
  simp only [write, read_of, ok_bind]
  by_cases empty : cache.data.isEmpty = true
  · -- Without bytes there is nothing to change.
    have none : cache.size = 0 := Array.isEmpty_iff_size_eq_zero.mp empty
    have same : (cache.write width address value mask).data = cache.data := by
      rw [none] at kept
      exact (Array.eq_empty_of_size_eq_zero kept).trans (Array.isEmpty_iff.mp empty).symm
    refine (if_pos empty).trans ?_
    simp only [of, CacheRam.mask, kept, same, pure_eq_ok]
  · refine (if_neg empty).trans ?_
    rw [store_of (size_pos empty)]
    simp only [ok_bind, pure_eq_ok, of, CacheRam.mask, kept]
    rfl

end Cache

end R3000.Strict
