import R3000.Bytes

/-!
# Cache memory

The data memory of an isolated cache, which programs reach through ordinary
loads and stores. It repeats over the whole address space, answers every access
and stores values with their high byte first. An absent cache reads as zero and
ignores writes.
-/
namespace R3000

structure CacheRam where
  data : Array Byte

namespace CacheRam

def ofSize (size : Nat) : CacheRam := ⟨Array.replicate size 0⟩

def size (cache : CacheRam) : Nat := cache.data.size

/-- The address bits that select a byte: one less than the size, counted modulo 2^32. -/
def mask (cache : CacheRam) : Word := BitVec.ofNat 32 cache.size - 1

/-- The position of the byte `index` after `address`. -/
def place (mask address : Word) (index : Nat) : Nat :=
  ((address + BitVec.ofNat 32 index) &&& mask).toNat

/-- No access to a cache that is present leaves it, whatever its size. -/
theorem place_lt (cache : CacheRam) (address : Word) (index : Nat) (present : 0 < cache.size) :
    place cache.mask address index < cache.size := by
  by_cases fits : cache.size ≤ 2 ^ 32
  · have bound : (address + BitVec.ofNat 32 index &&& cache.mask).toNat ≤ cache.mask.toNat := by
      rw [BitVec.toNat_and]
      exact Nat.and_le_right
    have limit : cache.mask.toNat < cache.size := by
      unfold mask
      rw [BitVec.toNat_sub, BitVec.toNat_ofNat]
      simp
      omega
    unfold place
    omega
  · unfold place
    have bound := (address + BitVec.ofNat 32 index &&& cache.mask).isLt
    omega

def read (cache : CacheRam) (width : Width) (address : Word) : BitVec width.bits :=
  gather .big width fun index => cache.data.getD (place cache.mask address index) 0

def write (cache : CacheRam) (width : Width) (address : Word) (value mask : BitVec width.bits) :
    CacheRam :=
  let merged := mergeMasked (cache.read width address) value mask
  let mask := cache.mask
  ⟨storeBytes .big width merged (place mask address) cache.data⟩

instance : Bus CacheRam where
  read cache width address := (.ok (cache.read width address), cache)
  write cache width address value mask := (.ok (), cache.write width address value mask)

end CacheRam

end R3000
