/-!
# Machine words

Registers, addresses and instruction encodings are words of 32 bits, and
arithmetic on them wraps. A memory access moves one, two or four bytes, so the
type of the value it moves is determined by its width.
-/
namespace R3000

abbrev Word := BitVec 32
abbrev Byte := BitVec 8

/-- The number of a general register, as a five-bit instruction field names it. -/
abbrev RegNum := Fin 32

theorem RegNum.val_lt (reg : RegNum) : reg.val < 32 := reg.isLt

-- There are coprocessors, registers and slots, so numerals denote some of them. The zero is the
-- one that numerals of finite types are stated with, whatever else is imported.
instance neZero_units : @NeZero Nat Zero.ofOfNat0 4 := ⟨by decide⟩
instance neZero_registers : @NeZero Nat Zero.ofOfNat0 32 := ⟨by decide⟩
instance neZero_slots : @NeZero Nat Zero.ofOfNat0 64 := ⟨by decide⟩

/-- A power of natural numbers is the one that numerals compute with. -/
instance (priority := 2000) powNat : Pow Nat Nat := instPowNat

/-- Some bit of `mask` is set in `word`. -/
def hasAny (word mask : Word) : Bool := word &&& mask != 0

/-- Every bit of `mask` is set in `word`. -/
def hasAll (word mask : Word) : Bool := word &&& mask == mask

/-- The bits of `word` outside `mask`, with those of `patch` inside it. -/
def replaceBits (word mask patch : Word) : Word := (word &&& ~~~mask) ||| (patch &&& mask)

/-! ### Access widths -/

inductive Width where
  | byte
  | half
  | word
  deriving DecidableEq, Repr

namespace Width

def bytes : Width → Nat
  | byte => 1
  | half => 2
  | word => 4

abbrev bits : Width → Nat
  | byte => 8
  | half => 16
  | word => 32

theorem bits_eq (width : Width) : width.bits = 8 * width.bytes := by
  cases width <;> rfl

/-- An address is aligned for a width when it has none of these bits. -/
def alignMask : Width → Word
  | byte => 0
  | half => 1
  | word => 3

def aligned (width : Width) (address : Word) : Bool := !hasAny address width.alignMask

theorem aligned_iff (width : Width) (address : Word) :
    width.aligned address = true ↔ address.toNat % width.bytes = 0 := by
  have low : (address &&& width.alignMask).toNat = address.toNat % width.bytes := by
    cases width with
    | byte => simp [alignMask, bytes, Nat.mod_one]
    | half => exact Nat.and_two_pow_sub_one_eq_mod address.toNat 1
    | word => exact Nat.and_two_pow_sub_one_eq_mod address.toNat 2
  have clear : address &&& width.alignMask = 0 ↔ (address &&& width.alignMask).toNat = 0 :=
    BitVec.toNat_inj.symm
  rw [← low, ← clear]
  simp [aligned, hasAny]

end Width

/-- A word address with its two low bits cleared: the word that contains it. -/
def containingWord (address : Word) : Word := address &&& ~~~3

/-! ### Pairs of words -/

theorem getLsbD_join (high low : Word) (index : Nat) :
    (high ++ low : BitVec 64).getLsbD index =
      if index < 32 then low.getLsbD index else high.getLsbD (index - 32) := by
  exact BitVec.getLsbD_append.trans (by split <;> simp_all)

/-- The two words of a double word make it up. -/
theorem join_words (value : BitVec 64) :
    (value.extractLsb' 32 32 ++ value.extractLsb' 0 32 : BitVec 64) = value := by
  apply BitVec.eq_of_getLsbD_eq
  intro index bound
  rw [getLsbD_join]
  by_cases low : index < 32
  · simp [low]
  · have top : index - 32 < 32 := by omega
    have back : 32 + (index - 32) = index := by omega
    simp [low, top, back]

end R3000
