import Mathlib.Data.List.Basic
import R3000.Bytes
import R3000.Execution.Operation

/-!
# Byte lanes

A word in memory is four lanes of one byte each, counted by address whatever the byte order. The
instructions for unaligned words shift and mask whole words, in directions that depend on the
byte order. Counted in lanes they do the same in both orders: they slide the bytes of one word
down or up past those of another.

What a word is, is decided lane by lane, so equations between shifted and masked words become
arithmetic of lane numbers.
-/
namespace R3000

/-! ### Words and their bytes -/

/-- Scattering what was gathered gives the bytes back. -/
theorem scatter_gather (order : ByteOrder) (width : Width) (byteAt : Nat → Byte) {index : Nat}
    (inside : index < width.bytes) :
    scatter order width (gather order width byteAt) index = byteAt index := by
  apply BitVec.eq_of_getLsbD_eq
  intro bit bound
  cases order <;> cases width <;>
    simp [gather, scatter, ByteOrder.shift, Width.bytes, List.range, List.range.loop]
      at inside bound ⊢ <;>
    grind

/-- A byte is its only byte. -/
theorem scatter_byte (order : ByteOrder) (value : Byte) : scatter order .byte value 0 = value := by
  cases order <;> simp [scatter, ByteOrder.shift, Width.bytes]

/-- Only the bytes of its width make up a value. -/
theorem gather_ext (order : ByteOrder) {width : Width} {byteAt other : Nat → Byte}
    (same : ∀ index < width.bytes, byteAt index = other index) :
    gather order width byteAt = gather order width other := by
  apply List.foldl_ext
  intro value index member
  rw [same index (List.mem_range.mp member)]

theorem gather_congr (order : ByteOrder) {byteAt other : Nat → Byte}
    (same : ∀ index < 4, byteAt index = other index) :
    gather order .word byteAt = gather order .word other := gather_ext order same

/-- A word is known when its four bytes are. -/
theorem eq_gather (order : ByteOrder) {word : Word} {byteAt : Nat → Byte}
    (bytes : ∀ index < 4, scatter order .word word index = byteAt index) :
    word = gather order .word byteAt := by
  calc
    word = gather order .word (scatter order .word word) := (gather_scatter order .word word).symm
    _ = gather order .word byteAt := gather_congr order bytes

theorem getLsbD_scatter (order : ByteOrder) (word : Word) (index : Nat) {bit : Nat}
    (bound : bit < 8) :
    (scatter order .word word index).getLsbD bit =
      word.getLsbD (order.shift .word index + bit) := by
  simp [scatter, bound]

/-! ### Merging bit by bit -/

theorem getLsbD_mergeLeft (shift : Nat) (current loaded : Word) {index : Nat}
    (bound : index < 32) :
    (mergeLeft shift current loaded).getLsbD index =
      if shift ≤ index then loaded.getLsbD (index - shift) else current.getLsbD index := by
  have ones : ∀ place < 32, allBits.getLsbD place = true := by decide
  simp only [mergeLeft, BitVec.getLsbD_or, BitVec.getLsbD_and, BitVec.getLsbD_not,
    BitVec.getLsbD_shiftLeft]
  by_cases reached : shift ≤ index
  · have beyond : ¬ index < shift := by omega
    have one := ones (index - shift) (by omega)
    simp [bound, reached, beyond, one]
  · have below : index < shift := by omega
    simp [bound, reached, below]

theorem getLsbD_mergeRight (shift : Nat) (current loaded : Word) {index : Nat}
    (bound : index < 32) :
    (mergeRight shift current loaded).getLsbD index =
      if shift + index < 32 then loaded.getLsbD (shift + index) else current.getLsbD index := by
  have ones : ∀ place < 32, allBits.getLsbD place = true := by decide
  simp only [mergeRight, BitVec.getLsbD_or, BitVec.getLsbD_and, BitVec.getLsbD_not,
    BitVec.getLsbD_ushiftRight]
  by_cases reached : shift + index < 32
  · simp only [reached, ones _ reached, if_true, Bool.not_true, Bool.and_false, Bool.false_or]
  · -- Both the mask and the loaded word have run out of bits.
    have none (word : Word) : word.getLsbD (shift + index) = false :=
      BitVec.getLsbD_of_ge _ _ (by omega)
    simp only [bound, reached, none, if_false, decide_true, Bool.not_false, Bool.and_true,
      Bool.or_false]

/-! ### Sliding -/

/-- The other byte order. -/
def ByteOrder.mirror : ByteOrder → ByteOrder
  | big => little
  | little => big

/-- In the other byte order the lanes count from the other end. -/
theorem scatter_mirror (order : ByteOrder) (word : Word) {index : Nat} (inside : index < 4) :
    scatter order.mirror .word word index = scatter order .word word (3 - index) := by
  have shift : order.mirror.shift .word index = order.shift .word (3 - index) := by
    cases order with
    | big =>
      simp only [ByteOrder.mirror, ByteOrder.shift, Width.bytes]
      omega
    | little => simp only [ByteOrder.mirror, ByteOrder.shift, Width.bytes]
  simp only [scatter, shift]

/-- Move the bytes of `other` down by some lanes, over those of `current`. -/
def slideDown (order : ByteOrder) (lanes : Nat) (current other : Word) : Word :=
  match order with
  | .big => mergeLeft (8 * lanes) current other
  | .little => mergeRight (8 * lanes) current other

/-- Move the bytes of a word down by some lanes. -/
def shiftDown (order : ByteOrder) (lanes : Nat) (word : Word) : Word :=
  match order with
  | .big => word <<< (8 * lanes)
  | .little => word >>> (8 * lanes)

/-- Storing under a mask that was moved along with the value is sliding. -/
theorem mergeMasked_shiftDown (order : ByteOrder) (lanes : Nat) (old value : Word) :
    mergeMasked old (shiftDown order lanes value) (shiftDown order lanes allBits) =
      slideDown order lanes old value := by
  have whole : value &&& allBits = value := BitVec.and_allOnes
  cases order with
  | big =>
    simp only [shiftDown, slideDown, mergeMasked, mergeLeft]
    rw [← BitVec.shiftLeft_and_distrib, whole]
  | little =>
    simp only [shiftDown, slideDown, mergeMasked, mergeRight]
    rw [← BitVec.ushiftRight_and_distrib, whole]

/-- Move the bytes of `other` up by some lanes, over those of `current`. -/
def slideUp (order : ByteOrder) (lanes : Nat) (current other : Word) : Word :=
  slideDown order.mirror lanes current other

theorem scatter_slideDown (order : ByteOrder) (lanes : Nat) {index : Nat} (current other : Word)
    (inside : index < 4) :
    scatter order .word (slideDown order lanes current other) index =
      if index + lanes < 4 then scatter order .word other (index + lanes)
      else scatter order .word current index := by
  apply BitVec.eq_of_getLsbD_eq
  intro bit bound
  rw [getLsbD_scatter _ _ _ bound]
  cases order with
  | big =>
    -- The first lane is the highest byte, so going down is shifting left.
    simp only [slideDown, ByteOrder.shift, Width.bytes]
    rw [getLsbD_mergeLeft _ _ _ (by omega)]
    by_cases within : index + lanes < 4
    · rw [if_pos (by omega), if_pos within, getLsbD_scatter _ _ _ bound]
      exact congrArg other.getLsbD (by simp only [ByteOrder.shift, Width.bytes]; omega)
    · rw [if_neg (by omega), if_neg within, getLsbD_scatter _ _ _ bound]
      rfl
  | little =>
    simp only [slideDown, ByteOrder.shift]
    rw [getLsbD_mergeRight _ _ _ (by omega)]
    by_cases within : index + lanes < 4
    · rw [if_pos (by omega), if_pos within, getLsbD_scatter _ _ _ bound]
      exact congrArg other.getLsbD (by simp only [ByteOrder.shift]; omega)
    · rw [if_neg (by omega), if_neg within, getLsbD_scatter _ _ _ bound]
      rfl

theorem scatter_slideUp (order : ByteOrder) (lanes : Nat) {index : Nat} (current other : Word)
    (inside : index < 4) :
    scatter order .word (slideUp order lanes current other) index =
      if lanes ≤ index then scatter order .word other (index - lanes)
      else scatter order .word current index := by
  have outside : 3 - index < 4 := by omega
  have back : 3 - (3 - index) = index := by omega
  -- Seen from the other end, going up is going down.
  have mirrored := scatter_slideDown order.mirror lanes current other outside
  rw [scatter_mirror order _ outside, back] at mirrored
  rw [slideUp, mirrored]
  by_cases within : lanes ≤ index
  · have lane : 3 - (3 - index + lanes) = index - lanes := by omega
    rw [if_pos (by omega), if_pos within, scatter_mirror order other (by omega), lane]
  · rw [if_neg (by omega), if_neg within, scatter_mirror order current outside, back]

/-! ### The lane of an address -/

/-- The number of the byte that an address names inside its word. -/
def lane (address : Word) : Nat := (address &&& 3).toNat

theorem lane_eq (address : Word) : lane address = address.toNat % 4 := by
  exact Nat.and_two_pow_sub_one_eq_mod address.toNat 2

theorem lane_lt (address : Word) : lane address < 4 := by
  rw [lane_eq]
  exact Nat.mod_lt _ (by decide)

/-- Counting lanes from the other end is what the shifts against the far side of a word do. -/
theorem toNat_mirror_lane (address : Word) : ((address &&& 3) ^^^ 3).toNat = 3 - lane address := by
  have mirrored : ∀ number < 4, (BitVec.ofNat 32 number ^^^ 3).toNat = 3 - number := by decide
  have same : address &&& 3 = BitVec.ofNat 32 (lane address) := by simp [lane]
  rw [same]
  exact mirrored _ (lane_lt address)

theorem toNat_containingWord (address : Word) :
    (containingWord address).toNat = address.toNat - lane address := by
  have cut : containingWord address = address >>> 2 <<< 2 := by
    have mask : ∀ place < 32, (3 : Word).getLsbD place = decide (place < 2) := by decide
    apply BitVec.eq_of_getLsbD_eq
    intro index bound
    simp only [containingWord, BitVec.getLsbD_and, BitVec.getLsbD_not, BitVec.getLsbD_shiftLeft,
      BitVec.getLsbD_ushiftRight, mask index bound]
    by_cases low : index < 2
    · simp [low]
    · have back : 2 + (index - 2) = index := by omega
      simp [low, bound, back]
  have fits : address.toNat / 4 * 4 < 2 ^ 32 := by omega
  rw [cut, lane_eq, BitVec.toNat_shiftLeft, BitVec.toNat_ushiftRight, Nat.shiftRight_eq_div_pow,
    Nat.shiftLeft_eq]
  omega

end R3000
