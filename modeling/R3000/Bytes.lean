import R3000.Bus
import R3000.Config

/-!
# Bytes of a value

The byte order says which part of a value lies at its lowest address. A value
of a given width is gathered from the bytes at successive addresses, and
scattered over them.
-/
namespace R3000

/-- How far the byte at offset `index` of a stored value is shifted inside the value. -/
def ByteOrder.shift (order : ByteOrder) (width : Width) (index : Nat) : Nat :=
  match order with
  | .little => 8 * index
  | .big => 8 * (width.bytes - 1 - index)

/-- The value whose byte at offset `index` is `byteAt index`. -/
def gather (order : ByteOrder) (width : Width) (byteAt : Nat → Byte) : BitVec width.bits :=
  (List.range width.bytes).foldl
    (fun value index =>
      value ||| (byteAt index).setWidth width.bits <<< order.shift width index) 0

/-- The byte of `value` that is stored at offset `index`. -/
def scatter (order : ByteOrder) (width : Width) (value : BitVec width.bits) (index : Nat) : Byte :=
  value.extractLsb' (order.shift width index) 8

/-- Gathering what was scattered gives the value back. -/
theorem gather_scatter (order : ByteOrder) (width : Width) (value : BitVec width.bits) :
    gather order width (scatter order width value) = value := by
  apply BitVec.eq_of_getLsbD_eq
  intro index bound
  cases order <;> cases width <;>
    simp [gather, scatter, ByteOrder.shift, Width.bytes, List.range, List.range.loop]
      at bound ⊢ <;>
    grind

/-- Store the bytes of `value` at the places that `place` gives for their offsets. -/
def storeBytes (order : ByteOrder) (width : Width) (value : BitVec width.bits)
    (place : Nat → Nat) (bytes : Array Byte) : Array Byte :=
  (List.range width.bytes).foldl
    (fun bytes index => bytes.setIfInBounds (place index) (scatter order width value index)) bytes

@[simp] theorem size_storeBytes (order : ByteOrder) (width : Width) (value : BitVec width.bits)
    (place : Nat → Nat) (bytes : Array Byte) :
    (storeBytes order width value place bytes).size = bytes.size := by
  unfold storeBytes
  generalize List.range width.bytes = indices
  induction indices generalizing bytes with
  | nil => rfl
  | cons index rest hypothesis => simp [hypothesis]

/-- The bits of `old` outside `mask`, with those of `value` inside it. -/
def mergeMasked {width : Nat} (old value mask : BitVec width) : BitVec width :=
  (old &&& ~~~mask) ||| (value &&& mask)

end R3000
