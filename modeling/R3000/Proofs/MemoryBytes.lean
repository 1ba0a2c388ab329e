import R3000.Proofs.ByteLanes
import R3000.Ram

/-!
# The bytes of a memory

What a block of memory holds is described byte by byte, by position in the block. A word that
lies inside the block can be read and written as a whole, and each of its bytes by itself.

A store puts bytes at some positions and leaves the others. Stores one after the other are one
store of all their bytes, if no position is used for two of them. The bytes stored decide what
the block is afterwards, so stores that are split in different ways come to the same.
-/
namespace R3000.Ram

def byteAt (ram : Ram) (position : Nat) : Byte := ram.data.getD position 0

/-- Where a physical address lies in the block, if it does. -/
def position (ram : Ram) (place : Word) : Nat := (place - ram.base).toNat

/-- The word at `place` lies inside the block, and none of its bytes is faulty. -/
structure Holds (ram : Ram) (place : Word) : Prop where
  inside : ram.position place + 4 ≤ ram.data.size
  /-- The word does not reach around to the start of a block that fills the address space. -/
  unwrapped : ram.position place + 4 ≤ 0x100000000
  sound : ∀ index < 4, ram.faults.any (·.contains (place + BitVec.ofNat 32 index)) = false

/-! ### Finding words and bytes -/

section

variable {ram : Ram} {place : Word}

theorem position_injective {other : Word} (same : ram.position place = ram.position other) :
    place = other := by
  have shifted : place - ram.base = other - ram.base := BitVec.eq_of_toNat_eq same
  calc
    place = place - ram.base + ram.base := (BitVec.sub_add_cancel _ _).symm
    _ = other - ram.base + ram.base := by rw [shifted]
    _ = other := BitVec.sub_add_cancel _ _

theorem position_of_offset {width : Width} {start : Nat}
    (found : ram.offset width place = .ok start) :
    ram.position place = start ∧ start + width.bytes ≤ ram.data.size := by
  simp only [offset] at found
  split at found
  · cases found
  · split at found
    · cases found
      exact ⟨rfl, by assumption⟩
    · cases found

/-- Addresses one after the other have positions one after the other, up to the position where
they reach around to the base. -/
theorem position_add {index : Nat} (low : ram.position place + index < 0x100000000) :
    ram.position (place + BitVec.ofNat 32 index) = ram.position place + index := by
  have apart : place + BitVec.ofNat 32 index - ram.base =
      place - ram.base + BitVec.ofNat 32 index := by
    rw [BitVec.sub_eq_add_neg, BitVec.sub_eq_add_neg, BitVec.add_assoc, BitVec.add_assoc,
      BitVec.add_comm (BitVec.ofNat 32 index)]
  simp only [position] at low ⊢
  rw [apart, BitVec.toNat_add, BitVec.toNat_ofNat]
  omega

/-- A block that fits into the address space reaches around nowhere. -/
theorem Holds.of_size (fits : ram.data.size ≤ 0x100000000)
    (inside : ram.position place + 4 ≤ ram.data.size)
    (sound : ∀ index < 4, ram.faults.any (·.contains (place + BitVec.ofNat 32 index)) = false) :
    ram.Holds place := ⟨inside, Nat.le_trans inside fits, sound⟩

theorem Holds.position_add (held : ram.Holds place) {index : Nat} (inside : index < 4) :
    ram.position (place + BitVec.ofNat 32 index) = ram.position place + index := by
  have bound := held.unwrapped
  exact Ram.position_add (by omega)

theorem Holds.offset_word (held : ram.Holds place) :
    ram.offset .word place = .ok (ram.position place) := by
  have sound := held.sound 0 (by omega)
  rw [BitVec.add_zero] at sound
  have inside := held.inside
  simp only [position] at inside
  simp only [offset, sound, Bool.false_eq_true, if_false, Width.bytes, inside, if_true, position]

theorem Holds.offset_byte (held : ram.Holds place) {index : Nat} (inside : index < 4) :
    ram.offset .byte (place + BitVec.ofNat 32 index) = .ok (ram.position place + index) := by
  have sound := held.sound index inside
  have found := held.position_add inside
  have last : ram.position place + index + 1 ≤ ram.data.size := by
    have room := held.inside
    omega
  simp only [position] at found last
  simp only [offset, sound, Bool.false_eq_true, if_false, Width.bytes, found, last, if_true,
    position]

end

/-! ### Reading -/

theorem valueAt_byte (ram : Ram) (start : Nat) : ram.valueAt .byte start = ram.byteAt start := by
  have only := scatter_gather ram.order .byte (fun index => ram.data.getD (start + index) 0)
    (show 0 < Width.byte.bytes by decide)
  rw [scatter_byte] at only
  exact only

theorem scatter_valueAt (ram : Ram) (start : Nat) {index : Nat} (inside : index < 4) :
    scatter ram.order .word (ram.valueAt .word start) index = ram.byteAt (start + index) :=
  scatter_gather ram.order .word _ inside

/-! ### Storing -/

/-- Bytes put into an array one after the other, at successive positions. -/
def putBytes (data : Array Byte) (start : Nat) (bytes : Nat → Byte) (count : Nat) : Array Byte :=
  (List.range count).foldl (fun data index => data.setIfInBounds (start + index) (bytes index)) data

theorem putBytes_succ (data : Array Byte) (start : Nat) (bytes : Nat → Byte) (count : Nat) :
    putBytes data start bytes (count + 1) =
      (putBytes data start bytes count).setIfInBounds (start + count) (bytes count) := by
  simp only [putBytes, List.range_succ, List.foldl_append, List.foldl_cons, List.foldl_nil]

theorem size_putBytes (data : Array Byte) (start : Nat) (bytes : Nat → Byte) (count : Nat) :
    (putBytes data start bytes count).size = data.size := by
  induction count with
  | zero => rfl
  | succ count ih => rw [putBytes_succ, Array.size_setIfInBounds, ih]

theorem getD_putBytes (data : Array Byte) (start : Nat) (bytes : Nat → Byte) {count : Nat}
    (inside : start + count ≤ data.size) (position : Nat) :
    (putBytes data start bytes count).getD position 0 =
      if start ≤ position ∧ position < start + count then bytes (position - start)
      else data.getD position 0 := by
  -- By induction on the number of bytes: the last of them takes the position after the others.
  induction count with
  | zero =>
    have none : ¬ (start ≤ position ∧ position < start + 0) := by omega
    rw [if_neg none]
    rfl
  | succ count ih =>
    have last : start + count < (putBytes data start bytes count).size := by
      rw [size_putBytes]
      omega
    rw [putBytes_succ, Array.getD_eq_getD_getElem?, Array.getElem?_setIfInBounds]
    by_cases same : start + count = position
    · subst same
      have offset : start + count - start = count := by omega
      rw [if_pos rfl, if_pos last, if_pos (by omega), offset]
      rfl
    · rw [if_neg same, ← Array.getD_eq_getD_getElem?, ih (by omega)]
      by_cases among : start ≤ position ∧ position < start + count
      · rw [if_pos among, if_pos (by omega)]
      · rw [if_neg among, if_neg (by omega)]

/-- A store changes the bytes of the block only. -/
theorem storeAt_eq (ram : Ram) (width : Width) (start : Nat) (value : BitVec width.bits) :
    ram.storeAt width start value =
      { ram with data := (ram.storeAt width start value).data } := rfl

theorem size_storeAt (ram : Ram) (width : Width) (start : Nat) (value : BitVec width.bits) :
    (ram.storeAt width start value).data.size = ram.data.size :=
  size_storeBytes _ _ _ _ _

theorem byteAt_storeAt {ram : Ram} {width : Width} {start : Nat}
    (inside : start + width.bytes ≤ ram.data.size) (value : BitVec width.bits) (position : Nat) :
    (ram.storeAt width start value).byteAt position =
      if start ≤ position ∧ position < start + width.bytes then
        scatter ram.order width value (position - start)
      else ram.byteAt position :=
  getD_putBytes ram.data start (scatter ram.order width value) inside position

theorem offset_storeAt (ram : Ram) (width : Width) (start : Nat) (value : BitVec width.bits) :
    (ram.storeAt width start value).offset = ram.offset := by
  funext other place
  simp only [offset, size_storeAt]
  rfl

/-- A value that is stored is read back. -/
theorem valueAt_storeAt_self {ram : Ram} {width : Width} {start : Nat}
    (inside : start + width.bytes ≤ ram.data.size) (value : BitVec width.bits) :
    (ram.storeAt width start value).valueAt width start = value := by
  calc
    (ram.storeAt width start value).valueAt width start =
        gather ram.order width (scatter ram.order width value) := by
      apply gather_ext
      intro index low
      have byte := byteAt_storeAt inside value (start + index)
      have offset : start + index - start = index := by omega
      rwa [if_pos (by omega), offset] at byte
    _ = value := gather_scatter ram.order width value

/-- A value at other positions stays as it was. -/
theorem valueAt_storeAt_of_apart {ram : Ram} {width other : Width} {start place : Nat}
    (inside : start + width.bytes ≤ ram.data.size) (value : BitVec width.bits)
    (apart : start + width.bytes ≤ place ∨ place + other.bytes ≤ start) :
    (ram.storeAt width start value).valueAt other place = ram.valueAt other place := by
  apply gather_ext
  intro index low
  have byte := byteAt_storeAt inside value (place + index)
  rwa [if_neg (by omega)] at byte

/-! ### Comparing blocks -/

/-- The block `after` is `before` with some bytes stored, each at its position. -/
structure Stored (position : Nat → Nat) (bytes : Nat → Byte) (touched : Nat → Prop)
    (before after : Ram) : Prop where
  block : after = { before with data := after.data }
  size : after.data.size = before.data.size
  stored : ∀ index, touched index → after.byteAt (position index) = bytes index
  kept : ∀ place, (∀ index, touched index → place ≠ position index) →
    after.byteAt place = before.byteAt place

section

variable {position : Nat → Nat} {bytes : Nat → Byte} {touched : Nat → Prop}
  {before middle after : Ram}

theorem Stored.order (stored : Stored position bytes touched before after) :
    after.order = before.order := by
  rw [stored.block]

theorem Stored.position_eq (stored : Stored position bytes touched before after) (place : Word) :
    after.position place = before.position place := by
  rw [stored.block]
  rfl

theorem Stored.offset_eq (stored : Stored position bytes touched before after) (width : Width)
    (place : Word) : after.offset width place = before.offset width place := by
  have size := stored.size
  rw [stored.block] at size ⊢
  simp only [offset, size]

theorem Stored.holds (stored : Stored position bytes touched before after) {place : Word}
    (held : before.Holds place) : after.Holds place where
  inside := by
    rw [stored.position_eq, stored.size]
    exact held.inside
  unwrapped := by
    rw [stored.position_eq]
    exact held.unwrapped
  sound := by
    rw [stored.block]
    exact held.sound

/-- A word that is stored as a whole stores the bytes in which it differs from what was there. -/
theorem stored_word {ram : Ram} {start : Nat} {word : Word} (inside : start + 4 ≤ ram.data.size)
    (new : ∀ index, touched index → ∃ lane < 4, position index = start + lane ∧
      scatter ram.order .word word lane = bytes index)
    (old : ∀ lane < 4, (∀ index, touched index → start + lane ≠ position index) →
      scatter ram.order .word word lane = ram.byteAt (start + lane)) :
    Stored position bytes touched ram (ram.storeAt .word start word) where
  block := storeAt_eq _ _ _ _
  size := size_storeAt _ _ _ _
  stored := by
    intro index reached
    obtain ⟨lane, low, found, byte⟩ := new index reached
    have offset : start + lane - start = lane := by omega
    rw [byteAt_storeAt inside, found, if_pos ⟨by omega, by simp only [Width.bytes]; omega⟩, offset,
      byte]
  kept := by
    intro place untouched
    rw [byteAt_storeAt inside]
    by_cases among : start ≤ place ∧ place < start + Width.word.bytes
    · have low : place - start < 4 := by
        simp only [Width.bytes] at among
        omega
      have back : start + (place - start) = place := by omega
      -- A lane that is not touched is stored as it was.
      have same := old (place - start) low (by rw [back]; exact untouched)
      rw [if_pos among, same, back]
    · rw [if_neg among]

theorem stored_byte {ram : Ram} {index : Nat} (inside : position index < ram.data.size) :
    Stored position bytes (· = index) ram (ram.storeAt .byte (position index) (bytes index)) where
  block := storeAt_eq _ _ _ _
  size := size_storeAt _ _ _ _
  stored := by
    rintro other rfl
    have offset : position other - position other = 0 := by omega
    rw [byteAt_storeAt (by simp only [Width.bytes]; omega),
      if_pos ⟨by omega, by simp only [Width.bytes]; omega⟩, offset, scatter_byte]
  kept := by
    intro place untouched
    have apart := untouched index rfl
    rw [byteAt_storeAt (by simp only [Width.bytes]; omega), if_neg]
    simp only [Width.bytes]
    omega

/-- A block is known when its bytes are. -/
theorem eq_of_bytes {ram other : Ram} (block : other = { ram with data := other.data })
    (size : other.data.size = ram.data.size)
    (same : ∀ place, other.byteAt place = ram.byteAt place) : other = ram := by
  have data : other.data = ram.data := by
    apply Array.ext size
    intro place inside inside'
    have byte := same place
    simpa [byteAt, inside, inside'] using byte
  rw [block, data]

theorem Stored.trans {first second : Nat → Prop}
    (one : Stored position bytes first before middle)
    (two : Stored position bytes second middle after)
    (apart : ∀ index later, first index → second later → position index = position later →
      index = later) :
    Stored position bytes (fun index => first index ∨ second index) before after where
  block := by
    rw [two.block, one.block]
  size := two.size.trans one.size
  stored := by
    intro index touched
    by_cases later : second index
    · exact two.stored index later
    · have earlier : first index := touched.resolve_right later
      -- No later byte goes to the same position.
      have passed : ∀ other, second other → position index ≠ position other := by
        intro other stored same
        rw [apart index other earlier stored same] at later
        exact later stored
      rw [two.kept _ passed]
      exact one.stored index earlier
  kept := by
    intro place untouched
    rw [two.kept place fun index stored => untouched index (.inr stored)]
    exact one.kept place fun index stored => untouched index (.inl stored)

/-- What was stored, and where, decides what the block is. -/
theorem Stored.unique {other : Ram}
    (one : Stored position bytes touched before after)
    (two : Stored position bytes touched before other) : other = after := by
  apply eq_of_bytes
  · rw [two.block, one.block]
  · rw [two.size, one.size]
  · intro place
    by_cases reached : ∃ index, touched index ∧ place = position index
    · obtain ⟨index, stored, rfl⟩ := reached
      rw [one.stored index stored, two.stored index stored]
    · have untouched : ∀ index, touched index → place ≠ position index := by
        intro index stored same
        exact reached ⟨index, stored, same⟩
      rw [one.kept place untouched, two.kept place untouched]

end

end R3000.Ram
