import R3000.Proofs.MemoryBytes
import R3000.Proofs.Requests

/-!
# Memory as aligned words

To accesses of aligned words a block of memory is a row of cells of one word each: no two of
them share a byte, so what is written to one is found there, under the mask, and nowhere else.
How the bytes of a word lie in its cell does not show.

So two blocks whose aligned words are the same go on to answer alike, and to hold the same words,
whatever their byte orders are.
-/
namespace R3000

namespace Ram

section

variable {ram : Ram} {address other : Word}

/-- A write is answered as a read at the same place is. -/
theorem answer_write (ram : Ram) (width : Width) (address : Word) (value mask : BitVec width.bits) :
    (ram.write width address value mask).1 = (ram.read width address).map fun _ => () := by
  simp only [write, read]
  cases ram.offset width address <;> rfl

/-- Two aligned words lie at positions that are at least a word apart. -/
theorem words_apart (aligned : Width.word.aligned address = true)
    (aligned' : Width.word.aligned other = true) (different : other ≠ address) :
    ram.position address + Width.word.bytes ≤ ram.position other ∨
      ram.position other + Width.word.bytes ≤ ram.position address := by
  have whole := (Width.word.aligned_iff address).mp aligned
  have whole' := (Width.word.aligned_iff other).mp aligned'
  have apart : other.toNat ≠ address.toNat := fun same => different (BitVec.eq_of_toNat_eq same)
  -- Both distances from the base leave the same remainder by four, even when one wraps.
  simp only [position, BitVec.toNat_sub, Width.bytes] at whole whole' ⊢
  omega

/-- A write of an aligned word shows in the reads of that word only. -/
theorem read_write (aligned : Width.word.aligned address = true)
    (aligned' : Width.word.aligned other = true) (value mask : Word) :
    (ram.write .word address value mask).2.read .word other =
      if other = address then (ram.read .word address).map (mergeMasked · value mask)
      else ram.read .word other := by
  cases found : ram.offset .word address with
  | error refusal =>
    -- Nothing is written, and the same read is refused.
    have unchanged : (ram.write .word address value mask).2 = ram := by
      simp only [write, found]
    rw [unchanged]
    by_cases same : other = address
    · rw [if_pos same, same]
      simp only [read, found]
      rfl
    · rw [if_neg same]
  | ok start =>
    have written : (ram.write .word address value mask).2 =
        ram.storeAt .word start (mergeMasked (ram.valueAt .word start) value mask) := by
      simp only [write, found]
    obtain ⟨position, inside⟩ := position_of_offset found
    rw [written]
    simp only [read, offset_storeAt]
    by_cases same : other = address
    · rw [if_pos same, same, found]
      simp only [Except.map, valueAt_storeAt_self inside]
    · rw [if_neg same]
      cases found' : ram.offset .word other with
      | error refusal => simp only [Except.map]
      | ok start' =>
        obtain ⟨position', -⟩ := position_of_offset found'
        have apart := ram.words_apart aligned aligned' same
        rw [position, position'] at apart
        simp only [Except.map, valueAt_storeAt_of_apart inside _ apart]

end

/-! ### Blocks with the same words -/

/-- Every read of an aligned word has the same result, be it a value or a refusal. -/
def SameWords (ram other : Ram) : Prop :=
  ∀ address, Width.word.aligned address = true → ram.read .word address = other.read .word address

section

variable {first second : Ram} {address : Word}

theorem SameWords.write (same : first.SameWords second)
    (aligned : Width.word.aligned address = true) (value mask : Word) :
    (first.write .word address value mask).1 = (second.write .word address value mask).1 ∧
      (first.write .word address value mask).2.SameWords
        (second.write .word address value mask).2 := by
  refine ⟨?_, fun other aligned' => ?_⟩
  · rw [answer_write, answer_write, same address aligned]
  · rw [read_write aligned aligned', read_write aligned aligned', same address aligned,
      same other aligned']

/-- Blocks with the same words answer requests for aligned words alike, and still have the same
words. -/
theorem follows_sameWords : Bus.Follows SameWords Request.AlignedWord id := by
  rintro first second request same ⟨width, aligned⟩
  cases request with
  | read width' address =>
    cases width
    exact ⟨congrArg (Reply.value .word) (same address aligned), same⟩
  | write width' address value mask =>
    cases width
    obtain ⟨answers, still⟩ := same.write aligned value mask
    exact ⟨congrArg Reply.stored answers, still⟩

/-! ### Blocks that were loaded with words -/

theorem sameWords_zeroed (base : Word) (size : Nat) (order other : ByteOrder) :
    (zeroed base size order).SameWords (zeroed base size other) := by
  have zero (order : ByteOrder) (start : Nat) :
      (zeroed base size order).valueAt .word start = 0 := by
    have byte (position : Nat) : (Array.replicate size (0 : Byte)).getD position 0 = 0 := by
      rw [Array.getD_eq_getD_getElem?, Array.getElem?_replicate]
      split <;> rfl
    simp only [valueAt, zeroed, byte]
    cases order <;> rfl
  have value : (zeroed base size order).valueAt .word = (zeroed base size other).valueAt .word := by
    funext start
    rw [zero, zero]
  intro address _
  simp only [read, value]
  rfl

/-- Words that are loaded into both are the same words in both, and the same are dropped. -/
theorem SameWords.loadWords (same : first.SameWords second)
    (aligned : Width.word.aligned address = true) (words : List Word) :
    (first.loadWords address words).1.SameWords (second.loadWords address words).1 ∧
      (first.loadWords address words).2 = (second.loadWords address words).2 := by
  -- Each word is one write, and the next one goes to the next aligned address.
  induction words generalizing first second address with
  | nil => exact ⟨same, rfl⟩
  | cons word rest ih =>
    have next : Width.word.aligned (address + 4) = true := by
      have four : (4 : Word).toNat = 4 := rfl
      rw [Width.aligned_iff] at aligned ⊢
      simp only [BitVec.toNat_add, four, Width.bytes] at aligned ⊢
      omega
    obtain ⟨answers, still⟩ := same.write aligned word (fullMask .word)
    obtain ⟨words, dropped⟩ := ih still next
    simp only [Ram.loadWords]
    generalize first.write .word address word (fullMask .word) = one at *
    generalize second.write .word address word (fullMask .word) = two at *
    obtain ⟨answer, memory⟩ := one
    obtain ⟨answer', memory'⟩ := two
    simp only at answers words dropped
    subst answers
    cases answer with
    | ok done => exact ⟨words, dropped⟩
    | error reason => exact ⟨words, congrArg (_ :: ·) dropped⟩

end

end Ram

end R3000
