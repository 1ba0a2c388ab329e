import R3000.Ram

/-!
# Faulty ranges

A range that is marked as faulty is meant to refuse all accesses that touch it. The block looks at
the first byte of an access only, so a range that begins behind it goes unnoticed. Accesses of
one byte are not concerned, nor are aligned accesses when the ranges begin at aligned addresses.
-/
namespace R3000.Ram

/-- The address lies in a faulty range. -/
def FaultyAt (ram : Ram) (address : Word) : Prop :=
  ∃ range ∈ ram.faults, range.start ≤ address ∧ address < range.stop

/-- A byte of the access lies in a faulty range. -/
def TouchesFault (ram : Ram) (width : Width) (address : Word) : Prop :=
  ∃ index < width.bytes, ram.FaultyAt (address + BitVec.ofNat 32 index)

/-- Reads and writes are answered with a fault, and change nothing. -/
structure Refuses (ram : Ram) (width : Width) (address : Word) : Prop where
  read : ram.read width address = .error (.fault address)
  write : ∀ value mask, ram.write width address value mask = (.error (.fault address), ram)

/-- Reads and writes succeed. -/
structure Serves (ram : Ram) (width : Width) (address : Word) : Prop where
  read : ∃ value, ram.read width address = .ok value
  write : ∀ value mask, (ram.write width address value mask).1 = .ok ()

section

variable {ram : Ram} {width : Width} {address : Word}

theorem any_contains_iff (ram : Ram) (address : Word) :
    ram.faults.any (·.contains address) = true ↔ ram.FaultyAt address := by
  simp only [List.any_eq_true, FaultRange.contains_iff, FaultyAt]

theorem refuses_of_faultyAt (faulty : ram.FaultyAt address) (width : Width) :
    ram.Refuses width address := by
  have found := (ram.any_contains_iff address).mpr faulty
  constructor
  · simp only [Ram.read, offset, found, if_true]
    rfl
  · intro value mask
    simp only [Ram.write, offset, found, if_true]

theorem serves_of_not_faultyAt (sound : ¬ ram.FaultyAt address)
    (inside : (address - ram.base).toNat + width.bytes ≤ ram.data.size) :
    ram.Serves width address := by
  have free : ram.faults.any (·.contains address) = false := by
    rw [Bool.eq_false_iff]
    exact fun found => sound ((ram.any_contains_iff address).mp found)
  constructor
  · simp only [Ram.read, offset, free, Bool.false_eq_true, if_false, inside, if_true]
    exact ⟨_, rfl⟩
  · intro value mask
    simp only [Ram.write, offset, free, Bool.false_eq_true, if_false, inside, if_true]

theorem Serves.not_refuses (serves : ram.Serves width address) : ¬ ram.Refuses width address := by
  intro refuses
  obtain ⟨value, answered⟩ := serves.read
  cases refuses.read.symm.trans answered

theorem touchesFault_of_faultyAt (faulty : ram.FaultyAt address) (width : Width) :
    ram.TouchesFault width address := by
  refine ⟨0, by cases width <;> decide, ?_⟩
  rw [BitVec.add_zero]
  exact faulty

/-- A range that does not begin inside an aligned access contains its first byte, if it contains
any of its bytes. -/
theorem faultyAt_of_touchesFault (aligned : width.aligned address = true)
    (starts : ∀ range ∈ ram.faults, width.aligned range.start = true)
    (touched : ram.TouchesFault width address) : ram.FaultyAt address := by
  obtain ⟨index, inside, range, member, after, before⟩ := touched
  have whole := (width.aligned_iff address).mp aligned
  have begins := (width.aligned_iff range.start).mp (starts range member)
  refine ⟨range, member, ?_⟩
  -- An aligned access ends before the next multiple of its width.
  have unwrapped : (address + BitVec.ofNat 32 index).toNat = address.toNat + index := by
    have bound := address.isLt
    rw [BitVec.toNat_add, BitVec.toNat_ofNat]
    cases width <;> simp only [Width.bytes] at whole inside <;> omega
  simp only [BitVec.le_def, BitVec.lt_def, unwrapped] at after before ⊢
  cases width <;> simp only [Width.bytes] at whole begins inside <;> omega

end

/-- Whether an access to the block is refused is decided by its first byte: it is refused when
that is faulty and served when it is not. So the faulty ranges refuse what touches them exactly
where no access reaches a faulty byte from a first byte that is sound, in particular at aligned
addresses when all ranges begin at aligned addresses. -/
theorem refuses_iff_faultyAt (ram : Ram) (width : Width) (address : Word)
    (inside : (address - ram.base).toNat + width.bytes ≤ ram.data.size) :
    (ram.Refuses width address ↔ ram.FaultyAt address) ∧
      (ram.Serves width address ↔ ¬ ram.FaultyAt address) ∧
      ((ram.Refuses width address ↔ ram.TouchesFault width address) ↔
        (ram.TouchesFault width address → ram.FaultyAt address)) ∧
      (width.aligned address = true → (∀ range ∈ ram.faults, width.aligned range.start = true) →
        (ram.Refuses width address ↔ ram.TouchesFault width address) ∧
          (ram.Serves width address ↔ ¬ ram.TouchesFault width address)) := by
  have refused : ram.Refuses width address ↔ ram.FaultyAt address := by
    constructor
    · intro refuses
      by_cases faulty : ram.FaultyAt address
      · exact faulty
      · exact absurd refuses (serves_of_not_faultyAt faulty inside).not_refuses
    · intro faulty
      exact refuses_of_faultyAt faulty width
  have served : ram.Serves width address ↔ ¬ ram.FaultyAt address := by
    constructor
    · intro serves faulty
      exact serves.not_refuses (refuses_of_faultyAt faulty width)
    · intro sound
      exact serves_of_not_faultyAt sound inside
  have touching : ram.FaultyAt address → ram.TouchesFault width address := fun faulty =>
    touchesFault_of_faultyAt faulty width
  refine ⟨refused, served, ?_, ?_⟩
  · rw [refused]
    exact ⟨Iff.mpr, fun reached => ⟨touching, reached⟩⟩
  · intro aligned starts
    have reached := faultyAt_of_touchesFault aligned starts
    rw [refused, served]
    exact ⟨⟨touching, reached⟩, not_congr ⟨touching, reached⟩⟩

/-- Two words, the second of which is faulty. -/
def faultyWord : Ram := (zeroed 0 8 .big).injectFault 4 8

/-- The second word is refused and the first is served. -/
theorem refuses_iff_faultyAt_word :
    (4 - faultyWord.base).toNat + Width.word.bytes ≤ faultyWord.data.size ∧
      (∀ range ∈ faultyWord.faults, Width.word.aligned range.start = true) ∧
      faultyWord.Refuses .word 4 ∧ faultyWord.Serves .word 0 := by
  have inside : (4 - faultyWord.base).toNat + Width.word.bytes ≤ faultyWord.data.size := by decide
  have starts : ∀ range ∈ faultyWord.faults, Width.word.aligned range.start = true := by decide
  have touched : faultyWord.TouchesFault .word 4 :=
    ⟨0, by decide, ⟨4, 8⟩, by decide, by decide, by decide⟩
  have sound : ¬ faultyWord.FaultyAt 0 := by
    rintro ⟨range, member, begins, -⟩
    cases List.mem_singleton.mp member
    exact absurd begins (by decide)
  obtain ⟨-, -, -, covered⟩ := faultyWord.refuses_iff_faultyAt .word 4 inside
  obtain ⟨-, served, -⟩ := faultyWord.refuses_iff_faultyAt .word 0 (by decide)
  exact ⟨inside, starts, (covered (by decide) starts).1.mpr touched, served.mpr sound⟩

/-- The third byte is faulty as well. -/
def faultyBytes : Ram := faultyWord.injectFault 2 3

/-- The first word is read although it has a faulty byte. -/
theorem not_refuses_later_fault :
    (0 - faultyBytes.base).toNat + Width.word.bytes ≤ faultyBytes.data.size ∧
      faultyBytes.TouchesFault .word 0 ∧ faultyBytes.read .word 0 = .ok 0 ∧
      ¬ (faultyBytes.Refuses .word 0 ↔ faultyBytes.TouchesFault .word 0) := by
  have touched : faultyBytes.TouchesFault .word 0 :=
    ⟨2, by decide, ⟨2, 3⟩, by decide, by decide, by decide⟩
  have answered : faultyBytes.read .word 0 = .ok 0 := by rfl
  refine ⟨by decide, touched, answered, ?_⟩
  intro covered
  cases (covered.mpr touched).read.symm.trans answered

end R3000.Ram
