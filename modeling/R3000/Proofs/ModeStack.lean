import R3000.Proofs.Entering

/-!
# The mode stack

The six low bits of the status register are three pairs of modes. What a push and a pop make of
them is said bit by bit; what they make of the present mode, of the previous one, and of the bits
outside the stack follows from that.
-/
namespace R3000

/-- A mask of one bit asks for that bit. -/
theorem hasAny_twoPow (word : Word) {index : Nat} (bound : index < 32) :
    hasAny word (BitVec.twoPow 32 index) = word.getLsbD index := by
  have nonzero : BitVec.twoPow 32 index ≠ 0 := by
    intro zero
    have bit := congrArg (BitVec.getLsbD · index) zero
    simp [bound] at bit
  simp only [hasAny, BitVec.and_twoPow]
  cases word.getLsbD index with
  | true => simpa using nonzero
  | false => simp

namespace Status

theorem getLsbD_push (status : Word) (index : Nat) (bound : index < 32) :
    (push status).getLsbD index =
      if index < 6 then decide (2 ≤ index) && status.getLsbD (index - 2)
      else status.getLsbD index := by
  have stack : ∀ place < 32, kuie.getLsbD place = decide (place < 6) := by decide
  have upper : ∀ place < 32, kuieOP.getLsbD place = decide (2 ≤ place ∧ place < 6) := by decide
  simp only [push, replaceBits, BitVec.getLsbD_or, BitVec.getLsbD_and, BitVec.getLsbD_not,
    BitVec.getLsbD_shiftLeft, stack index bound, upper index bound]
  by_cases low : index < 6
  · by_cases second : 2 ≤ index
    · have beyond : ¬ index < 2 := by omega
      simp only [low, second, bound, beyond, and_self, decide_true, decide_false, Bool.not_true,
        Bool.not_false, Bool.and_true, Bool.true_and, Bool.and_false, Bool.false_or, if_true]
    · simp [low, second]
  · simp [low, bound]

theorem getLsbD_pop (status : Word) (index : Nat) (bound : index < 32) :
    (pop status).getLsbD index =
      if index < 4 then status.getLsbD (2 + index) else status.getLsbD index := by
  have recent : ∀ place < 32, kuiePC.getLsbD place = decide (place < 4) := by decide
  simp only [pop, replaceBits, BitVec.getLsbD_or, BitVec.getLsbD_and, BitVec.getLsbD_not,
    BitVec.getLsbD_ushiftRight, recent index bound]
  by_cases low : index < 4
  · simp [low]
  · simp [low, bound]

/-- A pop gives back the current and the previous pair. The oldest was pushed out, and the pair
that took its place stays there. -/
theorem pop_push (status : Word) : pop (push status) = replaceBits status 0x30 (status <<< 2) := by
  have oldest : ∀ place < 32, (0x30 : Word).getLsbD place = decide (4 ≤ place ∧ place < 6) := by
    decide
  apply BitVec.eq_of_getLsbD_eq
  intro index bound
  rw [getLsbD_pop _ _ bound]
  simp only [replaceBits, BitVec.getLsbD_or, BitVec.getLsbD_and, BitVec.getLsbD_not,
    BitVec.getLsbD_shiftLeft, oldest index bound]
  by_cases low : index < 4
  · have pushed : 2 + index < 6 := by omega
    have notOldest : ¬ 4 ≤ index := by omega
    rw [if_pos low, getLsbD_push _ _ (by omega), if_pos pushed]
    simp [bound, notOldest]
  · rw [if_neg low, getLsbD_push _ _ bound]
    by_cases inStack : index < 6
    · have second : 2 ≤ index := by omega
      have third : 4 ≤ index := by omega
      have beyond : ¬ index < 2 := by omega
      simp only [inStack, second, third, bound, beyond, and_self, decide_true, decide_false,
        Bool.not_true, Bool.not_false, Bool.and_true, Bool.true_and, Bool.and_false,
        Bool.false_or, if_true]
    · simp [inStack, bound]

/-! ### The present mode -/

/-- The pair that a push puts in front is kernel mode with interrupts off. -/
theorem push_present (status : Word) : push status &&& 0x3 = 0 := by
  have lowPair : ∀ place < 32, (0x3 : Word).getLsbD place = decide (place < 2) := by decide
  apply BitVec.eq_of_getLsbD_eq
  intro index bound
  rw [BitVec.getLsbD_and, getLsbD_push _ _ bound, lowPair index bound]
  by_cases present : index < 2
  · have low : index < 6 := by omega
    have notSecond : ¬ 2 ≤ index := by omega
    simp [low, notSecond]
  · simp [present]

/-- After a push, the previous mode is what the present one was. -/
theorem hasAny_push_kup (status : Word) : hasAny (push status) kup = userMode status := by
  have previous : kup = BitVec.twoPow 32 3 := by decide
  have present : kuc = BitVec.twoPow 32 1 := by decide
  rw [userMode, previous, present, hasAny_twoPow _ (by decide), hasAny_twoPow _ (by decide),
    getLsbD_push _ _ (by decide)]
  rfl

/-- Kernel mode with interrupts off, from the pair of bits. -/
theorem masked_of_present {status : Word} (clear : status &&& 0x3 = 0) :
    userMode status = false ∧ interruptsEnabled status = false := by
  have same : status &&& 0x3 = 0 &&& 0x3 := by
    rw [clear]
    rfl
  exact ⟨hasAny_of_subset same (by decide), hasAny_of_subset same (by decide)⟩

theorem userMode_push (status : Word) : userMode (push status) = false :=
  (masked_of_present (push_present status)).1

end Status

/-- The notes of entering a handler. The change of the mode comes last, and is one when the program
was in user mode. -/
theorem Core.notes_enter (core : Core) (trap : Trap) :
    (core.enter trap).2 = trap.notes core.pc ++
      [.message (.exceptionEntered trap.exception core.restartPc
          (core.causeAfter trap.exception) (core.enter trap).1.pc),
        .message (.registersAtException core.registers),
        .event (.exception trap.exception core.restartPc (core.enter trap).1.pc)] ++
      (if core.userMode then [.event (.privilegeChange false)] else []) := by
  -- The pair below the one pushed tells which mode the program was in.
  have previous : hasAny (core.enter trap).1.system.status Status.kup = core.userMode := by
    rw [status_enter, Status.hasAny_push_kup]
    rfl
  rw [← previous]
  rfl

end R3000
