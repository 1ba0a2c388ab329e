import R3000.Proofs.BranchRestart
import R3000.Proofs.ModeStack
import R3000.Proofs.RegisterNumbers
import R3000.Proofs.WriteBack

/-!
# The instruction set

Which words are instructions is told of their fields, as a manual lists them. A processor without a
lookaside buffer lacks the instructions for it. The coprocessor that a word addresses is asked
first: a word that it may not be used for is refused whether it is an instruction or not.

Every other word that is no instruction is reserved, and no instruction is. The floating point unit
has an answer of its own to the operations that it does not know: it records them and asks for an
interrupt.
-/
namespace R3000

namespace Encoding

/-- The codes of the register instructions. -/
def specialCodes : List (BitVec 6) :=
  [0x00, 0x02, 0x03, 0x04, 0x06, 0x07, 0x08, 0x09, 0x0c, 0x0d, 0x0e, 0x0f, 0x10, 0x11, 0x12, 0x13,
    0x18, 0x19, 0x1a, 0x1b, 0x20, 0x21, 0x22, 0x23, 0x24, 0x25, 0x26, 0x27, 0x2a, 0x2b]

/-- The opcodes of jumps, branches, operations with immediate operands, products that are added,
loads, stores and cache control, then those of the floating point unit. -/
def opcodes : List (BitVec 6) :=
  [0x02, 0x03, 0x04, 0x05, 0x06, 0x07, 0x08, 0x09, 0x0a, 0x0b, 0x0c, 0x0d, 0x0e, 0x0f, 0x14, 0x15,
    0x16, 0x17, 0x1c, 0x20, 0x21, 0x22, 0x23, 0x24, 0x25, 0x26, 0x28, 0x29, 0x2a, 0x2b, 0x2e, 0x2f,
    0x11, 0x31, 0x39]

/-- The instructions for a lookaside buffer. -/
def tlbWords : List Word := [0x42000001, 0x42000002, 0x42000006, 0x42000008]

/-- The word is a branch on the condition of its coprocessor. -/
def isUnitBranch (word : Word) : Bool := unitOp word == 0x08 && decide (rt word ≤ 3)

/-- The word is an instruction of a processor with or without a lookaside buffer. -/
def documented (buffered : Bool) (word : Word) : Bool :=
  if opcode word = 0x00 then specialCodes.contains (funct word)
  -- The bit of a likely branch is ignored.
  else if opcode word = 0x01 then [0x00, 0x01, 0x10, 0x11].contains ((rt word).val &&& 0x1d)
  else if opcode word = 0x10 then
    [0x00, 0x04].contains (unitOp word) || isUnitBranch word ||
      word.getLsbD 25 && funct word == 0x10 || buffered && tlbWords.contains word
  else if [0x12, 0x13].contains (opcode word) then isUnitBranch word
  else opcodes.contains (opcode word)

/-- The coprocessor that a word addresses. -/
def unit? (word : Word) : Option (Fin 4) :=
  if opcode word = 0x10 then some 0
  else if [0x11, 0x31, 0x39].contains (opcode word) then some 1
  else if [0x12, 0x32, 0x3a].contains (opcode word) then some 2
  else if [0x13, 0x33, 0x3b].contains (opcode word) then some 3
  else none

/-- The function of a word is known in both precisions: arithmetic, moves, the conversion to a word
and comparisons. -/
def isArithmetic (word : Word) : Bool :=
  [0x00, 0x01, 0x02, 0x03, 0x05, 0x06, 0x07, 0x24].contains (funct word) ||
    decide (0x30 ≤ funct word)

/-- The word asks for an operation in one of the two precisions, or for a conversion from words. -/
def isFloatOp (word : Word) : Bool :=
  unitOp word == 0x10 && (isArithmetic word || funct word == 0x21) ||
    unitOp word == 0x11 && (isArithmetic word || funct word == 0x20) ||
    unitOp word == 0x14 && [0x20, 0x21].contains (funct word)

/-- The floating point unit knows what a word of coprocessor 1 asks for: a move, a branch, or an
operation on its own registers. -/
def knownFloat (word : Word) : Bool :=
  [0x00, 0x02, 0x04, 0x06].contains (unitOp word) || isUnitBranch word || isFloatOp word

end Encoding

def SystemOp.isReserved (buffered : Bool) : SystemOp → Bool
  | reserved => true
  | tlb _ => !buffered
  | _ => false

namespace Instr

/-- The instruction is reserved for a processor with or without a lookaside buffer. -/
def isReserved (buffered : Bool) : Instr → Bool
  | reserved => true
  | foreign _ condition => condition.isNone
  | system op => op.isReserved buffered
  | _ => false

/-- The coprocessor that an instruction addresses. -/
def unit? : Instr → Option (Fin 4)
  | system _ => some 0
  | float _ => some 1
  | foreign unit _ => some unit
  | _ => none

end Instr

/-! ### Decoding -/

section

variable {word : Word}

open Encoding

theorem isReserved_decodeSpecial (buffered : Bool) (code : opcode word = 0x00) :
    (decodeSpecial word).isReserved buffered = !documented buffered word := by
  unfold decodeSpecial
  split
  case h_31 => simp_all [Instr.isReserved, documented, specialCodes]
  all_goals
    next selected => simp [Instr.isReserved, documented, code, selected, specialCodes]

theorem isReserved_decodeSignBranch (buffered : Bool) (code : opcode word = 0x01) :
    (decodeSignBranch word).isReserved buffered = !documented buffered word := by
  have others : ∀ reg : RegNum, [0x00, 0x01, 0x10, 0x11].contains (reg.val &&& 0x1d) = true →
      reg ∈ ([0x00, 0x02, 0x01, 0x03, 0x10, 0x12, 0x11, 0x13] : List RegNum) := by decide
  have selects : documented buffered word =
      [0x00, 0x01, 0x10, 0x11].contains ((rt word).val &&& 0x1d) := by simp [documented, code]
  rw [selects]
  unfold decodeSignBranch
  split
  case h_9 =>
    cases listed : [0x00, 0x01, 0x10, 0x11].contains ((rt word).val &&& 0x1d) with
    | false => rfl
    | true =>
      have member := others _ listed
      simp_all
  all_goals
    next selected =>
      rw [selected]
      rfl

theorem isSome_decodeUnitBranch (word : Word) :
    (decodeUnitBranch word).isSome = decide (rt word ≤ 3) := by
  have others : ∀ reg : RegNum, reg ≠ 0 → reg ≠ 1 → reg ≠ 2 → reg ≠ 3 → ¬reg ≤ 3 := by decide
  unfold decodeUnitBranch
  split
  case h_5 => simp_all
  all_goals
    next selected =>
      rw [selected]
      rfl

theorem decodeTlb_eq_none (word : Word) :
    decodeTlb word = none ↔ tlbWords.contains word = false := by
  unfold decodeTlb
  split
  case h_5 => simp_all [tlbWords]
  all_goals decide

/-- The highest bit of the operation field. -/
theorem le_unitOp (word : Word) : decide (0x10 ≤ unitOp word) = word.getLsbD 25 := by
  have high (field : BitVec 5) : decide (0x10 ≤ field) = field.getLsbD 4 := by
    revert field
    decide
  rw [high]
  simp [unitOp]

theorem isReserved_decodeSystem (buffered : Bool) (code : opcode word = 0x10) :
    (Instr.system (decodeSystem word)).isReserved buffered = !documented buffered word := by
  have selects : documented buffered word =
      ([0x00, 0x04].contains (unitOp word) || isUnitBranch word ||
        word.getLsbD 25 && funct word == 0x10 || buffered && tlbWords.contains word) := by
    simp [documented, code]
  rw [selects, isUnitBranch, ← isSome_decodeUnitBranch, ← le_unitOp]
  unfold decodeSystem
  cases found : decodeTlb word with
  | some op =>
    -- The four words are no moves, no branches and no return from an exception.
    unfold decodeTlb at found
    split at found
    case h_5 => cases found
    all_goals
      cases found
      cases buffered <;> decide
  | none =>
    simp only [(decodeTlb_eq_none word).mp found]
    split
    · simp_all [Instr.isReserved, SystemOp.isReserved]
    · split
      · simp_all [Instr.isReserved, SystemOp.isReserved]
      · split
        · cases branch : decodeUnitBranch word <;>
            simp_all [Instr.isReserved, SystemOp.isReserved]
        · cases restores : decide (0x10 ≤ unitOp word) && funct word == 0x10 <;>
            simp_all [Instr.isReserved, SystemOp.isReserved]

theorem isReserved_decodeForeign (buffered : Bool) (code : opcode word ∈ [0x12, 0x13]) :
    (decodeForeign word).isReserved buffered = !documented buffered word := by
  have selects : documented buffered word = isUnitBranch word := by
    simp only [List.mem_cons, List.not_mem_nil, or_false] at code
    rcases code with code | code <;> simp [documented, code]
  rw [selects, isUnitBranch, ← isSome_decodeUnitBranch, decodeForeign]
  by_cases field : unitOp word = 0x08 <;> simp_all [Instr.isReserved]

/-- The words that decode to something reserved are those that are no instructions. -/
theorem isReserved_decode (buffered : Bool) (word : Word) :
    (decode word).isReserved buffered = !documented buffered word := by
  unfold decode
  split
  case h_1 code => exact isReserved_decodeSpecial buffered code
  case h_2 code => exact isReserved_decodeSignBranch buffered code
  case h_17 code => exact isReserved_decodeSystem buffered code
  case h_19 code | h_20 code => exact isReserved_decodeForeign buffered (by simp [code])
  case h_45 => simp_all [Instr.isReserved, documented, opcodes]
  all_goals
    next code => simp [Instr.isReserved, documented, code, opcodes]

theorem unit_decodeSpecial (word : Word) : (decodeSpecial word).unit? = none := by
  unfold decodeSpecial
  split <;> rfl

theorem unit_decodeSignBranch (word : Word) : (decodeSignBranch word).unit? = none := by
  unfold decodeSignBranch
  split <;> rfl

/-- Decoding keeps the coprocessor that a word addresses. -/
theorem unit_decode (word : Word) : (decode word).unit? = unit? word := by
  unfold decode
  split
  case h_1 code => simp [unit_decodeSpecial, unit?, code]
  case h_2 code => simp [unit_decodeSignBranch, unit?, code]
  case h_19 code | h_20 code =>
    simp [decodeForeign, Instr.unit?, unitNum_eq, unit?, code]
  case h_45 => simp_all [Instr.unit?, unit?]
  all_goals
    next code => simp [Instr.unit?, unit?, code]

theorem isSome_decodeFloatFormat (precision : Precision) (word : Word) :
    (decodeFloatFormat precision word).isSome =
      (isArithmetic word || funct word == (match precision with
        | .single => 0x21
        | .double => 0x20)) := by
  simp only [isArithmetic]
  cases precision
  all_goals
    simp only [decodeFloatFormat]
    split
    case h_11 => by_cases compares : 0x30 ≤ funct word <;> simp_all [-BitVec.not_le]
    all_goals simp_all

theorem isSome_decodeFloatWord (word : Word) :
    (decodeFloatWord word).isSome = [0x20, 0x21].contains (funct word) := by
  unfold decodeFloatWord
  split <;> simp_all

theorem isSome_decodeFloatOp (word : Word) : (decodeFloatOp word).isSome = isFloatOp word := by
  simp only [decodeFloatOp, isFloatOp]
  split
  case h_4 => simp_all
  all_goals
    next selected => simp [selected, isSome_decodeFloatFormat, isSome_decodeFloatWord]

/-- What the unit does not know decodes to an operation of its own. -/
theorem unimplemented_iff_not_known (word : Word) :
    decodeFloat word = .unimplemented ↔ knownFloat word = false := by
  simp only [decodeFloat, knownFloat, isUnitBranch, ← isSome_decodeUnitBranch,
    ← isSome_decodeFloatOp]
  split
  case h_5 field => cases decodeUnitBranch word <;> simp_all [decodeFloatOp]
  case h_6 => cases decodeFloatOp word <;> simp_all
  all_goals
    next selected => simp [selected]

end

/-! ### Permission -/

namespace Core

/-- The program may not use a coprocessor: the bit for it in the status register is clear, and for
coprocessor 0 the program is in user mode as well. -/
def refuses (core : Core) (unit : Fin 4) : Bool :=
  !core.system.status.getLsbD (28 + unit) && (unit != 0 || core.system.status.getLsbD 1)

/-- The coprocessor that a word addresses, if it is refused. -/
def refused? (core : Core) (word : Word) : Option (Fin 4) :=
  (Encoding.unit? word).filter core.refuses

section

variable {core : Core} {random : Fin 64} {word : Word} {instr : Instr} {unit : Fin 4}

theorem userMode_eq (core : Core) : core.userMode = core.system.status.getLsbD 1 := by
  have bit : Status.kuc = BitVec.twoPow 32 1 := by decide
  rw [userMode, Status.userMode, bit, hasAny_twoPow _ (by decide)]

theorem unitUsable_eq (core : Core) (unit : Fin 4) :
    core.unitUsable unit = core.system.status.getLsbD (28 + unit) := by
  have bit : ∀ unit : Fin 4, Status.cu0 <<< (unit.val % 4) = BitVec.twoPow 32 (28 + unit) := by
    decide
  have bound : 28 + unit.val < 32 := by omega
  rw [unitUsable, Status.unitUsable, bit, hasAny_twoPow _ bound]

/-- Only system control is open to the kernel without the bit. -/
theorem refuses_eq (core : Core) (unit : Fin 4) :
    core.refuses unit = (!core.unitUsable unit && (unit != 0 || core.userMode)) := by
  rw [refuses, unitUsable_eq, userMode_eq]

theorem issueInstr_of_refused (addressed : instr.unit? = some unit)
    (refused : core.refuses unit = true) :
    core.issueInstr random word instr = .raise (.unusable unit) := by
  rw [refuses_eq] at refused
  cases instr with
  | system op =>
    cases addressed
    simp_all [issueInstr, issueSystem]
  | float op =>
    cases addressed
    simp_all [issueInstr, issueFloat]
  | foreign unit branch =>
    cases addressed
    simp_all [issueInstr, issueForeign]
  | _ => cases addressed

/-- A word for another coprocessor than system control is none for coprocessor 0. -/
theorem unit_ne_zero_of_foreign {branch : Option UnitBranch}
    (decoded : decode word = .foreign unit branch) : unit ≠ 0 := by
  rintro rfl
  have addressed := unit_decode word
  rw [decoded] at addressed
  have system : Encoding.opcode word = 0x10 := by
    simp only [Instr.unit?, Encoding.unit?] at addressed
    split at addressed
    next code => exact code
    · split at addressed
      · cases addressed
      · split at addressed
        · cases addressed
        · split at addressed <;> cases addressed
  simp [decode, system] at decoded

theorem permits_decode (core : Core) (word : Word) :
    core.permits (decode word) = (core.refused? word).isNone := by
  rw [refused?, ← unit_decode]
  cases decoded : decode word with
  | system op =>
    have asked : core.refuses 0 = (!core.unitUsable 0 && core.userMode) := refuses_eq core 0
    simp only [permits, Instr.unit?, Option.filter, asked]
    cases core.userMode <;> cases core.unitUsable 0 <;> rfl
  | float op => simp [permits, Instr.unit?, refuses_eq]
  | foreign unit branch =>
    have other := unit_ne_zero_of_foreign decoded
    simp [permits, Instr.unit?, refuses_eq, other]
  | _ => rfl

theorem permits_of_not_refused (permitted : core.refused? word = none) :
    core.permits (decode word) = true := by
  rw [permits_decode, permitted]
  rfl

theorem allowed_of_permits {op : SystemOp} (permitted : core.permits (.system op) = true) :
    (core.userMode && !core.unitUsable 0) = false := by
  simpa only [permits, Bool.not_eq_true'] using permitted

theorem issueInstr_of_reserved (permitted : core.permits instr = true)
    (reserved : instr.isReserved core.mmu.hasBuffer = true) :
    core.issueInstr random word instr = .raise (.reserved word) := by
  cases instr with
  | reserved => rfl
  | foreign unit branch =>
    cases branch with
    | some branch => cases reserved
    | none => simp_all [permits, issueInstr, issueForeign]
  | system op =>
    simp only [issueInstr, issueSystem, allowed_of_permits permitted]
    cases op with
    | reserved => rfl
    | tlb op =>
      have absent : core.mmu.buffer? = none := by
        simpa [Instr.isReserved, SystemOp.isReserved, Mmu.hasBuffer] using reserved
      simp only [absent]
      rfl
    | _ => cases reserved
  | _ => cases reserved

/-- What an instruction raises that is permitted and not reserved. -/
theorem raised_of_issueInstr {trap : Trap} (permitted : core.permits instr = true)
    (known : instr.isReserved core.mmu.hasBuffer = false)
    (raised : core.issueInstr random word instr = .raise trap) :
    trap ∈ [.syscall, .breakpoint, .overflow] := by
  cases instr with
  | syscall | breakpoint => cases raised; simp
  | checked op rd rs rt =>
    simp only [issueInstr] at raised
    split at raised <;> cases raised
    simp
  | checkedImmediate rt rs operand =>
    simp only [issueInstr] at raised
    split at raised <;> cases raised
    simp
  | divide signed rs rt =>
    simp only [issueInstr, issueDivide] at raised
    split at raised <;> cases raised
  | reserved => cases known
  | foreign unit branch =>
    cases branch with
    | some branch => simp_all [permits, issueInstr, issueForeign, Issue.done]
    | none => cases known
  | float op =>
    have usable : core.unitUsable 1 = true := permitted
    simp only [issueInstr, issueFloat, usable, Bool.not_true, Bool.false_eq_true,
      if_false] at raised
    cases present : core.fpu with
    | none => simp [present, Issue.done] at raised
    | some unit =>
      simp only [present] at raised
      cases op with
      | controlFrom rt fs | controlTo rt fs =>
        simp only [issueFloatOn] at raised
        split at raised <;> cases raised
      | _ => cases raised
  | system op =>
    simp only [issueInstr, issueSystem, allowed_of_permits permitted] at raised
    cases op with
    | reserved => cases known
    | tlb op =>
      have held : core.mmu.hasBuffer = true := by
        simpa [Instr.isReserved, SystemOp.isReserved] using known
      obtain ⟨buffer, present⟩ := Option.isSome_iff_exists.mp held
      simp only [present] at raised
      cases op <;> cases raised
    | _ => cases raised
  | _ => cases raised

end

end Core

/-! ### Executing -/

namespace Cpu

section

variable {β : Type} [Bus β] {cpu : Cpu} {bus : β} {word : Word} {unit : Fin 4}

theorem execute_of_refused (refused : cpu.core.refused? word = some unit) :
    cpu.execute bus word = cpu.trap bus (.unusable unit) := by
  obtain ⟨addressed, refuses⟩ := Option.filter_eq_some_iff.mp refused
  rw [← unit_decode] at addressed
  have issued : cpu.core.issue cpu.random word = .raise (.unusable unit) :=
    Core.issueInstr_of_refused addressed refuses
  simp only [execute, issued]

theorem execute_of_undocumented (permitted : cpu.core.refused? word = none)
    (undocumented : Encoding.documented cpu.core.mmu.hasBuffer word = false) :
    cpu.execute bus word = cpu.trap bus (.reserved word) := by
  have reserved : (decode word).isReserved cpu.core.mmu.hasBuffer = true := by
    rw [isReserved_decode, undocumented]
    rfl
  have issued : cpu.core.issue cpu.random word = .raise (.reserved word) :=
    Core.issueInstr_of_reserved (Core.permits_of_not_refused permitted) reserved
  simp only [execute, issued]

/-- An instruction that is permitted is neither reserved nor refused. -/
theorem accepted_of_documented (bus : β) (permitted : cpu.core.refused? word = none)
    (documented : Encoding.documented cpu.core.mmu.hasBuffer word = true) :
    .reservedInstruction ∉ entered (cpu.execute bus word).notes ∧
      ∀ number, .coprocessorUnusable number ∉ entered (cpu.execute bus word).notes := by
  have known : (decode word).isReserved cpu.core.mmu.hasBuffer = false := by
    rw [isReserved_decode, documented]
    rfl
  have allowed := Core.permits_of_not_refused permitted
  rw [entered_execute]
  cases raised : cpu.executeTrap bus word with
  | none => simp
  | some trap =>
    have issued (own : trap.isOwn = true) : trap ∈ [.syscall, .breakpoint, .overflow] :=
      Core.raised_of_issueInstr allowed known (issued_of_isOwn raised own)
    cases trap with
    | reserved word | unusable unit => exact absurd (issued rfl) (by simp)
    | addressError address intent => cases intent <;> simp [Trap.exception]
    | tlbFault address key intent kind =>
      cases kind <;> cases intent <;> simp [Trap.exception]
    | _ => simp [Trap.exception]

/-- The exception of a reserved instruction is for words that are none and are not refused. -/
theorem reserved_iff (cpu : Cpu) (bus : β) (word : Word) :
    .reservedInstruction ∈ entered (cpu.execute bus word).notes ↔
      Encoding.documented cpu.core.mmu.hasBuffer word = false ∧
        cpu.core.refused? word = none := by
  cases asked : cpu.core.refused? word with
  | some unit =>
    rw [execute_of_refused asked, entered_trap]
    simp [Trap.exception]
  | none =>
    cases documented : Encoding.documented cpu.core.mmu.hasBuffer word with
    | false =>
      rw [execute_of_undocumented asked documented, entered_trap]
      simp [Trap.exception]
    | true => simp [(accepted_of_documented bus asked documented).1]

/-- The exception of an unusable coprocessor is for words that are refused. -/
theorem unusable_iff (cpu : Cpu) (bus : β) (word : Word) (number : Nat) :
    .coprocessorUnusable number ∈ entered (cpu.execute bus word).notes ↔
      ∃ unit, cpu.core.refused? word = some unit ∧ unit.val = number := by
  cases asked : cpu.core.refused? word with
  | some unit =>
    rw [execute_of_refused asked, entered_trap]
    simp [Trap.exception, eq_comm]
  | none =>
    cases documented : Encoding.documented cpu.core.mmu.hasBuffer word with
    | false =>
      rw [execute_of_undocumented asked documented, entered_trap]
      simp [Trap.exception]
    | true => simp [(accepted_of_documented bus asked documented).2 number]

omit [Bus β] in
/-- The cause shows the coprocessor that was refused. -/
theorem unit_of_unusable (cpu : Cpu) (bus : β) (unit : Fin 4) :
    (cpu.trap bus (.unusable unit)).cpu.core.system.cause.extractLsb' 28 2 =
      BitVec.ofFin unit := by
  have field (cause : Word) :
      cause.extractLsb' 28 2 = (cause &&& Cause.ce).extractLsb' 28 2 := by
    have inside : Cause.ce.extractLsb' 28 2 = BitVec.allOnes 2 := by decide
    rw [BitVec.extractLsb'_and, inside, BitVec.and_allOnes]
  have shown : (cpu.trap bus (.unusable unit)).cpu.core.system.cause &&& Cause.ce =
      BitVec.ofNat 32 (unit % 4) <<< 28 := by
    have entered : (cpu.trap bus (.unusable unit)).cpu.core.system.cause =
        cpu.core.causeAfter (.coprocessorUnusable unit) := Core.cause_enter _ _
    have apart : Cause.ip &&& Cause.ce = 0 := by decide
    rw [entered, Core.causeAfter_and_of_clear _ _ (by decide), apart,
      (Exception.causeBits_fields _).2.1]
    simp [Exception.unitBits]
  rw [field, shown]
  clear shown
  revert unit
  decide

/-- An operation that the unit does not know is recorded in its control register, and asks for an
interrupt. -/
theorem execute_of_unknown {unit : FloatUnit} (code : Encoding.opcode word = 0x11)
    (unknown : Encoding.knownFloat word = false) (permitted : cpu.core.refused? word = none)
    (present : cpu.core.fpu = some unit) :
    let driven := { cpu.core with fpu := some unit.unimplemented }.setInput unit.irq true
    cpu.execute bus word = ⟨{ cpu with core := driven.1 }, bus,
      [.message (.fpuUnimplemented word cpu.core.pc), .event (.fpuUnimplemented word)] ++
        driven.2⟩ := by
  have decoded : decode word = .float .unimplemented := by
    simp [decode, code, (unimplemented_iff_not_known word).mpr unknown]
  have allowed := Core.permits_of_not_refused permitted
  rw [decoded] at allowed
  have usable : cpu.core.unitUsable 1 = true := allowed
  simp only [execute, Core.issue, decoded, Core.issueInstr, Core.issueFloat, usable, present]
  rfl

end

/-- Exactly the documented words are instructions. Let any word be executed in any state on any
memory. If it addresses a coprocessor that the program may not use, then the exception of an
unusable coprocessor is entered, the cause shows which, and nothing else happens. Otherwise the
exception of a reserved instruction is entered, and nothing else happens, if and only if the word is
not documented; the lookaside buffer of the processor decides about its own four words.

What the floating point unit does not know is not reserved. If the unit is there and may be used, it
keeps that in its control register and drives its interrupt input, which the cause then shows. -/
theorem execute_accepts_documented {β : Type} [Bus β] (cpu : Cpu) (bus : β) (word : Word) :
    let outcome := cpu.execute bus word
    (.reservedInstruction ∈ entered outcome.notes ↔
        Encoding.documented cpu.core.mmu.hasBuffer word = false ∧
          cpu.core.refused? word = none) ∧
      (.reservedInstruction ∈ entered outcome.notes →
        outcome = cpu.trap bus (.reserved word)) ∧
      (∀ number, .coprocessorUnusable number ∈ entered outcome.notes ↔
        ∃ unit, cpu.core.refused? word = some unit ∧ unit.val = number) ∧
      (∀ unit, cpu.core.refused? word = some unit →
        outcome = cpu.trap bus (.unusable unit) ∧
          outcome.cpu.core.system.cause.extractLsb' 28 2 = BitVec.ofFin unit) ∧
      (Encoding.opcode word = 0x11 → Encoding.knownFloat word = false →
        .reservedInstruction ∉ entered outcome.notes ∧
          ∀ unit, cpu.core.fpu = some unit → cpu.core.refused? word = none →
            let recorded := { unit with control31 := unit.control31 ||| 0x00020000 }
            outcome.cpu = { cpu with core :=
                ({ cpu.core with fpu := some recorded }.setInput unit.irq true).1 } ∧
              outcome.bus = bus ∧ entered outcome.notes = [] ∧
              outcome.cpu.core.fpu = some recorded ∧
              (unit.irq < 6 →
                hasAny outcome.cpu.core.system.cause (0x400 <<< unit.irq) = true)) := by
  intro outcome
  refine ⟨cpu.reserved_iff bus word, fun entered => ?_, cpu.unusable_iff bus word,
    fun unit refused => ?_, fun code unknown => ⟨?_, fun unit present permitted => ?_⟩⟩
  · obtain ⟨undocumented, permitted⟩ := (cpu.reserved_iff bus word).mp entered
    exact execute_of_undocumented permitted undocumented
  · have trapped : outcome = cpu.trap bus (.unusable unit) := execute_of_refused refused
    refine ⟨trapped, ?_⟩
    rw [trapped]
    exact unit_of_unusable cpu bus unit
  · rw [cpu.reserved_iff bus word]
    simp [Encoding.documented, code, Encoding.opcodes]
  · have executed : outcome = _ := execute_of_unknown code unknown permitted present
    have routine := Core.routine_setInput { cpu.core with fpu := some unit.unimplemented }
      unit.irq true
    rw [executed]
    refine ⟨rfl, rfl, ?_, Core.fpu_setInput _ _ _, fun wired => ?_⟩
    · rw [entered_append, routine.entered]
      rfl
    · exact Core.asserted_setInput _ wired true

/-- A processor without a lookaside buffer, and with a floating point unit on interrupt input 3. -/
def unbuffered : Config := { Config.ofModel .r3051 with fpu := some (.ofRevision 0x0300) }

/-- Its kernel may use coprocessor 1, but not coprocessor 2. -/
def withFloatUnit : Cpu := ((Cpu.build unbuffered).1.setSystemReg 12 0x20000000).1

/-- An instruction for the lookaside buffer is reserved here, a word for coprocessor 2 is refused,
and what the floating point unit does not know asks for an interrupt. -/
theorem execute_accepts_documented_refusals :
    .reservedInstruction ∈ entered (withFloatUnit.execute noMemory 0x42000001).notes ∧
      (withFloatUnit.execute noMemory 0x4a000000).cpu.core.system.cause.extractLsb' 28 2 = 2 ∧
      .reservedInstruction ∉ entered (withFloatUnit.execute noMemory 0x46000008).notes ∧
      hasAny (withFloatUnit.execute noMemory 0x46000008).cpu.core.system.cause 0x2000 = true := by
  have present : withFloatUnit.core.fpu = some (.ofAttachment .software (.ofRevision 0x0300)) :=
    rfl
  obtain ⟨reserves, -⟩ := execute_accepts_documented withFloatUnit noMemory 0x42000001
  obtain ⟨-, -, -, refuses, -⟩ := execute_accepts_documented withFloatUnit noMemory 0x4a000000
  obtain ⟨-, -, -, -, unknown⟩ := execute_accepts_documented withFloatUnit noMemory 0x46000008
  obtain ⟨spared, drives⟩ := unknown (by decide) (by decide)
  obtain ⟨-, -, -, -, driven⟩ := drives _ present (by decide +kernel)
  exact ⟨reserves.mpr (by decide +kernel), (refuses 2 (by decide +kernel)).2, spared,
    driven (by decide)⟩

end Cpu

end R3000
