import R3000.Proofs.Multiplier

/-!
# Arithmetic that traps

An addition, one with an immediate operand, and a subtraction trap when no signed word holds their
result. Each has a counterpart that wraps, in a word that differs in one bit. Where the result fits,
the two are the same instruction.

Whether it fits is told over the integers, and also seen from the signs of the operands and of the
wrapped result alone.
-/
namespace R3000

/-! ### Results that a word holds -/

namespace CheckedOp

/-- The result as a number. -/
def exact (op : CheckedOp) (left right : Word) : Int :=
  match op with
  | add => left.toInt + right.toInt
  | sub => left.toInt - right.toInt

/-- The operation that wraps. -/
def wrapping : CheckedOp → AluOp
  | add => .add
  | sub => .sub

/-- No signed word holds the result. -/
def Overflows (op : CheckedOp) (left right : Word) : Prop :=
  op.exact left right < -0x80000000 ∨ 0x7fffffff < op.exact left right

instance (op : CheckedOp) (left right : Word) : Decidable (op.Overflows left right) :=
  inferInstanceAs (Decidable (_ ∨ _))

/-- The sign with which the second operand counts. -/
def sign (op : CheckedOp) (right : Word) : Bool :=
  match op with
  | add => right.msb
  | sub => !right.msb

section

variable (op : CheckedOp) (left right : Word)

theorem saddOverflow_iff :
    BitVec.saddOverflow left right = true ↔ add.Overflows left right := by
  simp only [BitVec.saddOverflow, Bool.or_eq_true, decide_eq_true_eq, Overflows, exact]
  omega

theorem ssubOverflow_iff :
    BitVec.ssubOverflow left right = true ↔ sub.Overflows left right := by
  simp only [BitVec.ssubOverflow, Bool.or_eq_true, decide_eq_true_eq, Overflows, exact]
  omega

theorem checked_eq :
    op.apply? left right =
      if op.Overflows left right then none else some (op.wrapping.apply left right) := by
  unfold CheckedOp.apply?
  cases op with
  | add =>
    simp only [saddOverflow_iff]
    rfl
  | sub =>
    simp only [ssubOverflow_iff]
    rfl

/-- An overflow shows in the signs: the operands have one sign, and the wrapped result the other. -/
theorem overflows_iff_signs :
    op.Overflows left right ↔
      left.msb = op.sign right ∧ (op.wrapping.apply left right).msb ≠ left.msb := by
  cases op with
  -- The library tells an overflow by the signs of the operands and of the result alone.
  | add =>
    rw [← saddOverflow_iff, BitVec.saddOverflow_eq]
    simp only [sign, wrapping, AluOp.apply]
    cases left.msb <;> cases right.msb <;> cases (left + right).msb <;> decide
  | sub =>
    rw [← ssubOverflow_iff, BitVec.ssubOverflow_eq]
    simp only [sign, wrapping, AluOp.apply]
    cases left.msb <;> cases right.msb <;> cases (left - right).msb <;> decide

end

end CheckedOp

/-! ### The words -/

namespace Encoding

/-- The trapping operation that a word asks for. -/
def trapping? (word : Word) : Option CheckedOp :=
  if opcode word = 0x00 then
    if funct word = 0x20 then some .add else if funct word = 0x22 then some .sub else none
  else if opcode word = 0x08 then some .add
  else none

/-- The word with the same fields whose operation wraps. -/
def wrapping (word : Word) : Word :=
  if opcode word = 0x00 then word ||| 0x00000001 else word ||| 0x04000000

section

variable {word : Word} {op : CheckedOp}

/-- The lowest bit of a word lies in the code that selects a register instruction. -/
theorem wrapping_of_special (special : opcode word = 0x00) :
    opcode (wrapping word) = 0x00 ∧ funct (wrapping word) = funct word ||| 1 ∧
      rs (wrapping word) = rs word ∧ rt (wrapping word) = rt word ∧
      rd (wrapping word) = rd word := by
  rw [wrapping, if_pos special]
  simp only [opcode] at special
  simp [opcode, funct, rs, rt, rd, BitVec.extractLsb'_or, special]

theorem wrapping_of_immediate (immediate : opcode word = 0x08) :
    opcode (wrapping word) = 0x09 ∧ rs (wrapping word) = rs word ∧
      rt (wrapping word) = rt word ∧ immSigned (wrapping word) = immSigned word := by
  have other : opcode word ≠ 0x00 := by
    rw [immediate]
    decide
  rw [wrapping, if_neg other]
  simp only [opcode] at immediate
  simp [opcode, rs, rt, immSigned, imm16, BitVec.extractLsb'_or, immediate]

/-- A trapping word and its counterpart name the same operands and the same destination. -/
theorem decode_trapping (traps : trapping? word = some op) :
    (opcode word = 0x00 ∧ destination? word = some (rd word) ∧
        decode word = .checked op (rd word) (rs word) (rt word) ∧
        decode (wrapping word) = .compute op.wrapping (rd word) (rs word) (rt word)) ∨
      (opcode word = 0x08 ∧ destination? word = some (rt word) ∧ op = .add ∧
        decode word = .checkedImmediate (rt word) (rs word) (immSigned word) ∧
        decode (wrapping word) = .computeImmediate .add (rt word) (rs word) (immSigned word)) := by
  simp only [trapping?] at traps
  split at traps
  next special =>
    obtain ⟨code, selects, first, second, result⟩ := wrapping_of_special special
    left
    split at traps
    next selected =>
      cases traps
      simp [decode, decodeSpecial, destination?, resultCodes, CheckedOp.wrapping, special, selected,
        code, selects, first, second, result]
    · split at traps
      next selected =>
        cases traps
        simp [decode, decodeSpecial, destination?, resultCodes, CheckedOp.wrapping, special,
          selected, code, selects, first, second, result]
      · cases traps
  · split at traps
    next immediate =>
      cases traps
      obtain ⟨code, first, result, operand⟩ := wrapping_of_immediate immediate
      simp [decode, destination?, immediate, code, first, result, operand]
    · cases traps

end

end Encoding

/-! ### Trapping and wrapping -/

namespace Core

/-- The second operand of a word: a register, or what the word itself holds. -/
def secondOperand (core : Core) (word : Word) : Word :=
  if Encoding.opcode word = 0x00 then core.reg (Encoding.rt word) else Encoding.immSigned word

/-- A trapping operation completes with the wrapped result, which goes where that of the counterpart
goes, or it overflows. -/
theorem issue_of_trapping {word : Word} {op : CheckedOp}
    (traps : Encoding.trapping? word = some op) :
    ∃ destination, Encoding.destination? word = some destination ∧
      ∀ (core : Core) (random : Fin 64),
        let left := core.reg (Encoding.rs word)
        let right := core.secondOperand word
        let completed := Issue.done (core.setReg destination (op.wrapping.apply left right))
        core.issue random (Encoding.wrapping word) = completed ∧
          core.issue random word =
            if op.Overflows left right then .raise .overflow else completed := by
  rcases Encoding.decode_trapping traps with ⟨special, names, one, two⟩ |
    ⟨immediate, names, rfl, one, two⟩
  · refine ⟨_, names, fun core random => ?_⟩
    rw [secondOperand, if_pos special, issue, issue, one, two]
    refine ⟨rfl, ?_⟩
    by_cases outside : op.Overflows (core.reg (Encoding.rs word)) (core.reg (Encoding.rt word))
    all_goals simp only [issueInstr, CheckedOp.checked_eq, outside, if_true, if_false]
  · have other : Encoding.opcode word ≠ 0x00 := by
      rw [immediate]
      decide
    refine ⟨_, names, fun core random => ?_⟩
    rw [secondOperand, if_neg other, issue, issue, one, two]
    refine ⟨rfl, ?_⟩
    by_cases outside :
      CheckedOp.add.Overflows (core.reg (Encoding.rs word)) (Encoding.immSigned word)
    all_goals simp only [issueInstr, CheckedOp.checked_eq, outside, if_true, if_false]

end Core

namespace Cpu

/-- The operands of a word are those of the beginning, since a fetch changes no register. -/
theorem registers_executing (cpu : Cpu) (operation : Operation) :
    (cpu.executing operation).core.registers = cpu.core.registers := by
  rw [Core.eq_of_forgetOrders (cpu.forgetOrders_executing operation)]

/-- The processor after an operation whose word has only put a value into a register. -/
def putting (cpu : Cpu) (operation : Operation) (reg : RegNum) (value : Word) : Cpu :=
  let start := cpu.executing operation
  let put := start.core.setReg reg value
  { start with core := if operation = .step then put.advance else put }

theorem reg_putting (cpu : Cpu) (operation : Operation) (reg other : RegNum) (value : Word) :
    (cpu.putting operation reg value).core.reg other =
      if reg = other ∧ other ≠ 0 then value else cpu.core.reg other := by
  have registers : (cpu.putting operation reg value).core.registers =
      cpu.core.registers.write reg value := by
    rw [← cpu.registers_executing operation, putting]
    simp only
    split <;> rfl
  rw [Core.reg, registers, Registers.read_write]
  by_cases same : reg = other
  · subst same
    rfl
  · simp only [same, Ne.symm same, false_and, if_false]
    rfl

theorem putting_congr {operation other : Operation} (sameKind : other = .step ↔ operation = .step)
    (cpu : Cpu) : cpu.putting other = cpu.putting operation := by
  funext reg value
  simp only [putting, executing, sameKind]

/-- Whatever executes the word or its counterpart, the operands are those of the beginning. -/
theorem issue_executing_trapping {word : Word} {op : CheckedOp}
    (traps : Encoding.trapping? word = some op) (cpu : Cpu) :
    ∃ destination, Encoding.destination? word = some destination ∧
      ∀ operation,
        let start := cpu.executing operation
        let left := cpu.core.reg (Encoding.rs word)
        let right := cpu.core.secondOperand word
        let completed :=
          Issue.done (start.core.setReg destination (op.wrapping.apply left right))
        start.core.issue start.random (Encoding.wrapping word) = completed ∧
          start.core.issue start.random word =
            if op.Overflows left right then .raise .overflow else completed := by
  obtain ⟨destination, names, issued⟩ := Core.issue_of_trapping traps
  refine ⟨destination, names, ?_⟩
  intro operation start
  have registers : start.core.registers = cpu.core.registers := cpu.registers_executing operation
  have pair := issued start.core start.random
  simp only [Core.secondOperand, Core.reg, registers] at pair
  exact pair

section

variable {β : Type} [Bus β] {cpu : Cpu} {bus : β} {operation : Operation} {word : Word}

theorem operate_of_done {reg : RegNum} {value : Word}
    (executed : cpu.executed? bus operation = some word)
    (issued : (cpu.executing operation).core.issue (cpu.executing operation).random word =
      .done ((cpu.executing operation).core.setReg reg value)) :
    (cpu.operate bus operation).cpu = cpu.putting operation reg value ∧
      (cpu.operate bus operation).notes = [] := by
  obtain ⟨memory, closes⟩ := operate_of_executed executed
  rw [closes, execute, issued, close, putting]
  split <;> exact ⟨rfl, rfl⟩

/-- A word that raises a trap when it is issued leaves the registers as they were. -/
theorem operate_of_raise {trap : Trap} (executed : cpu.executed? bus operation = some word)
    (issued : (cpu.executing operation).core.issue (cpu.executing operation).random word =
      .raise trap) :
    (cpu.operate bus operation).cpu.core.registers = cpu.core.registers ∧
      entered (cpu.operate bus operation).notes = [trap.exception] := by
  obtain ⟨memory, closes⟩ := operate_of_executed executed
  have trapped : (cpu.executing operation).execute memory word =
      (cpu.executing operation).trap memory trap := by
    rw [execute, issued]
  rw [closes, (closes_close _ _).registers, (closes_close _ _).notes, trapped]
  exact ⟨cpu.registers_executing operation, entered_trap _ _ _⟩

end

/-- The least number is in register 8, and minus one in register 9. -/
def extremes : Cpu := (justBuilt.setGpr 8 0x80000000).setGpr 9 0xffffffff

end Cpu

end R3000
