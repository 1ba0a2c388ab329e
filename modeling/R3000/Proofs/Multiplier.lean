import R3000.Proofs.Courses
import R3000.Proofs.RegisterEffects

/-!
# Instructions of the multiplier

A division and a product compute with the registers alone. Whichever operation of the host executes
them, they complete, and the registers are then what the instruction makes of those before. They
take the same time for all operands.

What a division computes is told over the integers: the quotient is truncated towards zero, so the
remainder is smaller than the divisor and has the sign of the dividend. There is one signed quotient
that no word holds; it wraps.
-/
namespace R3000

/-! ### Truncated division -/

section

variable {dividend divisor : Word}

/-- The only signed quotient that is too large is the negated least number. -/
theorem signed_division (nonzero : divisor ≠ 0)
    (fits : dividend ≠ 0x80000000 ∨ divisor ≠ 0xffffffff) :
    dividend.toInt = (dividend.sdiv divisor).toInt * divisor.toInt +
        (dividend.srem divisor).toInt ∧
      (dividend.srem divisor).toInt.natAbs < divisor.toInt.natAbs ∧
      ((dividend.srem divisor).toInt = 0 ∨
        (dividend.srem divisor).toInt.sign = dividend.toInt.sign) := by
  have quotient : (dividend.sdiv divisor).toInt = dividend.toInt.tdiv divisor.toInt :=
    BitVec.toInt_sdiv_of_ne_or_ne _ _ fits
  have positive : 0 < divisor.toInt.natAbs := by
    rw [Int.natAbs_pos]
    intro zero
    exact nonzero (BitVec.eq_of_toInt_eq zero)
  rw [quotient, BitVec.toInt_srem]
  refine ⟨?_, ?_, ?_⟩
  · rw [Int.mul_comm]
    exact (Int.mul_tdiv_add_tmod _ _).symm
  · rw [Int.natAbs_tmod]
    exact Nat.mod_lt _ positive
  · rw [Int.sign_tmod]
    by_cases divides : divisor.toInt ∣ dividend.toInt
    · exact .inl (Int.tmod_eq_zero_of_dvd divides)
    · exact .inr (if_neg divides)

theorem unsigned_division (nonzero : divisor ≠ 0) :
    dividend.toNat = (dividend.udiv divisor).toNat * divisor.toNat +
        (dividend.umod divisor).toNat ∧
      (dividend.umod divisor).toNat < divisor.toNat := by
  have positive : 0 < divisor.toNat := by
    rw [Nat.pos_iff_ne_zero]
    simpa [BitVec.toNat_eq] using nonzero
  have quotient : (dividend.udiv divisor).toNat = dividend.toNat / divisor.toNat :=
    BitVec.toNat_udiv
  have remainder : (dividend.umod divisor).toNat = dividend.toNat % divisor.toNat :=
    BitVec.toNat_umod
  rw [quotient, remainder]
  exact ⟨(Nat.div_add_mod' _ _).symm, Nat.mod_lt _ positive⟩

end

/-! ### Instructions that compute with the registers -/

/-- Issuing the instruction completes it, with a change of the registers and nothing else. -/
def Instr.Computes (instr : Instr) (change : Registers → Registers) (extra : Nat) : Prop :=
  ∀ (core : Core) (random : Fin 64) (word : Word), core.issueInstr random word instr =
    .retire (core.withRegisters (change core.registers)) [] extra

namespace Cpu

variable {β : Type} [Bus β] {cpu : Cpu} {bus : β} {operation : Operation} {word : Word}

/-- The word of an operation is executed in the state at its beginning but for time and the search
orders. -/
theorem begins_of_executed (executed : cpu.executed? bus operation = some word) :
    ∃ (start : Cpu) (memory : β), start = { cpu.during operation with core := start.core } ∧
      start.core.forgetOrders = cpu.core.forgetOrders ∧
      Closes (start.execute memory word) (cpu.operate bus operation) := by
  obtain ⟨memory, closes⟩ := operate_of_executed executed
  refine ⟨cpu.executing operation, memory, cpu.executing_eq operation,
    cpu.forgetOrders_executing operation, ?_⟩
  rw [closes]
  exact closes_close _ _

/-- An instruction that computes with the registers does so in any operation that executes it. -/
theorem operate_computes {change : Registers → Registers} {extra : Nat}
    (computes : (decode word).Computes change extra)
    (executed : cpu.executed? bus operation = some word) :
    let after := cpu.operate bus operation
    entered after.notes = [] ∧ after.cpu.core.registers = change cpu.core.registers ∧
      cpu.elapsed after = extra + if operation = .step then 1 else 0 := by
  obtain ⟨start, memory, begins, same, closes⟩ := begins_of_executed executed
  have issued : start.core.issue start.random word =
      .retire (start.core.withRegisters (change start.core.registers)) [] extra := computes _ _ _
  have ran : start.execute memory word =
      ⟨{ start with core := start.core.withRegisters (change start.core.registers) }.tick extra,
        memory, []⟩ := by
    simp only [execute, issued]
  have registers : start.core.registers = cpu.core.registers := by
    rw [Core.eq_of_forgetOrders same]
  rw [ran] at closes
  refine ⟨?_, ?_, ?_⟩
  · rw [closes.notes]
    rfl
  · rw [closes.registers, ← registers]
    rfl
  · have cycles : (cpu.operate bus operation).cpu.cycles = start.cycles + extra := closes.clock.1
    have began : start.cycles = cpu.cycles + if operation = .step then 1 else 0 := by
      rw [begins]
      cases operation <;> rfl
    rw [elapsed, cycles, began]
    omega

end Cpu

/-! ### Divisions -/

/-- The registers after a division. -/
def Registers.divide (registers : Registers) (signed : Bool) (dividend divisor : Word) :
    Registers :=
  if divisor = 0 then registers
  else
    let (lo, hi) := quotientRemainder signed dividend divisor
    { registers with lo, hi }

theorem computes_divide (signed : Bool) (rs rt : RegNum) :
    (Instr.divide signed rs rt).Computes
      (fun registers => registers.divide signed (registers.read rs) (registers.read rt))
      divideCycles := by
  intro core random word
  by_cases zero : core.registers.read rt = 0
  all_goals
    simp only [Core.issueInstr, Core.issueDivide, Registers.divide, Core.reg, zero, if_true,
      if_false]
    rfl

section

variable (registers : Registers) (signed : Bool) (dividend : Word)

theorem read_divide (divisor : Word) (reg : RegNum) :
    (registers.divide signed dividend divisor).read reg = registers.read reg := by
  simp only [Registers.divide]
  split <;> rfl

theorem divide_of_ne {divisor : Word} (nonzero : divisor ≠ 0) :
    registers.divide signed dividend divisor =
      { registers with
        lo := (quotientRemainder signed dividend divisor).1
        hi := (quotientRemainder signed dividend divisor).2 } := if_neg nonzero

end

namespace Cpu

/-- Division satisfies the division identity. Let any operation execute a division, signed or
unsigned, in any state. If the divisor is zero, the registers of the multiplier stay. Otherwise LO
is a quotient and HI is the remainder that goes with it: the unsigned remainder is less than the
divisor; the signed one is less in magnitude, and is zero or has the sign of the dividend. Only the
least number divided by minus one has no quotient that a word holds. LO is then the least number
itself and HI is zero, and the identity holds for words.

No division enters an exception or changes a general register, and each takes 35 cycles as a step,
and one less when it is executed directly. -/
theorem division_identity {β : Type} [Bus β] {cpu : Cpu} {bus : β} {operation : Operation}
    {word : Word} (executed : cpu.executed? bus operation = some word)
    (code : Encoding.opcode word = 0x00) (division : Encoding.funct word ∈ [0x1a, 0x1b]) :
    let n := cpu.core.reg (Encoding.rs word)
    let d := cpu.core.reg (Encoding.rt word)
    let after := cpu.operate bus operation
    let lo := after.cpu.core.registers.lo
    let hi := after.cpu.core.registers.hi
    (d = 0 → lo = cpu.core.registers.lo ∧ hi = cpu.core.registers.hi) ∧
      (d ≠ 0 → Encoding.funct word = 0x1a →
        (n = 0x80000000 → d = 0xffffffff → lo = 0x80000000 ∧ hi = 0 ∧ n = lo * d + hi) ∧
          (n ≠ 0x80000000 ∨ d ≠ 0xffffffff →
            n.toInt = lo.toInt * d.toInt + hi.toInt ∧ hi.toInt.natAbs < d.toInt.natAbs ∧
              (hi.toInt = 0 ∨ hi.toInt.sign = n.toInt.sign))) ∧
      (d ≠ 0 → Encoding.funct word = 0x1b →
        n.toNat = lo.toNat * d.toNat + hi.toNat ∧ hi.toNat < d.toNat) ∧
      entered after.notes = [] ∧ (∀ reg, after.cpu.core.reg reg = cpu.core.reg reg) ∧
      cpu.elapsed after = if operation = .step then 35 else 34 := by
  intro n d after lo hi
  have decoded : decode word = .divide (Encoding.funct word == 0x1a) (Encoding.rs word)
      (Encoding.rt word) := by
    simp only [List.mem_cons, List.not_mem_nil, or_false] at division
    rcases division with selected | selected <;> simp [decode, decodeSpecial, code, selected]
  have computes := computes_divide (Encoding.funct word == 0x1a) (Encoding.rs word)
    (Encoding.rt word)
  rw [← decoded] at computes
  obtain ⟨quiet, computed, elapsed⟩ := operate_computes computes executed
  have registers : after.cpu.core.registers =
      cpu.core.registers.divide (Encoding.funct word == 0x1a) n d := computed
  have results (nonzero : d ≠ 0) :
      (lo, hi) = quotientRemainder (Encoding.funct word == 0x1a) n d := by
    have divided := registers.trans (divide_of_ne _ _ n nonzero)
    exact Prod.ext (congrArg Registers.lo divided) (congrArg Registers.hi divided)
  refine ⟨fun zero => ?_, fun nonzero signed => ?_, fun nonzero unsigned => ?_, quiet,
    fun reg => ?_, ?_⟩
  · have kept : after.cpu.core.registers = cpu.core.registers := registers.trans (if_pos zero)
    exact ⟨congrArg Registers.lo kept, congrArg Registers.hi kept⟩
  · have same : (lo, hi) = (n.sdiv d, n.srem d) := by
      rw [results nonzero, signed]
      rfl
    obtain ⟨quotient, remainder⟩ := Prod.mk.inj same
    rw [quotient, remainder]
    refine ⟨fun least minusOne => ?_, signed_division nonzero⟩
    rw [least, minusOne]
    decide
  · have same : (lo, hi) = (n.udiv d, n.umod d) := by
      rw [results nonzero, unsigned]
      rfl
    obtain ⟨quotient, remainder⟩ := Prod.mk.inj same
    rw [quotient, remainder]
    exact unsigned_division nonzero
  · rw [Core.reg, registers, read_divide]
    rfl
  · rw [elapsed, divideCycles]
    split <;> rfl

/-- A signed division of register 8 by register 9 at the boot vector. -/
def divisionAtBoot : Ram where
  base := 0x1fc00000
  order := .big
  faults := []
  data := #[0x01, 0x09, 0x00, 0x1a]

/-- Minus seven is in register 8, and two in register 9. -/
def minusSeven : Cpu := (justBuilt.setGpr 8 0xfffffff9).setGpr 9 2

/-- Minus seven by two is minus three with the remainder minus one. -/
theorem division_identity_truncates :
    let after := minusSeven.operate divisionAtBoot .step
    after.cpu.core.registers.lo.toInt * 2 + after.cpu.core.registers.hi.toInt = -7 ∧
      after.cpu.core.registers.lo.toInt = -3 ∧ minusSeven.elapsed after = 35 := by
  intro after
  have executed : minusSeven.executed? divisionAtBoot .step = some 0x0109001a := by decide +kernel
  obtain ⟨-, signed, -, -, -, elapsed⟩ :=
    division_identity executed (by decide) (by decide)
  obtain ⟨identity, -, -⟩ := (signed (by decide +kernel) (by decide)).2 (.inl (by decide +kernel))
  exact ⟨identity.symm, by decide +kernel, elapsed⟩

end Cpu

end R3000
