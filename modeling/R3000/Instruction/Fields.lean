import R3000.Word

/-!
# Instruction fields

An instruction word has an opcode in its six high bits. The remaining bits are
read as register numbers, immediate operands and function codes, depending on
the opcode. The floating point register fields lie where the general register
and shift amount fields do.
-/
namespace R3000.Encoding

def opcode (word : Word) : BitVec 6 := word.extractLsb' 26 6
def funct (word : Word) : BitVec 6 := word.extractLsb' 0 6

/-- The operation field of a coprocessor instruction. -/
def unitOp (word : Word) : BitVec 5 := word.extractLsb' 21 5

/-- The number of the coprocessor that an opcode addresses. -/
def unitNum (word : Word) : Fin 4 := (word.extractLsb' 26 2).toFin

/-- The number of a coprocessor is a part of the opcode. -/
theorem unitNum_eq (word : Word) : unitNum word = ((opcode word).extractLsb' 0 2).toFin := by
  apply Fin.ext
  change (word.extractLsb' 26 2).toNat = ((word.extractLsb' 26 6).extractLsb' 0 2).toNat
  simp only [BitVec.extractLsb'_toNat]
  omega

def rs (word : Word) : RegNum := (word.extractLsb' 21 5).toFin
def rt (word : Word) : RegNum := (word.extractLsb' 16 5).toFin
def rd (word : Word) : RegNum := (word.extractLsb' 11 5).toFin
def shamt (word : Word) : BitVec 5 := word.extractLsb' 6 5

def imm16 (word : Word) : BitVec 16 := word.extractLsb' 0 16
def imm26 (word : Word) : BitVec 26 := word.extractLsb' 0 26

/-- The immediate operand with its sign. -/
def immSigned (word : Word) : Word := (imm16 word).signExtend 32

/-- The immediate operand without a sign. -/
def immUnsigned (word : Word) : Word := (imm16 word).setWidth 32

def ft (word : Word) : RegNum := rt word
def fs (word : Word) : RegNum := rd word
def fd (word : Word) : RegNum := (shamt word).toFin

end R3000.Encoding
