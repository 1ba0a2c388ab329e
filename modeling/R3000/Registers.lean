import R3000.Numeral

/-!
# General registers

Thirty-two words and the two halves of the multiplier's result. Writes to
register zero are dropped, so it keeps the value it starts with.

A host may pass any number for a register. The number itself decides whether a
write is dropped, and its low five bits select the register.
-/
namespace R3000

structure Registers where
  gpr : Vector Word 32
  hi : Word
  lo : Word
  deriving DecidableEq

namespace Registers

def initial : Registers := ⟨Vector.replicate 32 0, 0, 0⟩

def read (registers : Registers) (reg : RegNum) : Word := registers.gpr[reg]

def write (registers : Registers) (reg : RegNum) (value : Word) : Registers :=
  if reg = 0 then registers else { registers with gpr := registers.gpr.set reg value }

/-- The register that a number from outside selects. -/
def select (number : Nat) : RegNum := Fin.ofNat 32 number

def readNumbered (registers : Registers) (number : Nat) : Word := registers.read (select number)

def writeNumbered (registers : Registers) (number : Nat) (value : Word) : Registers :=
  if number = 0 then registers
  else { registers with gpr := registers.gpr.set (select number) value }

/-- The multiplier's result as one number. -/
def product (registers : Registers) : BitVec 64 := registers.hi ++ registers.lo

def setProduct (registers : Registers) (value : BitVec 64) : Registers :=
  { registers with hi := value.extractLsb' 32 32, lo := value.extractLsb' 0 32 }

/-! ### Reading back -/

@[simp] theorem hi_write (registers : Registers) (reg : RegNum) (value : Word) :
    (registers.write reg value).hi = registers.hi := by
  unfold write
  split <;> rfl

@[simp] theorem lo_write (registers : Registers) (reg : RegNum) (value : Word) :
    (registers.write reg value).lo = registers.lo := by
  unfold write
  split <;> rfl

/-- A write changes the register it names, unless that is register zero. -/
theorem read_write (registers : Registers) (reg other : RegNum) (value : Word) :
    (registers.write reg value).read other =
      if other = reg ∧ reg ≠ 0 then value else registers.read other := by
  unfold write read
  by_cases zero : reg = 0
  · simp [zero]
  · by_cases same : other = reg
    · subst same
      simp [zero]
    · have apart : reg.val ≠ other.val := fun equal => same (Fin.ext equal.symm)
      simp [zero, same, apart]

@[simp] theorem read_write_zero (registers : Registers) (reg : RegNum) (value : Word) :
    (registers.write reg value).read 0 = registers.read 0 := by
  rw [read_write]
  split
  next both => exact absurd both.1.symm both.2
  next => rfl

@[simp] theorem product_setProduct (registers : Registers) (value : BitVec 64) :
    (registers.setProduct value).product = value := by
  exact join_words value

/-! ### Dump -/

/-- One column of the dump: the name of a register and its contents. -/
def column (registers : Registers) (number : Nat) : String :=
  "r" ++ Numeral.decimalLeft 2 number ++ " "
    ++ Numeral.hexLower 8 (registers.readNumbered number).toNat ++ "  "

/-- A row of four registers. -/
def row (registers : Registers) (index : Nat) : String :=
  String.join ((List.range 4).map fun offset => registers.column (4 * index + offset))

def dump (registers : Registers) : String :=
  String.join ((List.range 8).map fun index => registers.row index ++ "\n")
    ++ "hi  " ++ Numeral.hexLower 8 registers.hi.toNat
    ++ "  lo  " ++ Numeral.hexLower 8 registers.lo.toNat

end Registers

end R3000
