import R3000.Instruction.Basic
import R3000.Config
import R3000.Registers

/-!
# Operations on words

The functions that register instructions compute, free of any processor state.
-/
namespace R3000

def ShiftOp.apply (op : ShiftOp) (value : Word) (amount : Nat) : Word :=
  match op with
  | left => value <<< amount
  | rightLogical => value >>> amount
  | rightArithmetic => value.sshiftRight amount

/-- A truth value as a word. -/
def truth (value : Bool) : Word := if value then 1 else 0

def AluOp.apply (op : AluOp) (a b : Word) : Word :=
  match op with
  | add => a + b
  | sub => a - b
  | and => a &&& b
  | or => a ||| b
  | xor => a ^^^ b
  | nor => ~~~(a ||| b)
  | lessSigned => truth (a.slt b)
  | lessUnsigned => truth (a.ult b)

/-- The result of a trapping operation, if a signed word holds it. -/
def CheckedOp.apply? (op : CheckedOp) (a b : Word) : Option Word :=
  match op with
  | add => if BitVec.saddOverflow a b then none else some (a + b)
  | sub => if BitVec.ssubOverflow a b then none else some (a - b)

/-- The full product of two words. -/
def wideProduct (signed : Bool) (a b : Word) : BitVec 64 :=
  if signed then a.signExtend 64 * b.signExtend 64 else a.setWidth 64 * b.setWidth 64

/-- Quotient and remainder. Signed quotients are truncated towards zero and wrap. -/
def quotientRemainder (signed : Bool) (a b : Word) : Word × Word :=
  if signed then (a.sdiv b, a.srem b) else (a.udiv b, a.umod b)

def Condition.holds (registers : Registers) : Condition → Bool
  | equal rs rt => registers.read rs == registers.read rt
  | notEqual rs rt => registers.read rs != registers.read rt
  | lessEqualZero rs => (registers.read rs).sle 0
  | greaterZero rs => (0 : Word).slt (registers.read rs)
  | negative rs => (registers.read rs).msb
  | notNegative rs => !(registers.read rs).msb

/-! ### Unaligned words -/

/-- How far the left part of an unaligned word is shifted against its aligned word. -/
def leftShift (order : ByteOrder) (address : Word) : Nat :=
  8 * (match order with
    | .big => address &&& 3
    | .little => (address &&& 3) ^^^ 3).toNat

/-- The same for the right part, which lies on the other side of the word. -/
def rightShift (order : ByteOrder) (address : Word) : Nat :=
  8 * (match order with
    | .big => (address &&& 3) ^^^ 3
    | .little => address &&& 3).toNat

/-- All bits of a word. -/
def allBits : Word := 0xffffffff

/-- Replace the high part of a register by the low part of a loaded word. -/
def mergeLeft (shift : Nat) (current loaded : Word) : Word :=
  (current &&& ~~~(allBits <<< shift)) ||| loaded <<< shift

/-- Replace the low part of a register by the high part of a loaded word. -/
def mergeRight (shift : Nat) (current loaded : Word) : Word :=
  (current &&& ~~~(allBits >>> shift)) ||| loaded >>> shift

end R3000
