import R3000.Word

/-!
# Instructions

What an instruction word asks for, with its operand fields resolved. Words that
ask for nothing known are `reserved`, either as such or within the coprocessor
they address, because a coprocessor that may not be used is reported first.
-/
namespace R3000

inductive ShiftOp where
  | left
  | rightLogical
  | rightArithmetic
  deriving DecidableEq, Repr

inductive AluOp where
  | add
  | sub
  | and
  | or
  | xor
  | nor
  | lessSigned
  | lessUnsigned
  deriving DecidableEq, Repr

/-- Operations on signed words that trap when the result is none. -/
inductive CheckedOp where
  | add
  | sub
  deriving DecidableEq, Repr

inductive Condition where
  | equal (rs rt : RegNum)
  | notEqual (rs rt : RegNum)
  | lessEqualZero (rs : RegNum)
  | greaterZero (rs : RegNum)
  | negative (rs : RegNum)
  | notNegative (rs : RegNum)
  deriving DecidableEq, Repr

inductive LoadOp where
  | byteSigned
  | byteUnsigned
  | halfSigned
  | halfUnsigned
  | word
  /-- The part of an unaligned word up to the end of its first aligned word. -/
  | wordLeft
  /-- The part of an unaligned word from the start of its second aligned word. -/
  | wordRight
  deriving DecidableEq, Repr

inductive StoreOp where
  | byte
  | half
  | word
  | wordLeft
  | wordRight
  deriving DecidableEq, Repr

/-- A branch on the condition of a coprocessor. -/
structure UnitBranch where
  /-- The condition for which the branch is taken. -/
  sense : Bool
  likely : Bool
  offset : Word
  deriving DecidableEq, Repr

inductive TlbOp where
  | read
  | writeIndexed
  | writeRandom
  | probe
  deriving DecidableEq, Repr

/-- Instructions of the system control coprocessor. -/
inductive SystemOp where
  | moveFrom (rt source : RegNum)
  | moveTo (rt target : RegNum)
  | branch (branch : UnitBranch)
  | restoreMode
  | tlb (op : TlbOp)
  | reserved
  deriving DecidableEq, Repr

inductive Precision where
  | single
  | double
  deriving DecidableEq, Repr

inductive FloatBinary where
  | add
  | sub
  | mul
  | div
  deriving DecidableEq, Repr

/-- Operations that the floating point unit performs on its own registers. -/
inductive FloatOp where
  | binary (op : FloatBinary) (precision : Precision) (fd fs ft : RegNum)
  | abs (precision : Precision) (fd fs : RegNum)
  | neg (precision : Precision) (fd fs : RegNum)
  | move (precision : Precision) (fd fs : RegNum)
  /-- From single to double precision. -/
  | widen (fd fs : RegNum)
  /-- From double to single precision. -/
  | narrow (fd fs : RegNum)
  | toWord (precision : Precision) (fd fs : RegNum)
  | ofWord (precision : Precision) (fd fs : RegNum)
  | compare (precision : Precision) (predicate : BitVec 4) (fs ft : RegNum)
  deriving DecidableEq, Repr

/-- Instructions of the floating point coprocessor. -/
inductive FloatInstr where
  | moveFrom (rt fs : RegNum)
  | moveTo (rt fs : RegNum)
  | controlFrom (rt fs : RegNum)
  | controlTo (rt fs : RegNum)
  | branch (branch : UnitBranch)
  | load (ft base : RegNum) (offset : Word)
  | store (ft base : RegNum) (offset : Word)
  | operate (op : FloatOp)
  | unimplemented
  deriving DecidableEq, Repr

inductive Instr where
  | shift (op : ShiftOp) (rd rt : RegNum) (amount : BitVec 5)
  | shiftVariable (op : ShiftOp) (rd rt rs : RegNum)
  | compute (op : AluOp) (rd rs rt : RegNum)
  | computeImmediate (op : AluOp) (rt rs : RegNum) (operand : Word)
  | checked (op : CheckedOp) (rd rs rt : RegNum)
  | checkedImmediate (rt rs : RegNum) (operand : Word)
  | loadUpper (rt : RegNum) (value : Word)
  | multiply (signed : Bool) (rd rs rt : RegNum)
  | multiplyAdd (signed : Bool) (rd rs rt : RegNum)
  | divide (signed : Bool) (rs rt : RegNum)
  | moveFromHi (rd : RegNum)
  | moveToHi (rs : RegNum)
  | moveFromLo (rd : RegNum)
  | moveToLo (rs : RegNum)
  | jump (link : Bool) (target : BitVec 26)
  | jumpRegister (link : Option RegNum) (rs : RegNum)
  | branch (condition : Condition) (likely link : Bool) (offset : Word)
  | load (op : LoadOp) (rt base : RegNum) (offset : Word)
  | store (op : StoreOp) (rt base : RegNum) (offset : Word)
  | syscall
  | breakpoint
  /-- Synchronisation and cache control, which have no effect here. -/
  | nothing
  | system (op : SystemOp)
  | float (op : FloatInstr)
  /-- The coprocessors 2 and 3, of which only the condition is known. -/
  | foreign (unit : Fin 4) (branch : Option UnitBranch)
  | reserved
  deriving DecidableEq, Repr

end R3000
