import R3000.Instruction.Basic
import R3000.Instruction.Fields

/-!
# Decoding

Every word decodes to an instruction. Fields that an instruction does not use
are ignored, with two exceptions: the lookaside buffer instructions are four
single words, and the immediate branches on a sign ignore only the bit that
asks for a likely branch.
-/
namespace R3000

open Encoding

/-- The distance in bytes that a branch jumps from its delay slot. -/
def branchOffset (word : Word) : Word := immSigned word <<< 2

/-- The branch on a coprocessor condition that the register field selects. -/
def decodeUnitBranch (word : Word) : Option UnitBranch :=
  match rt word with
  | 0 => some ⟨false, false, branchOffset word⟩
  | 1 => some ⟨true, false, branchOffset word⟩
  | 2 => some ⟨false, true, branchOffset word⟩
  | 3 => some ⟨true, true, branchOffset word⟩
  | _ => none

def decodeSpecial (word : Word) : Instr :=
  match funct word with
  | 0x00#6 => .shift .left (rd word) (rt word) (shamt word)
  | 0x02#6 => .shift .rightLogical (rd word) (rt word) (shamt word)
  | 0x03#6 => .shift .rightArithmetic (rd word) (rt word) (shamt word)
  | 0x04#6 => .shiftVariable .left (rd word) (rt word) (rs word)
  | 0x06#6 => .shiftVariable .rightLogical (rd word) (rt word) (rs word)
  | 0x07#6 => .shiftVariable .rightArithmetic (rd word) (rt word) (rs word)
  | 0x08#6 => .jumpRegister none (rs word)
  | 0x09#6 => .jumpRegister (some (rd word)) (rs word)
  | 0x0c#6 => .syscall
  | 0x0d#6 => .breakpoint
  | 0x0e#6 => .breakpoint
  | 0x0f#6 => .nothing
  | 0x10#6 => .moveFromHi (rd word)
  | 0x11#6 => .moveToHi (rs word)
  | 0x12#6 => .moveFromLo (rd word)
  | 0x13#6 => .moveToLo (rs word)
  | 0x18#6 => .multiply true (rd word) (rs word) (rt word)
  | 0x19#6 => .multiply false (rd word) (rs word) (rt word)
  | 0x1a#6 => .divide true (rs word) (rt word)
  | 0x1b#6 => .divide false (rs word) (rt word)
  | 0x20#6 => .checked .add (rd word) (rs word) (rt word)
  | 0x21#6 => .compute .add (rd word) (rs word) (rt word)
  | 0x22#6 => .checked .sub (rd word) (rs word) (rt word)
  | 0x23#6 => .compute .sub (rd word) (rs word) (rt word)
  | 0x24#6 => .compute .and (rd word) (rs word) (rt word)
  | 0x25#6 => .compute .or (rd word) (rs word) (rt word)
  | 0x26#6 => .compute .xor (rd word) (rs word) (rt word)
  | 0x27#6 => .compute .nor (rd word) (rs word) (rt word)
  | 0x2a#6 => .compute .lessSigned (rd word) (rs word) (rt word)
  | 0x2b#6 => .compute .lessUnsigned (rd word) (rs word) (rt word)
  | _ => .reserved

/-- Branches on the sign of a register; four of the eight also link. -/
def decodeSignBranch (word : Word) : Instr :=
  match rt word with
  | 0x00 | 0x02 => .branch (.negative (rs word)) false false (branchOffset word)
  | 0x01 | 0x03 => .branch (.notNegative (rs word)) false false (branchOffset word)
  | 0x10 | 0x12 => .branch (.negative (rs word)) false true (branchOffset word)
  | 0x11 | 0x13 => .branch (.notNegative (rs word)) false true (branchOffset word)
  | _ => .reserved

def decodeTlb (word : Word) : Option TlbOp :=
  match word with
  | 0x42000001#32 => some .read
  | 0x42000002#32 => some .writeIndexed
  | 0x42000006#32 => some .writeRandom
  | 0x42000008#32 => some .probe
  | _ => none

def decodeSystem (word : Word) : SystemOp :=
  match decodeTlb word with
  | some op => .tlb op
  | none =>
    if unitOp word = 0x00 then .moveFrom (rt word) (rd word)
    else if unitOp word = 0x04 then .moveTo (rt word) (rd word)
    else if unitOp word = 0x08 then
      match decodeUnitBranch word with
      | some branch => .branch branch
      | none => .reserved
    else if 0x10 ≤ unitOp word && funct word == 0x10 then .restoreMode
    else .reserved

/-- Operations on one of the two precisions. -/
def decodeFloatFormat (precision : Precision) (word : Word) : Option FloatOp :=
  match precision, funct word with
  | _, 0x00#6 => some (.binary .add precision (fd word) (fs word) (ft word))
  | _, 0x01#6 => some (.binary .sub precision (fd word) (fs word) (ft word))
  | _, 0x02#6 => some (.binary .mul precision (fd word) (fs word) (ft word))
  | _, 0x03#6 => some (.binary .div precision (fd word) (fs word) (ft word))
  | _, 0x05#6 => some (.abs precision (fd word) (fs word))
  | _, 0x06#6 => some (.move precision (fd word) (fs word))
  | _, 0x07#6 => some (.neg precision (fd word) (fs word))
  | .double, 0x20#6 => some (.narrow (fd word) (fs word))
  | .single, 0x21#6 => some (.widen (fd word) (fs word))
  | _, 0x24#6 => some (.toWord precision (fd word) (fs word))
  | _, code =>
    if 0x30 ≤ code then
      some (.compare precision (code.extractLsb' 0 4) (fs word) (ft word))
    else none

/-- Conversions from words. -/
def decodeFloatWord (word : Word) : Option FloatOp :=
  match funct word with
  | 0x20#6 => some (.ofWord .single (fd word) (fs word))
  | 0x21#6 => some (.ofWord .double (fd word) (fs word))
  | _ => none

def decodeFloatOp (word : Word) : Option FloatOp :=
  match unitOp word with
  | 0x10#5 => decodeFloatFormat .single word
  | 0x11#5 => decodeFloatFormat .double word
  | 0x14#5 => decodeFloatWord word
  | _ => none

def decodeFloat (word : Word) : FloatInstr :=
  match unitOp word with
  | 0x00#5 => .moveFrom (rt word) (fs word)
  | 0x02#5 => .controlFrom (rt word) (fs word)
  | 0x04#5 => .moveTo (rt word) (fs word)
  | 0x06#5 => .controlTo (rt word) (fs word)
  | 0x08#5 =>
    match decodeUnitBranch word with
    | some branch => .branch branch
    | none => .unimplemented
  | _ =>
    match decodeFloatOp word with
    | some op => .operate op
    | none => .unimplemented

/-- The coprocessors 2 and 3 know only their branch. -/
def decodeForeign (word : Word) : Instr :=
  .foreign (unitNum word) (if unitOp word = 0x08 then decodeUnitBranch word else none)

def decode (word : Word) : Instr :=
  match opcode word with
  | 0x00#6 => decodeSpecial word
  | 0x01#6 => decodeSignBranch word
  | 0x02#6 => .jump false (imm26 word)
  | 0x03#6 => .jump true (imm26 word)
  | 0x04#6 => .branch (.equal (rs word) (rt word)) false false (branchOffset word)
  | 0x05#6 => .branch (.notEqual (rs word) (rt word)) false false (branchOffset word)
  | 0x06#6 => .branch (.lessEqualZero (rs word)) false false (branchOffset word)
  | 0x07#6 => .branch (.greaterZero (rs word)) false false (branchOffset word)
  | 0x08#6 => .checkedImmediate (rt word) (rs word) (immSigned word)
  | 0x09#6 => .computeImmediate .add (rt word) (rs word) (immSigned word)
  | 0x0a#6 => .computeImmediate .lessSigned (rt word) (rs word) (immSigned word)
  | 0x0b#6 => .computeImmediate .lessUnsigned (rt word) (rs word) (immSigned word)
  | 0x0c#6 => .computeImmediate .and (rt word) (rs word) (immUnsigned word)
  | 0x0d#6 => .computeImmediate .or (rt word) (rs word) (immUnsigned word)
  | 0x0e#6 => .computeImmediate .xor (rt word) (rs word) (immUnsigned word)
  | 0x0f#6 => .loadUpper (rt word) (immUnsigned word <<< 16)
  | 0x10#6 => .system (decodeSystem word)
  | 0x11#6 => .float (decodeFloat word)
  | 0x12#6 => decodeForeign word
  | 0x13#6 => decodeForeign word
  | 0x14#6 => .branch (.equal (rs word) (rt word)) true false (branchOffset word)
  | 0x15#6 => .branch (.notEqual (rs word) (rt word)) true false (branchOffset word)
  | 0x16#6 => .branch (.lessEqualZero (rs word)) true false (branchOffset word)
  | 0x17#6 => .branch (.greaterZero (rs word)) true false (branchOffset word)
  | 0x1c#6 => .multiplyAdd (!word.getLsbD 0) (rd word) (rs word) (rt word)
  | 0x20#6 => .load .byteSigned (rt word) (rs word) (immSigned word)
  | 0x21#6 => .load .halfSigned (rt word) (rs word) (immSigned word)
  | 0x22#6 => .load .wordLeft (rt word) (rs word) (immSigned word)
  | 0x23#6 => .load .word (rt word) (rs word) (immSigned word)
  | 0x24#6 => .load .byteUnsigned (rt word) (rs word) (immSigned word)
  | 0x25#6 => .load .halfUnsigned (rt word) (rs word) (immSigned word)
  | 0x26#6 => .load .wordRight (rt word) (rs word) (immSigned word)
  | 0x28#6 => .store .byte (rt word) (rs word) (immSigned word)
  | 0x29#6 => .store .half (rt word) (rs word) (immSigned word)
  | 0x2a#6 => .store .wordLeft (rt word) (rs word) (immSigned word)
  | 0x2b#6 => .store .word (rt word) (rs word) (immSigned word)
  | 0x2e#6 => .store .wordRight (rt word) (rs word) (immSigned word)
  | 0x2f#6 => .nothing
  | 0x31#6 => .float (.load (ft word) (rs word) (immSigned word))
  | 0x32#6 => .foreign 2 none
  | 0x33#6 => .foreign 3 none
  | 0x39#6 => .float (.store (ft word) (rs word) (immSigned word))
  | 0x3a#6 => .foreign 2 none
  | 0x3b#6 => .foreign 3 none
  | _ => .reserved

end R3000
