import R3000.Proofs.BranchRestart
import R3000.Proofs.Disguises

/-!
# What an instruction names

An instruction word names the general registers that it reads and the one that it writes. A few
words also set the registers of the multiplier, and the stores change a memory.

This is told of the fields of a word, as a manual lists them, and again of the instruction that the
word decodes to. Both accounts agree for every word.
-/
namespace R3000

/-! ### What a word names -/

namespace Encoding

/-- The codes of the register instructions that have a result: shifts, a jump that links, moves from
the multiplier, products, arithmetic, logic and comparisons. -/
def resultCodes : List (BitVec 6) :=
  [0x00, 0x02, 0x03, 0x04, 0x06, 0x07, 0x09, 0x10, 0x12, 0x18, 0x19, 0x20, 0x21, 0x22, 0x23, 0x24,
    0x25, 0x26, 0x27, 0x2a, 0x2b]

/-- The codes of the register instructions with two operands. -/
def binaryCodes : List (BitVec 6) :=
  [0x04, 0x06, 0x07, 0x18, 0x19, 0x1a, 0x1b, 0x20, 0x21, 0x22, 0x23, 0x24, 0x25, 0x26, 0x27, 0x2a,
    0x2b]

/-- The general register that a word names as its destination. -/
def destination? (word : Word) : Option RegNum :=
  if opcode word = 0x00 then if funct word ∈ resultCodes then some (rd word) else none
  -- Branches on a sign that link.
  else if opcode word = 0x01 then
    if rt word ∈ [0x10, 0x11, 0x12, 0x13] then some 31 else none
  else if opcode word = 0x03 then some 31
  -- Moves from coprocessor 0, and from the registers and the control registers of coprocessor 1.
  else if opcode word = 0x10 then if unitOp word = 0x00 then some (rt word) else none
  else if opcode word = 0x11 then if unitOp word ∈ [0x00, 0x02] then some (rt word) else none
  else if opcode word = 0x1c then some (rd word)
  -- Immediate operands and loads.
  else if opcode word ∈ [0x08, 0x09, 0x0a, 0x0b, 0x0c, 0x0d, 0x0e, 0x0f, 0x20, 0x21, 0x22, 0x23,
      0x24, 0x25, 0x26] then some (rt word)
  else none

/-- The general registers that a word names as its sources. -/
def sources (word : Word) : List RegNum :=
  if opcode word = 0x00 then
    if funct word ∈ binaryCodes then [rs word, rt word]
    else if funct word ∈ [0x00, 0x02, 0x03] then [rt word]
    else if funct word ∈ [0x08, 0x09, 0x11, 0x13] then [rs word]
    else []
  else if opcode word = 0x01 then
    if rt word ∈ [0x00, 0x01, 0x02, 0x03, 0x10, 0x11, 0x12, 0x13] then [rs word] else []
  -- Moves to coprocessor 0, and to the registers and the control registers of coprocessor 1.
  else if opcode word = 0x10 then if unitOp word = 0x04 then [rt word] else []
  else if opcode word = 0x11 then if unitOp word ∈ [0x04, 0x06] then [rt word] else []
  -- Branches that compare two registers, products that are added, loads of a part, and stores.
  else if opcode word ∈ [0x04, 0x05, 0x14, 0x15, 0x1c, 0x22, 0x26, 0x28, 0x29, 0x2a, 0x2b,
      0x2e] then [rs word, rt word]
  else if opcode word ∈ [0x06, 0x07, 0x08, 0x09, 0x0a, 0x0b, 0x0c, 0x0d, 0x0e, 0x16, 0x17, 0x20,
      0x21, 0x23, 0x24, 0x25, 0x31, 0x39] then [rs word]
  else []

/-- The word changes the registers of the multiplier: moves to them, products and divisions. -/
def setsMultiplier (word : Word) : Bool :=
  opcode word == 0x00 && [0x11, 0x13, 0x18, 0x19, 0x1a, 0x1b].contains (funct word) ||
    opcode word == 0x1c

/-- The word is a store. -/
def stores (word : Word) : Bool := [0x28, 0x29, 0x2a, 0x2b, 0x2e, 0x39].contains (opcode word)

end Encoding

/-! ### What an instruction names -/

/-- The use that an instruction makes of registers and memories. -/
structure Usage where
  destination : Option RegNum := none
  sources : List RegNum := []
  setsMultiplier : Bool := false
  stores : Bool := false
  deriving DecidableEq, Repr

def SystemOp.usage : SystemOp → Usage
  | moveFrom rt _ => { destination := some rt }
  | moveTo rt _ => { sources := [rt] }
  | branch _ | restoreMode | tlb _ | reserved => {}

def FloatInstr.usage : FloatInstr → Usage
  | moveFrom rt _ | controlFrom rt _ => { destination := some rt }
  | moveTo rt _ | controlTo rt _ => { sources := [rt] }
  | load _ base _ => { sources := [base] }
  | store _ base _ => { sources := [base], stores := true }
  | branch _ | operate _ | unimplemented => {}

/-- A part of an unaligned word is loaded into what its register holds. -/
def LoadOp.sources (op : LoadOp) (rt base : RegNum) : List RegNum :=
  if op.isPart then [base, rt] else [base]

def Instr.usage : Instr → Usage
  | shift _ rd rt _ => { destination := some rd, sources := [rt] }
  | shiftVariable _ rd rt rs => { destination := some rd, sources := [rs, rt] }
  | compute _ rd rs rt | checked _ rd rs rt => { destination := some rd, sources := [rs, rt] }
  | computeImmediate _ rt rs _ | checkedImmediate rt rs _ =>
    { destination := some rt, sources := [rs] }
  | loadUpper rt _ => { destination := some rt }
  | multiply _ rd rs rt | multiplyAdd _ rd rs rt =>
    { destination := some rd, sources := [rs, rt], setsMultiplier := true }
  | divide _ rs rt => { sources := [rs, rt], setsMultiplier := true }
  | moveFromHi rd | moveFromLo rd => { destination := some rd }
  | moveToHi rs | moveToLo rs => { sources := [rs], setsMultiplier := true }
  | jump link _ => { destination := if link then some 31 else none }
  | jumpRegister link rs => { destination := link, sources := [rs] }
  | branch condition _ link _ =>
    { destination := if link then some 31 else none, sources := condition.operands }
  | load op rt base _ => { destination := some rt, sources := op.sources rt base }
  | store _ rt base _ => { sources := [base, rt], stores := true }
  | system op => op.usage
  | float instr => instr.usage
  | syscall | breakpoint | nothing | foreign _ _ | reserved => {}

/-- What a word names. -/
def Encoding.usage (word : Word) : Usage where
  destination := destination? word
  sources := sources word
  setsMultiplier := setsMultiplier word
  stores := stores word

/-! ### Decoding keeps what a word names -/

section

variable {word : Word}

open Encoding

theorem usage_decodeSpecial (code : opcode word = 0x00) :
    (decodeSpecial word).usage = Encoding.usage word := by
  unfold decodeSpecial
  split
  case h_31 =>
    -- Another code is in none of the lists.
    simp_all [Instr.usage, usage, destination?, sources, setsMultiplier, stores, resultCodes,
      binaryCodes]
  all_goals
    next selected =>
      simp [Instr.usage, usage, destination?, sources, setsMultiplier, stores, code, selected,
        resultCodes, binaryCodes]

theorem usage_decodeSignBranch (code : opcode word = 0x01) :
    (decodeSignBranch word).usage = Encoding.usage word := by
  unfold decodeSignBranch
  split
  all_goals
    simp_all [Instr.usage, usage, destination?, sources, setsMultiplier, stores,
      Condition.operands]

/-- The instructions for the lookaside buffer are no moves. -/
theorem unitOp_of_decodeTlb {op : TlbOp} (found : decodeTlb word = some op) :
    unitOp word = 0x10 := by
  unfold decodeTlb at found
  split at found
  case h_5 => cases found
  all_goals rfl

theorem usage_decodeSystem (code : opcode word = 0x10) :
    (decodeSystem word).usage = Encoding.usage word := by
  unfold decodeSystem
  cases found : decodeTlb word with
  | some op =>
    have field := unitOp_of_decodeTlb found
    simp [SystemOp.usage, usage, destination?, sources, setsMultiplier, stores, code, field]
  | none =>
    simp only
    repeat' split
    all_goals simp_all [SystemOp.usage, usage, destination?, sources, setsMultiplier, stores]

theorem usage_decodeFloat (code : opcode word = 0x11) :
    (decodeFloat word).usage = Encoding.usage word := by
  unfold decodeFloat
  split
  case h_5 | h_6 =>
    -- Branches and operations name no general register, and neither does what is unknown.
    split
    all_goals simp_all [FloatInstr.usage, usage, destination?, sources, setsMultiplier, stores]
  all_goals
    next selected =>
      simp [FloatInstr.usage, usage, destination?, sources, setsMultiplier, stores, code, selected]

/-- An instruction names what its word names. -/
theorem usage_decode (word : Word) : (decode word).usage = Encoding.usage word := by
  unfold decode
  split
  case h_1 code => exact usage_decodeSpecial code
  case h_2 code => exact usage_decodeSignBranch code
  case h_17 code => exact usage_decodeSystem code
  case h_18 code => exact usage_decodeFloat code
  case h_45 => simp_all [Instr.usage, usage, destination?, sources, setsMultiplier, stores]
  all_goals
    next code =>
      simp [Instr.usage, decodeForeign, FloatInstr.usage, LoadOp.sources, LoadOp.isPart,
        Condition.operands, usage, destination?, sources, setsMultiplier, stores, code]

end

end R3000
