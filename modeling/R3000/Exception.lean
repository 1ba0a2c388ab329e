import R3000.Word

/-!
# Exceptions

The causes for which a processor leaves the program it runs, with the codes
that the cause register shows for them.
-/
namespace R3000

inductive Exception where
  | interrupt
  | tlbModified
  | tlbLoad
  | tlbStore
  | addressLoad
  | addressStore
  | busFetch
  | busData
  | syscall
  | breakpoint
  | reservedInstruction
  | coprocessorUnusable (unit : Nat)
  | overflow
  deriving DecidableEq, Repr

namespace Exception

/-- The value of the exception code field. -/
def code : Exception → Word
  | interrupt => 0
  | tlbModified => 1
  | tlbLoad => 2
  | tlbStore => 3
  | addressLoad => 4
  | addressStore => 5
  | busFetch => 6
  | busData => 7
  | syscall => 8
  | breakpoint => 9
  | reservedInstruction => 10
  | coprocessorUnusable _ => 11
  | overflow => 12

/-- The number of the coprocessor concerned, in its field of the cause register. -/
def unitBits : Exception → Word
  | coprocessorUnusable unit => BitVec.ofNat 32 (unit % 4) <<< 28
  | _ => 0

def causeBits (exception : Exception) : Word :=
  exception.code <<< 2 ||| exception.unitBits

def name : Exception → String
  | interrupt => "Interrupt"
  | tlbModified => "TlbModified"
  | tlbLoad => "TlbLoad"
  | tlbStore => "TlbStore"
  | addressLoad => "AddrLoadError"
  | addressStore => "AddrStoreError"
  | busFetch => "BusFetchError"
  | busData => "BusLoadStoreError"
  | syscall => "Syscall"
  | breakpoint => "Breakpoint"
  | reservedInstruction => "ReservedInstruction"
  | coprocessorUnusable unit => "CopUnusable(" ++ toString unit ++ ")"
  | overflow => "ArithmeticOverflow"

end Exception

end R3000
