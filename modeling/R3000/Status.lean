import R3000.Word

/-!
# The status and cause registers

The status register holds a stack of three mode pairs in its six low bits. The
low bit of a pair enables interrupts and the high bit selects user mode; the
current pair is the lowest. Entering an exception pushes kernel mode with
interrupts off, returning from one pops. The oldest pair stays in place when
popped.

The cause register holds the exception code, eight pending interrupt bits, the
coprocessor concerned, and whether the exception hit a delay slot.
-/
namespace R3000

namespace Status

def iec : Word := 0x00000001
def kuc : Word := 0x00000002
def iep : Word := 0x00000004
def kup : Word := 0x00000008
def ieo : Word := 0x00000010
def kuo : Word := 0x00000020
def im : Word := 0x0000ff00
def isc : Word := 0x00010000
def swc : Word := 0x00020000
def pz : Word := 0x00040000
def cm : Word := 0x00080000
def pe : Word := 0x00100000
def ts : Word := 0x00200000
def bev : Word := 0x00400000
def re : Word := 0x02000000
def cu0 : Word := 0x10000000
def cu1 : Word := 0x20000000
def cu2 : Word := 0x40000000
def cu3 : Word := 0x80000000

/-- The whole mode stack. -/
def kuie : Word := 0x0000003f

/-- The previous and the current pair. -/
def kuiePC : Word := 0x0000000f

/-- The old and the previous pair. -/
def kuieOP : Word := 0x0000003c

/-- All fields, lowest first, then the three views of the mode stack. -/
def fields : List Word :=
  [iec, kuc, iep, kup, ieo, kuo, im, isc, swc, pz, cm, pe, ts, bev, re, cu0, cu1, cu2, cu3,
    kuie, kuiePC, kuieOP]

def userMode (status : Word) : Bool := hasAny status kuc

def interruptsEnabled (status : Word) : Bool := hasAny status iec

/-- The coprocessor may be used; numbers count modulo four. -/
def unitUsable (status : Word) (unit : Nat) : Bool := hasAny status (cu0 <<< (unit % 4))

def push (status : Word) : Word := replaceBits status kuie (status <<< 2 &&& kuieOP)

def pop (status : Word) : Word := replaceBits status kuiePC (status >>> 2)

end Status

namespace Cause

def excCode : Word := 0x0000007c

/-- The two interrupt bits that programs set and clear. -/
def isw : Word := 0x00000300

/-- The six interrupt bits that follow the inputs. -/
def ipex : Word := 0x0000fc00

def ip : Word := 0x0000ff00
def ce : Word := 0x30000000
def bd : Word := 0x80000000

def fields : List Word := [excCode, isw, ipex, ip, ce, bd]

/-- The pending bit of an interrupt input. -/
def inputBit (line : Nat) : Word := 0x400 <<< line

end Cause

/-- An enabled interrupt is pending. -/
def interruptPending (status cause : Word) : Bool :=
  Status.interruptsEnabled status && hasAny (cause &&& status) Status.im

end R3000
