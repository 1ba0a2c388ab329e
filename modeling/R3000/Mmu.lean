import R3000.Config
import R3000.Diagnostic
import R3000.Tlb

/-!
# Address mapping

Addresses with a clear high bit belong to user space and are always mapped. Of
the others, which only the kernel may use, two windows of half a gigabyte both
show the lowest physical addresses, and the rest is mapped.

Mapped addresses are translated by the lookaside buffer, by a fixed rule, or not
at all.
-/
namespace R3000

/-! ### Segments -/

def inUserSpace (address : Word) : Bool := !hasAny address 0x80000000

/-- The address lies in one of the two unmapped windows. -/
def inWindow (address : Word) : Bool := address &&& 0xc0000000 == 0x80000000

/-- What an address selects for a program in user or kernel mode. -/
inductive Route where
  | unmapped (physical : Word)
  | mapped
  | refused
  deriving DecidableEq, Repr

def route (user : Bool) (address : Word) : Route :=
  if inUserSpace address then .mapped
  else if user then .refused
  else if inWindow address then .unmapped (address &&& 0x1fffffff)
  else .mapped

/-! ### Mapping hardware -/

inductive Mmu where
  | fixed
  | tlb (buffer : Tlb)
  | bypass (buffer : Tlb)
  deriving DecidableEq

namespace Mmu

def ofMapping : Mapping → Mmu
  | .fixed => fixed
  | .tlb => tlb .initial
  | .bypass => bypass .initial

def buffer? : Mmu → Option Tlb
  | fixed => none
  | tlb buffer | bypass buffer => some buffer

def hasBuffer (mmu : Mmu) : Bool := mmu.buffer?.isSome

/-- Change the lookaside buffer, if there is one. -/
def mapBuffer (mmu : Mmu) (change : Tlb → Tlb) : Mmu :=
  match mmu with
  | fixed => fixed
  | tlb buffer => tlb (change buffer)
  | bypass buffer => bypass (change buffer)

/-- The fixed rule moves user space up by one gigabyte. -/
def fixedAddress (address : Word) : Word :=
  if inUserSpace address then address + 0x40000000 else address

def faultKind (address : Word) : Lookup → TlbFaultKind
  | .modified => .modified
  | .miss => if inUserSpace address then .refill else .invalid
  | .invalid | .hit _ => .invalid

/-- The physical address of a mapped address, in the address space that `entryHi` names. -/
def translate (mmu : Mmu) (entryHi address : Word) (intent : Intent) : Except TlbFaultKind Word :=
  match mmu with
  | fixed => .ok (fixedAddress address)
  | bypass _ => .ok address
  | tlb buffer =>
    match buffer.lookup (searchKey address entryHi) intent with
    | .hit frame => .ok ((address &&& ~~~pageMask) ||| frame)
    | failure => .error (faultKind address failure)

/-- The hardware after a mapped access: the entry that answered is promoted. -/
def promote (mmu : Mmu) (entryHi address : Word) (intent : Intent) : Mmu :=
  match mmu with
  | tlb buffer => tlb (buffer.promote (searchKey address entryHi) intent)
  | fixed | bypass _ => mmu

end Mmu

end R3000
