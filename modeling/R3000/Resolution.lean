import R3000.Trap

/-!
# Resolving addresses

An access is translated in the mode the processor is in, and either has a
physical address or traps. A host can ask what any address is translated to for
the kernel; that changes nothing.
-/
namespace R3000.Core

/-- The physical address of an access by a program in user or kernel mode. -/
def resolve (core : Core) (user : Bool) (address : Word) (intent : Intent) : Except Trap Word :=
  match route user address with
  | .unmapped physical => .ok physical
  | .refused => .error (.addressError address intent)
  | .mapped =>
    match core.mmu.translate core.system.entryHi address intent with
    | .ok physical => .ok physical
    | .error kind => .error (.tlbFault address (searchKey address core.system.entryHi) intent kind)

/-- What a host sees an address translated to. -/
def translate (core : Core) (address : Word) (intent : Intent) : Option Word :=
  (core.resolve false address intent).toOption

/-- The core after an access: the entry that answered it is promoted. -/
def touch (core : Core) (address : Word) (intent : Intent) : Core :=
  match route core.userMode address with
  | .mapped => { core with mmu := core.mmu.promote core.system.entryHi address intent }
  | .unmapped _ | .refused => core

/-- Translate an access of a program. -/
def access (core : Core) (address : Word) (intent : Intent) : Except Trap Word × Core :=
  (core.resolve core.userMode address intent, core.touch address intent)

end R3000.Core
