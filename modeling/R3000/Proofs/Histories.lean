import R3000.Proofs.Reachability

/-!
# Histories

A run with what was done in it: each operation of the host, the instruction word that was executed
in its course, if it came to that, and the notes that were taken. What a state of the processor owes
to the past is then said as a function of the history.
-/
namespace R3000

/-- An operation of a host, with what came of it. -/
structure Deed where
  operation : Operation
  executed : Option Word
  notes : List Note

namespace Deed

/-- The instruction that was executed, if any. -/
def instr? (deed : Deed) : Option Instr := deed.executed.map decode

/-- A system register is written under a number, by the host or by the instruction. -/
inductive Writes (deed : Deed) : Nat → Prop where
  | host {number : Nat} {value : Word} (asked : deed.operation = .setSystemReg number value) :
      Writes deed number
  | program {rt target : RegNum} (executed : deed.instr? = some (.system (.moveTo rt target))) :
      Writes deed target.val

end Deed

namespace Cpu

def deed {β : Type} [Bus β] (cpu : Cpu) (bus : β) (operation : Operation) : Deed where
  operation
  executed := cpu.executed? bus operation
  notes := (cpu.operate bus operation).notes

/-- A run leads from one state to another, with its history, the latest deed first. The memory may
be a different one at every operation. -/
inductive Recorded (start : Cpu) : List Deed → Cpu → Prop where
  | start : Recorded start [] start
  | operate {β : Type} [Bus β] {past : List Deed} {cpu : Cpu} (bus : β) (operation : Operation)
      (before : Recorded start past cpu) :
      Recorded start (cpu.deed bus operation :: past) (cpu.operate bus operation).cpu

/-- Without its history it is a run of operations. -/
theorem Recorded.leads {start cpu : Cpu} {past : List Deed} {allowed : Operation → Prop}
    (run : start.Recorded past cpu) (fine : ∀ deed ∈ past, allowed deed.operation) :
    Leads allowed start cpu := by
  induction run with
  | start => exact .refl
  | @operate β _ past cpu bus operation before ih =>
    have last : allowed operation := fine _ List.mem_cons_self
    exact .operate bus last (ih fun deed member => fine deed (List.mem_cons_of_mem _ member))

end Cpu

end R3000
