import R3000.Clock

/-!
# Running for a time

A processor runs whole instructions until a budget of cycles is used up. The
last instruction may use more than what is left. Since every instruction takes
a cycle, the budget bounds the number of instructions.
-/
namespace R3000.Cpu

variable {β : Type} [Bus β]

/-- Run on, with the notes taken before, the latest first. -/
def runFrom (cpu : Cpu) (bus : β) (budget : Nat) (earlier : List Note) : Outcome β :=
  if budget = 0 then ⟨cpu, bus, earlier.reverse⟩
  else
    let stepped := cpu.step bus
    let cost := stepped.cpu.cycles - cpu.cycles
    runFrom stepped.cpu stepped.bus (budget - cost) (stepped.notes.reverse ++ earlier)
termination_by budget
decreasing_by
  have positive : 0 < (cpu.step bus).cpu.cycles - cpu.cycles := cost_pos cpu bus
  change budget - ((cpu.step bus).cpu.cycles - cpu.cycles) < budget
  omega

def run (cpu : Cpu) (bus : β) (budget : Nat) : Outcome β := runFrom cpu bus budget []

/-- The cycles that passed on the way to an outcome. -/
def elapsed (cpu : Cpu) (outcome : Outcome β) : Nat := outcome.cpu.cycles - cpu.cycles

end R3000.Cpu
