import R3000.Proofs.Reachability
import R3000.Proofs.Trapping

/-!
# What every run keeps

The search orders of the lookaside buffer list every slot once, in every state that a host
can bring a processor into. A processor is built with complete orders; accesses and writes of
entries keep them complete, and nothing else that a host or a program does touches them.
-/
namespace R3000

namespace Core

theorem marked_complete {core : Core} (complete : core.mmu.Complete) (trap : Trap) :
    (core.marked trap).mmu.Complete := by
  simp only [marked]
  split
  · exact touch_complete complete _ _
  · exact complete

theorem Completes.complete {core next : Core} {random : Fin 64} {word : Word} {instr : Instr}
    {notes : List Note} (completes : core.Completes random word instr next notes)
    (complete : core.mmu.Complete) : next.mmu.Complete := by
  rcases completes.mmu with unchanged | ⟨slot, written⟩
  · rw [unchanged]
    exact complete
  · -- Storing an entry changes what a slot holds, not where it stands.
    rw [written]
    exact complete.mapBuffer fun buffer orders => orders.setEntry slot core.system.entry

@[simp] theorem mmu_receive (core : Core) (destination : Destination) {width : Width}
    (value : BitVec width.bits) : (core.receive destination value).mmu = core.mmu := by
  cases destination <;> rfl

theorem reset_complete {core : Core} (complete : core.mmu.Complete) :
    core.reset.1.mmu.Complete :=
  complete.mapBuffer fun buffer _ => buffer.complete_resetOrders

end Core

namespace Cpu

section

variable {β : Type} [Bus β]

theorem execute_complete {cpu : Cpu} (complete : cpu.core.mmu.Complete) (bus : β) (word : Word) :
    (cpu.execute bus word).cpu.core.mmu.Complete := by
  cases raised : cpu.executeTrap bus word with
  | some trap =>
    obtain ⟨memory, trapped⟩ := execute_of_trap raised
    rw [trapped]
    exact Core.marked_complete complete trap
  | none =>
    rcases core_execute_of_none raised with ⟨next, notes, extra, issued, executed⟩ |
      ⟨load, value, -, executed⟩ | ⟨store, -, executed⟩
    · rw [executed]
      exact (Core.issueInstr_completes issued).complete complete
    · rw [executed, Core.mmu_receive]
      exact Core.touch_complete complete _ _
    · rw [executed]
      exact Core.touch_complete complete _ _

theorem step_complete {cpu : Cpu} (complete : cpu.core.mmu.Complete) (bus : β) :
    (cpu.step bus).cpu.core.mmu.Complete := by
  -- The fetch moves the order of fetches, before the interrupt or the instruction.
  have fetched : (cpu.core.mark cpu.core.fetchDemand).mmu.Complete :=
    Core.touch_complete complete _ _
  rcases cpu.step_cases bus with ⟨trap, after, memory, fetch, -, stepped⟩ |
    ⟨word, after, memory, fetch, due, -, stepped⟩ | ⟨word, after, memory, fetch, calm, -, stepped⟩
  · rw [stepped, fetch_of_error fetch]
    exact Core.marked_complete complete trap
  · rw [stepped, fetch_of_ok fetch]
    exact fetched
  · rw [stepped, fetch_of_ok fetch]
    exact execute_complete fetched memory word

/-- No operation of a host makes a search order incomplete. -/
theorem operate_complete {cpu : Cpu} (complete : cpu.core.mmu.Complete) (bus : β)
    (operation : Operation) : (cpu.operate bus operation).cpu.core.mmu.Complete := by
  cases operation with
  | step => exact step_complete complete bus
  | execute word => exact execute_complete complete bus word
  | reset => exact Core.reset_complete complete
  | setPc pc => exact complete
  | setGpr number value => exact complete
  | setFpr number value => exact complete
  | setSystemReg number value =>
    have same := Core.mmu_writeSystem cpu.core number value
    change (cpu.core.writeSystem number value).1.mmu.Complete
    rw [same]
    exact complete
  | setInput line asserted =>
    have same := Core.mmu_setInput cpu.core line asserted
    change (cpu.core.setInput line asserted).1.mmu.Complete
    rw [same]
    exact complete
  | setCondition unit condition => exact complete

end

/-- Every search order is complete in every state that can be reached. -/
theorem ReachableBy.complete {allowed : Operation → Prop} {cpu : Cpu}
    (reached : cpu.ReachableBy allowed) : cpu.core.mmu.Complete := by
  obtain ⟨config, run⟩ := reached
  -- By induction on the run; a processor is built with the orders of a reset.
  apply run.keeps (P := fun cpu => cpu.core.mmu.Complete)
  · intro β _ cpu bus operation _ complete
    exact operate_complete complete bus operation
  · exact Core.reset_complete (Mmu.complete_ofMapping config.mapping)

end Cpu

end R3000
