import R3000.Host
import R3000.Run

/-!
# Runs of a processor

A host builds a processor and then works on it by a few operations, each with the memory it
provides at that time. A run is any sequence of them. What a host may do is restricted where
a property needs it: a run that executes no words directly stays between instructions, where
the sequencer has no branch of the present instruction and no exception left to account for.

A session is a run with all that comes of it, on a memory that its operations share.
-/
namespace R3000

inductive Operation where
  /-- Fetch and run one instruction, or take one exception. -/
  | step
  /-- Execute a word that was not fetched, without going on to the next instruction. -/
  | execute (word : Word)
  | reset
  | setPc (pc : Word)
  | setGpr (number : Nat) (value : Word)
  | setFpr (number : Nat) (value : BitVec 64)
  | setSystemReg (number : Nat) (value : Word)
  | setInput (line : Nat) (asserted : Bool)
  | setCondition (unit : Nat) (condition : Bool)
  deriving DecidableEq, Repr

/-- The operation begins and ends between two instructions. -/
def Operation.keepsBoundary : Operation → Bool
  | execute _ => false
  | _ => true

namespace Cpu

def operate {β : Type} [Bus β] (cpu : Cpu) (bus : β) (operation : Operation) : Outcome β :=
  let changed (result : Cpu × List Note) : Outcome β := ⟨result.1, bus, result.2⟩
  match operation with
  | .step => cpu.step bus
  | .execute word => cpu.execute bus word
  | .reset => changed cpu.reset
  | .setPc pc => changed (cpu.setPc pc, [])
  | .setGpr number value => changed (cpu.setGpr number value, [])
  | .setFpr number value => changed (cpu.setFpr number value, [])
  | .setSystemReg number value => changed (cpu.setSystemReg number value)
  | .setInput line asserted => changed (cpu.setInput line asserted)
  | .setCondition unit condition => changed (cpu.setCondition unit condition, [])

/-- A run of allowed operations leads from one state to another. The memory may be a
different one at every operation. -/
inductive Leads (allowed : Operation → Prop) (start : Cpu) : Cpu → Prop where
  | refl : Leads allowed start start
  | operate {β : Type} [Bus β] {cpu : Cpu} (bus : β) {operation : Operation}
      (fine : allowed operation) (before : Leads allowed start cpu) :
      Leads allowed start (cpu.operate bus operation).cpu

/-- The processor after a list of operations, each with the same memory. -/
def operateAll {β : Type} [Bus β] (cpu : Cpu) (bus : β) (operations : List Operation) : Cpu :=
  operations.foldl (fun cpu operation => (cpu.operate bus operation).cpu) cpu

theorem Leads.operateAll {allowed : Operation → Prop} {start cpu : Cpu} {β : Type} [Bus β]
    (run : Leads allowed start cpu) (bus : β) {operations : List Operation}
    (fine : ∀ operation ∈ operations, allowed operation) :
    Leads allowed start (cpu.operateAll bus operations) := by
  induction operations generalizing cpu with
  | nil => exact run
  | cons operation rest ih =>
    have first : allowed operation := fine operation List.mem_cons_self
    exact ih (.operate bus first run) fun later member => fine later (List.mem_cons_of_mem _ member)

/-- What every allowed operation keeps holds at the end of a run. -/
theorem Leads.keeps {allowed : Operation → Prop} {start cpu : Cpu} {P : Cpu → Prop}
    (run : Leads allowed start cpu)
    (kept : ∀ {β : Type} [Bus β] (cpu : Cpu) (bus : β) (operation : Operation),
      allowed operation → P cpu → P (cpu.operate bus operation).cpu)
    (initial : P start) : P cpu := by
  -- By induction on the run, whose last operation may have had any memory.
  induction run with
  | refl => exact initial
  | operate bus fine _ ih => exact kept _ bus _ fine ih

/-- A state of a processor that was built from some description. -/
def ReachableBy (allowed : Operation → Prop) (cpu : Cpu) : Prop :=
  ∃ config, Leads allowed (Cpu.build config).1 cpu

/-- A state that a host can bring a processor into by any operations. -/
def Reachable (cpu : Cpu) : Prop := ReachableBy (fun _ => True) cpu

/-- A state that a host can bring a processor into without executing words directly. -/
def ReachableBetween (cpu : Cpu) : Prop := ReachableBy (·.keepsBoundary = true) cpu

theorem ReachableBy.leads {allowed : Operation → Prop} {start cpu : Cpu}
    (reached : start.ReachableBy allowed) (run : Leads allowed start cpu) :
    cpu.ReachableBy allowed := by
  induction run with
  | refl => exact reached
  | operate bus fine _ ih =>
    obtain ⟨config, before⟩ := ih
    exact ⟨config, .operate bus fine before⟩

/-! ### Sessions -/

section

variable {β : Type} [Bus β]

/-- The operations of a host one after the other, each on the memory that the one before it left:
the cycles that each of them takes, and the outcome, with the notes of all. -/
def session (cpu : Cpu) (bus : β) : List Operation → List Nat × Outcome β
  | [] => ([], ⟨cpu, bus, []⟩)
  | operation :: rest =>
    let after := cpu.operate bus operation
    let (costs, last) := after.cpu.session after.bus rest
    (cpu.elapsed after :: costs, { last with notes := after.notes ++ last.notes })

/-- The instruction word that an operation executes, if it comes to executing one. -/
def executed? (cpu : Cpu) (bus : β) : Operation → Option Word
  | .step =>
    match (cpu.tick 1).fetch bus with
    | (.error _, _, _) => none
    | (.ok word, fetched, _) =>
      if fetched.core.system.interruptPending then none else some word
  | .execute word => some word
  | .reset | .setPc _ | .setGpr _ _ | .setFpr _ _ | .setSystemReg _ _ | .setInput _ _
  | .setCondition _ _ => none

/-- The instruction words that a session executes. -/
def sessionWords (cpu : Cpu) (bus : β) : List Operation → List Word
  | [] => []
  | operation :: rest =>
    let after := cpu.operate bus operation
    (cpu.executed? bus operation).toList ++ after.cpu.sessionWords after.bus rest

/-- A session that is broken off has executed no other words. -/
theorem sessionWords_take {cpu : Cpu} {bus : β} {operations : List Operation} {count : Nat}
    {word : Word} (executed : word ∈ cpu.sessionWords bus (operations.take count)) :
    word ∈ cpu.sessionWords bus operations := by
  induction operations generalizing cpu bus count with
  | nil =>
    rw [List.take_nil] at executed
    exact executed
  | cons operation rest ih =>
    cases count with
    | zero => cases executed
    | succ count =>
      rw [List.take_succ_cons] at executed
      simp only [sessionWords, List.mem_append] at executed ⊢
      exact executed.imp_right ih

end

end Cpu

/-! ### Between two instructions -/

/-- No branch has just been taken and no exception just entered. -/
def Sequencer.AtBoundary (sequencer : Sequencer) : Prop :=
  sequencer.state = .none ∨ sequencer.state = .delay

theorem Sequencer.next_atBoundary (sequencer : Sequencer) : sequencer.next.AtBoundary := by
  unfold next AtBoundary
  simp only
  split
  · exact .inr rfl
  · exact .inl rfl

namespace Core

@[simp] theorem sequencer_writeSystem (core : Core) (number : Nat) (value : Word) :
    (core.writeSystem number value).1.sequencer = core.sequencer := by
  simp only [writeSystem]
  split <;> rfl

@[simp] theorem sequencer_setInput (core : Core) (line : Nat) (asserted : Bool) :
    (core.setInput line asserted).1.sequencer = core.sequencer := by
  unfold setInput
  split
  · rfl
  · simp only
    split <;> rfl

end Core

namespace Cpu

/-- Every operation but direct execution leaves the processor between two instructions. -/
theorem operate_atBoundary {β : Type} [Bus β] (cpu : Cpu) (bus : β) (operation : Operation)
    (kept : operation.keepsBoundary = true) (before : cpu.core.sequencer.AtBoundary) :
    (cpu.operate bus operation).cpu.core.sequencer.AtBoundary := by
  cases operation with
  | step =>
    -- Whatever the instruction did, going on to the next one ends in a boundary.
    exact Sequencer.next_atBoundary _
  | execute word => cases kept
  | reset => exact .inl rfl
  | setPc pc => exact .inl rfl
  | setGpr number value => exact before
  | setFpr number value => exact before
  | setSystemReg number value =>
    change (cpu.core.writeSystem number value).1.sequencer.AtBoundary
    rw [Core.sequencer_writeSystem]
    exact before
  | setInput line asserted =>
    change (cpu.core.setInput line asserted).1.sequencer.AtBoundary
    rw [Core.sequencer_setInput]
    exact before
  | setCondition unit condition => exact before

theorem Leads.atBoundary {start cpu : Cpu} (run : Leads (·.keepsBoundary = true) start cpu)
    (between : start.core.sequencer.AtBoundary) : cpu.core.sequencer.AtBoundary := by
  apply run.keeps (P := fun cpu => cpu.core.sequencer.AtBoundary)
  · intro β _ cpu bus operation kept before
    exact operate_atBoundary cpu bus operation kept before
  · exact between

theorem ReachableBetween.atBoundary {cpu : Cpu} (reached : cpu.ReachableBetween) :
    cpu.core.sequencer.AtBoundary := by
  obtain ⟨config, run⟩ := reached
  exact run.atBoundary (.inl rfl)

end Cpu

end R3000
