import R3000.Word

/-!
# Sequencing

The instruction after a branch, in its delay slot, is executed before the branch
takes effect. The sequencer remembers between two instructions whether the next
one is in a delay slot, and where the branch goes.
-/
namespace R3000

inductive BranchState where
  | none
  /-- The present instruction is a branch that is taken. -/
  | branch
  /-- The present instruction is in the delay slot of a branch. -/
  | delay
  /-- The present instruction was left for an exception. -/
  | exception
  deriving DecidableEq, Repr

def BranchState.name : BranchState → String
  | none => "None"
  | branch => "Branch"
  | delay => "Delay"
  | exception => "Exception"

structure Sequencer where
  state : BranchState
  target : Word
  deriving DecidableEq, Repr

namespace Sequencer

def initial : Sequencer := ⟨.none, 0⟩

def branchTo (_ : Sequencer) (target : Word) : Sequencer := ⟨.branch, target⟩

def redirect (sequencer : Sequencer) : Sequencer := { sequencer with state := .exception }

def inDelaySlot (sequencer : Sequencer) : Bool := sequencer.state == .delay

/-- The state in which the next instruction starts. -/
def next (sequencer : Sequencer) : Sequencer :=
  { sequencer with state := if sequencer.state = .branch then .delay else .none }

/-- The address of the next instruction. -/
def nextPc (sequencer : Sequencer) (pc : Word) : Word :=
  match sequencer.state with
  | .none | .branch => pc + 4
  | .delay => sequencer.target
  | .exception => pc

end Sequencer

end R3000
