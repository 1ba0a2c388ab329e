import Mathlib.Algebra.GroupWithZero.Nat
import R3000.Proofs.Courses
import R3000.Proofs.OrderIndependence

/-!
# Budgets of cycles

A step costs one cycle, and a multiplication or a division that completes costs more. A run is then
the shortest sequence of steps that costs the budget at least, so it exceeds the budget by less than
one instruction. Two runs, one after the other, are the one run that has both together as its
budget: the second goes on where the first stopped.
-/
namespace R3000

/-! ### The cost of an instruction -/

/-- The cycles that an instruction takes besides the first, when it completes. -/
def Instr.extraCycles : Instr → Nat
  | multiply _ _ _ _ | multiplyAdd _ _ _ _ => multiplyCycles
  | divide _ _ _ => divideCycles
  | _ => 0

theorem Instr.extraCycles_mem (instr : Instr) : instr.extraCycles ∈ [0, 11, 34] := by
  unfold extraCycles
  split <;> decide

theorem Instr.extraCycles_le (instr : Instr) : instr.extraCycles ≤ 34 := by
  unfold extraCycles
  split <;> decide

namespace Core

variable {core next : Core} {random : Fin 64} {word : Word} {notes : List Note} {extra : Nat}

theorem extra_of_issueSystem {op : SystemOp}
    (issued : core.issueSystem random word op = .retire next notes extra) : extra = 0 := by
  simp only [issueSystem] at issued
  split at issued
  · cases issued
  · cases op with
    | tlb op =>
      simp only at issued
      split at issued
      · cases op <;> cases issued <;> rfl
      · cases issued
    | reserved => cases issued
    | moveFrom rt source | moveTo rt target | branch branch | restoreMode => cases issued; rfl

theorem extra_of_issueFloat {float : FloatInstr}
    (issued : core.issueFloat word float = .retire next notes extra) : extra = 0 := by
  simp only [issueFloat] at issued
  split at issued
  · cases issued
  · split at issued
    · cases float with
      | controlFrom rt fs | controlTo rt fs =>
        simp only [issueFloatOn] at issued
        split at issued <;> cases issued <;> rfl
      | load ft base offset | store ft base offset => cases issued
      | moveFrom rt fs | moveTo rt fs | branch branch | operate op | unimplemented =>
        cases issued
        rfl
    · cases issued
      rfl

theorem extra_of_issueForeign {unit : Fin 4} {branch : Option UnitBranch}
    (issued : core.issueForeign word unit branch = .retire next notes extra) : extra = 0 := by
  simp only [issueForeign] at issued
  split at issued
  · cases issued
  · split at issued <;> cases issued
    rfl

theorem extra_of_issueInstr {instr : Instr}
    (issued : core.issueInstr random word instr = .retire next notes extra) :
    extra = instr.extraCycles := by
  cases instr with
  | system op => exact extra_of_issueSystem issued
  | float float => exact extra_of_issueFloat issued
  | foreign unit branch => exact extra_of_issueForeign issued
  | divide signed rs rt =>
    -- A division by zero takes as long as any other.
    simp only [issueInstr, issueDivide] at issued
    split at issued <;> cases issued <;> rfl
  | checked op rd rs rt | checkedImmediate rt rs operand =>
    simp only [issueInstr] at issued
    split at issued <;> cases issued
    rfl
  | load op rt base offset | store op rt base offset | syscall | breakpoint | reserved =>
    cases issued
  | _ =>
    cases issued
    rfl

/-- Instructions that take longer make no access. -/
theorem extraCycles_of_asks {instr : Instr}
    (asks : (core.issueInstr random word instr).asks = true) : instr.extraCycles = 0 := by
  cases instr with
  | multiply signed rd rs rt | multiplyAdd signed rd rs rt => cases asks
  | divide signed rs rt =>
    simp only [issueInstr, issueDivide] at asks
    split at asks <;> cases asks
  | _ => rfl

end Core

/-! ### The cost of a step -/

namespace Cpu

variable {β : Type} [Bus β]

theorem cycles_execute_of_none {cpu : Cpu} {bus : β} {word : Word}
    (silent : cpu.executeTrap bus word = none) :
    (cpu.execute bus word).cpu.cycles = cpu.cycles + (decode word).extraCycles := by
  rcases execute_of_none silent with ⟨next, notes, extra, issued, executed⟩ |
    ⟨load, value, memory, issued, executed⟩ | ⟨store, icache, dcache, memory, issued, executed⟩
  · rw [executed, ← Core.extra_of_issueInstr issued]
    rfl
  · rw [executed, Core.extraCycles_of_asks (congrArg Issue.asks issued)]
    rfl
  · rw [executed, Core.extraCycles_of_asks (congrArg Issue.asks issued)]
    rfl

theorem cost_of_entered {cpu : Cpu} {bus : β} (trapped : entered (cpu.step bus).notes ≠ []) :
    cpu.cost bus = 1 := by
  rcases cpu.step_courses bus with ⟨word, start, memory, ran⟩ | ⟨trap, core, memory, left⟩
  · exact absurd ran.quiet trapped
  · have cycles : (cpu.step bus).cpu.cycles = cpu.cycles + 1 := left.closes.clock.1
    rw [cost, cycles, Nat.add_sub_cancel_left]

theorem cost_of_executed {cpu : Cpu} {bus : β} {word : Word}
    (executed : cpu.executed? bus .step = some word) (quiet : entered (cpu.step bus).notes = []) :
    cpu.cost bus = 1 + (decode word).extraCycles := by
  obtain ⟨start, memory, ran⟩ := ran_of_executed executed quiet
  have begins : start.cycles = cpu.cycles + 1 := by
    rw [ran.begins]
    rfl
  have cycles : (cpu.step bus).cpu.cycles = cpu.cycles + 1 + (decode word).extraCycles := by
    rw [← begins, ← cycles_execute_of_none ran.silent]
    exact ran.closes.clock.1
  rw [cost, cycles]
  omega

theorem cost_mem (cpu : Cpu) (bus : β) : cpu.cost bus ∈ [1, 12, 35] := by
  rcases cpu.step_courses bus with ⟨word, start, memory, ran⟩ | ⟨trap, core, memory, left⟩
  · have extra := (decode word).extraCycles_mem
    rw [cost_of_executed ran.executed ran.quiet]
    simp only [List.mem_cons, List.not_mem_nil, or_false] at extra ⊢
    omega
  · rw [cost_of_entered left.reported]
    decide

theorem cost_le (cpu : Cpu) (bus : β) : cpu.cost bus ≤ 35 := by
  have member := cpu.cost_mem bus
  simp only [List.mem_cons, List.not_mem_nil, or_false] at member
  omega

theorem cycles_step (cpu : Cpu) (bus : β) :
    (cpu.step bus).cpu.cycles = cpu.cycles + cpu.cost bus := by
  have later := cycles_lt_step cpu bus
  rw [cost]
  omega

/-- No operation turns back the clock, or lets it go on for more than thirty-five cycles. -/
theorem cycles_operate (cpu : Cpu) (bus : β) (operation : Operation) :
    cpu.cycles ≤ (cpu.operate bus operation).cpu.cycles ∧
      (cpu.operate bus operation).cpu.cycles ≤ cpu.cycles + 35 := by
  have unchanged : cpu.cycles ≤ cpu.cycles ∧ cpu.cycles ≤ cpu.cycles + 35 :=
    ⟨Nat.le_refl _, Nat.le_add_right _ _⟩
  cases operation with
  | step =>
    change cpu.cycles ≤ (cpu.step bus).cpu.cycles ∧ (cpu.step bus).cpu.cycles ≤ cpu.cycles + 35
    rw [cycles_step]
    exact ⟨Nat.le_add_right _ _, Nat.add_le_add_left (cpu.cost_le bus) _⟩
  | execute word =>
    change cpu.cycles ≤ (cpu.execute bus word).cpu.cycles ∧
      (cpu.execute bus word).cpu.cycles ≤ cpu.cycles + 35
    cases raised : cpu.executeTrap bus word with
    | some trap =>
      obtain ⟨memory, trapped⟩ := execute_of_trap raised
      rw [trapped]
      exact unchanged
    | none =>
      have extra := (decode word).extraCycles_le
      rw [cycles_execute_of_none raised]
      omega
  | _ =>
    -- What a host does between two instructions takes no time.
    exact unchanged

end Cpu

/-! ### Sequences of steps -/

/-- The outcome together with notes that were taken before. -/
def Outcome.following {β : Type} (outcome : Outcome β) (earlier : List Note) : Outcome β :=
  { outcome with notes := earlier ++ outcome.notes }

namespace Cpu

section

variable {β : Type} [Bus β]

/-- The cycles that a number of steps cost. -/
def spent (cpu : Cpu) (bus : β) (count : Nat) : Nat := cpu.elapsed (cpu.steps bus count)

/-- The costs of a number of steps, each where the ones before it have led. -/
def costs (cpu : Cpu) (bus : β) (count : Nat) : List Nat :=
  (List.range count).map fun earlier =>
    let before := cpu.steps bus earlier
    before.cpu.cost before.bus

theorem cycles_steps (cpu : Cpu) (bus : β) (count : Nat) :
    (cpu.steps bus count).cpu.cycles = cpu.cycles + (cpu.costs bus count).sum := by
  induction count with
  | zero => rfl
  | succ count ih =>
    simp only [costs, List.range_succ, List.map_append, List.sum_append] at ih ⊢
    simp only [steps, cycles_step, ih, List.map_cons, List.map_nil, List.sum_cons, List.sum_nil]
    omega

theorem spent_eq_sum (cpu : Cpu) (bus : β) (count : Nat) :
    cpu.spent bus count = (cpu.costs bus count).sum := by
  rw [spent, elapsed, cycles_steps, Nat.add_sub_cancel_left]

theorem spent_succ (cpu : Cpu) (bus : β) (count : Nat) :
    cpu.spent bus (count + 1) =
      cpu.spent bus count + (cpu.steps bus count).cpu.cost (cpu.steps bus count).bus := by
  simp only [spent_eq_sum, costs, List.range_succ, List.map_append, List.sum_append, List.map_cons,
    List.map_nil, List.sum_cons, List.sum_nil, Nat.add_zero]

theorem steps_add (cpu : Cpu) (bus : β) (first later : Nat) :
    cpu.steps bus (first + later) =
      ((cpu.steps bus first).cpu.steps (cpu.steps bus first).bus later).following
        (cpu.steps bus first).notes := by
  induction later with
  | zero => simp only [steps, Outcome.following, Nat.add_zero, List.append_nil]
  | succ later ih =>
    rw [← Nat.add_assoc]
    simp only [steps, ih, Outcome.following, List.append_assoc]

theorem spent_add (cpu : Cpu) (bus : β) (first later : Nat) :
    cpu.spent bus (first + later) =
      cpu.spent bus first +
        (cpu.steps bus first).cpu.spent (cpu.steps bus first).bus later := by
  have before := cpu.cycles_steps bus first
  have after := (cpu.steps bus first).cpu.cycles_steps (cpu.steps bus first).bus later
  simp only [spent, elapsed, steps_add, Outcome.following]
  omega

theorem spent_mono (cpu : Cpu) (bus : β) {fewer count : Nat} (less : fewer ≤ count) :
    cpu.spent bus fewer ≤ cpu.spent bus count := by
  obtain ⟨more, rfl⟩ := Nat.exists_eq_add_of_le less
  rw [spent_add]
  exact Nat.le_add_right _ _

/-! ### Runs -/

/-- The number of steps is the least that costs the budget. -/
structure Covers (cpu : Cpu) (bus : β) (budget count : Nat) : Prop where
  enough : budget ≤ cpu.spent bus count
  least : ∀ fewer < count, cpu.spent bus fewer < budget

theorem Covers.unique {cpu : Cpu} {bus : β} {budget count other : Nat}
    (covers : cpu.Covers bus budget count) (otherCovers : cpu.Covers bus budget other) :
    count = other := by
  rcases Nat.lt_trichotomy count other with less | same | more
  · exact absurd covers.enough (Nat.not_le_of_lt (otherCovers.least count less))
  · exact same
  · exact absurd otherCovers.enough (Nat.not_le_of_lt (covers.least other more))

theorem covers_zero (cpu : Cpu) (bus : β) : cpu.Covers bus 0 0 where
  enough := Nat.zero_le _
  least := fun _ less => absurd less (Nat.not_lt_zero _)

/-- The first of the steps, and then what is left of the budget. -/
theorem Covers.onward {cpu : Cpu} {bus : β} {budget count : Nat} (positive : budget ≠ 0)
    (covers : (cpu.step bus).cpu.Covers (cpu.step bus).bus (budget - cpu.cost bus) count) :
    cpu.Covers bus budget (1 + count) where
  enough := by
    have enough := covers.enough
    rw [spent_add]
    change budget ≤ cpu.cost bus + (cpu.step bus).cpu.spent (cpu.step bus).bus count
    omega
  least := by
    intro fewer less
    cases fewer with
    | zero =>
      have nothing : cpu.spent bus 0 = 0 := Nat.sub_self _
      omega
    | succ fewer =>
      -- The steps behind the first do not cover what it has left of the budget.
      have least := covers.least fewer (by omega)
      rw [Nat.add_comm, spent_add]
      change cpu.cost bus + (cpu.step bus).cpu.spent (cpu.step bus).bus fewer < budget
      omega

/-- A run is as many steps as its budget takes. -/
theorem runFrom_covers (cpu : Cpu) (bus : β) (budget : Nat) (earlier : List Note) :
    ∃ count, cpu.Covers bus budget count ∧
      cpu.runFrom bus budget earlier = (cpu.steps bus count).following earlier.reverse := by
  -- By induction on the recursion of the run, whose budget shrinks by the cost of a step.
  fun_induction runFrom cpu bus budget earlier with
  | case1 cpu bus earlier =>
    refine ⟨0, cpu.covers_zero bus, ?_⟩
    simp only [steps, Outcome.following, List.append_nil]
  | case2 cpu bus budget earlier positive stepped cost ih =>
    obtain ⟨count, covers, same⟩ := ih
    refine ⟨1 + count, covers.onward positive, ?_⟩
    rw [same, steps_add]
    simp only [steps, Outcome.following, List.reverse_append, List.reverse_reverse,
      List.nil_append, List.append_assoc, stepped]

theorem run_covers (cpu : Cpu) (bus : β) (budget : Nat) :
    ∃ count, cpu.Covers bus budget count ∧ cpu.run bus budget = cpu.steps bus count :=
  cpu.runFrom_covers bus budget []

theorem run_of_covers {cpu : Cpu} {bus : β} {budget count : Nat}
    (covers : cpu.Covers bus budget count) : cpu.run bus budget = cpu.steps bus count := by
  obtain ⟨other, otherCovers, same⟩ := cpu.run_covers bus budget
  rw [same, covers.unique otherCovers]

/-- The steps of two runs, one after the other, are those of the run with both budgets. -/
theorem Covers.append {cpu : Cpu} {bus : β} {budget later first second : Nat}
    (covers : cpu.Covers bus budget first)
    (laterCovers : (cpu.steps bus first).cpu.Covers (cpu.steps bus first).bus later second) :
    cpu.Covers bus (cpu.spent bus first + later) (first + second) where
  enough := by
    have enough := laterCovers.enough
    rw [spent_add]
    omega
  least := by
    intro fewer less
    by_cases early : fewer < first
    · -- The first run had not yet used up its own budget.
      have unspent := covers.least fewer early
      have enough := covers.enough
      omega
    · obtain ⟨more, rfl⟩ := Nat.exists_eq_add_of_le (Nat.le_of_not_lt early)
      have unspent := laterCovers.least more (by omega)
      rw [spent_add]
      omega

/-- The last step of a run begins before the budget is used up. -/
theorem Covers.spent_le {cpu : Cpu} {bus : β} {budget count : Nat}
    (covers : cpu.Covers bus budget count) (positive : 0 < budget) :
    cpu.spent bus count ≤ budget + 34 := by
  cases count with
  | zero =>
    have enough := covers.enough
    have nothing : cpu.spent bus 0 = 0 := Nat.sub_self _
    omega
  | succ count =>
    have unspent := covers.least count (Nat.lt_succ_self count)
    have last := cost_le (cpu.steps bus count).cpu (cpu.steps bus count).bus
    rw [spent_succ]
    omega

/-- A run respects its budget, and may be split. It is the shortest sequence of steps that costs the
budget, and what has elapsed is the sum of their costs, at most thirty-four cycles beyond the
budget. So a counter of 64 bits that has room for the budget and one more step does not overflow. A
step costs one, twelve or thirty-five cycles: what its instruction takes, and one if it enters an
exception. A second run goes on as the one run would that has as its budget what the first has used
together with that of the second. -/
theorem run_spends_budget (cpu : Cpu) (bus : β) (budget : Nat) :
    (∃ count, cpu.run bus budget = cpu.steps bus count ∧
      (∀ fewer, (cpu.costs bus fewer).sum < budget ↔ fewer < count) ∧
      cpu.elapsed (cpu.run bus budget) = (cpu.costs bus count).sum ∧
      (cpu.run bus budget).cpu.cycles = cpu.cycles + cpu.elapsed (cpu.run bus budget) ∧
      (cpu.cycles + budget + 35 < 2 ^ 64 →
        ∀ earlier ≤ count, (cpu.steps bus earlier).cpu.cycles < 2 ^ 64)) ∧
    (budget = 0 → cpu.elapsed (cpu.run bus budget) = 0) ∧
    (0 < budget → budget ≤ cpu.elapsed (cpu.run bus budget) ∧
      cpu.elapsed (cpu.run bus budget) ≤ budget + 34) ∧
    (cpu.cost bus ∈ [1, 12, 35] ∧
      cpu.core.config.cycleBounds.1 ≤ cpu.cost bus ∧
      cpu.cost bus ≤ cpu.core.config.cycleBounds.2 ∧
      (entered (cpu.step bus).notes ≠ [] → cpu.cost bus = 1) ∧
      ∀ word, cpu.executed? bus .step = some word → entered (cpu.step bus).notes = [] →
        cpu.cost bus = 1 + (decode word).extraCycles) ∧
    ∀ later, cpu.run bus (cpu.elapsed (cpu.run bus budget) + later) =
      ((cpu.run bus budget).cpu.run (cpu.run bus budget).bus later).following
        (cpu.run bus budget).notes := by
  obtain ⟨count, covers, same⟩ := cpu.run_covers bus budget
  have elapsed : cpu.elapsed (cpu.run bus budget) = cpu.spent bus count := by rw [same, spent]
  have within (positive : 0 < budget) : budget ≤ cpu.elapsed (cpu.run bus budget) ∧
      cpu.elapsed (cpu.run bus budget) ≤ budget + 34 := by
    rw [elapsed]
    exact ⟨covers.enough, covers.spent_le positive⟩
  have idle (none : budget = 0) : cpu.elapsed (cpu.run bus budget) = 0 := by
    subst none
    rw [elapsed, covers.unique (cpu.covers_zero bus)]
    exact Nat.sub_self _
  refine ⟨⟨count, same, ?_, ?_, ?_, ?_⟩, idle, within, ⟨cpu.cost_mem bus, cost_pos cpu bus, ?_,
    cost_of_entered, fun word => cost_of_executed⟩, ?_⟩
  · intro fewer
    rw [← spent_eq_sum]
    constructor
    · intro unspent
      apply Nat.lt_of_not_le
      intro more
      have spent := cpu.spent_mono bus more
      have enough := covers.enough
      omega
    · exact covers.least fewer
  · rw [elapsed, spent_eq_sum]
  · rw [elapsed, spent_eq_sum, same, cycles_steps]
  · intro room earlier early
    have spent := cpu.spent_mono bus early
    have total : cpu.spent bus count ≤ budget + 34 := by
      rw [← elapsed]
      by_cases none : budget = 0
      · rw [idle none]
        exact Nat.zero_le _
      · exact (within (Nat.pos_of_ne_zero none)).2
    rw [cycles_steps, ← spent_eq_sum]
    omega
  · have fits : 35 ≤ 40 := by decide
    exact Nat.le_trans (cpu.cost_le bus) fits
  · intro later
    obtain ⟨more, laterCovers, laterSame⟩ :=
      (cpu.steps bus count).cpu.run_covers (cpu.steps bus count).bus later
    have together := covers.append laterCovers
    rw [elapsed, run_of_covers together, steps_add]
    simp only [same, laterSame]

end

/-- A memory that shows the word of a division by register zero at every address. -/
def divisions : CacheRam := ⟨#[0x00, 0x00, 0x00, 0x1a]⟩

def dividing : Cpu := (Cpu.build (.ofModel .r3000A)).1

/-- With a budget of one the processor divides once, which takes thirty-five cycles. A budget of
thirty-six after that is worth two more divisions, and a budget of seventy-one all three. -/
theorem run_spends_budget_dividing :
    dividing.elapsed (dividing.run divisions 1) = 35 ∧
      (dividing.run divisions 71).cpu.cycles = 105 ∧
      dividing.run divisions 71 =
        ((dividing.run divisions 1).cpu.run (dividing.run divisions 1).bus 36).following
          (dividing.run divisions 1).notes := by
  obtain ⟨⟨count, -, least, elapsed, -, -⟩, -, -, -, split⟩ :=
    run_spends_budget dividing divisions 1
  obtain ⟨⟨all, ran, leastAll, -, -, -⟩, -⟩ := run_spends_budget dividing divisions 71
  have one : count = 1 := by
    have started := (least 0).mp (by decide)
    have stopped := mt (least 1).mpr (by decide +kernel)
    omega
  have three : all = 3 := by
    have started := (leastAll 2).mp (by decide +kernel)
    have stopped := mt (leastAll 3).mpr (by decide +kernel)
    omega
  subst one three
  have first : dividing.elapsed (dividing.run divisions 1) = 35 := elapsed.trans (by decide +kernel)
  refine ⟨first, ?_, ?_⟩
  · rw [ran]
    decide +kernel
  · rw [← split 36, first]

end Cpu

end R3000
