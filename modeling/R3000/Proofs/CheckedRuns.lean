import R3000.BusTrace
import R3000.Proofs.CheckedOperations

/-!
# Runs with checks

A machine is built from any description, valid or not, and is brought from state to state by
operations of its host that passed their checks, with any memories, as long as the clock has not
run out. Every state that is reached so represents a reachable processor: that is what the checks
rest on. It keeps the rows of the searches lists of all slots, and the counter started in the past;
everything else is right on any machine.

So no operation ever fails a check: whatever a program does, and whatever its host and its memory
do, the next operation completes, and does what the processor does.
-/
namespace R3000

namespace Strict.Machine

/-- A machine in a state that a host can bring it into before its clock has run out. To run for a
time is to step again and again, and what a host only looks at stays as it is. -/
inductive Reachable : Machine → Prop where
  | build (config : Config) : Reachable (build config).1
  | operate {β : Type} [Bus β] {machine : Machine} (before : Reachable machine)
      (room : machine.time.toNat < 2 ^ 64 - 35) (bus : β) {operation : Operation}
      {outcome : Outcome β} (done : machine.operate bus operation = .ok outcome) :
      Reachable outcome.machine

theorem time_of {cpu : Cpu} (fits : cpu.cycles < 2 ^ 64) : (of cpu).time.toNat = cpu.cycles :=
  (BitVec.toNat_ofNat cpu.cycles 64).trans (Nat.mod_eq_of_lt fits)

/-- A reachable machine represents a reachable processor, whose time its clock holds. -/
theorem Reachable.represents {machine : Machine} (reached : machine.Reachable) :
    ∃ cpu : Cpu, cpu.Reachable ∧ cpu.cycles < 2 ^ 64 ∧ machine = .of cpu := by
  -- By induction on the run: an operation leads from one represented processor to another.
  induction reached with
  | build config =>
    refine ⟨(Cpu.build config).1, ⟨config, .refl⟩, ?_, ?_⟩
    · exact Nat.two_pow_pos 64
    · rw [build_of]
  | @operate β _ machine before room bus operation outcome done ih =>
    obtain ⟨cpu, reachable, fits, rfl⟩ := ih
    rw [time_of fits] at room
    have spare : cpu.cycles + 35 < 2 ^ 64 := by omega
    have operated := operate_of reachable.complete reachable.started spare bus operation
    obtain ⟨-, later⟩ := cpu.cycles_operate bus operation
    obtain rfl := Except.ok.inj (operated.symm.trans done)
    refine ⟨(cpu.operate bus operation).cpu, ?_, Nat.lt_of_le_of_lt later spare, rfl⟩
    exact reachable.leads (.operate bus trivial .refl)

/-- Every reachable processor is represented by a reachable machine until the clock runs out. -/
theorem reachable_of {cpu : Cpu} (reached : cpu.Reachable) (room : cpu.cycles < 2 ^ 64 - 35) :
    (of cpu).Reachable := by
  obtain ⟨config, run⟩ := reached
  -- By induction on the run; before its last operation there was at least as much time left.
  induction run with
  | refl =>
    have built := Reachable.build config
    rw [build_of] at built
    exact built
  | @operate β _ cpu bus operation fine before ih =>
    obtain ⟨earlier, -⟩ := cpu.cycles_operate bus operation
    have reachable : cpu.Reachable := ⟨config, before⟩
    have spare : cpu.cycles < 2 ^ 64 - 35 := Nat.lt_of_le_of_lt earlier room
    have operated := operate_of reachable.complete reachable.started (by omega) bus operation
    have remaining : (of cpu).time.toNat < 2 ^ 64 - 35 := by
      rw [time_of (by omega)]
      exact spare
    exact .operate (ih spare) remaining bus operated

/-- A machine that has been brought into any state, with at least thirty-five cycles left on its
clock, passes all checks of the next operation. It runs the next instruction and tells its cost, it
executes any word, and all other operations complete as well, with whatever memory. What comes of
them is what comes of them on a processor that the machine represents. -/
theorem passes_checks {machine : Machine} (reached : machine.Reachable)
    (room : machine.time.toNat < 2 ^ 64 - 35) :
    ∃ cpu : Cpu, cpu.Reachable ∧ machine = .of cpu ∧
      ∀ {β : Type} [Bus β] (bus : β),
        machine.step bus = .ok (BitVec.ofNat 64 (cpu.cost bus), .of (cpu.step bus)) ∧
        (∀ word, machine.execute bus word = .ok (.of (cpu.execute bus word))) ∧
        ∀ operation, machine.operate bus operation = .ok (.of (cpu.operate bus operation)) := by
  obtain ⟨cpu, reachable, fits, rfl⟩ := reached.represents
  rw [time_of fits] at room
  have complete := reachable.complete
  have started := reachable.started
  have spare : cpu.cycles + 35 < 2 ^ 64 := by omega
  refine ⟨cpu, reachable, rfl, fun bus => ⟨?_, ?_, ?_⟩⟩
  · exact step_of complete started spare bus
  · intro word
    exact execute_of complete started (Nat.lt_of_succ_lt spare) bus word
  · intro operation
    exact operate_of complete started spare bus operation

/-- A description that is not valid: neither size is a power of two, and the floating point unit
has an interrupt input that does not exist. -/
def oddly : Config :=
  { Config.ofModel .r3000A with
    icacheSize := 3
    dcacheSize := 3000
    fpu := some ⟨FpuAttachment.r3010A, 40⟩ }

/-- A processor of this kind after its host has isolated the caches and swapped them. -/
def isolated : Cpu := ((Cpu.build oddly).1.setSystemReg SystemControl.statusReg 0x20030000).1

/-- It steps, and executes every word, whatever is in its memory. -/
theorem passes_checks_isolated :
    oddly.firstError = some (.cacheSize .instruction 3) ∧
      ∀ bytes : Array Byte,
        (∃ cost outcome, (of isolated).step (CacheRam.mk bytes) = .ok (cost, outcome)) ∧
        ∀ word, ∃ outcome, (of isolated).execute (CacheRam.mk bytes) word = .ok outcome := by
  have led : Cpu.Leads (fun _ => True) (Cpu.build oddly).1
      ((Cpu.build oddly).1.operate (CacheRam.mk #[])
        (.setSystemReg SystemControl.statusReg 0x20030000)).cpu :=
    .operate _ trivial .refl
  have reached : isolated.Reachable := ⟨oddly, led⟩
  have room : isolated.cycles < 2 ^ 64 - 35 := by decide
  have remaining : (of isolated).time.toNat < 2 ^ 64 - 35 := by
    rw [time_of (by omega)]
    exact room
  obtain ⟨cpu, -, -, passes⟩ := passes_checks (reachable_of reached room) remaining
  refine ⟨by decide, fun bytes => ?_⟩
  obtain ⟨stepped, executed, -⟩ := passes (CacheRam.mk bytes)
  exact ⟨⟨_, _, stepped⟩, fun word => ⟨_, executed word⟩⟩

end Strict.Machine

end R3000
