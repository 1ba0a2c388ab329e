import R3000.Proofs.Reachability
import R3000.Proofs.Trapping
import R3000.Ram

/-!
# Delay slots

The course of an instruction is what it decides about the sequencing: to go straight on, to
branch, or to skip the slot of a likely branch that is not taken. Instructions are looked at
once, for the course of each; where a step goes on is then a matter of the course and of
whether the step was in a delay slot.
-/
namespace R3000

inductive Course where
  | straight
  /-- A likely branch is not taken. -/
  | skip
  | branch (target : Word)
  deriving DecidableEq, Repr

/-- An instruction asks for a memory access. -/
def Issue.asks : Issue → Bool
  | .load _ | .store _ => true
  | .retire _ _ _ | .raise _ => false

/-- The course of a conditional branch. -/
def Course.ofBranch (taken likely : Bool) (target : Word) : Course :=
  if taken then .branch target else if likely then .skip else .straight

namespace Core

/-- Where a branch goes, counted from its delay slot. -/
def branchTarget (core : Core) (offset : Word) : Word := core.pc + 4 + offset

/-- The course of a branch on the condition of a coprocessor. -/
def unitCourse (core : Core) (condition : Bool) (branch : UnitBranch) : Course :=
  .ofBranch (condition == branch.sense) branch.likely (core.branchTarget branch.offset)

/-- The course of an instruction, as the state before it decides. A jump to a register goes
where that register points before the link is written. -/
def course (core : Core) : Instr → Course
  | .jump _ target => .branch (core.jumpTarget target)
  | .jumpRegister _ rs => .branch (core.reg rs)
  | .branch condition likely _ offset =>
    .ofBranch (condition.holds core.registers) likely (core.branchTarget offset)
  | .system (.branch branch) => core.unitCourse (core.condition 0) branch
  | .foreign unit (some branch) => core.unitCourse (core.condition unit) branch
  | .float (.branch branch) =>
    match core.fpu with
    | some unit => core.unitCourse unit.condition branch
    | none => .straight
  | _ => .straight

/-- The course does not depend on the mapping hardware. -/
theorem course_of_forgetOrders {core other : Core}
    (same : core.forgetOrders = other.forgetOrders) : core.course = other.course := by
  rw [eq_of_forgetOrders same]
  rfl

/-! ### Targets -/

/-- The target of a branch that is encoded by a word: a place in the region of the slot for the two
jumps, what a register holds for the jumps to a register, and else a distance from the slot. -/
structure TargetOf (core : Core) (word target : Word) : Prop where
  region : Encoding.opcode word = 0x02 ∨ Encoding.opcode word = 0x03 →
    target = (core.pc + 4 &&& 0xf0000000) ||| (word &&& 0x03ffffff) <<< 2
  register : Encoding.opcode word = 0x00 → target = core.reg (word.extractLsb' 21 5).toFin
  relative : Encoding.opcode word ∉ [0x00, 0x02, 0x03] →
    target = core.pc + 4 + (word.extractLsb' 0 16).signExtend 32 <<< 2

section

variable {core : Core} {word target : Word}

theorem eq_of_ofBranch {taken likely : Bool} {place : Word}
    (gone : Course.ofBranch taken likely place = .branch target) : target = place := by
  cases taken with
  | true => exact (Course.branch.inj gone).symm
  | false => cases likely <;> cases gone

theorem eq_of_unitCourse {condition : Bool} {branch : UnitBranch}
    (found : decodeUnitBranch word = some branch)
    (gone : core.unitCourse condition branch = .branch target) :
    target = core.branchTarget (branchOffset word) := by
  have offset : branch.offset = branchOffset word := by
    unfold decodeUnitBranch at found
    split at found <;> cases found <;> rfl
  rw [← offset]
  exact eq_of_ofBranch gone

theorem eq_of_course_special (gone : core.course (decodeSpecial word) = .branch target) :
    target = core.reg (Encoding.rs word) := by
  -- Only the two jumps to registers branch here.
  unfold decodeSpecial at gone
  split at gone <;> cases gone <;> rfl

theorem eq_of_course_signBranch (gone : core.course (decodeSignBranch word) = .branch target) :
    target = core.branchTarget (branchOffset word) := by
  unfold decodeSignBranch at gone
  split at gone
  all_goals first
    | exact eq_of_ofBranch gone
    | cases gone

theorem decodeUnitBranch_of_system {branch : UnitBranch}
    (decoded : decodeSystem word = .branch branch) : decodeUnitBranch word = some branch := by
  -- The words for the lookaside buffer come before the operation field.
  unfold decodeSystem at decoded
  split at decoded
  · cases decoded
  · split at decoded
    · cases decoded
    · split at decoded
      · cases decoded
      · split at decoded
        · cases found : decodeUnitBranch word <;> rw [found] at decoded <;> cases decoded
          rfl
        · split at decoded <;> cases decoded

theorem decodeUnitBranch_of_float {branch : UnitBranch}
    (decoded : decodeFloat word = .branch branch) : decodeUnitBranch word = some branch := by
  unfold decodeFloat at decoded
  split at decoded
  case h_5 =>
    cases found : decodeUnitBranch word <;> rw [found] at decoded <;> cases decoded
    rfl
  case h_6 =>
    cases found : decodeFloatOp word <;> rw [found] at decoded <;> cases decoded
  all_goals cases decoded

theorem eq_of_course_system (gone : core.course (.system (decodeSystem word)) = .branch target) :
    target = core.branchTarget (branchOffset word) := by
  cases decoded : decodeSystem word with
  | branch branch =>
    have found := decodeUnitBranch_of_system decoded
    rw [decoded] at gone
    exact eq_of_unitCourse found gone
  | _ =>
    rw [decoded] at gone
    cases gone

theorem eq_of_course_float (gone : core.course (.float (decodeFloat word)) = .branch target) :
    target = core.branchTarget (branchOffset word) := by
  cases decoded : decodeFloat word with
  | branch branch =>
    have found := decodeUnitBranch_of_float decoded
    rw [decoded] at gone
    simp only [course] at gone
    split at gone
    · exact eq_of_unitCourse found gone
    · cases gone
  | _ =>
    rw [decoded] at gone
    cases gone

theorem eq_of_course_foreign (gone : core.course (decodeForeign word) = .branch target) :
    target = core.branchTarget (branchOffset word) := by
  unfold decodeForeign at gone
  split at gone
  · cases found : decodeUnitBranch word with
    | none =>
      rw [found] at gone
      cases gone
    | some branch =>
      rw [found] at gone
      exact eq_of_unitCourse found gone
  · cases gone

theorem setWidth_imm26 (word : Word) :
    (Encoding.imm26 word).setWidth 32 = word &&& 0x03ffffff := by
  apply BitVec.eq_of_toNat_eq
  have cut : word.toNat &&& 0x03ffffff = word.toNat % 2 ^ 26 :=
    Nat.and_two_pow_sub_one_eq_mod word.toNat 26
  have low : word.toNat % 2 ^ 26 < 2 ^ 32 := by omega
  simp only [Encoding.imm26, BitVec.toNat_setWidth, BitVec.extractLsb'_toNat, BitVec.toNat_and,
    Nat.shiftRight_zero]
  rw [Nat.mod_eq_of_lt low]
  exact cut.symm

theorem targetOf_jump (code : Encoding.opcode word = 0x02 ∨ Encoding.opcode word = 0x03) :
    core.TargetOf word (core.jumpTarget (Encoding.imm26 word)) where
  region _ := by rw [jumpTarget, setWidth_imm26]
  register special := by rw [special] at code; simp at code
  relative other := by
    have member : Encoding.opcode word ∈ [0x00, 0x02, 0x03] := by simpa using .inr code
    exact absurd member other

theorem targetOf_jumpRegister (code : Encoding.opcode word = 0x00) :
    core.TargetOf word (core.reg (Encoding.rs word)) where
  region jump := by rw [code] at jump; simp at jump
  register _ := rfl
  relative other := by
    have member : Encoding.opcode word ∈ [0x00, 0x02, 0x03] := by simp [code]
    exact absurd member other

theorem targetOf_branch (code : Encoding.opcode word ∉ [0x00, 0x02, 0x03]) :
    core.TargetOf word (core.branchTarget (branchOffset word)) where
  region jump := by rcases jump with jump | jump <;> simp [jump] at code
  register special := by simp [special] at code
  relative _ := rfl

/-- A branch that is taken goes where its word says. -/
theorem targetOf_course (gone : core.course (decode word) = .branch target) :
    core.TargetOf word target := by
  -- Codes with a decoder of their own, the two jumps to a region, and the conditional branches.
  unfold decode at gone
  split at gone
  case h_1 code =>
    rw [eq_of_course_special gone]
    exact targetOf_jumpRegister code
  case h_2 code =>
    rw [eq_of_course_signBranch gone]
    exact targetOf_branch (by simp [code])
  case h_3 code =>
    cases gone
    exact targetOf_jump (.inl code)
  case h_4 code =>
    cases gone
    exact targetOf_jump (.inr code)
  case h_17 code =>
    rw [eq_of_course_system gone]
    exact targetOf_branch (by simp [code])
  case h_18 code =>
    rw [eq_of_course_float gone]
    exact targetOf_branch (by simp [code])
  case h_19 code | h_20 code =>
    rw [eq_of_course_foreign gone]
    exact targetOf_branch (by simp [code])
  case h_5 code | h_6 code | h_7 code | h_8 code | h_21 code | h_22 code | h_23 code | h_24 code =>
    rw [eq_of_ofBranch gone]
    exact targetOf_branch (by simp [code])
  -- The others are no branches.
  all_goals cases gone

end

/-! ### What an instruction does to the sequencing -/

/-- Where the core is, and what it remembers of a branch. -/
def position (core : Core) : Word × Sequencer := (core.pc, core.sequencer)

theorem position_of_forgetOrders {core other : Core}
    (same : core.forgetOrders = other.forgetOrders) : core.position = other.position := by
  rw [eq_of_forgetOrders same]
  rfl

/-- The position in which an instruction leaves the core before the step goes on. -/
def positionAfter (core : Core) : Course → Word × Sequencer
  | .straight => (core.pc, core.sequencer)
  | .skip => (core.pc + 4, core.sequencer)
  | .branch target => (core.pc, ⟨.branch, target⟩)

theorem positionAfter_of_forgetOrders {core other : Core}
    (same : core.forgetOrders = other.forgetOrders) :
    core.positionAfter = other.positionAfter := by
  rw [eq_of_forgetOrders same]
  funext course
  cases course <;> rfl

section

variable {core next : Core} {random : Fin 64} {word : Word} {instr : Instr}
  {notes : List Note} {extra : Nat}

theorem position_branchIf (core : Core) (taken likely : Bool) (offset : Word) :
    (core.branchIf taken likely offset).position =
      core.positionAfter (.ofBranch taken likely (core.branchTarget offset)) := by
  cases taken <;> cases likely <;> rfl

@[simp] theorem position_writeSystem (core : Core) (number : Nat) (value : Word) :
    (core.writeSystem number value).1.position = core.position := by
  simp only [writeSystem]
  split <;> rfl

@[simp] theorem position_updateUnit (core : Core) (unit : FloatUnit) (update : LineUpdate) :
    (core.updateUnit unit update).1.position = core.position := by
  cases update with
  | none => rfl
  | some level =>
    simp only [updateUnit, setInput]
    split
    · rfl
    · split <;> rfl

@[simp] theorem position_receive (core : Core) (destination : Destination) {width : Width}
    (value : BitVec width.bits) : (core.receive destination value).position = core.position := by
  cases destination <;> rfl

theorem position_issueSystem {op : SystemOp}
    (done : core.issueSystem random word op = .retire next notes extra) :
    next.position = core.positionAfter (core.course (.system op)) := by
  cases issueSystem_completes done with
  | moveTo rt target => exact position_writeSystem _ _ _
  | branch branch => exact position_branchIf _ _ _ _
  | _ => rfl

theorem position_issueFloat {float : FloatInstr}
    (done : core.issueFloat word float = .retire next notes extra) :
    next.position = core.positionAfter (core.course (.float float)) := by
  simp only [issueFloat] at done
  split at done
  · cases done
  · split at done
    next unit present =>
      cases float with
      | moveFrom rt fs | moveTo rt fs => cases done; rfl
      | controlFrom rt fs =>
        simp only [issueFloatOn] at done
        split at done <;> cases done <;> rfl
      | controlTo rt fs =>
        simp only [issueFloatOn] at done
        split at done
        · cases done
          exact position_updateUnit _ _ _
        · cases done
          rfl
      | branch branch =>
        cases done
        simp only [course, present]
        exact position_branchIf _ _ _ _
      | load ft base offset | store ft base offset => cases done
      | operate op => cases done; exact position_updateUnit _ _ _
      | unimplemented =>
        cases done
        exact position_updateUnit core unit.unimplemented (some true)
    next absent =>
      -- Without a unit not even a branch does anything.
      cases done
      cases float with
      | branch branch => simp only [course, absent]; rfl
      | _ => rfl

theorem position_issueForeign {unit : Fin 4} {branch : Option UnitBranch}
    (done : core.issueForeign word unit branch = .retire next notes extra) :
    next.position = core.positionAfter (core.course (.foreign unit branch)) := by
  simp only [issueForeign] at done
  split at done
  · cases done
  · split at done
    · cases done
      exact position_branchIf _ _ _ _
    · cases done

/-- An instruction that completes has gone its course. -/
theorem position_issueInstr
    (done : core.issueInstr random word instr = .retire next notes extra) :
    next.position = core.positionAfter (core.course instr) := by
  cases instr with
  | checked op rd rs rt =>
    simp only [issueInstr] at done
    split at done <;> cases done
    rfl
  | checkedImmediate rt rs operand =>
    simp only [issueInstr] at done
    split at done <;> cases done
    rfl
  | divide signed rs rt =>
    simp only [issueInstr, issueDivide] at done
    split at done <;> cases done <;> rfl
  | jump link target =>
    cases done
    split <;> rfl
  | jumpRegister link rs =>
    cases done
    cases link <;> rfl
  | branch condition likely link offset =>
    cases done
    -- Writing the link does not touch the sequencing.
    split <;> exact position_branchIf _ _ _ _
  | load op rt base offset | store op rt base offset => cases done
  | syscall | breakpoint | reserved => cases done
  | system op => exact position_issueSystem done
  | float float => exact position_issueFloat done
  | foreign unit branch => exact position_issueForeign done
  | _ =>
    cases done
    rfl

/-- An instruction that asks for a memory access is no branch. -/
theorem course_of_asks (asks : (core.issueInstr random word instr).asks = true) :
    core.course instr = .straight := by
  cases instr with
  | jump link target | jumpRegister link rs | branch condition likely link offset => cases asks
  | system op =>
    cases op with
    | branch branch =>
      simp only [issueInstr, issueSystem] at asks
      split at asks <;> cases asks
    | _ => rfl
  | float float =>
    cases float with
    | branch branch =>
      simp only [issueInstr, issueFloat] at asks
      split at asks
      · cases asks
      · split at asks <;> cases asks
    | _ => rfl
  | foreign unit branch =>
    cases branch with
    | some branch =>
      simp only [issueInstr, issueForeign] at asks
      split at asks <;> cases asks
    | none => rfl
  | _ => rfl

end

/-! ### Where a step goes on -/

/-- The core `after` stands where a step from `before` goes on, whose instruction has gone a
course. A branch leaves its target for the step in its slot; the others take up the branch
that the slot belongs to, if there is one. -/
structure GoesOn (before : Core) (course : Course) (after : Core) : Prop where
  branches : ∀ target, course = .branch target →
    after.pc = before.pc + 4 ∧ after.sequencer = ⟨.delay, target⟩
  leavesSlot : (∀ target, course ≠ .branch target) → before.sequencer.state = .delay →
    after.pc = before.sequencer.target ∧ after.sequencer.state = .none
  skipsSlot : course = .skip → before.sequencer.state = .none →
    after.pc = before.pc + 8 ∧ after.sequencer.state = .none
  goesStraight : course = .straight → before.sequencer.state = .none →
    after.pc = before.pc + 4 ∧ after.sequencer.state = .none

/-- Once an instruction has gone its course, going on ends where the course says. -/
theorem goesOn_advance {before after : Core} {course : Course}
    (gone : after.position = before.positionAfter course) :
    before.GoesOn course after.advance := by
  have pc : after.advance.pc = after.sequencer.nextPc after.pc := rfl
  have sequencer : after.advance.sequencer = after.sequencer.next := rfl
  cases course with
  | branch target =>
    obtain ⟨stays, remembered⟩ := Prod.mk.inj gone
    rw [remembered] at pc sequencer
    constructor
    case branches =>
      rintro other ⟨⟩
      rw [pc, sequencer, stays]
      exact ⟨rfl, rfl⟩
    case leavesSlot =>
      intro noBranch
      exact absurd rfl (noBranch target)
    case skipsSlot => rintro ⟨⟩
    case goesStraight => rintro ⟨⟩
  | skip =>
    obtain ⟨moved, kept⟩ := Prod.mk.inj gone
    rw [moved, kept] at pc
    rw [kept] at sequencer
    constructor
    case branches => rintro target ⟨⟩
    case leavesSlot =>
      intro _ delayed
      simp [pc, sequencer, Sequencer.nextPc, Sequencer.next, delayed]
    case skipsSlot =>
      intro _ straight
      -- Four bytes for the slot that is skipped, and four for the branch itself.
      simp [pc, sequencer, Sequencer.nextPc, Sequencer.next, straight, BitVec.add_assoc]
    case goesStraight => rintro ⟨⟩
  | straight =>
    obtain ⟨stays, kept⟩ := Prod.mk.inj gone
    rw [stays, kept] at pc
    rw [kept] at sequencer
    constructor
    case branches => rintro target ⟨⟩
    case leavesSlot =>
      intro _ delayed
      simp [pc, sequencer, Sequencer.nextPc, Sequencer.next, delayed]
    case skipsSlot => rintro ⟨⟩
    case goesStraight =>
      intro _ straight
      simp [pc, sequencer, Sequencer.nextPc, Sequencer.next, straight]

/-- A core is in a delay slot next exactly when it has just branched. -/
theorem delay_advance_iff {before after : Core} {course : Course}
    (boundary : before.sequencer.AtBoundary)
    (gone : after.position = before.positionAfter course) :
    after.advance.sequencer.state = .delay ↔ ∃ target, course = .branch target := by
  constructor
  · intro delayed
    cases course with
    | branch target => exact ⟨target, rfl⟩
    | skip | straight =>
      -- The sequencer is as before, and between two instructions no branch has been taken.
      have kept : after.sequencer = before.sequencer := congrArg Prod.snd gone
      rcases boundary with none | delay
      · simp [advance, Sequencer.next, kept, none] at delayed
      · simp [advance, Sequencer.next, kept, delay] at delayed
  · rintro ⟨target, rfl⟩
    have remembered := ((goesOn_advance gone).branches target rfl).2
    rw [remembered]

end Core

namespace Cpu

section

variable {β : Type} [Bus β] {cpu : Cpu} {bus : β} {word : Word}

/-- The step on `bus` executes a word: it fetches the word and enters no exception. -/
def Executes (cpu : Cpu) (bus : β) (word : Word) : Prop :=
  (cpu.fetch bus).1 = .ok word ∧ entered (cpu.step bus).notes = []

theorem position_execute (silent : cpu.executeTrap bus word = none) :
    (cpu.execute bus word).cpu.core.position =
      cpu.core.positionAfter (cpu.core.course (decode word)) := by
  rcases core_execute_of_none silent with ⟨next, notes, extra, issued, executed⟩ |
    ⟨load, value, issued, executed⟩ | ⟨store, issued, executed⟩
  · rw [executed]
    exact Core.position_issueInstr issued
  · have straight : cpu.core.course (decode word) = .straight :=
      Core.course_of_asks (congrArg Issue.asks issued)
    rw [executed, straight, Core.position_receive]
    exact Core.position_of_forgetOrders (Core.forgetOrders_mark _ _)
  · have straight : cpu.core.course (decode word) = .straight :=
      Core.course_of_asks (congrArg Issue.asks issued)
    rw [executed, straight]
    exact Core.position_of_forgetOrders (Core.forgetOrders_mark _ _)

/-- Counting the first cycle of a step does not change what it fetches. -/
theorem fetch_tick (cpu : Cpu) (bus : β) : ((cpu.tick 1).fetch bus).1 = (cpu.fetch bus).1 := by
  have sameCore : (cpu.tick 1).core = cpu.core := rfl
  rw [fetch_eq, fetch_eq, sameCore]
  cases cpu.core.place cpu.core.fetchDemand with
  | error trap => rfl
  | ok place =>
    simp only
    split <;> rfl

/-- A step that raises nothing executes a word. -/
theorem executes_of_none (silent : cpu.stepTrap bus = none) : ∃ word, cpu.Executes bus word := by
  have quiet : entered (cpu.step bus).notes = [] := by
    rw [entered_step, silent]
    rfl
  rcases cpu.step_cases bus with ⟨trap, fetched, memory, -, raised, -⟩ |
    ⟨word, fetched, memory, -, -, raised, -⟩ | ⟨word, fetched, memory, fetch, -, -, -⟩
  · cases raised.symm.trans silent
  · cases raised.symm.trans silent
  · refine ⟨word, ?_, quiet⟩
    rw [← fetch_tick, fetch]

/-- A step that executes a word does so from its own core, in which the fetch has moved a search
order at most. -/
theorem Executes.begins (executes : cpu.Executes bus word) :
    ∃ (fetched : Cpu) (memory : β), fetched.core.forgetOrders = cpu.core.forgetOrders ∧
      fetched.executeTrap memory word = none ∧
      cpu.step bus = advance (fetched.execute memory word) := by
  obtain ⟨fetches, quiet⟩ := executes
  rw [← fetch_tick] at fetches
  rw [entered_step] at quiet
  have silent : cpu.stepTrap bus = none := by simpa using quiet
  rcases cpu.step_cases bus with ⟨trap, fetched, memory, -, raised, -⟩ |
    ⟨other, fetched, memory, -, -, raised, -⟩ | ⟨other, fetched, memory, fetch, -, same, stepped⟩
  · cases raised.symm.trans silent
  · cases raised.symm.trans silent
  · rw [fetch] at fetches
    cases fetches
    refine ⟨fetched, memory, ?_, same.symm.trans silent, stepped⟩
    rw [fetch_of_ok fetch]
    exact Core.forgetOrders_mark _ _

/-- A step that executes a word goes on from the position that the course of the word leads to. -/
theorem position_step (executes : cpu.Executes bus word) :
    ∃ core : Core, (cpu.step bus).cpu.core = core.advance ∧
      core.position = cpu.core.positionAfter (cpu.core.course (decode word)) := by
  obtain ⟨fetched, memory, marked, silent, stepped⟩ := executes.begins
  -- No course depends on the search orders.
  refine ⟨(fetched.execute memory word).cpu.core, by rw [stepped]; rfl, ?_⟩
  rw [position_execute silent, Core.course_of_forgetOrders marked,
    Core.positionAfter_of_forgetOrders marked]

/-- A step that enters an exception starts its handler in no delay slot. -/
theorem state_of_trap {trap : Trap} (raised : cpu.stepTrap bus = some trap) :
    (cpu.step bus).cpu.core.sequencer.state = .none := by
  obtain ⟨core, memory, -, stepped⟩ := step_of_trap raised
  rw [stepped]
  rfl

/-- A step ends in front of a delay slot exactly when it has executed a branch that is taken. -/
theorem state_step_iff (boundary : cpu.core.sequencer.AtBoundary) :
    (cpu.step bus).cpu.core.sequencer.state = .delay ↔
      ∃ word target, cpu.Executes bus word ∧ cpu.core.course (decode word) = .branch target := by
  constructor
  · intro delayed
    cases raised : cpu.stepTrap bus with
    | some trap =>
      have none := state_of_trap raised
      rw [none] at delayed
      cases delayed
    | none =>
      obtain ⟨word, executes⟩ := executes_of_none raised
      obtain ⟨core, stepped, gone⟩ := position_step executes
      rw [stepped] at delayed
      obtain ⟨target, taken⟩ := (Core.delay_advance_iff boundary gone).mp delayed
      exact ⟨word, target, executes, taken⟩
  · rintro ⟨word, target, executes, taken⟩
    obtain ⟨core, stepped, gone⟩ := position_step executes
    rw [stepped]
    exact (Core.delay_advance_iff boundary gone).mpr ⟨target, taken⟩

theorem goesOn_step (executes : cpu.Executes bus word) :
    cpu.core.GoesOn (cpu.core.course (decode word)) (cpu.step bus).cpu.core := by
  obtain ⟨core, stepped, gone⟩ := position_step executes
  rw [stepped]
  exact Core.goesOn_advance gone

end

/-- Steps go through delay slots as they should. On a run of steps from a state between two
instructions, every state is between two instructions, and in a delay slot exactly after a step
that has executed a taken branch just before it. A step that executes a word goes on where the
course of the word says, and a branch that is taken aims at the target that its word encodes. So
a taken branch reaches its target after one further instruction, unless that one raises an
exception or is a taken branch as well. -/
theorem step_sequenced {start cpu : Cpu} (boundary : start.core.sequencer.AtBoundary)
    (run : Leads (· = .step) start cpu) {β : Type} [Bus β] (bus : β) :
    let after := (cpu.step bus).cpu
    cpu.core.sequencer.AtBoundary ∧ after.core.sequencer.AtBoundary ∧
      (after.core.sequencer.state = .delay ↔ ∃ word target, cpu.Executes bus word ∧
        cpu.core.course (decode word) = .branch target ∧ cpu.core.pc = after.core.pc - 4) ∧
      (∀ word, cpu.Executes bus word →
        cpu.core.GoesOn (cpu.core.course (decode word)) after.core) ∧
      (∀ word target, cpu.core.course (decode word) = .branch target →
        cpu.core.TargetOf word target) ∧
      ∀ word target, cpu.Executes bus word → cpu.core.course (decode word) = .branch target →
        ∀ {γ : Type} [Bus γ] (memory : γ) (slot : Word), after.Executes memory slot →
          (∀ other, after.core.course (decode slot) ≠ .branch other) →
            (after.step memory).cpu.core.pc = target ∧
              (after.step memory).cpu.core.sequencer.state = .none := by
  intro after
  -- By induction on the run: every step ends between two instructions.
  have between : cpu.core.sequencer.AtBoundary := by
    apply run.keeps (P := fun cpu => cpu.core.sequencer.AtBoundary)
    · rintro β _ cpu bus operation rfl before
      exact operate_atBoundary cpu bus .step rfl before
    · exact boundary
  refine ⟨between, Sequencer.next_atBoundary _, ?_, fun word executes => goesOn_step executes,
    fun word target gone => Core.targetOf_course gone, ?_⟩
  · rw [state_step_iff between]
    constructor
    · rintro ⟨word, target, executes, taken⟩
      obtain ⟨forward, -⟩ := (goesOn_step executes).branches target taken
      refine ⟨word, target, executes, taken, ?_⟩
      rw [forward]
      exact (BitVec.add_sub_cancel _ _).symm
    · rintro ⟨word, target, executes, taken, -⟩
      exact ⟨word, target, executes, taken⟩
  · intro word target executes taken γ _ memory slot next straight
    obtain ⟨-, remembered⟩ := (goesOn_step executes).branches target taken
    have delayed : after.core.sequencer.state = .delay := by rw [remembered]
    -- The slot instruction branches nowhere, so it takes up the branch that is remembered.
    obtain ⟨arrived, left⟩ := (goesOn_step next).leavesSlot straight delayed
    refine ⟨?_, left⟩
    rw [arrived, remembered]

/-- A branch at the boot vector over a jump to register 8, which also links to that register. -/
def jumpInSlot : Ram where
  base := 0x1fc00000
  order := .big
  faults := []
  data := #[0x10, 0x00, 0x00, 0x01, 0x01, 0x00, 0x40, 0x09, 0x00, 0x00, 0x00, 0x00]

def beforeBranch : Cpu := (Cpu.build (.ofModel .r3000A)).1.setGpr 8 0xbfc00100

def beforeJump : Cpu := (beforeBranch.operate jumpInSlot .step).cpu

def afterJump : Cpu := (beforeJump.step jumpInSlot).cpu

/-- The jump in the slot is taken, to the address that the register held before the link. -/
theorem step_sequenced_jump_in_slot :
    beforeJump.core.sequencer.state = .delay ∧ afterJump.gpr 8 = 0xbfc0000c ∧
      (afterJump.step jumpInSlot).cpu.core.pc = 0xbfc00100 := by
  have boundary : beforeBranch.core.sequencer.AtBoundary := .inl rfl
  have run : Leads (· = .step) beforeBranch beforeJump := .operate jumpInSlot rfl .refl
  have jumps : beforeJump.Executes jumpInSlot 0x01004009 := ⟨rfl, by decide +kernel⟩
  have taken : beforeJump.core.course (decode 0x01004009) = .branch 0xbfc00100 := by
    decide +kernel
  have follows : afterJump.Executes jumpInSlot 0 := ⟨rfl, by decide +kernel⟩
  have straight : afterJump.core.course (decode 0) = .straight := by decide +kernel
  have noBranch : ∀ other, afterJump.core.course (decode 0) ≠ .branch other := by
    intro other
    rw [straight]
    exact Course.noConfusion
  obtain ⟨-, -, -, -, -, arrives⟩ := step_sequenced boundary run jumpInSlot
  obtain ⟨arrived, -⟩ := arrives _ _ jumps taken jumpInSlot 0 follows noBranch
  exact ⟨by decide +kernel, by decide +kernel, arrived⟩

end Cpu

end R3000
