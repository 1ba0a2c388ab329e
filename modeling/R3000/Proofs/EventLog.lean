import R3000.Proofs.DelaySlots
import R3000.Proofs.FloatInterrupt
import R3000.Proofs.ModeStack
import R3000.Proofs.PreciseExceptions

/-!
# The event log of an exception

A handler finds in the registers why the program was left. A host that records the events of the
processor is told the same by the log, which is written at other places and in parts: what went
wrong with an address is reported where it is found, the exception where its handler is entered, and
the change of the mode last. Both accounts agree whatever trap it was, because a trap holds all that
either of them says.
-/
namespace R3000

/-! ### Events of exceptions -/

namespace Event

def isException : Event → Bool
  | exception _ _ _ => true
  | _ => false

/-- The event tells of an exception, or of the address that led to it. -/
def ofException : Event → Bool
  | exception _ _ _ | addressError _ _ | tlbFault _ _ _ => true
  | _ => false

theorem ofException_of_isRoutine {event : Event} (routine : event.isRoutine = true) :
    event.ofException = false := by
  cases event with
  | exception exception epc vector | addressError address intent
  | tlbFault address space kind => cases routine
  | _ => rfl

theorem isException_of_ofException {event : Event} (other : event.ofException = false) :
    event.isException = false := by
  cases event with
  | exception exception epc vector => cases other
  | _ => rfl

end Event

/-- No event among the notes tells of an exception. -/
def Uneventful (notes : List Note) : Prop := ∀ event ∈ events notes, event.ofException = false

theorem Routine.uneventful {notes : List Note} (routine : Routine notes) : Uneventful notes :=
  fun event member => Event.ofException_of_isRoutine (routine event member)

namespace Core

theorem uneventful_modeChange (before after : Word) : Uneventful (modeChange before after) := by
  simp only [modeChange]
  split
  · exact (Routine.of_silent rfl).uneventful
  · rintro event (_ | ⟨_, ⟨⟩⟩)
    rfl

theorem uneventful_writeSystem (core : Core) (number : Nat) (value : Word) :
    Uneventful (core.writeSystem number value).2 := by
  simp only [writeSystem]
  split
  · simp only [writeStatus]
    split
    · exact (Routine.of_silent rfl).uneventful
    · exact uneventful_modeChange _ _
  · exact (Routine.of_silent rfl).uneventful

theorem uneventful_issueSystem {core next : Core} {random : Fin 64} {word : Word} {op : SystemOp}
    {notes : List Note} {extra : Nat}
    (issued : core.issueSystem random word op = .retire next notes extra) : Uneventful notes := by
  cases issueSystem_completes issued with
  | moveTo rt target => exact uneventful_writeSystem _ _ _
  | restoreMode => exact uneventful_modeChange _ _
  | writeSlot slot byChance | probe key found =>
    rintro event (_ | ⟨_, ⟨⟩⟩)
    rfl
  | _ => exact (Routine.of_silent rfl).uneventful

/-- An instruction that completes reports nothing of an exception. -/
theorem Completes.uneventful {core next : Core} {random : Fin 64} {word : Word} {instr : Instr}
    {notes : List Note} (completes : core.Completes random word instr next notes) :
    Uneventful notes := by
  cases completes with
  | program registers pc sequencer silent => exact (Routine.of_silent silent).uneventful
  | unit update prior usable present sameLine settled routine =>
    exact (routine.append (routine_updateUnit _ _ _)).uneventful
  | system decoded permitted issued => exact uneventful_issueSystem issued

/-! ### What the registers say -/

/-- The exception code and the number of the coprocessor, in their fields of the cause. -/
def shownCause (core : Core) : Word := core.system.cause &&& (Cause.excCode ||| Cause.ce)

def shownCode (core : Core) : Word := (core.system.cause &&& Cause.excCode) >>> 2

/-- The core is at one of the two vectors of refills. -/
def AtRefillVector (core : Core) : Prop := core.pc = 0xbfc00100 ∨ core.pc = 0x80000000

/-- What the log has to say of the failing address before it tells of the exception, as the
registers of the core at the handler have it. There is something to say for the codes of address
errors, and for the three codes of the lookaside buffer. -/
inductive Preamble (after : Core) : List Event → Prop where
  | addressError {address : Word} {intent : Intent}
      (code : after.shownCode = if intent = .write then 5 else 4)
      (vector : ¬ after.AtRefillVector)
      (recorded : after.system.read SystemControl.badAddressReg = address) :
      Preamble after [.addressError address intent]
  | tlbFault {address space : Word} {kind : TlbFaultKind}
      (code : after.shownCode = 1 ∨ after.shownCode = 2 ∨ after.shownCode = 3)
      (refill : kind = .refill ↔ after.AtRefillVector)
      (modified : kind = .modified ↔ after.shownCode = 1)
      (recorded : after.system.read SystemControl.badAddressReg = address)
      (inSpace : keySpace after.system.entryHi = space) :
      Preamble after [.tlbFault address space kind]
  | other (code : after.shownCode = 0 ∨ 6 ≤ after.shownCode) (vector : ¬ after.AtRefillVector) :
      Preamble after []

/-- The log tells of the exception whose handler the core `after` is at, as the registers have it.
First comes what led to the exception, and last that the user mode of the core `before` was left. -/
structure Explains (before after : Core) (log lead : List Event) (exception : Exception) :
    Prop where
  whole : log = lead ++ .exception exception after.system.epc after.pc ::
    (if before.userMode then [.privilegeChange false] else [])
  cause : exception.causeBits = after.shownCause
  preamble : after.Preamble lead

section

variable {core after : Core} {trap : Trap}

/-- The code is small enough for its field. -/
theorem shownCode_enter (same : after.system = (core.enter trap).1.system) :
    after.shownCode = trap.exception.code := by
  have field : after.system.cause &&& Cause.excCode = trap.exception.code <<< 2 := by
    rw [same, cause_enter]
    exact causeAfter_code core trap.exception
  rw [shownCode, field]
  cases trap.exception <;> simp [Exception.code]

theorem shownCause_enter (same : after.system = (core.enter trap).1.system) :
    after.shownCause = trap.exception.causeBits := by
  calc
    after.shownCause = (core.causeAfter trap.exception &&& Cause.excCode) |||
        (core.causeAfter trap.exception &&& Cause.ce) := by
      rw [shownCause, same, cause_enter, BitVec.and_or_distrib_left]
    _ = trap.exception.code <<< 2 ||| trap.exception.unitBits := by
      have code : core.causeAfter trap.exception &&& Cause.excCode = _ := causeAfter_code _ _
      have unit : core.causeAfter trap.exception &&& Cause.ce = _ := causeAfter_unit _ _
      rw [code, unit]
    _ = trap.exception.causeBits := rfl

theorem atRefillVector_enter (same : after.pc = (core.enter trap).1.pc) :
    after.AtRefillVector ↔ trap.isRefill = true := by
  rw [AtRefillVector, same, pc_enter]
  cases trap.isRefill <;> cases hasAny core.system.status Status.bev <;> decide

/-- What a trap notes about an address is what it records of it. -/
theorem preamble_enter (system : after.system = (core.enter trap).1.system)
    (pc : after.pc = (core.enter trap).1.pc) : after.Preamble (events (trap.notes core.pc)) := by
  have code := shownCode_enter system
  have vector := atRefillVector_enter pc
  have recorded {reg : RegNum}
      (kept : reg ∉ [SystemControl.statusReg, SystemControl.causeReg, SystemControl.epcReg]) :
      after.system.read reg = (trap.record core.system).read reg := by
    rw [system, read_enter_record core trap kept]
  cases trap with
  | addressError address intent =>
    apply Preamble.addressError
    case code =>
      rw [code]
      cases intent <;> rfl
    case vector =>
      rw [vector]
      exact Bool.false_ne_true
    case recorded =>
      rw [recorded (by decide)]
      simp [Trap.record, SystemControl.recordAddress, SystemControl.read_put]
  | tlbFault address key intent kind =>
    apply Preamble.tlbFault
    case code =>
      rw [code]
      cases kind <;> cases intent <;> simp [Trap.exception, Exception.code]
    case refill =>
      rw [vector]
      simp [Trap.isRefill]
    case modified =>
      rw [code]
      cases kind <;> cases intent <;> simp [Trap.exception, Exception.code]
    case recorded =>
      rw [recorded (by decide)]
      simp +decide [Trap.record, SystemControl.recordTlbFault, SystemControl.recordAddress,
        SystemControl.read_put]
    case inSpace =>
      rw [SystemControl.entryHi, recorded (by decide)]
      simp +decide [Trap.record, SystemControl.recordTlbFault, SystemControl.read_put]
  | _ =>
    -- The others have a handler at the general vector, and no address to tell of.
    apply Preamble.other
    case code =>
      rw [code]
      simp [Trap.exception, Exception.code]
    case vector =>
      rw [vector]
      exact Bool.false_ne_true

theorem explains_enter (system : after.system = (core.enter trap).1.system)
    (pc : after.pc = (core.enter trap).1.pc) :
    core.Explains after (events (core.enter trap).2) (events (trap.notes core.pc))
      trap.exception := by
  constructor
  case whole =>
    have epc : after.system.epc = core.restartPc := by
      rw [system]
      exact epc_enter core trap
    rw [notes_enter, events_append, events_append, epc, pc, List.append_assoc]
    cases core.userMode <;> rfl
  case cause => exact (shownCause_enter system).symm
  case preamble => exact preamble_enter system pc

end

/-- What explains an exception holds one event of it. -/
theorem Explains.countP {before after : Core} {log lead : List Event} {exception : Exception}
    (explains : before.Explains after log lead exception) :
    log.countP Event.isException = 1 := by
  obtain ⟨whole, -, preamble⟩ := explains
  have ahead : lead.countP Event.isException = 0 := by
    cases preamble <;> rfl
  rw [whole, List.countP_append, ahead]
  cases before.userMode <;> rfl

end Core

namespace Cpu

variable {β : Type} [Bus β]

/-- The step leaves its instruction for the handler of an exception. -/
def EntersException (cpu : Cpu) (bus : β) : Prop :=
  ((cpu.tick 1).perform bus).cpu.core.sequencer.state = .exception

instance (cpu : Cpu) (bus : β) : Decidable (cpu.EntersException bus) :=
  inferInstanceAs (Decidable (_ = _))

section

variable {cpu : Cpu} {bus : β}

theorem entersException_of_trap {trap : Trap} (raised : cpu.stepTrap bus = some trap) :
    cpu.EntersException bus := by
  obtain ⟨core, memory, -, performed⟩ := perform_of_trap raised
  rw [EntersException, performed]
  rfl

/-- Between two instructions no exception is being entered, and an instruction that raises nothing
goes straight on, branches or skips. -/
theorem not_entersException_of_none (between : cpu.core.sequencer.AtBoundary)
    (silent : cpu.stepTrap bus = none) : ¬ cpu.EntersException bus := by
  obtain ⟨word, memory, quiet, performed⟩ := perform_of_none silent
  have begins : (cpu.core.mark cpu.core.fetchDemand).position = cpu.core.position :=
    Core.position_of_forgetOrders (Core.forgetOrders_mark _ _)
  have kept : (cpu.core.mark cpu.core.fetchDemand).sequencer.state ≠ .exception := by
    have same : (cpu.core.mark cpu.core.fetchDemand).sequencer = cpu.core.sequencer :=
      congrArg Prod.snd begins
    rw [same]
    rcases between with none | delay
    · simp [none]
    · simp [delay]
  have gone := congrArg (·.2.state) (position_execute quiet)
  rw [EntersException, performed]
  intro entering
  -- Of the courses of an instruction none leaves this state.
  cases course : Core.course _ (decode word) with
  | branch target =>
    rw [course] at gone
    exact BranchState.noConfusion (gone.symm.trans entering)
  | straight | skip =>
    rw [course] at gone
    exact kept (gone.symm.trans entering)

theorem uneventful_execute_of_none {word : Word} (silent : cpu.executeTrap bus word = none) :
    Uneventful (cpu.execute bus word).notes := by
  rcases execute_of_none silent with ⟨next, notes, extra, issued, executed⟩ |
    ⟨load, value, memory, -, executed⟩ | ⟨store, icache, dcache, memory, -, executed⟩
  · rw [executed]
    exact (Core.issueInstr_completes issued).uneventful
  · rw [executed]
    exact (Routine.of_silent rfl).uneventful
  · rw [executed]
    exact (Routine.of_silent rfl).uneventful

end

/-- The event log explains every exception. Between two instructions, a step records one event of an
exception when it enters one, and none otherwise. The log of a step that enters an exception is made
up of what led to it, of the exception itself, and of the change of the mode if the step began in
user mode. What it says is what the registers and the address of the handler say after the step. A
step that enters no exception records no failing address either. -/
theorem log_explains_exceptions {cpu : Cpu} (between : cpu.core.sequencer.AtBoundary) (bus : β) :
    let after := cpu.step bus
    let log := Sink.record.recorded after.notes
    log.countP Event.isException = (if cpu.EntersException bus then 1 else 0) ∧
      (cpu.EntersException bus → ∃ lead exception,
        cpu.core.Explains after.cpu.core log lead exception) ∧
      (¬ cpu.EntersException bus → ∀ event ∈ log, event.ofException = false) := by
  intro after log
  cases raised : cpu.stepTrap bus with
  | some trap =>
    have enters := entersException_of_trap raised
    obtain ⟨core, memory, same, stepped⟩ := step_of_trap raised
    have entered : after = advance ({ cpu.tick 1 with core }.trap memory trap) := stepped
    have explains : cpu.core.Explains after.cpu.core log (events (trap.notes core.pc))
        trap.exception := by
      -- The search orders have no part in the mode of the program.
      have mode : core.userMode = cpu.core.userMode := by
        rw [Core.userMode, Core.system_of_forgetOrders same]
        rfl
      have found : core.Explains after.cpu.core (events (core.enter trap).2)
          (events (trap.notes core.pc)) trap.exception :=
        Core.explains_enter (by rw [entered]; rfl) (by rw [entered]; rfl)
      have sameLog : log = events (core.enter trap).2 := by
        simp only [log, entered]
        rfl
      rw [sameLog]
      exact ⟨mode ▸ found.whole, found.cause, found.preamble⟩
    rw [if_pos enters]
    exact ⟨explains.countP, fun _ => ⟨_, _, explains⟩, fun none => absurd enters none⟩
  | none =>
    have enters := not_entersException_of_none between raised
    obtain ⟨word, memory, silent, stepped⟩ := step_of_none raised
    have calm : ∀ event ∈ log, event.ofException = false := by
      simp only [log, after, stepped]
      exact uneventful_execute_of_none silent
    have uncounted : log.countP Event.isException = 0 := by
      rw [List.countP_eq_zero]
      intro event member
      simp [Event.isException_of_ofException (calm event member)]
    rw [if_neg enters]
    exact ⟨uncounted, fun some => absurd some enters, fun _ => calm⟩

/-- A program in user mode is at the boot vector, which belongs to the kernel. -/
def trespassing : Cpu :=
  ((Cpu.build (.ofModel .r3000A)).1.operate noMemory (.setSystemReg 12 0x2)).cpu

/-- Its next step records the failing address, the exception, and the change of the mode. -/
theorem log_explains_exceptions_trespassing :
    trespassing.EntersException noMemory ∧
      Sink.record.recorded (trespassing.step noMemory).notes =
        [.addressError 0xbfc00000 .fetch, .exception .addressLoad 0xbfc00000 0x80000080,
          .privilegeChange false] ∧
      (trespassing.step noMemory).cpu.core.system.read SystemControl.badAddressReg =
        0xbfc00000 := by
  have between : trespassing.core.sequencer.AtBoundary := .inl rfl
  have enters : trespassing.EntersException noMemory := by decide +kernel
  obtain ⟨-, told, -⟩ := log_explains_exceptions between noMemory
  obtain ⟨lead, exception, explains⟩ := told enters
  have log : Sink.record.recorded (trespassing.step noMemory).notes =
      [.addressError 0xbfc00000 .fetch, .exception .addressLoad 0xbfc00000 0x80000080,
        .privilegeChange false] := by decide +kernel
  have whole := log.symm.trans explains.whole
  refine ⟨enters, log, ?_⟩
  cases explains.preamble with
  | addressError code vector recorded =>
    cases (List.cons.inj whole).1
    exact recorded
  | tlbFault code refill modified recorded inSpace => cases (List.cons.inj whole).1
  | other code vector => cases (List.cons.inj whole).1

end Cpu

end R3000
