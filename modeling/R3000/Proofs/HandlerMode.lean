import R3000.Proofs.PreciseExceptions
import R3000.Proofs.Regime
import R3000.Proofs.Restarting

/-!
# Handlers run undisturbed

Entering a handler puts kernel mode with interrupts off on the mode stack. Only three things change
the present pair of modes after that: a return, a write to the status register, and a reset. Until
one of them happens no interrupt is taken and no access is refused for want of privilege, however
many exceptions are entered meanwhile and whatever the interrupt inputs do.
-/
namespace R3000

/-- The deed is no reset and no return from a handler, and does not write the status register. -/
structure Deed.StaysInside (deed : Deed) : Prop where
  running : deed.operation ≠ .reset
  inside : deed.instr? ≠ some (.system .restoreMode)
  unwritten : ∀ number, deed.Writes number → number % 32 ≠ 12

theorem Regime.After.keepsPresent {before after : Regime} {taking : Bool} {deed : Deed}
    {reports : List Bool} (changed : before.After taking deed after reports)
    (stays : deed.StaysInside) (clear : before.status &&& 0x3 = 0) : after.status &&& 0x3 = 0 := by
  cases changed with
  | spared => exact clear
  | entered pending => exact Status.push_present _
  | drove wired driver others => exact clear
  | wroteStatus writes value => exact absurd rfl (stays.unwritten _ writes)
  | wroteAlias writes beyond same value => exact absurd same (stays.unwritten _ writes)
  | wroteCause writes same value => exact clear
  | restored executed => exact absurd executed stays.inside
  | reset asked booting => exact absurd asked stays.running

/-! ### Interrupts -/

/-- No other trap has the exception of interrupts. -/
theorem Trap.eq_interrupt {trap : Trap} (same : trap.exception = .interrupt) :
    trap = .interrupt := by
  cases trap with
  | interrupt => rfl
  | addressError address intent => cases intent <;> cases same
  | tlbFault address key intent kind => cases kind <;> cases intent <;> cases same
  | _ => cases same

namespace Cpu

variable {β : Type} [Bus β]

/-- A step takes an interrupt exactly when one is due once the fetch has succeeded. -/
theorem stepTrap_eq_interrupt_iff (cpu : Cpu) (bus : β) :
    cpu.stepTrap bus = some .interrupt ↔ cpu.interruptDue = true ∧
      ∃ word fetched memory, (cpu.tick 1).fetch bus = (.ok word, fetched, memory) := by
  constructor
  · intro raised
    rcases stepTrap_cases raised with ⟨-, due, fetch⟩ | own | fetching | data |
      ⟨core, demand, -, unplaced⟩
    · exact ⟨due, fetch⟩
    · cases own
    · cases fetching
    · cases data
    · rcases Core.place_error unplaced with ⟨same, -⟩ | ⟨key, kind, same⟩ <;> cases same
  · rintro ⟨due, word, fetched, memory, fetch⟩
    simp only [stepTrap, fetch, due, if_true]

theorem interrupt_mem_entered_iff (cpu : Cpu) (bus : β) :
    .interrupt ∈ entered (cpu.step bus).notes ↔ cpu.stepTrap bus = some .interrupt := by
  rw [entered_step]
  cases raised : cpu.stepTrap bus with
  | none => simp
  | some trap =>
    simp only [Option.toList_some, List.map_cons, List.map_nil, List.mem_singleton,
      Option.some.injEq]
    constructor
    · intro same
      exact Trap.eq_interrupt same.symm
    · rintro rfl
      rfl

/-- What it takes for an interrupt to be due, in the state that the fetch has left. -/
theorem interruptDue_iff_of_fetch {cpu fetched : Cpu} {bus memory : β} {word : Word}
    (fetch : (cpu.tick 1).fetch bus = (.ok word, fetched, memory)) :
    cpu.interruptDue = true ↔ hasAny fetched.core.system.status 0x1 = true ∧
      fetched.core.system.cause &&& fetched.core.system.status &&& 0xff00 ≠ 0 := by
  rw [← interruptPending_of_fetch fetch]
  simp only [SystemControl.interruptPending, interruptPending, Status.interruptsEnabled, hasAny,
    Bool.and_eq_true, bne_iff_ne]
  rfl

/-- The handler of interrupts is at its first instruction, and the word that was fetched has had no
effect: nothing has changed since but what entering a handler writes. -/
structure InPlaceOf (fetched : Cpu) (memory : β) (after : Outcome β) : Prop where
  restartable : fetched.Restartable .interrupt after.cpu
  handler : fetched.core.HandlerOf .interrupt after.cpu.core
  memory : after.bus = memory

/-- An interrupt is entered in place of the fetched instruction. -/
theorem inPlaceOf_of_interrupt {cpu fetched : Cpu} {bus memory : β} {word : Word}
    (fetch : (cpu.tick 1).fetch bus = (.ok word, fetched, memory))
    (due : cpu.interruptDue = true) : fetched.InPlaceOf memory (cpu.step bus) := by
  have restartable : fetched.Restartable .interrupt (fetched.trap memory .interrupt).cpu :=
    @restartable_of_marked β fetched memory .interrupt (.inl rfl)
  rw [step_of_interrupt fetch due]
  constructor
  -- Going on changes only the sequencing, which is not compared.
  case restartable => exact { restartable with }
  case handler => exact fetched.core.handlerOf_enter .interrupt
  case memory => rfl

end Cpu

/-! ### Privilege -/

theorem Trap.eq_addressError {trap : Trap}
    (same : trap.exception = .addressLoad ∨ trap.exception = .addressStore) :
    ∃ address intent, trap = .addressError address intent := by
  cases trap with
  | addressError address intent => exact ⟨address, intent, rfl⟩
  | tlbFault address key intent kind =>
    cases kind <;> cases intent <;> rcases same with load | store <;>
      first | cases load | cases store
  | _ => rcases same with load | store <;> first | cases load | cases store

namespace Core

/-- No address is refused to the kernel. -/
theorem route_kernel_ne_refused (address : Word) : route false address ≠ .refused := by
  simp only [route, Bool.false_eq_true, if_false]
  split
  · exact Route.noConfusion
  · split <;> exact Route.noConfusion

/-- For the kernel, an address error is one of alignment. -/
theorem misaligned_of_place {core : Core} {demand : Demand} {address : Word} {intent : Intent}
    (kernel : core.userMode = false)
    (failed : core.place demand = .error (.addressError address intent)) :
    address &&& 0x3 ≠ 0 := by
  rcases place_error failed with ⟨same, misaligned | refused⟩ | ⟨key, kind, same⟩
  · cases same
    intro aligned
    have within : (0x3 : Word) &&& demand.width.alignMask = demand.width.alignMask := by
      cases demand.width <;> decide
    have clear : demand.address &&& demand.width.alignMask = 0 &&& demand.width.alignMask := by
      refine and_of_subset ?_ within
      rw [aligned]
      rfl
    simp [Demand.misaligned, Width.aligned, hasAny, clear] at misaligned
  · rw [kernel] at refused
    exact absurd refused (route_kernel_ne_refused _)
  · cases same

theorem badAddress_enter (core : Core) (address : Word) (intent : Intent) :
    (core.enter (.addressError address intent)).1.system.read SystemControl.badAddressReg =
      address := by
  simp +decide [enter, Trap.record, SystemControl.recordAddress, SystemControl.pushMode,
    SystemControl.putStatus, SystemControl.putCause, SystemControl.read_put]

end Core

namespace Cpu

/-- An address error in kernel mode shows an address that is not aligned. -/
theorem misaligned_of_entered {β : Type} [Bus β] {cpu : Cpu} {bus : β}
    (kernel : cpu.core.userMode = false)
    (failed : .addressLoad ∈ entered (cpu.step bus).notes ∨
      .addressStore ∈ entered (cpu.step bus).notes) :
    (cpu.step bus).cpu.core.system.read SystemControl.badAddressReg &&& 0x3 ≠ 0 := by
  have trapped : entered (cpu.step bus).notes ≠ [] := by
    rcases failed with load | store
    · exact List.ne_nil_of_mem load
    · exact List.ne_nil_of_mem store
  obtain ⟨trap, raised⟩ := stepTrap_of_entered trapped
  simp only [entered_step, raised, Option.toList_some, List.map_cons, List.map_nil,
    List.mem_singleton, @eq_comm _ Exception.addressLoad, @eq_comm _ Exception.addressStore]
    at failed
  obtain ⟨address, intent, rfl⟩ := Trap.eq_addressError failed
  have reason : address &&& 0x3 ≠ 0 := by
    rcases stepTrap_cases raised with ⟨same, -⟩ | own | fetching | data |
      ⟨core, demand, same, unplaced⟩
    · cases same
    · cases own
    · cases intent <;> cases fetching
    · cases intent <;> cases data
    · have mode : core.userMode = cpu.core.userMode :=
        congrArg (fun system : SystemControl => Status.userMode system.status)
          (Core.system_of_forgetOrders same)
      exact Core.misaligned_of_place (mode.trans kernel) unplaced
  obtain ⟨core, memory, -, stepped⟩ := step_of_trap raised
  have shown := core.badAddress_enter address intent
  rw [stepped]
  change (core.enter (.addressError address intent)).1.system.read _ &&& 0x3 ≠ 0
  rw [shown]
  exact reason

/-! ### In a handler -/

/-- The processor is in a handler: a step has entered an exception, and nothing since then has led
out of the mode in which handlers begin. -/
inductive InHandler : Cpu → Prop where
  | entered {β : Type} [Bus β] {cpu : Cpu} {bus : β}
      (trapped : entered (cpu.step bus).notes ≠ []) : InHandler (cpu.step bus).cpu
  | later {β : Type} [Bus β] {cpu : Cpu} {bus : β} {operation : Operation}
      (within : InHandler cpu) (stays : (cpu.deed bus operation).StaysInside) :
      InHandler (cpu.operate bus operation).cpu

/-- All along a handler the mode is that of the kernel, with interrupts off. -/
theorem InHandler.present {cpu : Cpu} (inside : cpu.InHandler) :
    cpu.core.system.status &&& 0x3 = 0 := by
  -- The handler begins so, by what is pushed; exceptions that are entered later push the same.
  induction inside with
  | @entered β _ cpu bus trapped =>
    obtain ⟨trap, raised⟩ := stepTrap_of_entered trapped
    obtain ⟨core, memory, same, stepped⟩ := step_of_trap raised
    have pushed := core.status_enter trap
    rw [stepped]
    change (core.enter trap).1.system.status &&& 0x3 = 0
    rw [pushed]
    exact Status.push_present _
  | later within stays ih => exact (operate_after _ _ _).keepsPresent stays ih

/-- Handlers run undisturbed. From the step that enters an exception on, until a return, a write to
the status register or a reset, the mode is that of the kernel with interrupts off, no step takes an
interrupt, no address is refused, and every address error is one of alignment. In general a step
enters an interrupt exactly when its fetch succeeds, interrupts are enabled by then, and one of them
is pending that the mask lets through; the fetched instruction is then left without effect. -/
theorem handlers_undisturbed {β : Type} [Bus β] (cpu : Cpu) (bus : β) :
    (cpu.InHandler →
        cpu.core.system.status &&& 0x3 = 0 ∧
          .interrupt ∉ entered (cpu.step bus).notes ∧
            (∀ address, route cpu.core.userMode address ≠ .refused) ∧
              ((.addressLoad ∈ entered (cpu.step bus).notes ∨
                  .addressStore ∈ entered (cpu.step bus).notes) →
                (cpu.step bus).cpu.core.system.read SystemControl.badAddressReg &&& 0x3 ≠ 0)) ∧
      (.interrupt ∈ entered (cpu.step bus).notes ↔
        ∃ word fetched memory, (cpu.tick 1).fetch bus = (.ok word, fetched, memory) ∧
          hasAny fetched.core.system.status 0x1 = true ∧
            fetched.core.system.cause &&& fetched.core.system.status &&& 0xff00 ≠ 0) ∧
        ∀ word fetched memory, (cpu.tick 1).fetch bus = (.ok word, fetched, memory) →
          .interrupt ∈ entered (cpu.step bus).notes →
            fetched.InPlaceOf memory (cpu.step bus) := by
  refine ⟨?_, ?_, ?_⟩
  · intro inside
    obtain ⟨kernel, disabled⟩ := Status.masked_of_present inside.present
    refine ⟨inside.present, ?_, ?_, misaligned_of_entered kernel⟩
    · rw [interrupt_mem_entered_iff, stepTrap_eq_interrupt_iff]
      rintro ⟨due, -⟩
      simp [interruptDue, disabled] at due
    · intro address
      have mode : cpu.core.userMode = false := kernel
      rw [mode]
      exact Core.route_kernel_ne_refused address
  · rw [interrupt_mem_entered_iff, stepTrap_eq_interrupt_iff]
    constructor
    · rintro ⟨due, word, fetched, memory, fetch⟩
      exact ⟨word, fetched, memory, fetch, (interruptDue_iff_of_fetch fetch).mp due⟩
    · rintro ⟨word, fetched, memory, fetch, pending⟩
      exact ⟨(interruptDue_iff_of_fetch fetch).mpr pending, word, fetched, memory, fetch⟩
  · intro word fetched memory fetch taken
    rw [interrupt_mem_entered_iff, stepTrap_eq_interrupt_iff] at taken
    exact inPlaceOf_of_interrupt fetch taken.1

/-- A word at the boot vector that does nothing. -/
def bootWord : Ram := Ram.zeroed 0x1fc00000 4 .big

/-- Interrupts are enabled, and an input is asserted. -/
def interruptible : Cpu :=
  (((Cpu.build (.ofModel .r3000A)).1.setSystemReg 12 0x0040ff01).1.setInput 2 true).1

/-- The interrupt is taken in place of the word, and once only, although the input stays. -/
theorem handlers_undisturbed_once :
    let handler := (interruptible.step bootWord).cpu
    .interrupt ∈ entered (interruptible.step bootWord).notes ∧
      hasAny handler.core.system.cause 0x1000 = true ∧ handler.InHandler ∧
        .interrupt ∉ entered (handler.step bootWord).notes := by
  intro handler
  obtain ⟨-, taken, -⟩ := handlers_undisturbed interruptible bootWord
  have interrupted : .interrupt ∈ entered (interruptible.step bootWord).notes :=
    taken.mpr ⟨0, _, _, rfl, by decide +kernel, by decide +kernel⟩
  have inside : handler.InHandler := .entered (List.ne_nil_of_mem interrupted)
  obtain ⟨undisturbed, -, -⟩ := handlers_undisturbed handler bootWord
  exact ⟨interrupted, by decide +kernel, inside, (undisturbed inside).2.1⟩

end Cpu

end R3000
