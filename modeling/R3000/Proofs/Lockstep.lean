import R3000.Proofs.Budgets
import R3000.Proofs.Disguises
import R3000.Proofs.Installed
import R3000.Proofs.WarmReset

/-!
# Processors in lockstep

Two things about a processor hardly show in what it does. Of the time that has passed it shows the
slot of the random counter, where there is one, and that goes round in fifty-six cycles. Of its
description it shows, once it is built, the model, the identification and the byte order.

So two processors in the same state, with other descriptions that agree in these and at other times
whose counters agree, do the same. They take the same cycles for it, so their counters agree again,
and this goes on over whole sessions. A reset keeps them together as well: it starts the counters of
both, or of none.
-/
namespace R3000

/-! ### Settings -/

/-- What a processor is described by and what time it is. -/
structure Setting where
  config : Config
  cycles : Nat
  randomOrigin : Nat

/-- The setting some cycles later. -/
def Setting.later (setting : Setting) (cycles : Nat) : Setting :=
  { setting with cycles := setting.cycles + cycles }

/-- Descriptions that agree in what a processor shows of them. -/
structure Config.Agrees (config other : Config) : Prop where
  model : config.model = other.model
  cpurev : config.cpurev = other.cpurev
  byteOrder : config.byteOrder = other.byteOrder

namespace Core

def withConfig (core : Core) (config : Config) : Core := { core with config }

theorem disguised_description (core : Core) (config : Config) :
    core.disguised (.description config) = core.withConfig config := by
  have unchanged : core.mmu.mapBuffer (Disguise.description config).buffer = core.mmu := by
    cases core.mmu <;> rfl
  simp only [disguised, unchanged]
  rfl

theorem mark_withConfig (core : Core) (config : Config) (demand : Demand) :
    (core.withConfig config).mark demand = (core.mark demand).withConfig config := by
  have sameRoute : route (core.withConfig config).userMode demand.address =
      route core.userMode demand.address := rfl
  simp only [mark, touch, sameRoute]
  cases route core.userMode demand.address <;> rfl

theorem receive_withConfig (core : Core) (config : Config) (destination : Destination)
    {width : Width} (value : BitVec width.bits) :
    (core.withConfig config).receive destination value =
      (core.receive destination value).withConfig config := by
  simp only [← disguised_description, receive_disguised]

theorem writeSystem_withConfig (core : Core) (config : Config) (number : Nat) (value : Word) :
    (core.withConfig config).writeSystem number value =
      ((core.writeSystem number value).1.withConfig config,
        (core.writeSystem number value).2) := by
  simp only [← disguised_description, writeSystem_disguised]

theorem setInput_withConfig (core : Core) (config : Config) (line : Nat) (level : Bool) :
    (core.withConfig config).setInput line level =
      ((core.setInput line level).1.withConfig config, (core.setInput line level).2) := by
  simp only [← disguised_description, setInput_disguised]

/-- A reset looks at the model and the identification. -/
theorem reset_withConfig (core : Core) {config : Config} (agrees : core.config.Agrees config) :
    (core.withConfig config).reset = (core.reset.1.withConfig config, core.reset.2) := by
  simp only [reset, resetSystem, withConfig, setPc, writeStatus, agrees.model, agrees.cpurev]
  rfl

@[simp] theorem hasBuffer_reset (core : Core) :
    core.reset.1.mmu.hasBuffer = core.mmu.hasBuffer := core.mmu.hasBuffer_forgetOrders

/-- Without a lookaside buffer no instruction comes to the random slot. -/
theorem issue_of_unbuffered {core : Core} (unbuffered : core.mmu.hasBuffer = false)
    (random other : Fin 64) (word : Word) : core.issue random word = core.issue other word := by
  have absent : core.mmu.buffer? = none := by simpa [Mmu.hasBuffer] using unbuffered
  simp only [issue]
  cases decode word with
  | system op =>
    simp only [issueInstr, issueSystem, absent]
    split
    · rfl
    · cases op with
      | moveFrom rt source => simp [readSystem, unbuffered]
      | _ => rfl
  | _ => rfl

end Core

namespace Cpu

/-- The same processor in another setting. -/
def inSetting (cpu : Cpu) (setting : Setting) : Cpu :=
  { cpu with
    core := cpu.core.withConfig setting.config
    cycles := setting.cycles
    randomOrigin := setting.randomOrigin }

end Cpu

def Outcome.inSetting {β : Type} (outcome : Outcome β) (setting : Setting) : Outcome β :=
  { outcome with cpu := outcome.cpu.inSetting setting }

namespace Cpu

/-- The setting agrees with that of the processor in what shows. -/
structure InPhase (cpu : Cpu) (setting : Setting) : Prop where
  described : cpu.core.config.Agrees setting.config
  /-- Where there is a counter, it was started in both and stands at the same slot. -/
  counts : cpu.core.mmu.hasBuffer = true → cpu.randomOrigin ≤ cpu.cycles ∧
    setting.randomOrigin ≤ setting.cycles ∧
    (cpu.cycles - cpu.randomOrigin) % 56 = (setting.cycles - setting.randomOrigin) % 56

/-- The setting shows the time of the processor. -/
def SameClock (cpu : Cpu) (setting : Setting) : Prop :=
  setting.cycles = cpu.cycles ∧ setting.randomOrigin = cpu.randomOrigin

/-- The setting `after` goes with the processor `last` as `setting` went with the processor `cpu`:
it is in phase with it, and as much later. A setting that showed the same clock still does. -/
structure KeepsPace (cpu : Cpu) (setting : Setting) (last : Cpu) (after : Setting) : Prop where
  described : after.config = setting.config
  phase : last.InPhase after
  clock : after.cycles + cpu.cycles = setting.cycles + last.cycles
  together : cpu.SameClock setting → last.SameClock after

section

variable {cpu : Cpu} {setting : Setting}

theorem InPhase.keepsPace (phase : cpu.InPhase setting) : cpu.KeepsPace setting cpu setting :=
  ⟨rfl, phase, rfl, id⟩

theorem KeepsPace.trans {middle last : Cpu} {between after : Setting}
    (first : cpu.KeepsPace setting middle between) (second : middle.KeepsPace between last after) :
    cpu.KeepsPace setting last after where
  described := second.described.trans first.described
  phase := second.phase
  clock := by
    have clock := first.clock
    have clock' := second.clock
    omega
  together := fun same => second.together (first.together same)

theorem KeepsPace.elapsed {β : Type} {outcome : Outcome β} {after : Setting}
    (pace : cpu.KeepsPace setting outcome.cpu after) :
    (cpu.inSetting setting).elapsed (outcome.inSetting after) = cpu.elapsed outcome := by
  have clock := pace.clock
  simp only [Cpu.elapsed, Outcome.inSetting, inSetting]
  omega

/-- As time goes by, the two counters go on together. -/
theorem InPhase.later (phase : cpu.InPhase setting) {last : Cpu} {cycles : Nat}
    (described : last.core.config = cpu.core.config)
    (buffered : last.core.mmu.hasBuffer = cpu.core.mmu.hasBuffer)
    (clock : last.cycles = cpu.cycles + cycles) (origin : last.randomOrigin = cpu.randomOrigin) :
    cpu.KeepsPace setting last (setting.later cycles) where
  described := rfl
  phase := by
    refine ⟨described ▸ phase.described, fun present => ?_⟩
    obtain ⟨started, started', slot⟩ := phase.counts (buffered.symm.trans present)
    rw [clock, origin]
    simp only [Setting.later]
    omega
  clock := by
    rw [clock]
    simp only [Setting.later]
    omega
  together := by
    rintro ⟨same, sameOrigin⟩
    rw [SameClock, clock, origin]
    exact ⟨congrArg (· + cycles) same, sameOrigin⟩

theorem InPhase.tick (phase : cpu.InPhase setting) (cycles : Nat) :
    (cpu.tick cycles).InPhase (setting.later cycles) := by
  have pace : cpu.KeepsPace setting (cpu.tick cycles) (setting.later cycles) :=
    phase.later rfl rfl rfl rfl
  exact pace.phase

theorem InPhase.mark (phase : cpu.InPhase setting) (demand : Demand) :
    (cpu.mark demand).InPhase setting := by
  have same : (cpu.core.mark demand).forgetOrders = cpu.core.forgetOrders :=
    Core.forgetOrders_mark _ _
  have pace : cpu.KeepsPace setting (cpu.mark demand) (setting.later 0) :=
    phase.later (Core.config_of_forgetOrders same)
      (Mmu.hasBuffer_of_forgetOrders (Core.mapping_of_forgetOrders same)) rfl rfl
  exact pace.phase

theorem InPhase.random (phase : cpu.InPhase setting) (buffered : cpu.core.mmu.hasBuffer = true) :
    (cpu.inSetting setting).random = cpu.random := by
  obtain ⟨-, -, slot⟩ := phase.counts buffered
  simp only [Cpu.random, inSetting, slot]

/-- Register 1 shows the counter and no other time. -/
theorem InPhase.systemReg (phase : cpu.InPhase setting) (number : Nat) :
    (cpu.inSetting setting).systemReg number = cpu.systemReg number := by
  cases buffered : cpu.core.mmu.hasBuffer with
  | true =>
    simp only [Cpu.systemReg, phase.random buffered]
    rfl
  | false =>
    have unbuffered : (cpu.inSetting setting).core.mmu.hasBuffer = false := buffered
    simp only [Cpu.systemReg, Core.readSystem, buffered, unbuffered, Bool.false_eq_true, and_false,
      if_false]
    rfl

/-- What is issued is the same, but for the description in a core that results. -/
theorem InPhase.issue (phase : cpu.InPhase setting) (word : Word) :
    (cpu.inSetting setting).core.issue (cpu.inSetting setting).random word =
      (cpu.core.issue cpu.random word).disguised (.description setting.config) := by
  have disguised (random : Fin 64) : (cpu.inSetting setting).core.issue random word =
      (cpu.core.issue random word).disguised (.description setting.config) := by
    have hidden : (cpu.core.disguised (.description setting.config)).issue random word =
        (cpu.core.issue random word).disguised (.description setting.config) :=
      cpu.core.issueInstr_disguised (.description setting.config) random word
        (.inl phase.described.byteOrder.symm)
    rwa [Core.disguised_description] at hidden
  -- Only a random write looks at the slot, and that needs a lookaside buffer.
  cases buffered : cpu.core.mmu.hasBuffer with
  | true => rw [phase.random buffered, disguised]
  | false => rw [disguised, Core.issue_of_unbuffered buffered _ cpu.random]

/-! ### One instruction -/

variable {β : Type}

theorem mark_inSetting (cpu : Cpu) (setting : Setting) (demand : Demand) :
    (cpu.inSetting setting).mark demand = (cpu.mark demand).inSetting setting :=
  congrArg (fun core => { cpu.inSetting setting with core })
    (cpu.core.mark_withConfig setting.config demand)

theorem trap_inSetting (cpu : Cpu) (setting : Setting) (bus : β) (trap : Trap) :
    (cpu.inSetting setting).trap bus trap = (cpu.trap bus trap).inSetting setting := rfl

variable [Bus β]

theorem writeData_inSetting (cpu : Cpu) (setting : Setting) (bus : β) (width : Width)
    (place : Word) (value mask : BitVec width.bits) :
    (cpu.inSetting setting).writeData bus width place value mask =
      let written := cpu.writeData bus width place value mask
      (written.1, written.2.1.inSetting setting, written.2.2) := by
  have sameSpace : (cpu.inSetting setting).core.space = cpu.core.space := rfl
  simp only [writeData, sameSpace]
  split <;> rfl

theorem load_inSetting (cpu : Cpu) (setting : Setting) (bus : β) (load : Load) :
    (cpu.inSetting setting).load bus load = (cpu.load bus load).inSetting setting := by
  have samePlace : (cpu.inSetting setting).core.place load.demand = cpu.core.place load.demand :=
    rfl
  have sameData : (cpu.inSetting setting).readData bus = cpu.readData bus := rfl
  rw [load_eq, load_eq, samePlace, sameData]
  cases cpu.core.place load.demand with
  | error trap => rfl
  | ok place =>
    simp only [mark_inSetting, trap_inSetting]
    split
    · rfl
    next value _ =>
      have received : ((cpu.inSetting setting).core.mark load.demand).receive load.destination
          value = ((cpu.core.mark load.demand).receive load.destination value).withConfig
            setting.config := by
        rw [← Core.receive_withConfig, ← Core.mark_withConfig]
        rfl
      rw [received]
      rfl

theorem store_inSetting (cpu : Cpu) (setting : Setting) (bus : β) (store : Store) :
    (cpu.inSetting setting).store bus store = (cpu.store bus store).inSetting setting := by
  have samePlace : (cpu.inSetting setting).core.place store.demand =
      cpu.core.place store.demand := rfl
  rw [store_eq, store_eq, samePlace]
  cases cpu.core.place store.demand with
  | error trap => rfl
  | ok place =>
    simp only [writeData_inSetting, mark_inSetting, trap_inSetting]
    split
    · rfl
    · -- The caches are the same, and the core has moved the same search order.
      have marked : (cpu.inSetting setting).core.mark store.demand =
          (cpu.core.mark store.demand).withConfig setting.config := Core.mark_withConfig _ _ _
      rw [marked]
      rfl

omit [Bus β] in
theorem elapsed_of_cycles {cpu : Cpu} {outcome : Outcome β}
    (same : outcome.cpu.cycles = cpu.cycles) : cpu.elapsed outcome = 0 := by
  rw [elapsed, same, Nat.sub_self]

theorem execute_inSetting (phase : cpu.InPhase setting) (bus : β) (word : Word) :
    (cpu.inSetting setting).execute bus word =
      (cpu.execute bus word).inSetting (setting.later (cpu.elapsed (cpu.execute bus word))) := by
  simp only [Cpu.execute, phase.issue]
  cases cpu.core.issue cpu.random word with
  | retire core notes extra =>
    have took : cpu.elapsed (⟨{ cpu with core }.tick extra, bus, notes⟩ : Outcome β) = extra :=
      Nat.add_sub_cancel_left _ _
    simp only [took, Issue.disguised, Core.disguised_description]
    rfl
  -- What is not completed takes no further cycle.
  | raise trap =>
    simp only [elapsed_of_cycles (cycles_trap cpu bus trap)]
    rfl
  | load load =>
    simp only [elapsed_of_cycles (cycles_load cpu bus load)]
    exact load_inSetting cpu setting bus load
  | store store =>
    simp only [elapsed_of_cycles (cycles_store cpu bus store)]
    exact store_inSetting cpu setting bus store

/-! ### One step -/

theorem fetch_inSetting (cpu : Cpu) (setting : Setting) (bus : β) :
    (cpu.inSetting setting).fetch bus =
      let fetched := cpu.fetch bus
      (fetched.1, fetched.2.1.inSetting setting, fetched.2.2) := by
  have samePlace : (cpu.inSetting setting).core.place (cpu.inSetting setting).core.fetchDemand =
      cpu.core.place cpu.core.fetchDemand := rfl
  have sameDemand : (cpu.inSetting setting).core.fetchDemand = cpu.core.fetchDemand := rfl
  rw [fetch_eq, fetch_eq, samePlace, sameDemand]
  cases cpu.core.place cpu.core.fetchDemand with
  | error trap => rfl
  | ok place =>
    simp only [mark_inSetting]
    split <;> rfl

theorem perform_inSetting (phase : cpu.InPhase setting) (bus : β) :
    (cpu.inSetting setting).perform bus =
      (cpu.perform bus).inSetting (setting.later (cpu.elapsed (cpu.perform bus))) := by
  have clock := cpu.cycles_fetch bus
  simp only [Cpu.perform, fetch_inSetting]
  cases fetch : cpu.fetch bus with
  | mk answer rest =>
    obtain ⟨fetched, memory⟩ := rest
    rw [fetch] at clock
    have trapped (trap : Trap) : cpu.elapsed (fetched.trap memory trap) = 0 :=
      elapsed_of_cycles clock
    cases answer with
    | error trap =>
      simp only [trapped]
      rfl
    | ok word =>
      have sameSystem : (fetched.inSetting setting).core.system = fetched.core.system := rfl
      simp only [sameSystem]
      split
      · simp only [trapped]
        rfl
      · have going : fetched.InPhase setting := by
          rw [fetch_of_ok fetch]
          exact phase.mark _
        -- A fetch takes no time of its own, so the setting is still that of the beginning.
        have took : cpu.elapsed (fetched.execute memory word) =
            fetched.elapsed (fetched.execute memory word) := by
          rw [elapsed, elapsed, ← clock]
        rw [took]
        exact execute_inSetting going memory word

theorem step_inSetting (phase : cpu.InPhase setting) (bus : β) :
    (cpu.inSetting setting).step bus =
      (cpu.step bus).inSetting (setting.later (cpu.elapsed (cpu.step bus))) := by
  -- One cycle has passed when the instruction is fetched, and the rest of the step comes after it.
  have performed := perform_inSetting (phase.tick 1) bus
  have later := cycles_perform_le (cpu.tick 1) bus
  have took : cpu.elapsed (cpu.step bus) =
      1 + (cpu.tick 1).elapsed ((cpu.tick 1).perform bus) := by
    simp only [elapsed, step, cycles_advance, cycles_tick] at later ⊢
    omega
  have ticked : (cpu.inSetting setting).tick 1 = (cpu.tick 1).inSetting (setting.later 1) := rfl
  rw [took, Setting.later, ← Nat.add_assoc]
  simp only [step, ticked, performed]
  rfl

/-! ### What a host does -/

/-- A reset starts the counter, if there is one, and takes no time. -/
def resetSetting (cpu : Cpu) (setting : Setting) : Setting :=
  if cpu.core.mmu.hasBuffer then { setting with randomOrigin := setting.cycles } else setting

/-- The setting after an operation. But for a reset it is later by the cycles that the operation
takes. -/
def settingAfter (cpu : Cpu) (setting : Setting) (bus : β) : Operation → Setting
  | .reset => cpu.resetSetting setting
  | operation => setting.later (cpu.elapsed (cpu.operate bus operation))

theorem reset_inSetting (agrees : cpu.core.config.Agrees setting.config) :
    (cpu.inSetting setting).reset =
      (cpu.reset.1.inSetting (cpu.resetSetting setting), cpu.reset.2) := by
  have same : (cpu.inSetting setting).core.reset =
      (cpu.core.reset.1.withConfig setting.config, cpu.core.reset.2) :=
    cpu.core.reset_withConfig agrees
  have kept : (cpu.core.reset.1.withConfig setting.config).mmu.hasBuffer =
      cpu.core.mmu.hasBuffer := cpu.core.hasBuffer_reset
  simp only [reset, same, kept, Core.hasBuffer_reset, resetSetting]
  cases cpu.core.mmu.hasBuffer <;> rfl

theorem operate_inSetting (phase : cpu.InPhase setting) (bus : β) (operation : Operation) :
    (cpu.inSetting setting).operate bus operation =
      (cpu.operate bus operation).inSetting (cpu.settingAfter setting bus operation) := by
  -- What a host does between two instructions takes no time.
  have timeless {outcome : Outcome β} (same : outcome.cpu.cycles = cpu.cycles) :
      setting.later (cpu.elapsed outcome) = setting := by
    rw [elapsed_of_cycles same]
    rfl
  have onCore {result result' : Core × List Note}
      (same : result' = (result.1.withConfig setting.config, result.2)) :
      (⟨{ cpu.inSetting setting with core := result'.1 }, bus, result'.2⟩ : Outcome β) =
        Outcome.inSetting ⟨{ cpu with core := result.1 }, bus, result.2⟩ setting := by
    rw [same]
    rfl
  cases operation with
  | step => exact step_inSetting phase bus
  | execute word => exact execute_inSetting phase bus word
  | reset =>
    have same := reset_inSetting phase.described
    simp only [operate, same]
    rfl
  | setSystemReg number value =>
    simp only [settingAfter]
    rw [timeless rfl]
    exact onCore (cpu.core.writeSystem_withConfig setting.config number value)
  | setInput line asserted =>
    simp only [settingAfter]
    rw [timeless rfl]
    exact onCore (cpu.core.setInput_withConfig setting.config line asserted)
  | setPc pc | setGpr number value | setFpr number value | setCondition unit condition =>
    simp only [settingAfter]
    rw [timeless rfl]
    rfl

/-- A reset starts both counters. -/
theorem InPhase.reset (phase : cpu.InPhase setting) :
    cpu.KeepsPace setting cpu.reset.1 (cpu.resetSetting setting) := by
  have kept : cpu.reset.1.core.mmu.hasBuffer = cpu.core.mmu.hasBuffer := cpu.core.hasBuffer_reset
  have origin : cpu.reset.1.randomOrigin =
      if cpu.core.mmu.hasBuffer then cpu.cycles else cpu.randomOrigin := by
    simp only [Cpu.reset, Core.hasBuffer_reset]
  cases buffered : cpu.core.mmu.hasBuffer with
  | true =>
    rw [buffered, if_pos rfl] at origin
    have started : cpu.resetSetting setting = { setting with randomOrigin := setting.cycles } := by
      simp only [resetSetting, buffered, if_true]
    rw [started]
    -- Both stand at the first slot, whatever they stood at before.
    refine ⟨rfl, ⟨phase.described, fun _ => ?_⟩, rfl, fun same => ⟨same.1, ?_⟩⟩
    · have timeless : cpu.reset.1.cycles = cpu.cycles := rfl
      rw [origin, timeless, Nat.sub_self, Nat.sub_self]
      exact ⟨Nat.le_refl _, Nat.le_refl _, rfl⟩
    · rw [origin]
      exact same.1
  | false =>
    rw [buffered] at origin
    have idle : cpu.resetSetting setting = setting := by
      simp only [resetSetting, buffered, Bool.false_eq_true, if_false]
    rw [idle]
    have pace : cpu.KeepsPace setting cpu.reset.1 (setting.later 0) :=
      phase.later rfl kept rfl origin
    exact pace

theorem InPhase.operate (phase : cpu.InPhase setting) (bus : β) (operation : Operation) :
    cpu.KeepsPace setting (cpu.operate bus operation).cpu
      (cpu.settingAfter setting bus operation) := by
  by_cases again : operation = .reset
  · subst again
    exact phase.reset
  · have going : cpu.settingAfter setting bus operation =
        setting.later (cpu.elapsed (cpu.operate bus operation)) := by
      cases operation with
      | reset => exact absurd rfl again
      | _ => rfl
    have clock : (cpu.operate bus operation).cpu.cycles =
        cpu.cycles + cpu.elapsed (cpu.operate bus operation) := by
      have later := (cpu.cycles_operate bus operation).1
      rw [elapsed]
      omega
    rw [going]
    exact phase.later (cpu.config_operate bus operation) (cpu.hasBuffer_operate bus operation) clock
      (cpu.randomOrigin_operate bus again)

/-! ### Sessions and runs -/

/-- Whatever a host does with both, it takes the same cycles and notes and does the same to the
memory, and leaves the two processors in settings that are in phase again. -/
theorem session_inSetting (phase : cpu.InPhase setting) (bus : β) (operations : List Operation) :
    ∃ after, cpu.KeepsPace setting (cpu.session bus operations).2.cpu after ∧
      (cpu.inSetting setting).session bus operations =
        ((cpu.session bus operations).1, (cpu.session bus operations).2.inSetting after) := by
  -- By induction on the operations, over all states that are in phase.
  induction operations generalizing cpu setting bus with
  | nil => exact ⟨setting, phase.keepsPace, rfl⟩
  | cons operation rest ih =>
    have done := operate_inSetting phase bus operation
    have pace := phase.operate bus operation
    obtain ⟨after, onward, same⟩ := ih pace.phase (cpu.operate bus operation).bus
    have took := pace.elapsed
    rw [← done] at took
    refine ⟨after, pace.trans onward, ?_⟩
    simp only [session, took]
    rw [done]
    simp only [Outcome.inSetting, same]

theorem runFrom_inSetting (cpu : Cpu) (bus : β) (budget : Nat) (earlier : List Note) :
    ∀ setting, cpu.InPhase setting → ∃ after,
      cpu.KeepsPace setting (cpu.runFrom bus budget earlier).cpu after ∧
      (cpu.inSetting setting).runFrom bus budget earlier =
        (cpu.runFrom bus budget earlier).inSetting after := by
  -- By induction on the recursion of the run: both have the same left of their budget.
  fun_induction runFrom cpu bus budget earlier with
  | case1 cpu bus earlier =>
    intro setting phase
    refine ⟨setting, phase.keepsPace, ?_⟩
    rw [runFrom, if_pos rfl]
    rfl
  | case2 cpu bus budget earlier positive stepped cost ih =>
    intro setting phase
    have pace := phase.operate bus .step
    obtain ⟨after, onward, same⟩ := ih _ pace.phase
    have took : (cpu.inSetting setting).elapsed (stepped.inSetting _) = cost := pace.elapsed
    refine ⟨after, pace.trans onward, ?_⟩
    rw [runFrom, if_neg positive, step_inSetting phase bus, ← same]
    exact congrArg (fun left => Cpu.runFrom _ _ (budget - left) _) took

theorem run_inSetting (phase : cpu.InPhase setting) (bus : β) (budget : Nat) :
    ∃ after, cpu.KeepsPace setting (cpu.run bus budget).cpu after ∧
      (cpu.inSetting setting).run bus budget = (cpu.run bus budget).inSetting after :=
  runFrom_inSetting cpu bus budget [] setting phase

end

end Cpu

end R3000
