import R3000.Proofs.Budgets
import R3000.Proofs.CheckedIssuing
import R3000.Proofs.CheckedMachine

/-!
# Operations with checks

When an operation begins on a machine that represents a processor with complete search orders,
whose counter was started in the past, and the clock can still count the longest instruction, then
the operation passes all checks, and its outcome represents what the operation makes of the
processor. The operation is followed through its parts: the translation of an access, the access,
the instruction, the fetch before it, and the account of the time afterwards.
-/
namespace R3000.Strict

/-! ### Search orders in rows -/

theorem rows_setEntry (mmu : Mmu) (slot : Fin 64) (entry : TlbEntry) :
    Rows.of (mmu.mapBuffer (·.setEntry slot entry)) = Rows.of mmu := by
  cases mmu <;> rfl

namespace Machine

theorem of_withCore {cpu : Cpu} {next : Core} (rows : Rows.of next.mmu = Rows.of cpu.core.mmu) :
    { Machine.of cpu with core := next.forgetOrders } = .of { cpu with core := next } := by
  simp only [of, rows]

/-! ### Accesses -/

theorem access_of {cpu : Cpu} (complete : cpu.core.mmu.Complete) (address : Word)
    (intent : Intent) :
    (Machine.of cpu).access address intent =
      .ok ((cpu.core.access address intent).1,
        .of { cpu with core := (cpu.core.access address intent).2 }) := by
  have mode : (Machine.of cpu).core.userMode = cpu.core.userMode := rfl
  simp only [access, mode, Core.access, Core.resolve, Core.touch]
  cases route cpu.core.userMode address with
  | unmapped physical | refused => rfl
  | mapped =>
    obtain ⟨⟨config, registers, pc, sequencer, system, mmu, fpu, conditions, space⟩, icache, dcache,
      cycles, origin⟩ := cpu
    cases mmu with
    | fixed | bypass buffer => rfl
    | tlb buffer =>
      -- Only here a search is made. It knows the entries, and takes its order from the rows.
      have searched := lookup_rows (complete buffer rfl) (searchKey address system.entryHi) intent
      simp only [of, Core.forgetOrders, Mmu.forgetOrders, Mmu.mapBuffer, searched, ok_bind,
        Mmu.translate, Mmu.promote, pure_eq_ok, Tlb.resetOrders_promote]
      cases buffer.lookup (searchKey address system.entryHi) intent <;> rfl

section

variable {β : Type}

theorem trap_of (cpu : Cpu) (bus : β) (trap : Trap) :
    (Machine.of cpu).trap bus trap = .ok (.of (cpu.trap bus trap)) := by
  simp only [Machine.trap, enter_eq, ok_bind, pure_eq_ok]
  rfl

variable [Bus β]

theorem readData_of (cpu : Cpu) (bus : β) (width : Width) (address : Word) :
    (Machine.of cpu).readData bus width address = .ok (cpu.readData bus width address) := by
  have space : (Machine.of cpu).core.space = cpu.core.space := rfl
  simp only [readData, Cpu.readData, space]
  cases cpu.core.space with
  | program => rfl
  | instructionCache | dataCache =>
    simp only [of, Cache.read_of, ok_bind, pure_eq_ok]

theorem writeData_of (cpu : Cpu) (bus : β) (width : Width) (address : Word)
    (value mask : BitVec width.bits) :
    (Machine.of cpu).writeData bus width address value mask =
      let (answer, next, bus) := cpu.writeData bus width address value mask
      .ok (answer, .of next, bus) := by
  have space : (Machine.of cpu).core.space = cpu.core.space := rfl
  simp only [writeData, Cpu.writeData, space]
  cases cpu.core.space with
  | program => rfl
  | instructionCache | dataCache =>
    simp only [of, Cache.write_of, ok_bind, pure_eq_ok]

/-- A register that a load writes is no part of what the searches know. -/
theorem bring_of (cpu : Cpu) (bus : β) {load : R3000.Load} (fits : Fits load.destination)
    (place : Word) :
    (Machine.of cpu).bring bus (.of load) place =
      .ok (.of (match cpu.readData bus load.width place with
        | (.error reason, bus) => cpu.trap bus (.loadFailed load.address reason)
        | (.ok value, bus) =>
          ⟨{ cpu with core := cpu.core.receive load.destination value }, bus, []⟩)) := by
  have read := readData_of cpu bus load.width place
  simp only [bring, Load.of, read, ok_bind]
  rcases cpu.readData bus load.width place with ⟨reason | value, memory⟩
  · exact trap_of cpu memory _
  · have received : (of cpu).core.receive load.destination value =
        (cpu.core.receive load.destination value).forgetOrders :=
      cpu.core.receive_disguised .orders load.destination value
    simp only [receive_eq _ fits, received, ok_bind, pure_eq_ok, Outcome.of]
    rw [of_withCore (by rw [Core.mmu_receive])]

theorem load_of {cpu : Cpu} (complete : cpu.core.mmu.Complete) (bus : β) {load : R3000.Load}
    (fits : Fits load.destination) :
    (Machine.of cpu).load bus (.of load) = .ok (.of (cpu.load bus load)) := by
  simp only [Machine.load, Load.of, Cpu.load]
  by_cases misaligned : (load.checked && !load.width.aligned load.address) = true
  · simp only [misaligned, if_true]
    exact trap_of cpu bus _
  · simp only [misaligned, Bool.false_eq_true, if_false, access_of complete, ok_bind]
    rcases cpu.core.access load.address .read with ⟨trap | physical, core⟩
    · exact trap_of { cpu with core } bus trap
    · exact bring_of { cpu with core } bus fits _

theorem store_of {cpu : Cpu} (complete : cpu.core.mmu.Complete) (bus : β) (store : Store) :
    (Machine.of cpu).store bus store = .ok (.of (cpu.store bus store)) := by
  simp only [Machine.store, Cpu.store]
  by_cases misaligned : (store.checked && !store.width.aligned store.address) = true
  · simp only [misaligned, if_true]
    exact trap_of cpu bus _
  · simp only [misaligned, Bool.false_eq_true, if_false, access_of complete, ok_bind]
    rcases cpu.core.access store.address .write with ⟨trap | physical, core⟩
    · exact trap_of { cpu with core } bus trap
    · simp only [writeData_of]
      rcases Cpu.writeData { cpu with core } bus store.width _ store.value store.mask with
        ⟨reason | done, next, bus⟩
      · exact trap_of next bus _
      · rfl

/-! ### Instructions -/

omit [Bus β] in
theorem tick_of {cpu : Cpu} {cycles : Nat} (room : cpu.cycles + cycles < 2 ^ 64) :
    (of cpu).tick cycles = .ok (.of (cpu.tick cycles)) := by
  have fits : (of cpu).time.toNat + (BitVec.ofNat 64 cycles).toNat < 2 ^ 64 := by
    change (BitVec.ofNat 64 cpu.cycles).toNat + (BitVec.ofNat 64 cycles).toNat < 2 ^ 64
    rw [BitVec.toNat_ofNat, BitVec.toNat_ofNat]
    omega
  have later : (of cpu).time + BitVec.ofNat 64 cycles = BitVec.ofNat 64 (cpu.cycles + cycles) :=
    (BitVec.ofNat_add cpu.cycles cycles).symm
  rw [Machine.tick, add_of_lt fits, later]
  rfl

omit [Bus β] in
/-- A machine is issued what the processor is, without its search orders. -/
theorem issue_of {cpu : Cpu} (started : cpu.randomOrigin ≤ cpu.cycles)
    (room : cpu.cycles < 2 ^ 64) (word : Word) :
    issue (of cpu).core (random (of cpu).time (of cpu).start) word =
      .ok (.of ((cpu.core.issue cpu.random word).disguised .orders)) := by
  have hidden : cpu.core.forgetOrders.issue cpu.random word =
      (cpu.core.issue cpu.random word).disguised .orders :=
    cpu.core.issueInstr_disguised .orders cpu.random word (.inl rfl)
  rw [← hidden]
  exact issue_eq _ (random_eq started room) word

theorem execute_of {cpu : Cpu} (complete : cpu.core.mmu.Complete)
    (started : cpu.randomOrigin ≤ cpu.cycles) (room : cpu.cycles + 34 < 2 ^ 64) (bus : β)
    (word : Word) :
    (Machine.of cpu).execute bus word = .ok (.of (cpu.execute bus word)) := by
  simp only [Machine.execute, issue_of started (by omega : cpu.cycles < 2 ^ 64) word, ok_bind,
    Cpu.execute]
  cases issued : cpu.core.issue cpu.random word with
  | retire next notes extra =>
    -- An instruction that completes stores an entry at most, and no search order notices.
    have rows : Rows.of next.mmu = Rows.of cpu.core.mmu := by
      rcases (Core.issueInstr_completes issued).mmu with same | ⟨slot, stored⟩
      · rw [same]
      · rw [stored, rows_setEntry]
    have bound : extra ≤ 34 := by
      rw [Core.extra_of_issueInstr issued]
      exact (decode word).extraCycles_le
    have later : cpu.cycles + extra < 2 ^ 64 := by omega
    have ticked : (of { cpu with core := next }).tick extra =
        .ok (.of ({ cpu with core := next }.tick extra)) := tick_of later
    rw [← of_withCore rows] at ticked
    change (do
      let ticked ← { of cpu with core := next.forgetOrders }.tick extra
      pure ⟨ticked, bus, notes⟩ : Checked (Outcome β)) = _
    rw [ticked]
    rfl
  | raise trap => exact trap_of cpu bus trap
  | load load =>
    have fits := issueInstr_fits cpu.core cpu.random word (decode word)
    rw [show cpu.core.issueInstr cpu.random word (decode word) = .load load from issued] at fits
    exact load_of complete bus fits
  | store store => exact store_of complete bus store

theorem fetch_of {cpu : Cpu} (complete : cpu.core.mmu.Complete) (bus : β) :
    (Machine.of cpu).fetch bus =
      let (answer, next, bus) := cpu.fetch bus
      .ok (answer, .of next, bus) := by
  have pc : (of cpu).core.pc = cpu.core.pc := rfl
  simp only [Machine.fetch, Cpu.fetch, pc]
  by_cases misaligned : (!Width.word.aligned cpu.core.pc) = true
  · simp only [misaligned, if_true]
    rfl
  · simp only [misaligned, Bool.false_eq_true, if_false, access_of complete, ok_bind]
    rcases cpu.core.access cpu.core.pc .fetch with ⟨trap | physical, core⟩
    · rfl
    · rcases read : Bus.read bus .word physical with ⟨reason | word, memory⟩ <;>
        simp only [read, pure_eq_ok]

theorem perform_of {cpu : Cpu} (complete : cpu.core.mmu.Complete)
    (started : cpu.randomOrigin ≤ cpu.cycles) (room : cpu.cycles + 34 < 2 ^ 64) (bus : β) :
    (Machine.of cpu).perform bus = .ok (.of (cpu.perform bus)) := by
  simp only [Machine.perform, fetch_of complete, Cpu.perform]
  rcases fetched : cpu.fetch bus with ⟨trap | word, next, memory⟩
  · exact trap_of next memory trap
  · -- A fetch takes no time, and leaves its mark in the orders only.
    obtain rfl := Cpu.fetch_of_ok fetched
    have touched : (cpu.mark cpu.core.fetchDemand).core.mmu.Complete :=
      Core.touch_complete complete _ _
    simp only [ok_bind]
    have same : (of (cpu.mark cpu.core.fetchDemand)).core.system =
        (cpu.mark cpu.core.fetchDemand).core.system := rfl
    rw [same]
    split
    · exact trap_of _ memory .interrupt
    · exact execute_of touched started room memory word

theorem step_of {cpu : Cpu} (complete : cpu.core.mmu.Complete)
    (started : cpu.randomOrigin ≤ cpu.cycles) (room : cpu.cycles + 35 < 2 ^ 64) (bus : β) :
    (Machine.of cpu).step bus =
      .ok (BitVec.ofNat 64 (cpu.cost bus), .of (cpu.step bus)) := by
  have ticked : (of cpu).tick 1 = .ok (.of (cpu.tick 1)) := tick_of (by omega)
  have complete' : (cpu.tick 1).core.mmu.Complete := complete
  have started' : (cpu.tick 1).randomOrigin ≤ (cpu.tick 1).cycles := Nat.le_succ_of_le started
  have room' : (cpu.tick 1).cycles + 34 < 2 ^ 64 := by
    rw [Cpu.cycles_tick]
    omega
  have performed := perform_of complete' started' room' bus
  -- The clock has gone on by the cost of the step, which it can hold.
  have passed : ((cpu.tick 1).perform bus).cpu.cycles = cpu.cycles + cpu.cost bus :=
    cpu.cycles_step bus
  have bound := cpu.cost_le bus
  have cost : subtract (BitVec.ofNat 64 (cpu.cycles + cpu.cost bus)) (BitVec.ofNat 64 cpu.cycles) =
      .ok (BitVec.ofNat 64 (cpu.cost bus)) := by
    rw [subtract_of_le, BitVec.ofNat_add, BitVec.add_comm, BitVec.add_sub_cancel]
    rw [BitVec.toNat_ofNat, BitVec.toNat_ofNat]
    omega
  simp only [Machine.step, ticked, performed, ok_bind]
  change (do
    let cost ← subtract (BitVec.ofNat 64 ((cpu.tick 1).perform bus).cpu.cycles)
      (BitVec.ofNat 64 cpu.cycles)
    pure (cost, Outcome.of (cpu.step bus)) : Checked (BitVec 64 × Outcome β)) = _
  rw [passed, cost]
  rfl

/-! ### Operations of a host -/

omit [Bus β] in
theorem reset_of (cpu : Cpu) : (of cpu).reset = (.of cpu.reset.1, cpu.reset.2) := by
  obtain ⟨⟨config, registers, pc, sequencer, system, mmu, fpu, conditions, space⟩, icache, dcache,
    cycles, origin⟩ := cpu
  cases mmu <;> rfl

omit [Bus β] in
theorem build_of (config : Config) :
    build config = (.of (Cpu.build config).1, (Cpu.build config).2) := by
  have empty (mapping : Mapping) : Rows.of (.ofMapping mapping) = .initial := by
    cases mapping <;> rfl
  have unordered (mapping : Mapping) :
      (Mmu.ofMapping mapping).forgetOrders = .ofMapping mapping := by
    cases mapping <;> rfl
  rw [Cpu.build, ← reset_of]
  simp only [build, of, Core.forgetOrders, Core.build, unordered, empty, Cache.of_ofSize]
  rfl

omit [Bus β] in
/-- What only concerns the core, and no search order. -/
theorem onCore_of {cpu : Cpu} {done result : Core × List Note} (bus : β)
    (same : done = (result.1.forgetOrders, result.2))
    (rows : Rows.of result.1.mmu = Rows.of cpu.core.mmu) :
    (⟨{ of cpu with core := done.1 }, bus, done.2⟩ : Outcome β) =
      .of ⟨(cpu.onCore result).1, bus, (cpu.onCore result).2⟩ := by
  rw [same, of_withCore rows]
  rfl

/-- Every operation passes its checks. -/
theorem operate_of {cpu : Cpu} (complete : cpu.core.mmu.Complete)
    (started : cpu.randomOrigin ≤ cpu.cycles) (room : cpu.cycles + 35 < 2 ^ 64) (bus : β)
    (operation : Operation) :
    (Machine.of cpu).operate bus operation = .ok (.of (cpu.operate bus operation)) := by
  cases operation with
  | step =>
    simp only [Machine.operate, step_of complete started room bus]
    rfl
  | execute word => exact execute_of complete started (by omega) bus word
  | reset =>
    simp only [Machine.operate, reset_of]
    rfl
  | setPc pc => rfl
  | setGpr number value =>
    simp only [Machine.operate, writeGpr_eq]
    rfl
  | setFpr number value =>
    have cut : number &&& 15 = number % 16 := Nat.and_two_pow_sub_one_eq_mod number 4
    have selected : within 16 (number &&& 15) = .ok (Fin.ofNat 16 number) := by
      rw [cut]
      exact within_of_lt (Nat.mod_lt number (by decide))
    simp only [Machine.operate, selected, ok_bind]
    obtain ⟨⟨config, registers, pc, sequencer, system, mmu, fpu, conditions, space⟩, icache, dcache,
      cycles, origin⟩ := cpu
    cases fpu <;> rfl
  | setSystemReg number value =>
    have written := cpu.core.writeSystem_disguised .orders number value
    have rows : Rows.of (cpu.core.writeSystem number value).1.mmu = Rows.of cpu.core.mmu := by
      rw [Core.mmu_writeSystem]
    simp only [Machine.operate, writeSystem_eq, ok_bind]
    exact congrArg Except.ok (onCore_of bus written rows)
  | setInput line asserted =>
    have driven := cpu.core.setInput_disguised .orders line asserted
    have rows : Rows.of (cpu.core.setInput line asserted).1.mmu = Rows.of cpu.core.mmu := by
      rw [Core.mmu_setInput]
    simp only [Machine.operate, setInput_eq, ok_bind]
    exact congrArg Except.ok (onCore_of bus driven rows)
  | setCondition unit state =>
    simp only [Machine.operate, setCondition_eq]
    rfl

end

end Machine

end R3000.Strict
