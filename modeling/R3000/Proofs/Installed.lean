import R3000.Proofs.SlotStorage

/-!
# What is built in

A processor keeps its description and the kind of its mapping hardware, whatever a host or a program
does. So both are in every state what they were when the processor was built.
-/
namespace R3000

/-! ### Mapping hardware -/

namespace Mmu

/-- The mapping that the hardware does. -/
def kind : Mmu → Mapping
  | fixed => .fixed
  | tlb _ => .tlb
  | bypass _ => .bypass

@[simp] theorem kind_mapBuffer (mmu : Mmu) (change : Tlb → Tlb) :
    (mmu.mapBuffer change).kind = mmu.kind := by
  cases mmu <;> rfl

theorem kind_of_forgetOrders {mmu other : Mmu} (same : mmu.forgetOrders = other.forgetOrders) :
    mmu.kind = other.kind := by
  rw [← kind_mapBuffer mmu Tlb.resetOrders, ← kind_mapBuffer other Tlb.resetOrders]
  exact congrArg kind same

theorem kind_store (mmu : Mmu) (entry : TlbEntry) (written : Option (Fin 64)) :
    (mmu.store entry written).kind = mmu.kind := by
  cases written with
  | none => rfl
  | some slot => exact kind_mapBuffer _ _

@[simp] theorem kind_ofMapping (mapping : Mapping) : (ofMapping mapping).kind = mapping := by
  cases mapping <;> rfl

theorem hasBuffer_iff_kind (mmu : Mmu) : mmu.hasBuffer = true ↔ mmu.kind ≠ .fixed := by
  cases mmu <;> simp [hasBuffer, buffer?, kind]

theorem eq_fixed_of_kind {mmu : Mmu} (fixed : mmu.kind = .fixed) : mmu = .fixed := by
  cases mmu with
  | fixed => rfl
  | tlb buffer | bypass buffer => cases fixed

end Mmu

/-! ### The description -/

namespace Core

theorem config_of_forgetOrders {core other : Core}
    (same : core.forgetOrders = other.forgetOrders) : core.config = other.config := by
  rw [eq_of_forgetOrders same]

@[simp] theorem config_setInput (core : Core) (line : Nat) (asserted : Bool) :
    (core.setInput line asserted).1.config = core.config := by
  unfold setInput
  split
  · rfl
  · simp only
    split <;> rfl

@[simp] theorem config_writeSystem (core : Core) (number : Nat) (value : Word) :
    (core.writeSystem number value).1.config = core.config := by
  simp only [writeSystem]
  split <;> rfl

@[simp] theorem config_updateUnit (core : Core) (unit : FloatUnit) (update : LineUpdate) :
    (core.updateUnit unit update).1.config = core.config := by
  cases update with
  | none => rfl
  | some level => exact config_setInput _ _ _

@[simp] theorem config_receive (core : Core) (destination : Destination) {width : Width}
    (value : BitVec width.bits) : (core.receive destination value).config = core.config := by
  cases destination <;> rfl

theorem Completes.config {core next : Core} {random : Fin 64} {word : Word} {instr : Instr}
    {notes : List Note} (completes : core.Completes random word instr next notes) :
    next.config = core.config := by
  cases completes with
  | program registers pc sequencer silent => rfl
  | unit update prior usable present sameLine settled routine => exact config_updateUnit _ _ _
  | system decoded permitted issued =>
    cases issueSystem_completes issued with
    | moveTo rt target => exact config_writeSystem _ _ _
    | branch branch =>
      obtain ⟨pc, sequencer, branched⟩ := core.branchIf_eq
        (core.condition 0 == branch.sense) branch.likely branch.offset
      rw [branched]
    | _ => rfl

end Core

/-! ### Operations -/

namespace Cpu

section

variable {β : Type} [Bus β]

omit [Bus β] in
theorem Closes.config {done outcome : Outcome β} (closes : Closes done outcome) :
    outcome.cpu.core.config = done.cpu.core.config := by
  cases closes <;> rfl

theorem config_execute_of_none {cpu : Cpu} {bus : β} {word : Word}
    (silent : cpu.executeTrap bus word = none) :
    (cpu.execute bus word).cpu.core.config = cpu.core.config := by
  have marked (demand : Demand) : (cpu.core.mark demand).config = cpu.core.config :=
    Core.config_of_forgetOrders (Core.forgetOrders_mark _ _)
  rcases core_execute_of_none silent with ⟨next, notes, extra, issued, executed⟩ |
    ⟨load, value, -, executed⟩ | ⟨store, -, executed⟩
  · rw [executed, (Core.issueInstr_completes issued).config]
  · rw [executed, Core.config_receive, marked]
  · rw [executed, marked]

theorem config_operate (cpu : Cpu) (bus : β) (operation : Operation) :
    (cpu.operate bus operation).cpu.core.config = cpu.core.config := by
  rcases cpu.operate_courses bus operation with ⟨word, start, memory, ran⟩ |
    ⟨trap, core, memory, left⟩ | host
  · -- The fetch before the instruction changes search orders at most.
    rw [ran.closes.config, config_execute_of_none ran.silent, Core.config_of_forgetOrders ran.same]
  · have described := Core.config_of_forgetOrders left.same
    rw [left.closes.config]
    exact described
  · cases operation with
    | step | execute word => cases host
    | setSystemReg number value => exact Core.config_writeSystem _ _ _
    | setInput line asserted => exact Core.config_setInput _ _ _
    | _ => rfl

theorem config_session (cpu : Cpu) (bus : β) (operations : List Operation) :
    (cpu.session bus operations).2.cpu.core.config = cpu.core.config := by
  induction operations generalizing cpu bus with
  | nil => rfl
  | cons operation rest ih => exact (ih _ _).trans (cpu.config_operate bus operation)

theorem config_runFrom (cpu : Cpu) (bus : β) (budget : Nat) (earlier : List Note) :
    (cpu.runFrom bus budget earlier).cpu.core.config = cpu.core.config := by
  fun_induction runFrom cpu bus budget earlier with
  | case1 cpu bus earlier => rfl
  | case2 cpu bus budget earlier positive stepped cost ih =>
    exact ih.trans (cpu.config_operate bus .step)

theorem kind_operate (cpu : Cpu) (bus : β) (operation : Operation) :
    (cpu.operate bus operation).cpu.core.mmu.kind = cpu.core.mmu.kind := by
  rw [Mmu.kind_of_forgetOrders (cpu.mmu_operate bus operation), Mmu.kind_store]

end

/-- A processor keeps what was built into it. -/
theorem Leads.installed {allowed : Operation → Prop} {config : Config} {cpu : Cpu}
    (run : Leads allowed (Cpu.build config).1 cpu) :
    cpu.core.config = config ∧ cpu.core.mmu.kind = config.mapping := by
  apply run.keeps (P := fun cpu => cpu.core.config = config ∧ cpu.core.mmu.kind = config.mapping)
  · rintro β _ cpu bus operation - ⟨described, kind⟩
    exact ⟨(config_operate cpu bus operation).trans described,
      (kind_operate cpu bus operation).trans kind⟩
  · refine ⟨rfl, ?_⟩
    change ((Mmu.ofMapping config.mapping).mapBuffer Tlb.resetOrders).kind = config.mapping
    rw [Mmu.kind_mapBuffer, Mmu.kind_ofMapping]

end Cpu

end R3000
