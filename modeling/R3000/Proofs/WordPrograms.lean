import R3000.Proofs.Demands
import R3000.Proofs.Disguises
import R3000.Proofs.Reachability
import R3000.Proofs.Translation
import R3000.Proofs.WordMemory

/-!
# Programs that move words only

The byte order matters to what takes a word apart: loads and stores of bytes and halves, which
find their part of a word by its address, and those of unaligned words. A program without them
cannot tell the byte order of its processor or of its memory.

Two processors that differ in the byte order only, on memories that hold the same aligned words,
issue the same accesses, all of aligned words, which are answered alike. So they stay the same
but for the byte order, in each step and hence over whole runs.
-/
namespace R3000

/-- The instruction moves a byte, a half, or a part of an unaligned word. -/
def Instr.isNarrow : Instr → Bool
  | load op _ _ _ => op != .word
  | store op _ _ _ => op != .word
  | _ => false

theorem Instr.isPart_of_wide {instr : Instr} (wide : instr.isNarrow = false) :
    instr.isPart = false := by
  cases instr with
  | load op rt base offset =>
    cases op with
    | word => rfl
    | _ => cases wide
  | store op rt base offset =>
    cases op with
    | word => rfl
    | _ => cases wide
  | _ => rfl

/-! ### What words are moved by -/

/-- An access that is asked for is one of a word, whose address has to be aligned. What is stored
replaces the whole word. -/
def Issue.MovesWords : Issue → Prop
  | .load access => access.width = .word ∧ access.checked = true
  | .store access =>
    access.width = .word ∧ access.checked = true ∧ access.mask = fullMask access.width
  | .retire _ _ _ | .raise _ => True

namespace Core

section

variable (core : Core) (random : Fin 64) (word : Word)

theorem issueFloat_movesWords (float : FloatInstr) : (core.issueFloat word float).MovesWords := by
  simp only [issueFloat]
  split
  · trivial
  · cases core.fpu with
    | none => trivial
    | some unit =>
      cases float with
      | load ft base offset => exact ⟨rfl, rfl⟩
      | store ft base offset => exact ⟨rfl, rfl, rfl⟩
      | controlFrom rt fs | controlTo rt fs =>
        simp only [issueFloatOn]
        split <;> trivial
      | _ => trivial

theorem issueSystem_movesWords (op : SystemOp) : (core.issueSystem random word op).MovesWords := by
  simp only [issueSystem]
  split
  · trivial
  · cases op with
    | tlb op =>
      simp only
      split
      · cases op <;> trivial
      · trivial
    | _ => trivial

/-- What is not narrow moves aligned words only, or nothing. -/
theorem issueInstr_movesWords {instr : Instr} (wide : instr.isNarrow = false) :
    (core.issueInstr random word instr).MovesWords := by
  cases instr with
  | load op rt base offset =>
    cases op with
    | word => exact ⟨rfl, rfl⟩
    | _ => cases wide
  | store op rt base offset =>
    cases op with
    | word => exact ⟨rfl, rfl, rfl⟩
    | _ => cases wide
  | checked op rd rs rt | checkedImmediate rt rs operand =>
    simp only [issueInstr]
    split <;> trivial
  | divide signed rs rt =>
    simp only [issueInstr, issueDivide]
    split <;> trivial
  | system op => exact core.issueSystem_movesWords random word op
  -- The unit loads and stores halves of its registers, which are words.
  | float float => exact core.issueFloat_movesWords word float
  | foreign unit branch =>
    simp only [issueInstr, issueForeign]
    split
    · trivial
    · split <;> trivial
  | _ => trivial

end

/-! ### The other byte order -/

/-- The core with another byte order in its description. -/
def withByteOrder (core : Core) (order : ByteOrder) : Core :=
  { core with config := core.config.withByteOrder order }

theorem disguised_byteOrder (core : Core) (order : ByteOrder) :
    core.disguised (.byteOrder order) = core.withByteOrder order := by
  have unchanged : core.mmu.mapBuffer (Disguise.byteOrder order).buffer = core.mmu := by
    cases core.mmu <;> rfl
  simp only [disguised, unchanged]
  rfl

theorem mark_withByteOrder (core : Core) (order : ByteOrder) (demand : Demand) :
    (core.withByteOrder order).mark demand = (core.mark demand).withByteOrder order := by
  have sameRoute : route (core.withByteOrder order).userMode demand.address =
      route core.userMode demand.address := rfl
  simp only [mark, touch, sameRoute]
  cases route core.userMode demand.address <;> rfl

theorem receive_withByteOrder (core : Core) (order : ByteOrder) (destination : Destination)
    {width : Width} (value : BitVec width.bits) :
    (core.withByteOrder order).receive destination value =
      (core.receive destination value).withByteOrder order := by
  simp only [← disguised_byteOrder, receive_disguised]

end Core

namespace Cpu

/-- The processor with another byte order in its description. -/
def withByteOrder (cpu : Cpu) (order : ByteOrder) : Cpu :=
  { cpu with core := cpu.core.withByteOrder order }

theorem mark_withByteOrder (cpu : Cpu) (order : ByteOrder) (demand : Demand) :
    (cpu.withByteOrder order).mark demand = (cpu.mark demand).withByteOrder order :=
  congrArg (fun core => { cpu with core }) (cpu.core.mark_withByteOrder order demand)

end Cpu

/-- The outcomes of two processors that are the same but for the byte order of the second, and
of two memories that are related. -/
structure Outcome.Echoes {β γ : Type} (related : β → γ → Prop) (order : ByteOrder)
    (first : Outcome β) (second : Outcome γ) : Prop where
  cpu : second.cpu = first.cpu.withByteOrder order
  notes : second.notes = first.notes
  memories : related first.bus second.bus

namespace Cpu

/-! ### One step -/

section

variable {β γ : Type} {related : β → γ → Prop} {bus : β} {bus' : γ}

theorem trap_echoes (same : related bus bus') (cpu : Cpu) (order : ByteOrder) (trap : Trap) :
    (cpu.trap bus trap).Echoes related order ((cpu.withByteOrder order).trap bus' trap) :=
  ⟨rfl, rfl, same⟩

variable [Bus β] [Bus γ]

/-- Data accesses of aligned words find the same, in the memories as in the caches. -/
theorem readData_echoes (follows : Bus.Follows related Request.AlignedWord id)
    (same : related bus bus') (cpu : Cpu) (order : ByteOrder) {place : Word}
    (aligned : Width.word.aligned place = true) :
    ((cpu.withByteOrder order).readData bus' .word place).1 = (cpu.readData bus .word place).1 ∧
      related (cpu.readData bus .word place).2
        ((cpu.withByteOrder order).readData bus' .word place).2 := by
  have sameSpace : (cpu.withByteOrder order).core.space = cpu.core.space := rfl
  simp only [readData, sameSpace]
  cases cpu.core.space with
  | program =>
    obtain ⟨answers, still⟩ := follows.read same ⟨rfl, aligned⟩
    exact ⟨answers.symm, still⟩
  | instructionCache | dataCache => exact ⟨rfl, same⟩

theorem writeData_echoes (follows : Bus.Follows related Request.AlignedWord id)
    (same : related bus bus') (cpu : Cpu) (order : ByteOrder) {place : Word}
    (aligned : Width.word.aligned place = true) (value mask : Word) :
    let first := cpu.writeData bus .word place value mask
    let second := (cpu.withByteOrder order).writeData bus' .word place value mask
    second.1 = first.1 ∧ second.2.1 = first.2.1.withByteOrder order ∧
      related first.2.2 second.2.2 := by
  have sameSpace : (cpu.withByteOrder order).core.space = cpu.core.space := rfl
  simp only [writeData, sameSpace]
  cases cpu.core.space with
  | program =>
    obtain ⟨answers, still⟩ := follows.write same ⟨rfl, aligned⟩
    exact ⟨answers.symm, rfl, still⟩
  | instructionCache | dataCache => exact ⟨rfl, rfl, same⟩

theorem load_echoes (follows : Bus.Follows related Request.AlignedWord id)
    (same : related bus bus') (cpu : Cpu) (order : ByteOrder) {load : Load}
    (wide : load.width = .word) (checked : load.checked = true) :
    (cpu.load bus load).Echoes related order ((cpu.withByteOrder order).load bus' load) := by
  have samePlace : (cpu.withByteOrder order).core.place load.demand =
      cpu.core.place load.demand := rfl
  rw [load_eq, load_eq, samePlace]
  cases placed : cpu.core.place load.demand with
  | error trap => exact trap_echoes same cpu order trap
  | ok place =>
    have aligned := Core.aligned_of_place placed (.inl checked)
    obtain ⟨width, address, checked, destination⟩ := load
    -- From here on the value that is loaded is a word.
    cases wide
    obtain ⟨answers, still⟩ := readData_echoes follows same cpu order aligned
    simp only [answers, mark_withByteOrder]
    split
    · exact trap_echoes still (cpu.mark _) order _
    next value _ =>
      have received (demand : Demand) :
          ((cpu.withByteOrder order).core.mark demand).receive destination value =
            ((cpu.core.mark demand).receive destination value).withByteOrder order := by
        rw [← Core.receive_withByteOrder, ← Core.mark_withByteOrder]
        rfl
      exact ⟨congrArg (fun core => { cpu with core }) (received _), rfl, still⟩

theorem store_echoes (follows : Bus.Follows related Request.AlignedWord id)
    (same : related bus bus') (cpu : Cpu) (order : ByteOrder) {store : Store}
    (wide : store.width = .word) (checked : store.checked = true) :
    (cpu.store bus store).Echoes related order ((cpu.withByteOrder order).store bus' store) := by
  have samePlace : (cpu.withByteOrder order).core.place store.demand =
      cpu.core.place store.demand := rfl
  rw [store_eq, store_eq, samePlace]
  cases placed : cpu.core.place store.demand with
  | error trap => exact trap_echoes same cpu order trap
  | ok place =>
    have aligned := Core.aligned_of_place placed (.inl checked)
    obtain ⟨width, address, checked, value, mask⟩ := store
    cases wide
    obtain ⟨answers, written, still⟩ := writeData_echoes follows same cpu order aligned value mask
    simp only [answers, mark_withByteOrder]
    split
    · exact trap_echoes still (cpu.mark _) order _
    · refine ⟨?_, rfl, still⟩
      simp only [written]
      -- The caches are the same, and the core has moved the same search order.
      exact congrArg (fun core => { (cpu.writeData bus .word place value mask).2.1 with core })
        (cpu.core.mark_withByteOrder order _)

theorem execute_echoes (follows : Bus.Follows related Request.AlignedWord id)
    (same : related bus bus') (cpu : Cpu) (order : ByteOrder) {word : Word}
    (wide : (decode word).isNarrow = false) :
    (cpu.execute bus word).Echoes related order
      ((cpu.withByteOrder order).execute bus' word) := by
  have issued : (cpu.withByteOrder order).core.issue cpu.random word =
      (cpu.core.issue cpu.random word).disguised (.byteOrder order) := by
    have hidden := Core.issueInstr_disguised cpu.core (.byteOrder order) cpu.random word
      (.inr (Instr.isPart_of_wide wide))
    rwa [Core.disguised_byteOrder] at hidden
  have sameRandom : (cpu.withByteOrder order).random = cpu.random := rfl
  have moved : (cpu.core.issue cpu.random word).MovesWords :=
    cpu.core.issueInstr_movesWords cpu.random word wide
  -- Both are issued the same, so it is enough to follow each kind of issue.
  simp only [Cpu.execute, sameRandom, issued]
  generalize cpu.core.issue cpu.random word = issue at moved
  cases issue with
  | retire core notes extra =>
    have retired := core.disguised_byteOrder order
    exact ⟨congrArg (fun core => { cpu with core }.tick extra) retired, rfl, same⟩
  | raise trap => exact trap_echoes same cpu order trap
  | load load => exact load_echoes follows same cpu order moved.1 moved.2
  | store store => exact store_echoes follows same cpu order moved.1 moved.2.1

theorem fetch_echoes (follows : Bus.Follows related Request.AlignedWord id)
    (same : related bus bus') (cpu : Cpu) (order : ByteOrder) :
    ((cpu.withByteOrder order).fetch bus').1 = (cpu.fetch bus).1 ∧
      ((cpu.withByteOrder order).fetch bus').2.1 = (cpu.fetch bus).2.1.withByteOrder order ∧
        related (cpu.fetch bus).2.2 ((cpu.withByteOrder order).fetch bus').2.2 := by
  have samePlace : (cpu.withByteOrder order).core.place (cpu.withByteOrder order).core.fetchDemand =
      cpu.core.place cpu.core.fetchDemand := rfl
  rw [fetch_eq, fetch_eq, samePlace]
  cases placed : cpu.core.place cpu.core.fetchDemand with
  | error trap => exact ⟨rfl, rfl, same⟩
  | ok place =>
    have aligned := Core.aligned_of_place placed (.inl rfl)
    have fine : (Request.read .word place).AlignedWord := ⟨rfl, aligned⟩
    obtain ⟨answers, still⟩ := follows.read same fine
    simp only [answers, mark_withByteOrder]
    split <;> exact ⟨rfl, rfl, still⟩

theorem step_echoes (follows : Bus.Follows related Request.AlignedWord id)
    (same : related bus bus') (cpu : Cpu) (order : ByteOrder)
    (wide : ∀ word ∈ cpu.executed? bus .step, (decode word).isNarrow = false) :
    (cpu.step bus).Echoes related order ((cpu.withByteOrder order).step bus') := by
  have ticked : (cpu.withByteOrder order).tick 1 = (cpu.tick 1).withByteOrder order := rfl
  obtain ⟨answers, found, still⟩ := fetch_echoes follows same (cpu.tick 1) order
  have performed :
      ((cpu.tick 1).perform bus).Echoes related order
        (((cpu.tick 1).withByteOrder order).perform bus') := by
    simp only [executed?] at wide
    simp only [Cpu.perform]
    generalize (cpu.tick 1).fetch bus = one at answers found still wide ⊢
    generalize ((cpu.tick 1).withByteOrder order).fetch bus' = two at answers found still ⊢
    obtain ⟨answer, fetched, memory⟩ := one
    obtain ⟨answer', fetched', memory'⟩ := two
    simp only at answers found still
    subst answers found
    -- Both have fetched the same answer, so both take the same course.
    cases answer' with
    | error trap => exact trap_echoes still fetched order trap
    | ok word =>
      have sameSystem : (fetched.withByteOrder order).core.system = fetched.core.system := rfl
      simp only [sameSystem]
      cases pending : fetched.core.system.interruptPending with
      | true => exact trap_echoes still fetched order .interrupt
      | false =>
        simp only [pending, Bool.false_eq_true, if_false, Option.mem_some_iff, forall_eq'] at wide
        exact execute_echoes follows still fetched order wide
  -- Going on to the next instruction does not concern the byte order.
  obtain ⟨cpus, notes, memories⟩ := performed
  refine ⟨?_, notes, memories⟩
  simp only [Cpu.step, ticked, advance, cpus]
  rfl

/-- Whatever a host does between two instructions does not concern the byte order. -/
theorem operate_echoes (follows : Bus.Follows related Request.AlignedWord id)
    (same : related bus bus') (cpu : Cpu) (order : ByteOrder) (operation : Operation)
    (wide : ∀ word ∈ cpu.executed? bus operation, (decode word).isNarrow = false) :
    (cpu.operate bus operation).Echoes related order
      ((cpu.withByteOrder order).operate bus' operation) := by
  cases operation with
  | step => exact step_echoes follows same cpu order wide
  | execute word => exact execute_echoes follows same cpu order (wide word rfl)
  | reset => exact ⟨rfl, rfl, same⟩
  | setPc pc => exact ⟨rfl, rfl, same⟩
  | setGpr number value => exact ⟨rfl, rfl, same⟩
  | setFpr number value => exact ⟨rfl, rfl, same⟩
  | setCondition unit condition => exact ⟨rfl, rfl, same⟩
  | setSystemReg number value =>
    have written := cpu.core.writeSystem_disguised (.byteOrder order) number value
    simp only [Core.disguised_byteOrder] at written
    exact ⟨congrArg (fun result => { cpu with core := result.1 }) written,
      (congrArg Prod.snd written :), same⟩
  | setInput line asserted =>
    have driven := cpu.core.setInput_disguised (.byteOrder order) line asserted
    simp only [Core.disguised_byteOrder] at driven
    exact ⟨congrArg (fun result => { cpu with core := result.1 }) driven,
      (congrArg Prod.snd driven :), same⟩

/-! ### Sessions -/

theorem session_echoes (follows : Bus.Follows related Request.AlignedWord id)
    (same : related bus bus') (cpu : Cpu) (order : ByteOrder) {operations : List Operation}
    (wide : ∀ word ∈ cpu.sessionWords bus operations, (decode word).isNarrow = false) :
    ((cpu.withByteOrder order).session bus' operations).1 = (cpu.session bus operations).1 ∧
      (cpu.session bus operations).2.Echoes related order
        ((cpu.withByteOrder order).session bus' operations).2 := by
  -- By induction on the operations, over all states: each leaves a state to which the rest applies.
  induction operations generalizing cpu bus bus' with
  | nil => exact ⟨rfl, rfl, rfl, same⟩
  | cons operation rest ih =>
    simp only [sessionWords, List.forall_mem_append] at wide
    obtain ⟨now, later⟩ := wide
    have stepped := operate_echoes follows same cpu order operation
      fun word executed => now word (Option.mem_toList.mpr executed)
    obtain ⟨costs, cpus, notes, memories⟩ := ih stepped.memories _ later
    rw [← stepped.cpu] at costs cpus notes memories
    have cycles : ((cpu.withByteOrder order).operate bus' operation).cpu.cycles =
        (cpu.operate bus operation).cpu.cycles := (congrArg Cpu.cycles stepped.cpu :)
    have elapsed : (cpu.withByteOrder order).elapsed
          ((cpu.withByteOrder order).operate bus' operation) =
        cpu.elapsed (cpu.operate bus operation) := congrArg (· - cpu.cycles) cycles
    refine ⟨?_, cpus, ?_, memories⟩
    · simp only [session, elapsed, costs]
    · simp only [session, stepped.notes, notes]

end

/-- The byte order is invisible to programs that move words only. Two processors differ in the
byte order of their descriptions alone, and work on memories with the same aligned words, in
whatever byte orders. Whatever the host does with them, for as long as no instruction is executed
that moves a byte, a half or a part of an unaligned word, they take the same cycles and notes,
make the same calls on their memories with the same answers, and are again the same but for their
byte order, on memories with the same aligned words. -/
theorem session_ignores_byteOrder (cpu : Cpu) (order : ByteOrder) {ram other : Ram}
    (same : ram.SameWords other) {operations : List Operation}
    (wide : ∀ word ∈ cpu.sessionWords (Watched.start ram) operations,
      (decode word).isNarrow = false) (count : Nat) :
    let first := cpu.session (Watched.start ram) (operations.take count)
    let second := (cpu.withByteOrder order).session (Watched.start other) (operations.take count)
    second.1 = first.1 ∧ second.2.cpu = first.2.cpu.withByteOrder order ∧
      second.2.notes = first.2.notes ∧ second.2.bus.history = first.2.bus.history ∧
      first.2.bus.memory.SameWords second.2.bus.memory := by
  have started : (Watched.start ram).memory.SameWords (Watched.start other).memory ∧
      (Watched.start ram).calls = (Watched.start other).calls := ⟨same, rfl⟩
  obtain ⟨costs, cpus, notes, still, calls⟩ :=
    session_echoes Ram.follows_sameWords.watched started cpu order
      fun word executed => wide word (sessionWords_take executed)
  exact ⟨costs, cpus, notes, congrArg List.reverse calls.symm, still⟩

/-- Three words at the boot vector, which load the fourth and store it after itself. The fourth is
reserved. -/
def copyWord : List Word := [0x3c02bfc0, 0x8c41000c, 0xac410010, 0xfc000000]

def copyWordIn (order : ByteOrder) : Ram :=
  ((Ram.zeroed 0x1fc00000 20 order).loadWords 0x1fc00000 copyWord).1

/-- In both byte orders the word is copied, which leaves different bytes. -/
theorem session_ignores_byteOrder_copy :
    let cpu := (Cpu.build (.ofModel .r3000A)).1
    let steps := List.replicate 4 Operation.step
    let first := cpu.session (Watched.start (copyWordIn .big)) steps
    let second := (cpu.withByteOrder .little).session (Watched.start (copyWordIn .little)) steps
    second.1 = first.1 ∧ second.2.cpu = first.2.cpu.withByteOrder .little ∧
      second.2.bus.history = first.2.bus.history ∧ first.2.cpu.gpr 1 = 0xfc000000 ∧
      first.2.bus.memory.read .word 0x1fc00010 = .ok 0xfc000000 ∧
      second.2.bus.memory.read .word 0x1fc00010 = .ok 0xfc000000 ∧
      first.2.bus.memory.data ≠ second.2.bus.memory.data := by
  have same : (copyWordIn .big).SameWords (copyWordIn .little) :=
    ((Ram.sameWords_zeroed 0x1fc00000 20 .big .little).loadWords (by decide) copyWord).1
  have executed : (Cpu.build (.ofModel .r3000A)).1.sessionWords (Watched.start (copyWordIn .big))
      (List.replicate 4 .step) = copyWord := by
    decide +kernel
  have wide : ∀ word ∈ copyWord, (decode word).isNarrow = false := by
    simp only [copyWord, List.forall_mem_cons]
    exact ⟨rfl, rfl, rfl, rfl, List.forall_mem_nil _⟩
  rw [← executed] at wide
  obtain ⟨costs, cpus, -, calls, words⟩ := session_ignores_byteOrder _ .little same wide 4
  have stored := words 0x1fc00010 (by decide)
  have loaded : ((Cpu.build (.ofModel .r3000A)).1.session (Watched.start (copyWordIn .big))
      (List.replicate 4 .step)).2.bus.memory.read .word 0x1fc00010 = .ok 0xfc000000 := by rfl
  exact ⟨costs, cpus, calls, by decide +kernel, loaded, stored.symm.trans loaded,
    by decide +kernel⟩

end Cpu

end R3000
