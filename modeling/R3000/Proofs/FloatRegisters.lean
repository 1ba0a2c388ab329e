import Mathlib.Logic.Function.Basic
import R3000.Proofs.StickyControl

/-!
# The registers of the floating point unit

One storage is seen in two ways. Moves and loads name one of thirty-two single registers: the half
of a pair that the parity of the number says. Arithmetic names a pair by either of its two numbers.
A result of double precision takes the whole pair, and every other result its low half.

So an instruction writes at most what its destination covers, and in particular the single registers
are cells of their own to the instructions that move single words.
-/
namespace R3000

open Floating

/-! ### The single registers of a unit -/

/-- Contents of the single registers. -/
abbrev Cells := RegNum → Word

/-- The single registers that a result is stored in. -/
def Precision.covers (precision : Precision) (fd reg : RegNum) : Prop :=
  FloatUnit.pairOf reg = FloatUnit.pairOf fd ∧ (precision = .single → reg.val % 2 = 0)

/-- The precision and the destination of a computational operation. A word is stored like a number
of single precision. -/
def FloatOp.target? : FloatOp → Option (Precision × RegNum)
  | .binary _ precision fd _ _ => some (precision, fd)
  | .abs precision fd _ | .neg precision fd _ | .ofWord precision fd _ => some (precision, fd)
  | .widen fd _ => some (.double, fd)
  | .narrow fd _ | .toWord _ fd _ => some (.single, fd)
  | .move _ _ _ | .compare _ _ _ _ => none

namespace FloatUnit

/-- The single register that is the low half of a pair. -/
def lowOf (index : Fin 16) : RegNum := ⟨2 * index.val, by omega⟩

/-- The single register that is the high half of a pair. -/
def highOf (index : Fin 16) : RegNum := ⟨2 * index.val + 1, by omega⟩

@[simp] theorem pairOf_lowOf (index : Fin 16) : pairOf (lowOf index) = index :=
  Fin.ext (Nat.mul_div_cancel_left _ (by decide))

@[simp] theorem pairOf_highOf (index : Fin 16) : pairOf (highOf index) = index := by
  apply Fin.ext
  simp only [highOf, pairOf]
  omega

theorem lowOf_ne_highOf (index : Fin 16) : lowOf index ≠ highOf index := by
  intro same
  have equal := congrArg Fin.val same
  simp only [lowOf, highOf] at equal
  omega

/-- A register is one of the two halves of its pair. -/
theorem eq_lowOf_or_highOf (reg : RegNum) :
    reg = lowOf (pairOf reg) ∨ reg = highOf (pairOf reg) := by
  rcases Nat.mod_two_eq_zero_or_one reg.val with even | odd
  · exact .inl (Fin.ext (by simp only [lowOf, pairOf]; omega))
  · exact .inr (Fin.ext (by simp only [highOf, pairOf]; omega))

section

variable (unit : FloatUnit)

theorem half_lowOf (index : Fin 16) : unit.half (lowOf index) = lowHalf (unit.pair index) := by
  have even : (lowOf index).val % 2 = 0 := Nat.mul_mod_right 2 _
  simp [half, even]

theorem half_highOf (index : Fin 16) : unit.half (highOf index) = highHalf (unit.pair index) := by
  have odd : (highOf index).val % 2 = 1 := Nat.mul_add_mod 2 _ 1
  simp [half, odd]

/-- A pair is its two halves. -/
theorem pair_eq_halves (index : Fin 16) :
    unit.pair index = unit.half (highOf index) ++ unit.half (lowOf index) := by
  rw [half_highOf, half_lowOf]
  exact (join_words _).symm

theorem half_setHalf_eq (reg : RegNum) (word : Word) :
    (unit.setHalf reg word).half = Function.update unit.half reg word := by
  funext other
  rw [half_setHalf, Function.update_apply]

theorem pair_setPair_eq (index : Fin 16) (value : BitVec 64) :
    (unit.setPair index value).pair = Function.update unit.pair index value := by
  funext other
  rw [pair_setPair, Function.update_apply]

theorem half_setPair_of_ne {index : Fin 16} {reg : RegNum} (value : BitVec 64)
    (other : pairOf reg ≠ index) : (unit.setPair index value).half reg = unit.half reg := by
  simp only [half, pair_setPair, if_neg other]

/-- A pair that is written is both of its halves written. -/
theorem half_setPair (index : Fin 16) (value : BitVec 64) :
    (unit.setPair index value).half =
      Function.update (Function.update unit.half (lowOf index) (lowHalf value)) (highOf index)
        (highHalf value) := by
  funext reg
  by_cases paired : pairOf reg = index
  · have halves := eq_lowOf_or_highOf reg
    rw [paired] at halves
    rcases halves with rfl | rfl
    · rw [half_lowOf, pair_setPair, if_pos rfl, Function.update_of_ne (lowOf_ne_highOf index),
        Function.update_self]
    · rw [half_highOf, pair_setPair, if_pos rfl, Function.update_self]
  · have notLow : reg ≠ lowOf index := by
      rintro rfl
      exact paired (pairOf_lowOf index)
    have notHigh : reg ≠ highOf index := by
      rintro rfl
      exact paired (pairOf_highOf index)
    rw [half_setPair_of_ne unit value paired, Function.update_of_ne notHigh,
      Function.update_of_ne notLow]

end

variable {unit : FloatUnit}

theorem half_of_pairs {after : FloatUnit} (same : after.pairs = unit.pairs) :
    after.half = unit.half := by
  funext reg
  simp only [half, pair, same]

/-- What a result does not cover stays as it is. -/
theorem half_setResult {precision : Precision} {fd reg : RegNum}
    (bits : BitVec precision.format.width) (outside : ¬precision.covers fd reg) :
    (unit.setResult precision fd bits).half reg = unit.half reg := by
  by_cases paired : pairOf reg = pairOf fd
  · cases precision with
    | double => exact absurd ⟨paired, nofun⟩ outside
    | single =>
      have odd : reg.val % 2 = 1 := by
        rcases Nat.mod_two_eq_zero_or_one reg.val with even | odd
        · exact absurd ⟨paired, fun _ => even⟩ outside
        · exact odd
      simp [half, setResult, setLow, pair_setPair, paired, odd]
  · cases precision <;> exact unit.half_setPair_of_ne _ paired

/-- Whether its result is stored or dropped, a computation leaves what it does not cover. -/
theorem half_execute {op : FloatOp} {computation : Computation} {reg : RegNum}
    (computes : unit.computation? op = some computation)
    (outside : ¬computation.precision.covers computation.fd reg) :
    (unit.execute op).1.half reg = unit.half reg := by
  rw [execute_of_computation computes, commit_eq]
  cases dropped : unit.drops computation.answer.flags with
  | true => exact congrFun (half_of_pairs rfl) reg
  | false =>
    have stored : (unit.store computation).half reg = unit.half reg :=
      half_setResult computation.answer.bits outside
    exact (congrFun (half_of_pairs rfl) reg).trans stored

end FloatUnit

/-! ### Instructions -/

/-- The instruction writes registers of the unit. -/
def Instr.writesFloat : Instr → Bool
  | .float (.moveTo _ _) | .float (.load _ _ _) => true
  | .float (.operate (.compare _ _ _ _)) => false
  | .float (.operate _) => true
  | _ => false

/-- The instruction moves a word into a single register, from a general register, from memory or
from another one. -/
def Instr.movesSingle : Instr → Bool
  | .float (.moveTo _ _) | .float (.load _ _ _) | .float (.operate (.move .single _ _)) => true
  | _ => false

/-- The instruction writes no register of the unit, or moves a word into a single one. -/
def Instr.sparesPairs (instr : Instr) : Bool := instr.movesSingle || !instr.writesFloat

theorem Instr.cases_of_movesSingle {instr : Instr} (moves : instr.movesSingle = true) :
    (∃ rt fs, instr = .float (.moveTo rt fs)) ∨
      (∃ ft base offset, instr = .float (.load ft base offset)) ∨
      ∃ fd fs, instr = .float (.operate (.move .single fd fs)) := by
  unfold movesSingle at moves
  split at moves
  next rt fs => exact .inl ⟨rt, fs, rfl⟩
  next ft base offset => exact .inr (.inl ⟨ft, base, offset, rfl⟩)
  next fd fs => exact .inr (.inr ⟨fd, fs, rfl⟩)
  · cases moves

namespace Cpu

variable {β : Type} [Bus β]

/-- What becomes of the registers of the unit when an instruction completes. -/
def RegisterLaw (cpu : Cpu) (bus : β) (unit after : FloatUnit) : Instr → Prop
  | .float (.moveTo rt fs) => after.half = Function.update unit.half fs (cpu.core.reg rt)
  | .float (.load ft base offset) =>
    ∃ place word,
      cpu.core.place ⟨.word, cpu.core.effectiveAddress base offset, true, .read⟩ = .ok place ∧
        (cpu.readData bus .word place).1 = .ok word ∧
        after.half = Function.update unit.half ft word
  | .float (.operate (.move .single fd fs)) =>
    after.half = Function.update unit.half fd (unit.half fs)
  | .float (.operate (.move .double fd fs)) =>
    after.pair = Function.update unit.pair (FloatUnit.pairOf fd) (unit.pair (FloatUnit.pairOf fs))
  | .float (.operate op) =>
    match op.target? with
    | some (precision, fd) => ∀ reg, ¬precision.covers fd reg → after.half reg = unit.half reg
    | none => after.half = unit.half
  | _ => after.half = unit.half

section

variable {cpu : Cpu} {bus : β} {unit after : FloatUnit}

/-- An instruction that writes no registers leaves them as they are. -/
theorem registerLaw_iff_of_reads {instr : Instr} (reads : instr.writesFloat = false) :
    cpu.RegisterLaw bus unit after instr ↔ after.half = unit.half := by
  unfold RegisterLaw
  split
  · cases reads
  · cases reads
  · cases reads
  · cases reads
  next op single double =>
    cases op with
    | compare precision predicate fs ft => exact Iff.rfl
    | _ => cases reads
  · exact Iff.rfl

theorem registerLaw_execute_op (op : FloatOp) :
    cpu.RegisterLaw bus unit (unit.execute op).1 (.float (.operate op)) := by
  cases op with
  | move precision fd fs =>
    cases precision with
    | single => exact unit.half_setHalf_eq fd (unit.half fs)
    | double => exact unit.pair_setPair_eq _ _
  | compare precision predicate fs ft => exact FloatUnit.half_of_pairs rfl
  | _ => exact fun reg outside => FloatUnit.half_execute rfl outside

theorem pairs_setControl {next : FloatUnit} {reg : RegNum} {word : Word} {update : LineUpdate}
    (written : unit.setControl? reg word = some (next, update)) : next.pairs = unit.pairs := by
  simp only [FloatUnit.setControl?] at written
  split at written <;> cases written <;> rfl

/-- An instruction that completes when it is issued does to the registers what the law says. -/
theorem registerLaw_issueFloat {word : Word} {float : FloatInstr} {next : Core} {notes : List Note}
    {extra : Nat} (present : cpu.core.fpu = some unit)
    (done : cpu.core.issueFloat word float = .retire next notes extra) :
    ∃ after, next.fpu = some after ∧ cpu.RegisterLaw bus unit after (.float float) := by
  simp only [Core.issueFloat, present] at done
  split at done
  · cases done
  · cases float with
    | moveFrom rt fs =>
      cases done
      exact ⟨unit, present, rfl⟩
    | moveTo rt fs =>
      cases done
      exact ⟨_, rfl, unit.half_setHalf_eq fs (cpu.core.reg rt)⟩
    | controlFrom rt fs =>
      simp only [Core.issueFloatOn] at done
      split at done <;> cases done <;> exact ⟨unit, present, rfl⟩
    | controlTo rt fs =>
      simp only [Core.issueFloatOn] at done
      split at done
      next written =>
        cases done
        exact ⟨_, Core.fpu_updateUnit _ _ _, FloatUnit.half_of_pairs (pairs_setControl written)⟩
      next ignored =>
        cases done
        exact ⟨unit, present, rfl⟩
    | branch branch =>
      cases done
      exact ⟨unit, (Core.fpu_branchIf _ _ _ _).trans present, rfl⟩
    | load ft base offset | store ft base offset => cases done
    | operate op =>
      cases done
      exact ⟨_, Core.fpu_updateUnit _ _ _, registerLaw_execute_op op⟩
    | unimplemented =>
      cases done
      exact ⟨_, Core.fpu_updateUnit cpu.core unit.unimplemented (some true),
        FloatUnit.half_of_pairs rfl⟩

theorem registerLaw_issueInstr {word : Word} {instr : Instr} {next : Core} {notes : List Note}
    {extra : Nat} {random : Fin 64} (present : cpu.core.fpu = some unit)
    (done : cpu.core.issueInstr random word instr = .retire next notes extra) :
    ∃ after, next.fpu = some after ∧ cpu.RegisterLaw bus unit after instr := by
  cases instr with
  | float float => exact registerLaw_issueFloat present done
  | _ =>
    refine ⟨unit, (Core.fpu_issueInstr done ?_).trans present, rfl⟩
    rintro float ⟨⟩

/-- A load that raises nothing has found its place and received what the memory answered there. -/
theorem core_load_of_none {load : Load} (silent : cpu.loadTrap bus load = none) :
    ∃ place value, cpu.core.place load.demand = .ok place ∧
      (cpu.readData bus load.width place).1 = .ok value ∧
      (cpu.load bus load).cpu.core =
        (cpu.core.mark load.demand).receive load.destination value := by
  simp only [loadTrap] at silent
  cases placed : cpu.core.place load.demand with
  | error reason => simp [placed] at silent
  | ok place =>
    simp only [placed] at silent
    split at silent
    · cases silent
    next value answered =>
      refine ⟨place, value, rfl, answered, ?_⟩
      simp only [load_eq, placed, answered]

section

variable {core : Core} {word : Word} {instr : Instr} {random : Fin 64}

/-- What an instruction asks for reaches the unit only if it is a load of the unit itself. -/
theorem load_issued {load : Load} (issued : core.issueInstr random word instr = .load load) :
    (∃ ft base offset, instr = .float (.load ft base offset) ∧
        load = ⟨.word, core.effectiveAddress base offset, true, .float ft⟩) ∨
      instr.writesFloat = false ∧ ∀ ft, load.destination ≠ .float ft := by
  cases instr with
  | load op rt base offset =>
    cases issued
    cases op <;> exact .inr ⟨rfl, nofun⟩
  | float float =>
    simp only [Core.issueInstr, Core.issueFloat] at issued
    split at issued
    · cases issued
    · split at issued
      · cases float with
        | load ft base offset =>
          cases issued
          exact .inl ⟨ft, base, offset, rfl, rfl⟩
        | controlFrom rt fs | controlTo rt fs =>
          simp only [Core.issueFloatOn] at issued
          split at issued <;> cases issued
        | _ => cases issued
      · cases issued
  | checked op rd rs rt | checkedImmediate rt rs operand =>
    simp only [Core.issueInstr] at issued
    split at issued <;> cases issued
  | divide signed rs rt =>
    simp only [Core.issueInstr, Core.issueDivide] at issued
    split at issued <;> cases issued
  | system op =>
    have none := core.asks_issueSystem random word op
    rw [show core.issueSystem random word op = .load load from issued] at none
    cases none
  | foreign unit branch =>
    simp only [Core.issueInstr, Core.issueForeign] at issued
    split at issued
    · cases issued
    · split at issued <;> cases issued
  | _ => cases issued

theorem store_issued {store : Store} (issued : core.issueInstr random word instr = .store store) :
    instr.writesFloat = false := by
  cases instr with
  | float float =>
    simp only [Core.issueInstr, Core.issueFloat] at issued
    split at issued
    · cases issued
    · split at issued
      · cases float with
        | moveTo rt fs | load ft base offset | operate op => cases issued
        | _ => rfl
      · cases issued
  | _ => rfl

end

/-- What a load brings goes where the law says. -/
theorem registerLaw_load {word : Word} {instr : Instr} {random : Fin 64} {load : Load}
    (present : cpu.core.fpu = some unit)
    (issued : cpu.core.issueInstr random word instr = .load load)
    (silent : cpu.loadTrap bus load = none) :
    ∃ after, (cpu.load bus load).cpu.core.fpu = some after ∧
      cpu.RegisterLaw bus unit after instr := by
  obtain ⟨place, value, placed, answered, loaded⟩ := core_load_of_none silent
  have marked := (Core.fpu_of_forgetOrders (Core.forgetOrders_mark cpu.core load.demand)).trans
    present
  rw [loaded]
  rcases load_issued issued with ⟨ft, base, offset, rfl, rfl⟩ | ⟨reads, elsewhere⟩
  · refine ⟨unit.setHalf ft value, ?_, place, value, placed, answered,
      unit.half_setHalf_eq ft value⟩
    simp only [Core.receive, marked, Option.map_some, BitVec.setWidth_eq]
  · refine ⟨unit, ?_, (registerLaw_iff_of_reads reads).mpr rfl⟩
    obtain ⟨width, address, checked, destination⟩ := load
    cases destination with
    | float ft => exact absurd rfl (elsewhere ft)
    | _ => exact marked

/-- An instruction that enters no exception does to the registers of the unit what the law says. -/
theorem registerLaw_execute {word : Word} (present : cpu.core.fpu = some unit)
    (silent : cpu.executeTrap bus word = none) :
    ∃ after, (cpu.execute bus word).cpu.core.fpu = some after ∧
      cpu.RegisterLaw bus unit after (decode word) := by
  simp only [executeTrap] at silent
  simp only [execute]
  cases issued : cpu.core.issue cpu.random word with
  | retire next notes extra => exact registerLaw_issueInstr present issued
  | raise trap => simp [issued] at silent
  | load load =>
    simp only [issued] at silent
    exact registerLaw_load present issued silent
  | store store =>
    simp only [issued] at silent
    obtain ⟨icache, dcache, memory, stored⟩ := store_of_none silent
    have marked := Core.fpu_of_forgetOrders (Core.forgetOrders_mark cpu.core store.demand)
    simp only [stored]
    exact ⟨unit, marked.trans present, (registerLaw_iff_of_reads (store_issued issued)).mpr rfl⟩

/-- An exception is entered with the registers as they were. -/
theorem fpu_execute_of_trap {word : Word} {trap : Trap} (present : cpu.core.fpu = some unit)
    (raised : cpu.executeTrap bus word = some trap) :
    (cpu.execute bus word).cpu.core.fpu = some unit := by
  obtain ⟨memory, trapped⟩ := execute_of_trap raised
  rw [trapped]
  exact (Core.fpu_of_forgetOrders (Core.forgetOrders_marked cpu.core trap)).trans present

end

end Cpu

/-! ### Single registers as cells -/

/-- A word is put into a single register, or one of them is copied to another. -/
inductive Transfer where
  | put (reg : RegNum) (word : Word)
  | copy (target source : RegNum)
  deriving DecidableEq

/-- The cells after a transfer. -/
def Cells.transfer (cells : Cells) : Transfer → Cells
  | .put reg word => Function.update cells reg word
  | .copy target source => Function.update cells target (cells source)

/-- The host writes a register pair. -/
def Operation.setsPair : Operation → Bool
  | .setFpr _ _ => true
  | _ => false

namespace Cpu

variable {β : Type} [Bus β]

/-- The transfer that an operation makes if it completes an instruction that moves a single word,
and no transfer if it completes none. The instruction runs in the state and on the memory that the
fetch has left. -/
inductive Moves (cpu : Cpu) (bus : β) (operation : Operation) : List Transfer → Prop
  | general {word : Word} {start : Cpu} {memory : β} {rt fs : RegNum}
    (ran : cpu.Ran bus operation word start memory)
    (decoded : decode word = .float (.moveTo rt fs)) :
    Moves cpu bus operation [.put fs (start.core.reg rt)]
  | memory {word : Word} {start : Cpu} {memory : β} {ft base : RegNum} {offset place value : Word}
    (ran : cpu.Ran bus operation word start memory)
    (decoded : decode word = .float (.load ft base offset))
    (placed : start.core.place ⟨.word, start.core.effectiveAddress base offset, true, .read⟩ =
      .ok place)
    (answered : (start.readData memory .word place).1 = .ok value) :
    Moves cpu bus operation [.put ft value]
  | single {word : Word} {start : Cpu} {memory : β} {fd fs : RegNum}
    (ran : cpu.Ran bus operation word start memory)
    (decoded : decode word = .float (.operate (.move .single fd fs))) :
    Moves cpu bus operation [.copy fd fs]
  | nothing
    (others : ∀ word start memory, cpu.Ran bus operation word start memory →
      (decode word).movesSingle = false) :
    Moves cpu bus operation []

/-- The transfers that the operations of a session make, in their order. -/
inductive MovesAll : Cpu → β → List Operation → List Transfer → Prop
  | nil {cpu : Cpu} {bus : β} : MovesAll cpu bus [] []
  | cons {cpu : Cpu} {bus : β} {operation : Operation} {rest : List Operation}
    {moved others : List Transfer} (first : cpu.Moves bus operation moved)
    (later : MovesAll (cpu.operate bus operation).cpu (cpu.operate bus operation).bus rest others) :
    MovesAll cpu bus (operation :: rest) (moved ++ others)

section

variable {cpu start : Cpu} {bus memory : β} {operation : Operation} {word : Word}
  {unit : FloatUnit}

/-- The host leaves the registers of the unit alone unless it writes a pair. -/
theorem fpu_operate_of_host (present : cpu.core.fpu = some unit) (bus : β)
    (host : operation.runs = false) (spares : operation.setsPair = false) :
    (cpu.operate bus operation).cpu.core.fpu = some unit := by
  cases operation with
  | step | execute word => cases host
  | setFpr number value => cases spares
  | setSystemReg number value => exact (Core.fpu_writeSystem cpu.core number value).trans present
  | setInput line asserted => exact (Core.fpu_setInput cpu.core line asserted).trans present
  | _ => exact present

theorem Ran.registerLaw (ran : cpu.Ran bus operation word start memory)
    (present : cpu.core.fpu = some unit) :
    ∃ after, (cpu.operate bus operation).cpu.core.fpu = some after ∧
      start.RegisterLaw memory unit after (decode word) := by
  have begins := (Core.fpu_of_forgetOrders ran.same).trans present
  obtain ⟨after, executed, law⟩ := registerLaw_execute begins ran.silent
  exact ⟨after, ran.closes.fpu.trans executed, law⟩

/-- Every operation makes one of these transfers, or none. -/
theorem exists_moves (present : cpu.core.fpu = some unit) (bus : β) (operation : Operation) :
    ∃ moved, cpu.Moves bus operation moved := by
  by_cases single : ∃ word start memory, cpu.Ran bus operation word start memory ∧
      (decode word).movesSingle = true
  · obtain ⟨word, start, memory, ran, moves⟩ := single
    obtain ⟨after, -, law⟩ := ran.registerLaw present
    rcases Instr.cases_of_movesSingle moves with ⟨rt, fs, decoded⟩ | ⟨ft, base, offset, decoded⟩ |
      ⟨fd, fs, decoded⟩
    · exact ⟨_, .general ran decoded⟩
    · rw [decoded] at law
      obtain ⟨place, value, placed, answered, -⟩ := law
      exact ⟨_, .memory ran decoded placed answered⟩
    · exact ⟨_, .single ran decoded⟩
  · refine ⟨[], .nothing fun word start memory ran => ?_⟩
    cases moves : (decode word).movesSingle with
    | false => rfl
    | true => exact absurd ⟨word, start, memory, ran, moves⟩ single

/-- One operation does nothing to the cells but its transfer. -/
theorem half_of_moves {moved : List Transfer} (moves : cpu.Moves bus operation moved)
    (present : cpu.core.fpu = some unit)
    (spares : ∀ word, cpu.executed? bus operation = some word → (decode word).sparesPairs = true)
    (kept : operation.setsPair = false) :
    ∃ after, (cpu.operate bus operation).cpu.core.fpu = some after ∧
      after.half = moved.foldl Cells.transfer unit.half := by
  cases moves with
  | general ran decoded =>
    obtain ⟨after, found, law⟩ := ran.registerLaw present
    rw [decoded] at law
    exact ⟨after, found, law⟩
  | memory ran decoded placed answered =>
    obtain ⟨after, found, law⟩ := ran.registerLaw present
    rw [decoded] at law
    obtain ⟨place, value, again, read, put⟩ := law
    cases placed.symm.trans again
    cases answered.symm.trans read
    exact ⟨after, found, put⟩
  | single ran decoded =>
    obtain ⟨after, found, law⟩ := ran.registerLaw present
    rw [decoded] at law
    exact ⟨after, found, law⟩
  | nothing others =>
    rcases cpu.operate_courses bus operation with ⟨word, start, memory, ran⟩ |
      ⟨trap, core, memory, left⟩ | host
    · obtain ⟨after, found, law⟩ := ran.registerLaw present
      have reads : (decode word).writesFloat = false := by
        simpa [Instr.sparesPairs, others word start memory ran] using spares word ran.executed
      exact ⟨after, found, (registerLaw_iff_of_reads reads).mp law⟩
    · have same := (Core.fpu_of_forgetOrders left.same).trans present
      exact ⟨unit, left.closes.fpu.trans same, rfl⟩
    · exact ⟨unit, fpu_operate_of_host present bus host kept, rfl⟩

section

variable {operations : List Operation} {transfers : List Transfer}

/-- A session leaves in the cells what its transfers make of them. -/
theorem half_of_movesAll (moves : cpu.MovesAll bus operations transfers)
    (present : cpu.core.fpu = some unit)
    (spares : ∀ word ∈ cpu.sessionWords bus operations, (decode word).sparesPairs = true)
    (kept : ∀ operation ∈ operations, operation.setsPair = false) :
    ∃ after, (cpu.session bus operations).2.cpu.core.fpu = some after ∧
      after.half = transfers.foldl Cells.transfer unit.half := by
  -- By induction on the session; the next operation begins with the cells that this one leaves.
  induction moves generalizing unit with
  | nil => exact ⟨unit, present, rfl⟩
  | cons first later ih =>
    simp only [sessionWords, List.mem_append, Option.mem_toList] at spares
    obtain ⟨between, found, cells⟩ := half_of_moves first present
      (fun word executed => spares word (.inl executed)) (kept _ List.mem_cons_self)
    obtain ⟨after, last, others⟩ := ih found (fun word executed => spares word (.inr executed))
      (fun other member => kept other (List.mem_cons_of_mem _ member))
    rw [List.foldl_append, ← cells]
    exact ⟨after, last, others⟩

theorem exists_movesAll (present : cpu.core.fpu = some unit)
    (spares : ∀ word ∈ cpu.sessionWords bus operations, (decode word).sparesPairs = true)
    (kept : ∀ operation ∈ operations, operation.setsPair = false) :
    ∃ transfers, cpu.MovesAll bus operations transfers := by
  induction operations generalizing cpu bus unit with
  | nil => exact ⟨[], .nil⟩
  | cons operation rest ih =>
    simp only [sessionWords, List.mem_append, Option.mem_toList] at spares
    obtain ⟨moved, moves⟩ := exists_moves present bus operation
    obtain ⟨between, found, -⟩ := half_of_moves moves present
      (fun word executed => spares word (.inl executed)) (kept operation List.mem_cons_self)
    obtain ⟨others, later⟩ := ih found (fun word executed => spares word (.inr executed))
      (fun other member => kept other (List.mem_cons_of_mem _ member))
    exact ⟨moved ++ others, .cons moves later⟩

end

end

/-! ### Reading back -/

/-- The instructions that read single registers find the words of these cells. -/
structure ReadsBack (cpu : Cpu) (bus : β) (cells : Cells) : Prop where
  general : ∀ {word : Word} {rt fs : RegNum}, decode word = .float (.moveFrom rt fs) →
    cpu.core.unitUsable 1 = true →
    cpu.execute bus word = ⟨{ cpu with core := cpu.core.setReg rt (cells fs) }, bus, []⟩
  memory : ∀ {word : Word} {ft base : RegNum} {offset : Word},
    decode word = .float (.store ft base offset) → cpu.core.unitUsable 1 = true →
    cpu.execute bus word =
      cpu.store bus
        ⟨.word, cpu.core.effectiveAddress base offset, true, cells ft, fullMask .word⟩

theorem readsBack {cpu : Cpu} {unit : FloatUnit} (present : cpu.core.fpu = some unit) (bus : β) :
    cpu.ReadsBack bus unit.half where
  general := by
    intro word rt fs decoded usable
    simp only [execute, Core.issue, decoded, Core.issueInstr, Core.issueFloat, usable, present]
    rfl
  memory := by
    intro word ft base offset decoded usable
    simp only [execute, Core.issue, decoded, Core.issueInstr, Core.issueFloat, usable, present]
    rfl

/-- What becomes of the registers of the unit. An instruction writes at most what its destination
covers: a single register for the moves and the load of single words, a pair for a move of a double
word, and for a computation the pair of its destination, or the low half of that if its result is
not of double precision. All other instructions leave the registers alone, and so does an exception.

In a session in which only single words are moved into the registers, by programs and by words that
are executed directly, and with any other instructions and changes between, the single registers are
independent cells, and what they hold at the end is what the moves and stores of single words find.

The host sees a pair as its two single registers, the odd one first. -/
theorem registers_are_cells {cpu : Cpu} (bus : β) {unit : FloatUnit}
    (present : cpu.core.fpu = some unit) :
    (∀ word, ∃ after, (cpu.execute bus word).cpu.core.fpu = some after ∧
        if entered (cpu.execute bus word).notes = [] then
          cpu.RegisterLaw bus unit after (decode word)
        else after = unit) ∧
      (∀ operations,
        (∀ word ∈ cpu.sessionWords bus operations, (decode word).sparesPairs = true) →
        (∀ operation ∈ operations, operation.setsPair = false) →
        (∃ transfers, cpu.MovesAll bus operations transfers) ∧
          ∀ transfers, cpu.MovesAll bus operations transfers →
            ∃ after, (cpu.session bus operations).2.cpu.core.fpu = some after ∧
              after.half = transfers.foldl Cells.transfer unit.half ∧
              (cpu.session bus operations).2.cpu.ReadsBack (cpu.session bus operations).2.bus
                after.half) ∧
      ∀ index : Fin 16,
        cpu.fpr index = some (unit.half (FloatUnit.highOf index) ++
          unit.half (FloatUnit.lowOf index)) ∧
        ∀ value, ∃ after, (cpu.setFpr index value).core.fpu = some after ∧
          after.half =
            Function.update
              (Function.update unit.half (FloatUnit.lowOf index) (FloatUnit.lowHalf value))
              (FloatUnit.highOf index) (FloatUnit.highHalf value) := by
  refine ⟨fun word => ?_, fun operations spares kept => ?_, fun index => ⟨?_, fun value => ?_⟩⟩
  · cases raised : cpu.executeTrap bus word with
    | none =>
      obtain ⟨after, executed, law⟩ := registerLaw_execute present raised
      refine ⟨after, executed, ?_⟩
      rw [if_pos (entered_execute_of_none raised)]
      exact law
    | some trap =>
      have reported : entered (cpu.execute bus word).notes ≠ [] := by
        rw [entered_execute, raised]
        exact List.cons_ne_nil _ _
      exact ⟨unit, fpu_execute_of_trap present raised, by rw [if_neg reported]⟩
  · refine ⟨exists_movesAll present spares kept, fun transfers moves => ?_⟩
    obtain ⟨after, last, cells⟩ := half_of_movesAll moves present spares kept
    exact ⟨after, last, cells, readsBack last _⟩
  · rw [← unit.pair_eq_halves, fpr, present, Option.map_some, Fin.ofNat_val_eq_self]
  · refine ⟨unit.setPair index value, ?_, unit.half_setPair index value⟩
    simp only [setFpr, present, Option.map_some, Fin.ofNat_val_eq_self]

/-- The host puts a word into register 8, which is moved to the single register 9. -/
def moveToOdd : List Operation := [.setGpr 8 0x11223344, .execute 0x44884800]

theorem movesAll_moveToOdd : (cpuHolding 0).MovesAll noStore moveToOdd [.put 9 0x11223344] := by
  have host : (cpuHolding 0).Moves noStore (.setGpr 8 0x11223344) [] := by
    refine .nothing fun word start memory ran => ?_
    cases ran.executed
  have executed : ((cpuHolding 0).setGpr 8 0x11223344).executed? noStore (.execute 0x44884800) =
      some 0x44884800 := rfl
  obtain ⟨start, memory, ran⟩ := ran_of_executed executed (by decide +kernel)
  have decoded : decode 0x44884800 = .float (.moveTo 8 9) := by decide
  have given : start.core.reg 8 = 0x11223344 := by
    rw [Core.eq_of_forgetOrders ran.same]
    rfl
  rw [← given]
  exact .cons host (.cons (.general ran decoded) .nil)

/-- A single word is moved from the register 3 to the register 7, beside the register 6. The word of
the host ends in the register 9, beside the register 8. -/
theorem registers_are_cells_odd :
    ((cpuHolding 0x1122334455667788).execute noStore 0x460019c6).cpu.fpr 3 =
        some 0x11223344cafef00d ∧
      ((cpuHolding 0).session noStore moveToOdd).2.cpu.fpr 4 = some 0x1122334400000000 := by
  constructor
  · have present : (cpuHolding 0x1122334455667788).core.fpu =
        some (unitHolding 0x1122334455667788) := rfl
    obtain ⟨instructions, -, -⟩ := registers_are_cells noStore present
    obtain ⟨after, executed, law⟩ := instructions 0x460019c6
    have decoded : decode 0x460019c6 = .float (.operate (.move .single 7 3)) := by decide
    have quiet : entered ((cpuHolding 0x1122334455667788).execute noStore 0x460019c6).notes =
        [] := by
      decide +kernel
    rw [if_pos quiet, decoded] at law
    have halves : after.half = Function.update (unitHolding 0x1122334455667788).half 7
        ((unitHolding 0x1122334455667788).half 3) := law
    obtain ⟨-, -, pairs⟩ := registers_are_cells noStore executed
    have seen := (pairs 3).1
    rw [halves] at seen
    exact seen.trans (by decide +kernel)
  · have present : (cpuHolding 0).core.fpu = some (unitHolding 0) := rfl
    obtain ⟨-, sessions, -⟩ := registers_are_cells noStore present
    have words : (cpuHolding 0).sessionWords noStore moveToOdd = [0x44884800] := rfl
    have spares : ∀ word ∈ (cpuHolding 0).sessionWords noStore moveToOdd,
        (decode word).sparesPairs = true := by
      rw [words, List.forall_mem_singleton]
      decide
    obtain ⟨-, cells⟩ := sessions moveToOdd spares (by decide)
    obtain ⟨after, last, result, -⟩ := cells _ movesAll_moveToOdd
    obtain ⟨-, -, pairs⟩ := registers_are_cells noStore last
    have seen := (pairs 4).1
    rw [result] at seen
    exact seen.trans (by decide +kernel)

end Cpu

end R3000
