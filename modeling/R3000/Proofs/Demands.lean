import R3000.Cpu
import R3000.Proofs.SearchOrder

/-!
# Demanded accesses

Fetches, loads and stores find out in the same way where they go. An address that has to be
aligned and is not, or that is not translated, is a trap. Otherwise the access goes to the
physical address, or to the word that contains it when the address need not be aligned.

Each of the three is then described by its place: what it does without one, and what it does
with one, by the answer of the memory. In both cases the core is as before up to the search
orders.
-/
namespace R3000

/-- An access that a program demands. -/
structure Demand where
  width : Width
  address : Word
  /-- The address has to be aligned. -/
  checked : Bool
  intent : Intent
  deriving DecidableEq, Repr

/-- The address has to be aligned and is not. -/
def Demand.misaligned (demand : Demand) : Bool :=
  demand.checked && !demand.width.aligned demand.address

def Load.demand (load : Load) : Demand := ⟨load.width, load.address, load.checked, .read⟩

def Store.demand (store : Store) : Demand := ⟨store.width, store.address, store.checked, .write⟩

namespace Core

/-- The demand of a fetch. -/
def fetchDemand (core : Core) : Demand := ⟨.word, core.pc, true, .fetch⟩

/-- Where a demanded access goes. -/
def place (core : Core) (demand : Demand) : Except Trap Word :=
  if demand.misaligned then
    .error (.addressError demand.address demand.intent)
  else
    match core.resolve core.userMode demand.address demand.intent with
    | .error trap => .error trap
    | .ok physical => .ok (if demand.checked then physical else containingWord physical)

/-- The core after a demanded access has found its place. -/
def mark (core : Core) (demand : Demand) : Core := core.touch demand.address demand.intent

section

variable {core : Core} {demand : Demand}

theorem place_misaligned (misaligned : demand.misaligned = true) :
    core.place demand = .error (.addressError demand.address demand.intent) := by
  simp only [place, misaligned, if_true]

theorem place_untranslated {trap : Trap} (aligned : demand.misaligned = false)
    (failed : core.resolve core.userMode demand.address demand.intent = .error trap) :
    core.place demand = .error trap := by
  simp only [place, aligned, failed, Bool.false_eq_true, if_false]

theorem place_translated {physical : Word} (aligned : demand.misaligned = false)
    (resolved : core.resolve core.userMode demand.address demand.intent = .ok physical) :
    core.place demand = .ok (if demand.checked then physical else containingWord physical) := by
  simp only [place, aligned, resolved, Bool.false_eq_true, if_false]

/-- A place is the translation of the address, or the word that contains it. -/
theorem resolve_of_place {place : Word} (placed : core.place demand = .ok place) :
    ∃ physical, core.resolve core.userMode demand.address demand.intent = .ok physical ∧
      (place = physical ∨ place = containingWord physical) := by
  simp only [Core.place] at placed
  split at placed
  · cases placed
  · split at placed
    · cases placed
    next physical resolved =>
      cases placed
      refine ⟨physical, resolved, ?_⟩
      split
      · exact .inl rfl
      · exact .inr rfl

@[simp] theorem forgetOrders_mark (core : Core) (demand : Demand) :
    (core.mark demand).forgetOrders = core.forgetOrders := forgetOrders_touch core _ _

@[simp] theorem system_mark (core : Core) (demand : Demand) :
    (core.mark demand).system = core.system :=
  system_of_forgetOrders (forgetOrders_mark core demand)

@[simp] theorem userMode_mark (core : Core) (demand : Demand) :
    (core.mark demand).userMode = core.userMode := by
  simp only [userMode, system_mark]

end

end Core

namespace Cpu

/-- The processor after a demanded access has found its place. -/
def mark (cpu : Cpu) (demand : Demand) : Cpu := { cpu with core := cpu.core.mark demand }

variable {β : Type} [Bus β]

/-! ### What the memories do with a place -/

/-- What a data access finds does not depend on the mapping hardware. -/
theorem readData_touch (cpu : Cpu) (bus : β) (address : Word) (intent : Intent) :
    { cpu with core := cpu.core.touch address intent }.readData bus = cpu.readData bus := by
  rw [Core.touch_eq]
  rfl

theorem writeData_touch (cpu : Cpu) (bus : β) (address : Word) (intent : Intent)
    (width : Width) (place : Word) (value mask : BitVec width.bits) :
    { cpu with core := cpu.core.touch address intent }.writeData bus width place value mask =
      let written := cpu.writeData bus width place value mask
      (written.1, { written.2.1 with core := cpu.core.touch address intent }, written.2.2) := by
  rw [Core.touch_eq]
  simp only [writeData]
  split <;> rfl

/-- A refused write has changed no cache. -/
theorem writeData_of_error {cpu : Cpu} {bus : β} {width : Width} {place : Word}
    {value mask : BitVec width.bits} {reason : BusError}
    (refused : (cpu.writeData bus width place value mask).1 = .error reason) :
    (cpu.writeData bus width place value mask).2.1 = cpu := by
  unfold writeData at refused ⊢
  split
  · rfl
  next space =>
    rw [space] at refused
    cases refused
  next space =>
    rw [space] at refused
    cases refused

theorem writeData_eq (cpu : Cpu) (bus : β) (width : Width) (place : Word)
    (value mask : BitVec width.bits) :
    ∃ icache dcache, (cpu.writeData bus width place value mask).2.1 =
      { cpu with icache, dcache } := by
  simp only [writeData]
  split <;> exact ⟨_, _, rfl⟩

/-! ### The three kinds of access -/

theorem fetch_eq (cpu : Cpu) (bus : β) :
    cpu.fetch bus =
      match cpu.core.place cpu.core.fetchDemand with
      | .error trap => (.error trap, cpu, bus)
      | .ok place =>
        let answer := Bus.read bus .word place
        let fetched := cpu.mark cpu.core.fetchDemand
        match answer.1 with
        | .error reason => (.error (.fetchFailed cpu.core.pc reason), fetched, answer.2)
        | .ok word => (.ok word, fetched, answer.2) := by
  simp only [fetch, Core.access]
  cases misaligned : !Width.word.aligned cpu.core.pc with
  | true =>
    have placed : cpu.core.place cpu.core.fetchDemand = _ := Core.place_misaligned misaligned
    rw [placed]
    rfl
  | false =>
    cases resolved : cpu.core.resolve cpu.core.userMode cpu.core.pc .fetch with
    | error trap =>
      have placed : cpu.core.place cpu.core.fetchDemand = _ :=
        Core.place_untranslated misaligned resolved
      -- What is not translated promotes nothing, so the core is still the same.
      rw [placed, Core.touch_of_error resolved]
      rfl
    | ok physical =>
      have placed : cpu.core.place cpu.core.fetchDemand = .ok physical :=
        Core.place_translated misaligned resolved
      rw [placed]
      simp only [Bool.false_eq_true, if_false]
      generalize Bus.read bus .word physical = answer
      obtain ⟨value, memory⟩ := answer
      cases value <;> rfl

theorem load_eq (cpu : Cpu) (bus : β) (load : Load) :
    cpu.load bus load =
      match cpu.core.place load.demand with
      | .error trap => cpu.trap bus trap
      | .ok place =>
        let answer := cpu.readData bus load.width place
        let core := cpu.core.mark load.demand
        match answer.1 with
        | .error reason => (cpu.mark load.demand).trap answer.2 (.loadFailed load.address reason)
        | .ok value =>
          ⟨{ cpu with core := core.receive load.destination value }, answer.2, []⟩ := by
  simp only [Cpu.load, Core.access]
  cases misaligned : load.checked && !load.width.aligned load.address with
  | true =>
    have placed : cpu.core.place load.demand = _ := Core.place_misaligned misaligned
    rw [placed]
    rfl
  | false =>
    cases resolved : cpu.core.resolve cpu.core.userMode load.address .read with
    | error trap =>
      have placed : cpu.core.place load.demand = _ := Core.place_untranslated misaligned resolved
      rw [placed, Core.touch_of_error resolved]
      rfl
    | ok physical =>
      have placed : cpu.core.place load.demand =
          .ok (if load.checked then physical else containingWord physical) :=
        Core.place_translated misaligned resolved
      rw [placed]
      simp only [Bool.false_eq_true, if_false, readData_touch]
      generalize cpu.readData bus load.width _ = answer
      obtain ⟨value, memory⟩ := answer
      cases value <;> rfl

theorem store_eq (cpu : Cpu) (bus : β) (store : Store) :
    cpu.store bus store =
      match cpu.core.place store.demand with
      | .error trap => cpu.trap bus trap
      | .ok place =>
        let answer := cpu.writeData bus store.width place store.value store.mask
        let core := cpu.core.mark store.demand
        match answer.1 with
        | .error reason =>
          (cpu.mark store.demand).trap answer.2.2 (.storeFailed store.address reason)
        | .ok _ => ⟨{ answer.2.1 with core }, answer.2.2, []⟩ := by
  simp only [Cpu.store, Core.access]
  cases misaligned : store.checked && !store.width.aligned store.address with
  | true =>
    have placed : cpu.core.place store.demand = _ := Core.place_misaligned misaligned
    rw [placed]
    rfl
  | false =>
    cases resolved : cpu.core.resolve cpu.core.userMode store.address .write with
    | error trap =>
      have placed : cpu.core.place store.demand = _ :=
        Core.place_untranslated misaligned resolved
      rw [placed, Core.touch_of_error resolved]
      rfl
    | ok physical =>
      have placed : cpu.core.place store.demand =
          .ok (if store.checked then physical else containingWord physical) :=
        Core.place_translated misaligned resolved
      have unchanged := @writeData_of_error β _ cpu bus store.width
        (if store.checked then physical else containingWord physical) store.value store.mask
      rw [placed]
      simp only [Bool.false_eq_true, if_false, writeData_touch]
      revert unchanged
      generalize cpu.writeData bus store.width _ store.value store.mask = answer
      obtain ⟨value, written, memory⟩ := answer
      intro unchanged
      cases value with
      | error reason =>
        -- A refused write has left the caches alone, so only the search order has moved.
        have same : written = cpu := unchanged rfl
        rw [same]
        rfl
      | ok done => rfl

end Cpu

end R3000
