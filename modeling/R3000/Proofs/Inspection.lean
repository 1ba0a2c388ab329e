import R3000.Proofs.SearchHistory
import R3000.Proofs.Trapping

/-!
# Inspection by the host

Accesses and inspections translate an address by the same procedure, in one pass. A flag says
that only the host asks: then the kernel's privilege applies, the entry found stays where it
stands in its search order, and a failure is an answer instead of an exception.

The pass is compared with the search and the promotion that it combines. An inspection then turns
out to be a function of the state, which it leaves alone, so inspections can be left out of any
history. An access gives the answer of an inspection wherever its mode makes no difference, and
an inspection answers none exactly where the access enters an exception.
-/
namespace R3000

/-! ### Searching in one pass -/

/-- Find the first slot that has an answer, and when promoting move it one place towards the
front if the answer is a hit. -/
def SearchOrder.search (answers : Fin 64 → Option Lookup) (promoting : Bool) :
    SearchOrder → Lookup × SearchOrder
  | first :: second :: rest =>
    match answers first, answers second with
    | some answer, _ => (answer, first :: second :: rest)
    | none, some (.hit frame) =>
      (.hit frame, if promoting then second :: first :: rest else first :: second :: rest)
    | none, some failure => (failure, first :: second :: rest)
    | none, none =>
      let (answer, searched) := search answers promoting (second :: rest)
      (answer, first :: searched)
  | [only] => ((answers only).getD .miss, [only])
  | [] => (.miss, [])

/-- The order after a search: a slot that answers with a frame is moved. -/
def SearchOrder.afterAnswer (order : SearchOrder) (slot : Fin 64) (promoting : Bool) :
    Lookup → SearchOrder
  | .hit _ => if promoting then order.promote slot else order
  | .miss | .invalid | .modified => order

theorem SearchOrder.afterAnswer_of_head (first : Fin 64) (rest : SearchOrder) (promoting : Bool)
    (answer : Lookup) : SearchOrder.afterAnswer (first :: rest) first promoting answer =
      first :: rest := by
  have kept : SearchOrder.promote first (first :: rest) = first :: rest := by
    cases rest <;> simp [SearchOrder.promote]
  cases answer <;> simp [afterAnswer, kept]

/-- A slot that answers with nothing in front of the order stays in front of it. -/
theorem SearchOrder.afterAnswer_cons {slot first second : Fin 64} (rest : SearchOrder)
    (promoting : Bool) (answer : Lookup) (apart : first ≠ slot) (apart' : second ≠ slot) :
    SearchOrder.afterAnswer (first :: second :: rest) slot promoting answer =
      first :: SearchOrder.afterAnswer (second :: rest) slot promoting answer := by
  cases answer with
  | hit frame => cases promoting <;> simp [afterAnswer, promote, apart, apart']
  | miss | invalid | modified => rfl

/-- One pass finds the slot that a search finds, and moves it as a promotion does. -/
theorem SearchOrder.search_eq (answers : Fin 64 → Option Lookup) (promoting : Bool)
    (order : SearchOrder) :
    order.search answers promoting =
      match order.find? fun slot => (answers slot).isSome with
      | none => (.miss, order)
      | some slot =>
        let answer := (answers slot).getD .miss
        (answer, order.afterAnswer slot promoting answer) := by
  fun_induction SearchOrder.search answers promoting order with
  | case1 first second rest answer answered =>
    -- The slot in front answers, and cannot be moved further.
    simp [answered, afterAnswer_of_head]
  | case2 first second rest frame answered silent =>
    have apart : first ≠ second := by
      intro same
      rw [same, answered] at silent
      cases silent
    simp [silent, answered, afterAnswer, promote, apart]
  | case3 first second rest failure noHit answered silent =>
    -- Only a hit is moved, and this answer is none.
    have kept : SearchOrder.afterAnswer (first :: second :: rest) second promoting failure =
        first :: second :: rest := by
      cases failure with
      | hit frame => exact (noHit frame rfl).elim
      | miss | invalid | modified => rfl
    simp [silent, answered, kept]
  | case4 first second rest silent' silent answer searched step ih =>
    -- Neither answers, so the slot that does is found, and moved, behind the first.
    rw [ih] at step
    have skipped : (first :: second :: rest).find? (fun slot => (answers slot).isSome) =
        (second :: rest).find? fun slot => (answers slot).isSome := by
      rw [List.find?_cons_of_neg (by simp [silent])]
    rw [skipped]
    cases found : (second :: rest).find? fun slot => (answers slot).isSome with
    | none =>
      rw [found] at step
      cases step
      rfl
    | some slot =>
      have answered := List.find?_some found
      have apart : first ≠ slot := by
        intro same
        rw [same] at silent
        simp [silent] at answered
      have apart' : second ≠ slot := by
        intro same
        rw [same] at silent'
        simp [silent'] at answered
      rw [found] at step
      cases step
      simp only [afterAnswer_cons rest promoting _ apart apart']
  | case5 only =>
    cases answered : answers only with
    | none => simp [answered]
    | some answer => simp [answered, afterAnswer_of_head]
  | case6 => rfl

namespace Tlb

/-- What the entry of a slot answers, if it covers the key. -/
def answerAt (tlb : Tlb) (key : Word) (intent : Intent) (slot : Fin 64) : Option Lookup :=
  if (tlb.entry slot).covers key then some ((tlb.entry slot).answer intent) else none

def search (tlb : Tlb) (key : Word) (intent : Intent) (promoting : Bool) : Lookup × Tlb :=
  let (answer, order) := (tlb.order intent).search (tlb.answerAt key intent) promoting
  (answer, tlb.setOrder intent order)

theorem setOrder_order (tlb : Tlb) (intent : Intent) :
    tlb.setOrder intent (tlb.order intent) = tlb := by
  cases intent <;> rfl

/-- A search is a lookup, together with a promotion if one is asked for. -/
theorem search_eq (tlb : Tlb) (key : Word) (intent : Intent) (promoting : Bool) :
    tlb.search key intent promoting =
      (tlb.lookup key intent, if promoting then tlb.promote key intent else tlb) := by
  have covering : (fun slot => (tlb.answerAt key intent slot).isSome) =
      fun slot => (tlb.entry slot).covers key := by
    funext slot
    by_cases covers : (tlb.entry slot).covers key = true
    · simp [answerAt, covers]
    · simp [answerAt, covers]
  simp only [search, SearchOrder.search_eq, covering, lookup, promote, firstCovering]
  cases found : (tlb.order intent).find? fun slot => (tlb.entry slot).covers key with
  | none =>
    simp only [setOrder_order, ite_self]
  | some slot =>
    have covers : (tlb.entry slot).covers key = true := (List.find?_some found :)
    simp only [answerAt, covers, if_true, Option.getD_some]
    cases answered : (tlb.entry slot).answer intent with
    | hit frame => cases promoting <;> simp [SearchOrder.afterAnswer, setOrder_order]
    | miss | invalid | modified =>
      simp only [SearchOrder.afterAnswer, setOrder_order, ite_self]

end Tlb

/-! ### Consulting the mapping -/

/-- Translate a mapped address. Inspection promotes nothing. -/
def Mmu.consult (mmu : Mmu) (inspecting : Bool) (entryHi address : Word) (intent : Intent) :
    Except TlbFaultKind Word × Mmu :=
  match mmu with
  | fixed => (.ok (fixedAddress address), fixed)
  | bypass buffer => (.ok address, bypass buffer)
  | tlb buffer =>
    match buffer.search (searchKey address entryHi) intent !inspecting with
    | (.hit frame, searched) => (.ok ((address &&& ~~~pageMask) ||| frame), tlb searched)
    | (failure, searched) => (.error (faultKind address failure), tlb searched)

theorem Mmu.consult_eq (mmu : Mmu) (inspecting : Bool) (entryHi address : Word) (intent : Intent) :
    mmu.consult inspecting entryHi address intent =
      (mmu.translate entryHi address intent,
        if inspecting then mmu else mmu.promote entryHi address intent) := by
  cases mmu with
  | fixed | bypass buffer => simp [consult, translate, promote]
  | tlb buffer =>
    simp only [consult, Tlb.search_eq, translate, promote]
    cases buffer.lookup (searchKey address entryHi) intent <;> cases inspecting <;> rfl

namespace Cpu

/-- What comes of consulting the mapping: an answer if there is one, and the processor with the
notes it has taken. -/
structure Consulted where
  answer : Option Word
  cpu : Cpu
  notes : List Note

/-- A failure is only an exception for the program. -/
def fail (cpu : Cpu) (inspecting : Bool) (trap : Trap) : Consulted :=
  if inspecting then ⟨none, cpu, []⟩
  else
    let entered := cpu.core.enter trap
    ⟨none, { cpu with core := entered.1 }, entered.2⟩

/-- Translate an address, for an access or for an inspection by the host. -/
def consult (cpu : Cpu) (inspecting : Bool) (address : Word) (intent : Intent) : Consulted :=
  match route (cpu.core.userMode && !inspecting) address with
  | .unmapped physical => ⟨some physical, cpu, []⟩
  | .refused => cpu.fail inspecting (.addressError address intent)
  | .mapped =>
    let entryHi := cpu.core.system.entryHi
    let (answer, mmu) := cpu.core.mmu.consult inspecting entryHi address intent
    let cpu := { cpu with core := { cpu.core with mmu } }
    match answer with
    | .ok physical => ⟨some physical, cpu, []⟩
    | .error kind => cpu.fail inspecting (.tlbFault address (searchKey address entryHi) intent kind)

theorem consult_inspecting (cpu : Cpu) (address : Word) (intent : Intent) :
    cpu.consult true address intent = ⟨cpu.translate address intent, cpu, []⟩ := by
  simp only [consult, Bool.not_true, Bool.and_false, translate, Core.translate, Core.resolve]
  cases routed : route false address with
  | unmapped physical => rfl
  | refused => rfl
  | mapped =>
    simp only [Mmu.consult_eq, if_true, fail]
    cases cpu.core.mmu.translate cpu.core.system.entryHi address intent with
    | ok physical => rfl
    | error kind => rfl

/-- An access as a program makes it: its translation, or the exception entered instead. -/
def attempt (cpu : Cpu) (address : Word) (intent : Intent) : Consulted :=
  match cpu.core.access address intent with
  | (.ok physical, core) => ⟨some physical, { cpu with core }, []⟩
  | (.error trap, core) => { cpu with core }.fail false trap

theorem consult_accessing (cpu : Cpu) (address : Word) (intent : Intent) :
    cpu.consult false address intent = cpu.attempt address intent := by
  simp only [consult, Bool.not_false, Bool.and_true, attempt, Core.access, Core.resolve, Core.touch]
  cases route cpu.core.userMode address with
  | unmapped physical => rfl
  | refused => rfl
  | mapped =>
    simp only [Mmu.consult_eq, Bool.false_eq_true, if_false]
    cases cpu.core.mmu.translate cpu.core.system.entryHi address intent with
    | ok physical => rfl
    | error kind => rfl

theorem answer_attempt (cpu : Cpu) (address : Word) (intent : Intent) :
    (cpu.attempt address intent).answer =
      (cpu.core.resolve cpu.core.userMode address intent).toOption := by
  simp only [attempt, Core.access]
  cases cpu.core.resolve cpu.core.userMode address intent <;> rfl

/-- An access enters an exception if it has no translation. -/
theorem entered_attempt (cpu : Cpu) (address : Word) (intent : Intent) :
    entered (cpu.attempt address intent).notes =
      match cpu.core.resolve cpu.core.userMode address intent with
      | .ok _ => []
      | .error trap => [trap.exception] := by
  simp only [attempt, Core.access]
  cases cpu.core.resolve cpu.core.userMode address intent with
  | ok physical => rfl
  | error trap => exact Core.entered_enter _ trap

end Cpu

/-! ### Privilege -/

/-- User mode only matters above user space. -/
theorem route_of_allowed {user : Bool} {address : Word}
    (allowed : user = false ∨ inUserSpace address = true) :
    route user address = route false address := by
  rcases allowed with rfl | low
  · rfl
  · simp only [route, low, if_true]

theorem Core.resolve_of_allowed {core : Core} {address : Word}
    (allowed : core.userMode = false ∨ inUserSpace address = true) (intent : Intent) :
    core.resolve core.userMode address intent = core.resolve false address intent := by
  simp only [Core.resolve, route_of_allowed allowed]

theorem Core.resolve_of_refused {core : Core} {address : Word} (user : core.userMode = true)
    (high : inUserSpace address = false) (intent : Intent) :
    core.resolve core.userMode address intent = .error (.addressError address intent) := by
  simp only [Core.resolve, route, user, high, Bool.false_eq_true, if_false, if_true]

namespace Cpu

/-- The processor with its status register changed to kernel mode. -/
def inKernelMode (cpu : Cpu) : Cpu :=
  let status := cpu.core.system.status &&& ~~~Status.kuc
  { cpu with core := { cpu.core with system := cpu.core.system.putStatus status } }

theorem userMode_inKernelMode (cpu : Cpu) : cpu.inKernelMode.core.userMode = false := by
  have status : cpu.inKernelMode.core.system.status = cpu.core.system.status &&& ~~~Status.kuc := by
    simp only [inKernelMode, SystemControl.putStatus, SystemControl.status,
      SystemControl.read_put, if_true]
  have cleared : cpu.core.system.status &&& ~~~Status.kuc &&& Status.kuc = 0 := by
    rw [BitVec.and_assoc, BitVec.and_comm (~~~Status.kuc), BitVec.and_not_self]
    exact BitVec.and_zero
  simp only [Core.userMode, status, Status.userMode, hasAny, cleared]
  rfl

/-- The privilege apart, the mode makes no difference to a translation. -/
theorem resolve_inKernelMode (cpu : Cpu) (user : Bool) (address : Word) (intent : Intent) :
    cpu.inKernelMode.core.resolve user address intent = cpu.core.resolve user address intent := by
  have entryHi : cpu.inKernelMode.core.system.entryHi = cpu.core.system.entryHi := by
    have other : SystemControl.entryHiReg ≠ SystemControl.statusReg := by decide
    simp only [inKernelMode, SystemControl.putStatus, SystemControl.entryHi,
      SystemControl.read_put, other, if_false]
  have mapping : cpu.inKernelMode.core.mmu = cpu.core.mmu := rfl
  simp only [Core.resolve, entryHi, mapping]

end Cpu

/-! ### Histories with inspections -/

/-- The host operates the processor, and does not only look at it. -/
def HostRequest.operates : HostRequest → Bool
  | operate _ => true
  | translate _ _ => false

namespace Cpu

variable {β : Type} [Bus β]

def respond (cpu : Cpu) (bus : β) : HostRequest → Outcome β
  | .operate operation => cpu.operate bus operation
  | .translate address intent =>
    let consulted := cpu.consult true address intent
    ⟨consulted.cpu, bus, consulted.notes⟩

/-- The outcome of a history of requests, with all the notes taken on the way. -/
def respondAll (cpu : Cpu) (bus : β) : List HostRequest → Outcome β
  | [] => ⟨cpu, bus, []⟩
  | request :: later =>
    let first := cpu.respond bus request
    let rest := first.cpu.respondAll first.bus later
    { rest with notes := first.notes ++ rest.notes }

/-- An inspection changes nothing, so the history goes on from the same state. -/
theorem respondAll_translate (cpu : Cpu) (bus : β) (address : Word) (intent : Intent)
    (later : List HostRequest) :
    cpu.respondAll bus (.translate address intent :: later) = cpu.respondAll bus later := by
  simp only [respondAll, respond, consult_inspecting, List.nil_append]

theorem respondAll_operates (cpu : Cpu) (bus : β) (requests : List HostRequest) :
    cpu.respondAll bus (requests.filter HostRequest.operates) = cpu.respondAll bus requests := by
  -- Each operation may lead anywhere, so the induction is over all states and memories.
  induction requests generalizing cpu bus with
  | nil => rfl
  | cons request later ih =>
    cases request with
    | operate operation =>
      rw [List.filter_cons_of_pos rfl]
      simp only [respondAll, ih]
    | translate address intent =>
      rw [List.filter_cons_of_neg Bool.false_ne_true, respondAll_translate]
      exact ih cpu bus

end Cpu

/-- What the host is shown is what a program would get. An inspection is the pass that accesses
make, and it leaves the processor alone. For the kernel, and for user space, it finds a physical
address exactly when an access does, and none exactly when an access enters an exception. From
user mode the kernel's addresses are shown as to the kernel, while an access to them is an
address error. No history of steps and other operations is changed by inspections in it. -/
theorem translate_agrees (cpu : Cpu) (address : Word) (intent : Intent) :
    (cpu.consult true address intent = ⟨cpu.translate address intent, cpu, []⟩ ∧
        cpu.consult false address intent = cpu.attempt address intent) ∧
      (cpu.core.userMode = false ∨ inUserSpace address = true →
        (∀ physical, cpu.translate address intent = some physical ↔
          (cpu.attempt address intent).answer = some physical) ∧
        (cpu.translate address intent = none ↔
          ∃ exception, entered (cpu.attempt address intent).notes = [exception])) ∧
      (cpu.core.userMode = true → inUserSpace address = false →
        cpu.translate address intent = (cpu.inKernelMode.attempt address intent).answer ∧
        cpu.attempt address intent = cpu.fail false (.addressError address intent)) ∧
      ∀ {β : Type} [Bus β] (bus : β) (requests : List HostRequest),
        cpu.respondAll bus requests =
          cpu.respondAll bus (requests.filter HostRequest.operates) := by
  refine ⟨⟨cpu.consult_inspecting address intent, cpu.consult_accessing address intent⟩, ?_, ?_, ?_⟩
  · -- Where the mode makes no difference, both resolve the address in the same way.
    intro allowed
    have same : cpu.translate address intent = (cpu.attempt address intent).answer := by
      rw [Cpu.answer_attempt, Core.resolve_of_allowed allowed]
      rfl
    refine ⟨fun physical => by rw [same], ?_⟩
    rw [same, Cpu.answer_attempt, Cpu.entered_attempt]
    cases cpu.core.resolve cpu.core.userMode address intent with
    | ok physical => simp [Except.toOption]
    | error trap => simp [Except.toOption]
  · -- Beyond user space the route alone refuses the program, and the kernel is not refused.
    intro user high
    constructor
    · rw [Cpu.answer_attempt, Cpu.userMode_inKernelMode, Cpu.resolve_inKernelMode]
      rfl
    · have refused := Core.resolve_of_refused user high intent
      simp only [Cpu.attempt, Core.access, refused, Core.touch_of_error refused]
  · intro β _ bus requests
    exact (cpu.respondAll_operates bus requests).symm

/-- The processor with the second page mapped, in user mode. -/
def userOfPage : Cpu := withPage.serve thirdFrame (.operate (.setSystemReg 12 2))

/-- A look at the page that is mapped, at one that is not, and at the kernel's addresses. -/
def looks : List HostRequest :=
  [.translate 0x1004 .read, .translate 0x5000 .write, .translate 0x80002004 .read]

/-- The host sees what the user's accesses find, and beyond that what the kernel's would. Looking
before and after an instruction that loads from the page leaves no trace. -/
theorem translate_agrees_page :
    userOfPage.core.userMode = true ∧
      (userOfPage.attempt 0x1004 .read).answer = some 0x2004 ∧
      (∃ exception, entered (userOfPage.attempt 0x5000 .write).notes = [exception]) ∧
      (userOfPage.inKernelMode.attempt 0x80002004 .read).answer = some 0x2004 ∧
      entered (userOfPage.attempt 0x80002004 .read).notes = [.addressLoad] ∧
      userOfPage.respondAll thirdFrame (looks ++ [.operate (.execute 0x8c011000)] ++ looks) =
        userOfPage.respondAll thirdFrame [.operate (.execute 0x8c011000)] := by
  have user : userOfPage.core.userMode = true := by decide +kernel
  obtain ⟨-, mapped, -, -⟩ := translate_agrees userOfPage 0x1004 .read
  obtain ⟨-, unmapped, -, -⟩ := translate_agrees userOfPage 0x5000 .write
  obtain ⟨-, -, refused, unseen⟩ := translate_agrees userOfPage 0x80002004 .read
  obtain ⟨found, -⟩ := mapped (.inr (by decide))
  obtain ⟨-, missed⟩ := unmapped (.inr (by decide))
  obtain ⟨shown, trapped⟩ := refused user (by decide)
  refine ⟨user, (found 0x2004).mp (by decide +kernel), missed.mp (by decide +kernel), ?_, ?_, ?_⟩
  · rw [← shown]
    decide +kernel
  · rw [trapped]
    exact Core.entered_enter _ _
  · exact unseen thirdFrame _

end R3000
