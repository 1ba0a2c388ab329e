import R3000.Resolution

/-!
# Search orders of the lookaside buffer

Translating an access changes nothing but the search order it used. What does not depend on
the orders is compared after all of them are set back to the initial one: two states are
equal up to the orders when they then agree.

Each order lists all slots once, and neither a promotion nor a write to a slot changes that.
So an entry is found whenever it covers the key, wherever its slot stands.
-/
namespace R3000

namespace Tlb

/-- Every search order lists each slot exactly once. -/
def Complete (tlb : Tlb) : Prop := ∀ intent, (tlb.order intent).Perm (List.finRange 64)

@[simp] theorem order_initial (intent : Intent) : Tlb.initial.order intent = .initial := by
  cases intent <;> rfl

@[simp] theorem order_resetOrders (tlb : Tlb) (intent : Intent) :
    tlb.resetOrders.order intent = .initial := by
  cases intent <;> rfl

@[simp] theorem resetOrders_setOrder (tlb : Tlb) (intent : Intent) (order : SearchOrder) :
    (tlb.setOrder intent order).resetOrders = tlb.resetOrders := by
  cases intent <;> rfl

/-- A promotion does nothing, or it moves the slot that answered with a frame. -/
theorem promote_cases (tlb : Tlb) (key : Word) (intent : Intent) :
    tlb.promote key intent = tlb ∨
      ∃ slot frame, tlb.firstCovering key intent = some slot ∧
        (tlb.entry slot).answer intent = .hit frame ∧
        tlb.promote key intent = tlb.setOrder intent ((tlb.order intent).promote slot) := by
  simp only [promote]
  split
  · exact .inl rfl
  next slot found =>
    split
    next frame hit => exact .inr ⟨slot, frame, found, hit, rfl⟩
    all_goals exact .inl rfl

@[simp] theorem resetOrders_promote (tlb : Tlb) (key : Word) (intent : Intent) :
    (tlb.promote key intent).resetOrders = tlb.resetOrders := by
  rcases tlb.promote_cases key intent with unmoved | ⟨slot, frame, -, -, moved⟩
  · rw [unmoved]
  · rw [moved, resetOrders_setOrder]

theorem entry_of_resetOrders {tlb other : Tlb} (same : tlb.resetOrders = other.resetOrders)
    (slot : Fin 64) : tlb.entry slot = other.entry slot := by
  calc
    tlb.entry slot = tlb.resetOrders.entry slot := rfl
    _ = other.resetOrders.entry slot := by rw [same]
    _ = other.entry slot := rfl

theorem complete_initial : Tlb.initial.Complete := by
  intro intent
  rw [order_initial]
  exact .refl _

theorem complete_resetOrders (tlb : Tlb) : tlb.resetOrders.Complete := by
  intro intent
  rw [order_resetOrders]
  exact .refl _

theorem Complete.setEntry {tlb : Tlb} (complete : tlb.Complete) (slot : Fin 64)
    (entry : TlbEntry) : (tlb.setEntry slot entry).Complete := by
  intro intent
  rw [order_setEntry]
  exact complete intent

theorem Complete.promote {tlb : Tlb} (complete : tlb.Complete) (key : Word) (intent : Intent) :
    (tlb.promote key intent).Complete := by
  intro other
  rcases tlb.promote_cases key intent with unmoved | ⟨slot, frame, -, -, moved⟩
  · rw [unmoved]
    exact complete other
  · rw [moved, order_setOrder]
    by_cases same : other = intent
    · -- The order that moved still lists the same slots, one of them earlier.
      subst same
      rw [if_pos rfl]
      exact (SearchOrder.promote_perm slot _).trans (complete other)
    · rw [if_neg same]
      exact complete other

/-- A promotion rearranges the order of its own kind of access and no other. -/
theorem order_promote_of_ne (tlb : Tlb) (key : Word) {intent later : Intent}
    (apart : intent ≠ later) : (tlb.promote key intent).order later = tlb.order later := by
  rcases tlb.promote_cases key intent with unmoved | ⟨slot, frame, -, -, moved⟩
  · rw [unmoved]
  · rw [moved, order_setOrder, if_neg apart.symm]

/-- Promoting an entry for one kind of access does not show to another. -/
theorem lookup_promote_of_ne (tlb : Tlb) (key other : Word) {intent later : Intent}
    (apart : intent ≠ later) :
    (tlb.promote key intent).lookup other later = tlb.lookup other later := by
  -- Every kind of access has its own order, and a promotion changes no entry.
  have sameOrder := tlb.order_promote_of_ne key apart
  have sameEntry : (tlb.promote key intent).entry = tlb.entry := by
    funext slot
    exact congrArg (·[slot]) (entries_promote tlb key intent)
  simp only [lookup, firstCovering, sameOrder, sameEntry]

/-- A lookup that is no hit promotes nothing. -/
theorem promote_of_no_hit {tlb : Tlb} {key : Word} {intent : Intent}
    (failed : ∀ frame, tlb.lookup key intent ≠ .hit frame) : tlb.promote key intent = tlb := by
  rcases tlb.promote_cases key intent with unmoved | ⟨slot, frame, found, hit, -⟩
  · exact unmoved
  · have answered : tlb.lookup key intent = .hit frame := by
      simp only [lookup, found, hit]
    exact absurd answered (failed frame)

/-- A key that no entry covers is a miss for every kind of access. -/
theorem lookup_of_uncovered {tlb : Tlb} {key : Word}
    (uncovered : ∀ slot, (tlb.entry slot).covers key = false) (intent : Intent) :
    tlb.lookup key intent = .miss := by
  have absent : tlb.firstCovering key intent = none := by
    apply List.find?_eq_none.mpr
    intro slot _
    simp [uncovered slot]
  simp only [lookup, absent]

/-- When all entries that cover a key answer alike, that is the answer, wherever they stand in
the order. -/
theorem lookup_of_alike {tlb : Tlb} (complete : tlb.Complete) {key : Word} {slot : Fin 64}
    {intent : Intent} (covers : (tlb.entry slot).covers key = true)
    (alike : ∀ other, (tlb.entry other).covers key = true →
      (tlb.entry other).answer intent = (tlb.entry slot).answer intent) :
    tlb.lookup key intent = (tlb.entry slot).answer intent := by
  have listed : slot ∈ tlb.order intent :=
    (complete intent).mem_iff.mpr (List.mem_finRange slot)
  simp only [lookup, firstCovering]
  cases search : (tlb.order intent).find? fun slot => (tlb.entry slot).covers key with
  | none =>
    -- The search passes every slot, so it cannot have missed this one.
    exact absurd covers (List.find?_eq_none.mp search slot listed)
  | some other =>
    have covering := List.find?_some search
    exact alike other covering

/-- When a single slot covers a key, its entry answers, wherever it stands in the order. -/
theorem lookup_of_unique {tlb : Tlb} (complete : tlb.Complete) {key : Word} {slot : Fin 64}
    (covers : (tlb.entry slot).covers key = true)
    (only : ∀ other, (tlb.entry other).covers key = true → other = slot) (intent : Intent) :
    tlb.lookup key intent = (tlb.entry slot).answer intent := by
  apply lookup_of_alike complete covers
  intro other covering
  rw [only other covering]

end Tlb

/-! ### Mapping hardware up to the orders -/

namespace Mmu

/-- The hardware with its search orders as after a reset. -/
def forgetOrders (mmu : Mmu) : Mmu := mmu.mapBuffer Tlb.resetOrders

/-- The entries of the lookaside buffer, if there is one. -/
def entries? (mmu : Mmu) : Option (Vector TlbEntry 64) := mmu.buffer?.map Tlb.entries

theorem buffer?_mapBuffer (mmu : Mmu) (change : Tlb → Tlb) :
    (mmu.mapBuffer change).buffer? = mmu.buffer?.map change := by
  cases mmu <;> rfl

@[simp] theorem forgetOrders_promote (mmu : Mmu) (entryHi address : Word) (intent : Intent) :
    (mmu.promote entryHi address intent).forgetOrders = mmu.forgetOrders := by
  cases mmu with
  | tlb buffer => exact congrArg Mmu.tlb (Tlb.resetOrders_promote buffer _ intent)
  | fixed | bypass buffer => rfl

theorem entries?_forgetOrders (mmu : Mmu) : mmu.forgetOrders.entries? = mmu.entries? := by
  cases mmu <;> rfl

theorem entries?_of_forgetOrders {mmu other : Mmu}
    (same : mmu.forgetOrders = other.forgetOrders) : mmu.entries? = other.entries? := by
  rw [← entries?_forgetOrders mmu, same, entries?_forgetOrders]

@[simp] theorem hasBuffer_forgetOrders (mmu : Mmu) :
    mmu.forgetOrders.hasBuffer = mmu.hasBuffer := by
  cases mmu <;> rfl

theorem hasBuffer_of_forgetOrders {mmu other : Mmu}
    (same : mmu.forgetOrders = other.forgetOrders) : mmu.hasBuffer = other.hasBuffer := by
  rw [← hasBuffer_forgetOrders mmu, same, hasBuffer_forgetOrders other]

/-- A write to a slot and the orders do not concern each other. -/
theorem forgetOrders_setEntry (mmu : Mmu) (slot : Fin 64) (entry : TlbEntry) :
    (mmu.mapBuffer (·.setEntry slot entry)).forgetOrders =
      mmu.forgetOrders.mapBuffer (·.setEntry slot entry) := by
  cases mmu <;> rfl

/-- A buffer that is searched stays one when the orders change. -/
theorem tlb_of_forgetOrders {mmu : Mmu} {buffer : Tlb}
    (same : mmu.forgetOrders = (Mmu.tlb buffer).forgetOrders) :
    ∃ other, mmu = .tlb other ∧ other.resetOrders = buffer.resetOrders := by
  cases mmu with
  | tlb other => exact ⟨other, rfl, Mmu.tlb.inj same⟩
  | fixed | bypass other => cases same

theorem promote_of_error {mmu : Mmu} {entryHi address : Word} {intent : Intent}
    {kind : TlbFaultKind} (failed : mmu.translate entryHi address intent = .error kind) :
    mmu.promote entryHi address intent = mmu := by
  cases mmu with
  | fixed | bypass buffer => rfl
  | tlb buffer =>
    have noHit : ∀ frame, buffer.lookup (searchKey address entryHi) intent ≠ .hit frame := by
      intro frame hit
      simp [translate, hit] at failed
    exact congrArg Mmu.tlb (Tlb.promote_of_no_hit noHit)

/-- The search orders of the hardware are complete. -/
def Complete (mmu : Mmu) : Prop := ∀ buffer, mmu.buffer? = some buffer → buffer.Complete

theorem complete_ofMapping (mapping : Mapping) : (Mmu.ofMapping mapping).Complete := by
  intro buffer present
  cases mapping <;> cases present <;> exact Tlb.complete_initial

/-- A change that keeps the orders of every buffer complete keeps those of the hardware. -/
theorem Complete.mapBuffer {mmu : Mmu} (complete : mmu.Complete) {change : Tlb → Tlb}
    (kept : ∀ buffer, buffer.Complete → (change buffer).Complete) :
    (mmu.mapBuffer change).Complete := by
  intro buffer present
  cases mmu with
  | fixed => cases present
  | tlb old | bypass old =>
    cases present
    exact kept old (complete old rfl)

theorem Complete.promote {mmu : Mmu} (complete : mmu.Complete) (entryHi address : Word)
    (intent : Intent) : (mmu.promote entryHi address intent).Complete := by
  intro buffer present
  cases mmu with
  | fixed => cases present
  | bypass old => exact complete buffer present
  | tlb old =>
    cases present
    exact (complete old rfl).promote _ intent

end Mmu

/-! ### The core up to the orders -/

namespace Core

/-- The core with the search orders as after a reset. -/
def forgetOrders (core : Core) : Core := { core with mmu := core.mmu.forgetOrders }

/-- Cores that are equal up to the orders differ in their mapping hardware only. -/
theorem eq_of_forgetOrders {core other : Core} (same : core.forgetOrders = other.forgetOrders) :
    core = { other with mmu := core.mmu } := by
  cases core
  cases other
  simp_all [forgetOrders]

theorem system_of_forgetOrders {core other : Core}
    (same : core.forgetOrders = other.forgetOrders) : core.system = other.system := by
  rw [eq_of_forgetOrders same]

theorem mapping_of_forgetOrders {core other : Core}
    (same : core.forgetOrders = other.forgetOrders) :
    core.mmu.forgetOrders = other.mmu.forgetOrders := congrArg Core.mmu same

theorem entries?_of_forgetOrders {core other : Core}
    (same : core.forgetOrders = other.forgetOrders) : core.mmu.entries? = other.mmu.entries? :=
  Mmu.entries?_of_forgetOrders (mapping_of_forgetOrders same)

/-- An access leaves the core as it is, or it promotes the entry of a mapped address. -/
theorem touch_cases (core : Core) (address : Word) (intent : Intent) :
    core.touch address intent = core ∨
      route core.userMode address = .mapped ∧ core.touch address intent =
        { core with mmu := core.mmu.promote core.system.entryHi address intent } := by
  simp only [touch]
  cases route core.userMode address with
  | mapped => exact .inr ⟨rfl, rfl⟩
  | unmapped physical => exact .inl rfl
  | refused => exact .inl rfl

theorem touch_eq (core : Core) (address : Word) (intent : Intent) :
    core.touch address intent = { core with mmu := (core.touch address intent).mmu } := by
  rcases core.touch_cases address intent with same | ⟨-, moved⟩
  · rw [same]
  · rw [moved]

@[simp] theorem forgetOrders_touch (core : Core) (address : Word) (intent : Intent) :
    (core.touch address intent).forgetOrders = core.forgetOrders := by
  rcases core.touch_cases address intent with same | ⟨-, moved⟩
  · rw [same]
  · rw [moved]
    simp only [forgetOrders, Mmu.forgetOrders_promote]

/-- An access of one kind does not change how another kind is translated. -/
theorem resolve_touch_of_ne {core : Core} {address other : Word} {intent later : Intent}
    {user : Bool} (apart : intent ≠ later) :
    (core.touch address intent).resolve user other later = core.resolve user other later := by
  rcases core.touch_cases address intent with same | ⟨-, moved⟩
  · rw [same]
  · have sameAnswer (entryHi : Word) :
        (core.touch address intent).mmu.translate entryHi other later =
          core.mmu.translate entryHi other later := by
      rw [moved]
      cases core.mmu with
      | tlb buffer =>
        simp only [Mmu.promote, Mmu.translate, Tlb.lookup_promote_of_ne buffer _ _ apart]
      | fixed | bypass buffer => rfl
    have sameSystem : (core.touch address intent).system = core.system := by
      rw [moved]
    simp only [resolve, sameSystem, sameAnswer]

/-- An access that is not translated leaves the core as it is. -/
theorem touch_of_error {core : Core} {address : Word} {intent : Intent} {trap : Trap}
    (failed : core.resolve core.userMode address intent = .error trap) :
    core.touch address intent = core := by
  rcases core.touch_cases address intent with same | ⟨mapped, moved⟩
  · exact same
  · simp only [resolve, mapped] at failed
    split at failed
    · cases failed
    next kind unanswered => rw [moved, Mmu.promote_of_error unanswered]

theorem touch_complete {core : Core} (complete : core.mmu.Complete) (address : Word)
    (intent : Intent) : (core.touch address intent).mmu.Complete := by
  rcases core.touch_cases address intent with same | ⟨-, moved⟩
  · rw [same]
    exact complete
  · rw [moved]
    exact complete.promote _ _ _

end Core

end R3000
