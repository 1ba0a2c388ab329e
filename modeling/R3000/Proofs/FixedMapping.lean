import R3000.Proofs.DataRouting
import R3000.Proofs.Installed
import R3000.Proofs.MemoryBytes
import R3000.Proofs.OrderIndependence
import R3000.Proofs.UserMode

/-!
# The fixed mapping

Without a lookaside buffer addresses are mapped by a fixed rule. User space goes to two gigabytes of
physical addresses that no other segment goes to, and the other segments keep out of each other's
way, but for the two windows that show the same memory. So a program in user mode reaches none of
the memory outside of those two gigabytes, however long it runs, and whatever it runs.
-/
namespace R3000

/-! ### Segments by number -/

theorem inUserSpace_iff (address : Word) :
    inUserSpace address = true ↔ address.toNat < 0x80000000 := by
  have high : (0x80000000 : Word) = BitVec.twoPow 32 31 := by decide
  have top : address.getLsbD 31 = decide (0x80000000 ≤ address.toNat) :=
    BitVec.msb_eq_decide address
  rw [inUserSpace, high, hasAny_twoPow address (by decide), top]
  simp

/-- The two highest bits of an address, in their place. -/
theorem toNat_highest (address : Word) :
    (address &&& 0xc0000000).toNat = address.toNat / 0x40000000 * 0x40000000 := by
  -- To mask the low bits is to move them out, and zeros in from there.
  have cut : address &&& (0xc0000000 : Word) = address >>> 30 <<< 30 := by
    have mask : ∀ place < 32, (0xc0000000 : Word).getLsbD place = decide (30 ≤ place) := by decide
    apply BitVec.eq_of_getLsbD_eq
    intro index bound
    simp only [BitVec.getLsbD_and, BitVec.getLsbD_shiftLeft, BitVec.getLsbD_ushiftRight,
      mask index bound]
    by_cases low : index < 30
    · simp [low]
    · have back : 30 + (index - 30) = index := by omega
      simp [low, bound, back, Nat.le_of_not_lt low]
  have fits : address.toNat / 0x40000000 * 0x40000000 < 2 ^ 32 := by omega
  rw [cut, BitVec.toNat_shiftLeft, BitVec.toNat_ushiftRight, Nat.shiftRight_eq_div_pow,
    Nat.shiftLeft_eq]
  exact Nat.mod_eq_of_lt fits

theorem inWindow_iff (address : Word) :
    inWindow address = true ↔ 0x80000000 ≤ address.toNat ∧ address.toNat < 0xc0000000 := by
  rw [inWindow, beq_iff_eq, ← BitVec.toNat_inj, toNat_highest]
  have number : (0x80000000 : Word).toNat = 0x80000000 := rfl
  omega

/-! ### The rule -/

/-- Where the kernel finds an address under the fixed mapping. -/
def fixedPlace (address : Word) : Word :=
  if inWindow address then address &&& 0x1fffffff else Mmu.fixedAddress address

theorem toNat_fixedPlace (address : Word) :
    (fixedPlace address).toNat =
      if address.toNat < 0x80000000 then address.toNat + 0x40000000
      else if address.toNat < 0xc0000000 then address.toNat % 0x20000000
      else address.toNat := by
  have low : (address &&& 0x1fffffff).toNat = address.toNat % 0x20000000 :=
    Nat.and_two_pow_sub_one_eq_mod address.toNat 29
  have offset : (0x40000000 : Word).toNat = 0x40000000 := rfl
  simp only [fixedPlace, Mmu.fixedAddress]
  by_cases user : address.toNat < 0x80000000
  · have unwindowed : ¬ inWindow address = true := by
      rw [inWindow_iff]
      omega
    rw [if_neg unwindowed, if_pos ((inUserSpace_iff address).mpr user), if_pos user,
      BitVec.toNat_add, offset]
    omega
  · rw [if_neg (mt (inUserSpace_iff address).mp user), if_neg user]
    by_cases window : address.toNat < 0xc0000000
    · have windowed : inWindow address = true := (inWindow_iff address).mpr ⟨by omega, window⟩
      rw [if_pos windowed, if_pos window, low]
    · have unwindowed : ¬ inWindow address = true := by
        rw [inWindow_iff]
        omega
      rw [if_neg unwindowed, if_neg window]

/-- Every address has its place under the fixed mapping, for whom may use it. -/
theorem Core.resolve_fixed {core : Core} (fixed : core.mmu = .fixed) (user : Bool) (address : Word)
    (intent : Intent) :
    core.resolve user address intent =
      if user = true ∧ inUserSpace address = false then .error (.addressError address intent)
      else .ok (fixedPlace address) := by
  have apart (userSpace : inUserSpace address = true) : inWindow address = false := by
    rw [inUserSpace_iff] at userSpace
    rw [← Bool.not_eq_true, inWindow_iff]
    omega
  simp only [resolve, route, fixedPlace, Mmu.translate, fixed]
  cases userSpace : inUserSpace address with
  | true => simp [apart userSpace]
  | false => cases user <;> cases inWindow address <;> simp

theorem Core.eq_fixedPlace {core : Core} (fixed : core.mmu = .fixed) {user : Bool}
    {address physical : Word} {intent : Intent}
    (resolved : core.resolve user address intent = .ok physical) :
    physical = fixedPlace address := by
  rw [resolve_fixed fixed] at resolved
  split at resolved <;> cases resolved
  rfl

/-! ### What the rule keeps apart -/

/-- The physical addresses of user space. -/
def UserFrame (place : Word) : Prop := 0x40000000 ≤ place ∧ place < 0xc0000000

instance : DecidablePred UserFrame := fun _ => inferInstanceAs (Decidable (_ ∧ _))

/-- The second of the unmapped windows, which shows what the first does. -/
def SecondWindow (address : Word) : Prop := 0xa0000000 ≤ address ∧ address < 0xc0000000

theorem userFrame_iff (place : Word) :
    UserFrame place ↔ 0x40000000 ≤ place.toNat ∧ place.toNat < 0xc0000000 := Iff.rfl

theorem secondWindow_iff (address : Word) :
    SecondWindow address ↔ 0xa0000000 ≤ address.toNat ∧ address.toNat < 0xc0000000 := Iff.rfl

theorem userFrame_fixedPlace (address : Word) :
    UserFrame (fixedPlace address) ↔ inUserSpace address = true := by
  have bound := address.isLt
  rw [userFrame_iff, inUserSpace_iff, toNat_fixedPlace]
  split
  · omega
  · split <;> omega

theorem fixedPlace_injective {address other : Word} (apart : ¬ SecondWindow address)
    (otherApart : ¬ SecondWindow other) (same : fixedPlace address = fixedPlace other) :
    address = other := by
  have places := congrArg BitVec.toNat same
  rw [toNat_fixedPlace, toNat_fixedPlace] at places
  rw [secondWindow_iff] at apart otherApart
  apply BitVec.eq_of_toNat_eq
  -- Each of the three parts of the rule is injective, and none reaches into another.
  by_cases user : address.toNat < 0x80000000 <;> by_cases otherUser : other.toNat < 0x80000000 <;>
    by_cases window : address.toNat < 0xc0000000 <;>
    by_cases otherWindow : other.toNat < 0xc0000000 <;>
    simp only [user, otherUser, window, otherWindow, if_true, if_false] at places <;> omega

theorem fixedPlace_mod (address : Word) :
    (fixedPlace address).toNat % 4096 = address.toNat % 4096 := by
  rw [toNat_fixedPlace]
  split
  · omega
  · split <;> omega

/-- The offset in a page stays. -/
theorem offset_fixedPlace (address : Word) : fixedPlace address &&& 0xfff = address &&& 0xfff := by
  have low (word : Word) : (word &&& 0xfff).toNat = word.toNat % 4096 :=
    Nat.and_two_pow_sub_one_eq_mod word.toNat 12
  apply BitVec.eq_of_toNat_eq
  rw [low, low, fixedPlace_mod]

theorem aligned_fixedPlace (width : Width) (address : Word) :
    width.aligned (fixedPlace address) = width.aligned address := by
  have offset := fixedPlace_mod address
  rw [Bool.eq_iff_iff, Width.aligned_iff, Width.aligned_iff]
  cases width <;> simp only [Width.bytes] <;> omega

/-- The word that contains a place of user space lies in user space. -/
theorem userFrame_containingWord (place : Word) :
    UserFrame (containingWord place) ↔ UserFrame place := by
  rw [userFrame_iff, userFrame_iff, toNat_containingWord, lane_eq]
  omega

/-! ### Memory outside of user space -/

namespace Ram

/-- The physical address of a byte of the block. -/
def placeAt (ram : Ram) (position : Nat) : Word := ram.base + BitVec.ofNat 32 position

/-- A position in the block and the physical address are the same distance away. -/
theorem placeAt_position_add (ram : Ram) (place : Word) (distance : Nat) :
    ram.placeAt (ram.position place + distance) = place + BitVec.ofNat 32 distance := by
  have back : ram.base + (place - ram.base) = place := by
    rw [BitVec.add_comm, BitVec.sub_add_cancel]
  calc
    ram.placeAt (ram.position place + distance) =
        ram.base + (BitVec.ofNat 32 (place - ram.base).toNat + BitVec.ofNat 32 distance) := by
      rw [placeAt, BitVec.ofNat_add, position]
    _ = ram.base + (place - ram.base) + BitVec.ofNat 32 distance := by
      rw [BitVec.ofNat_toNat, BitVec.setWidth_eq, BitVec.add_assoc]
    _ = place + BitVec.ofNat 32 distance := by rw [back]

/-- The block differs in bytes of user space at most. -/
structure KeptOutside (before after : Ram) : Prop where
  block : after = { before with data := after.data }
  size : after.data.size = before.data.size
  bytes : ∀ position, ¬ UserFrame (before.placeAt position) →
    after.byteAt position = before.byteAt position

theorem KeptOutside.refl (ram : Ram) : ram.KeptOutside ram := ⟨rfl, rfl, fun _ _ => rfl⟩

theorem KeptOutside.trans {before middle after : Ram} (first : before.KeptOutside middle)
    (later : middle.KeptOutside after) : before.KeptOutside after where
  block := by
    rw [later.block, first.block]
  size := later.size.trans first.size
  bytes := by
    intro position outside
    have samePlace : middle.placeAt position = before.placeAt position := by
      rw [first.block]
      rfl
    rw [later.bytes position (samePlace ▸ outside), first.bytes position outside]

/-- The bytes of an aligned access lie on one side of a bound of user space. -/
theorem userFrame_add {width : Width} {place : Word} {index : Nat}
    (aligned : width.aligned place = true) (inside : index < width.bytes)
    (user : UserFrame place) : UserFrame (place + BitVec.ofNat 32 index) := by
  rw [userFrame_iff] at user ⊢
  rw [Width.aligned_iff] at aligned
  have small : index < 4 := by cases width <;> simp only [Width.bytes] at inside <;> omega
  rw [BitVec.toNat_add, BitVec.toNat_ofNat]
  cases width <;> simp only [Width.bytes] at aligned inside <;> omega

theorem keptOutside_write (ram : Ram) {width : Width} {place : Word}
    (value mask : BitVec width.bits) (aligned : width.aligned place = true)
    (user : UserFrame place) : ram.KeptOutside (ram.write width place value mask).2 := by
  simp only [write]
  split
  · exact .refl ram
  next start found =>
    obtain ⟨position, inside⟩ := position_of_offset found
    refine ⟨storeAt_eq _ _ _ _, size_storeAt _ _ _ _, ?_⟩
    intro other outside
    have untouched : ¬ (start ≤ other ∧ other < start + width.bytes) := by
      rintro ⟨low, high⟩
      apply outside
      -- A byte that is stored lies at the place of the access, or shortly after.
      have reached : ram.placeAt other = place + BitVec.ofNat 32 (other - start) := by
        rw [← position, ← placeAt_position_add, position, Nat.add_sub_cancel' low]
      rw [reached]
      exact userFrame_add aligned (by omega) user
    rw [byteAt_storeAt inside, if_neg untouched]

theorem keptOutside_serveAll {requests : List Request} (ram : Ram)
    (confined : ∀ request ∈ requests, request.Aligned ∧ UserFrame request.address) :
    ram.KeptOutside (Bus.serveAll ram requests).2 := by
  induction requests generalizing ram with
  | nil => exact .refl ram
  | cons request rest ih =>
    obtain ⟨aligned, user⟩ := confined request List.mem_cons_self
    have first : ram.KeptOutside (Bus.serve ram request).2 := by
      cases request with
      | read width place => exact .refl ram
      | write width place value mask => exact ram.keptOutside_write value mask aligned user
    exact first.trans (ih _ fun later member => confined later (List.mem_cons_of_mem _ member))

end Ram

/-! ### Steps in user mode -/

namespace Cpu

section

variable {β : Type} [Bus β]

omit [Bus β] in
theorem dataAsks_eq {cpu : Cpu} (program : cpu.core.space = .program) (word : Word) :
    cpu.dataAsks word = cpu.dataRequests word := by
  cases issued : cpu.core.issue cpu.random word <;>
    simp only [dataAsks, dataRequests, program, issued]

theorem stepAsks_eq {cpu : Cpu} (program : cpu.core.space = .program) (bus : β) :
    cpu.stepAsks bus = cpu.stepRequests bus := by
  simp only [stepAsks, stepRequests]
  rcases fetch : (cpu.tick 1).fetch bus with ⟨trap | word, fetched, memory⟩
  · rfl
  · have same := dataAsks_eq ((space_of_fetch fetch).trans program) word
    simp only [same]

/-- After a step the memory of the host has served the fetch, and then the access of the
instruction if that goes there. -/
theorem bus_step (cpu : Cpu) (bus : β) :
    (cpu.step bus).bus = (Bus.serveAll bus (cpu.fetchAsks ++ cpu.stepRequests bus)).2 := by
  have asked := congrArg Memories.host (cpu.memories_step bus)
  rw [Bus.serveAll_append]
  by_cases program : cpu.core.space = .program
  · rw [program, stepAsks_eq program] at asked
    exact asked
  · -- The access of the instruction goes to a cache, so the host has served the fetch only.
    rw [Memories.host_serve_of_elsewhere program] at asked
    rw [stepRequests_of_elsewhere program]
    exact asked

end

/-- Under the fixed mapping an access comes from user space if and only if it goes to the physical
addresses of user space. -/
theorem userFrame_of_access {core : Core} (fixed : core.mmu = .fixed) {user : Bool}
    {address place physical : Word} {intent : Intent}
    (resolved : core.resolve user address intent = .ok physical)
    (placed : place = physical ∨ place = containingWord physical) :
    inUserSpace address = true ↔ UserFrame place := by
  rw [← userFrame_fixedPlace, ← Core.eq_fixedPlace fixed resolved]
  rcases placed with rfl | rfl
  · exact Iff.rfl
  · exact (userFrame_containingWord physical).symm

/-- A program in user mode finds places of user space only. -/
theorem userFrame_of_place {core : Core} (fixed : core.mmu = .fixed) (user : core.userMode = true)
    {demand : Demand} {place : Word} (placed : core.place demand = .ok place) :
    UserFrame place := by
  obtain ⟨physical, resolved, same⟩ := Core.resolve_of_place placed
  rw [user] at resolved
  exact (userFrame_of_access fixed resolved same).mp (inUserSpace_of_resolve resolved)

theorem place_of_dataRequests {cpu : Cpu} {word : Word} {asked : Request}
    (member : asked ∈ cpu.dataRequests word) :
    ∃ demand, cpu.core.place demand = .ok asked.address := by
  simp only [dataRequests] at member
  split at member
  · cases member
  · cases member
  next load issued =>
    obtain ⟨place, placed, rfl⟩ := Core.place_of_asks member
    exact ⟨_, placed⟩
  next store issued =>
    obtain ⟨place, placed, rfl⟩ := Core.place_of_asks member
    exact ⟨_, placed⟩

section

variable {β : Type} [Bus β] {cpu : Cpu}

/-- All that a step in user mode asks of the memory of the host is aligned and lies in user
space. -/
theorem confined_of_user (fixed : cpu.core.mmu = .fixed) (user : cpu.core.userMode = true) (bus : β)
    {asked : Request} (member : asked ∈ cpu.fetchAsks ++ cpu.stepRequests bus) :
    asked.Aligned ∧ UserFrame asked.address := by
  rcases List.mem_append.mp member with fetching | data
  · obtain ⟨place, placed, rfl⟩ := Core.place_of_asks fetching
    exact ⟨Core.aligned_of_place placed (.inl rfl), userFrame_of_place fixed user placed⟩
  · refine ⟨(stepRequests_regular data).1, ?_⟩
    rcases cpu.stepRequests_cases bus with none | ⟨word, fetched, memory, fetch, -, same⟩
    · rw [none] at data
      cases data
    · rw [same] at data
      obtain ⟨demand, placed⟩ := place_of_dataRequests data
      rw [fetch_of_ok fetch] at placed
      -- The fetch has changed neither the hardware nor the mode.
      have stillFixed : (cpu.core.mark cpu.core.fetchDemand).mmu = .fixed := by
        apply Mmu.eq_fixed_of_kind
        rw [Mmu.kind_of_forgetOrders (Core.mapping_of_forgetOrders (Core.forgetOrders_mark _ _)),
          fixed]
        rfl
      have stillUser := (Core.userMode_mark cpu.core cpu.core.fetchDemand).trans user
      exact userFrame_of_place stillFixed stillUser placed

theorem fixed_step (fixed : cpu.core.mmu = .fixed) (bus : β) :
    (cpu.step bus).cpu.core.mmu = .fixed := by
  apply Mmu.eq_fixed_of_kind
  rw [← operate, kind_operate, fixed]
  rfl

end

section

variable {cpu : Cpu}

theorem keptOutside_step (fixed : cpu.core.mmu = .fixed) (user : cpu.core.userMode = true)
    (ram : Ram) : ram.KeptOutside (cpu.step ram).bus := by
  rw [bus_step]
  exact ram.keptOutside_serveAll fun _ member => confined_of_user fixed user ram member

/-- A program in user mode that may not use coprocessor 0 stays so until an exception is entered,
and keeps the memory outside of user space. -/
theorem steps_confined (fixed : cpu.core.mmu = .fixed) (user : cpu.core.userMode = true)
    (denied : cpu.core.unitUsable 0 = false) (ram : Ram) {count : Nat}
    (quiet : entered (cpu.steps ram count).notes = []) :
    (cpu.steps ram count).cpu.core.mmu = .fixed ∧
      (cpu.steps ram count).cpu.core.system.status = cpu.core.system.status ∧
        ram.KeptOutside (cpu.steps ram count).bus := by
  -- By induction on the number of steps, of which none has entered an exception.
  induction count with
  | zero => exact ⟨fixed, rfl, .refl ram⟩
  | succ count ih =>
    simp only [steps, entered_append, List.append_eq_nil_iff] at quiet
    obtain ⟨before, last⟩ := quiet
    obtain ⟨stillFixed, status, kept⟩ := ih before
    have silent : (cpu.steps ram count).cpu.stepTrap (cpu.steps ram count).bus = none := by
      rw [entered_step] at last
      simpa using last
    have stillUser : (cpu.steps ram count).cpu.core.userMode = true := by
      rw [Core.userMode, status]
      exact user
    have stillDenied : (cpu.steps ram count).cpu.core.unitUsable 0 = false := by
      rw [Core.unitUsable, status]
      exact denied
    -- The step completes, so what protects the mode from a program protects it once more.
    have guarded := step_protected silent stillUser stillDenied
    exact ⟨fixed_step stillFixed _, guarded.status.trans status,
      kept.trans (keptOutside_step stillFixed stillUser _)⟩

end

end Cpu

/-- Translation by the core keeps user space and the other segments apart. -/
structure Core.KeepsApart (core : Core) : Prop where
  /-- Every address is translated for whom may use it, the kernel for all of them. -/
  total : ∀ user address intent, user = false ∨ address < 0x80000000 →
    ∃ physical, core.resolve user address intent = .ok physical
  injective : ∀ user otherUser address other intent otherIntent physical,
    ¬ SecondWindow address → ¬ SecondWindow other →
    core.resolve user address intent = .ok physical →
    core.resolve otherUser other otherIntent = .ok physical → address = other
  frame : ∀ user address intent physical, core.resolve user address intent = .ok physical →
    (address < 0x80000000 ↔ UserFrame physical)
  offset : ∀ user address intent physical, core.resolve user address intent = .ok physical →
    physical &&& 0xfff = address &&& 0xfff ∧
      ∀ width : Width, width.aligned physical = width.aligned address

theorem inUserSpace_iff_lt (address : Word) : inUserSpace address = true ↔ address < 0x80000000 :=
  inUserSpace_iff address

theorem Core.keepsApart_of_fixed {core : Core} (fixed : core.mmu = .fixed) : core.KeepsApart where
  total := by
    intro user address intent allowed
    refine ⟨fixedPlace address, ?_⟩
    rw [resolve_fixed fixed, if_neg]
    rintro ⟨inUser, outside⟩
    rcases allowed with kernel | low
    · exact Bool.noConfusion (inUser.symm.trans kernel)
    · rw [(inUserSpace_iff_lt address).mpr low] at outside
      cases outside
  injective := by
    intro user otherUser address other intent otherIntent physical apart otherApart resolved
      otherResolved
    exact fixedPlace_injective apart otherApart
      ((eq_fixedPlace fixed resolved).symm.trans (eq_fixedPlace fixed otherResolved))
  frame := by
    intro user address intent physical resolved
    rw [eq_fixedPlace fixed resolved, userFrame_fixedPlace]
    exact (inUserSpace_iff_lt address).symm
  offset := by
    intro user address intent physical resolved
    rw [eq_fixedPlace fixed resolved]
    exact ⟨offset_fixedPlace address, fun width => aligned_fixedPlace width address⟩

namespace Cpu

/-- The fixed mapping keeps user and kernel memory apart, in every state of a processor that is
described with it. Translation does; so the accesses of a step from user space, and no others, go to
the physical addresses of user space, and so do those of a word that is executed directly. A program
in user mode that may not use coprocessor 0 keeps every byte of a memory at other addresses, up to
and including the step that enters an exception. -/
theorem fixed_mapping_separates :
    (∀ (config : Config) (cpu : Cpu), config.mapping = .fixed →
      Leads (fun _ => True) (Cpu.build config).1 cpu → cpu.core.mmu = .fixed) ∧
    ∀ cpu : Cpu, cpu.core.mmu = .fixed →
      cpu.core.KeepsApart ∧
      (∀ {β : Type} [Bus β] (bus : β), cpu.MakesOnly bus (cpu.accesses bus) ∧
        ∀ access ∈ cpu.accesses bus, (access.address < 0x80000000 ↔ UserFrame access.place)) ∧
      (∀ word, ∀ access ∈ cpu.dataAccesses word,
        (access.address < 0x80000000 ↔ UserFrame access.place)) ∧
      (hasAny cpu.core.system.status 0x2 = true →
        hasAny cpu.core.system.status 0x10000000 = false → ∀ (ram : Ram) (count : Nat),
          entered (cpu.steps ram count).notes = [] →
            ram.KeptOutside (cpu.steps ram count).bus ∧
              ram.KeptOutside (cpu.steps ram (count + 1)).bus) := by
  constructor
  · intro config cpu fixed history
    exact Mmu.eq_fixed_of_kind (history.installed.2.trans fixed)
  · intro cpu fixed
    have framed (access : Access) (translated : ∃ physical,
        cpu.core.resolve cpu.core.userMode access.address access.intent = .ok physical ∧
          (access.place = physical ∨ access.place = containingWord physical)) :
        access.address < 0x80000000 ↔ UserFrame access.place := by
      obtain ⟨physical, resolved, placed⟩ := translated
      rw [← inUserSpace_iff_lt]
      exact userFrame_of_access fixed resolved placed
    refine ⟨Core.keepsApart_of_fixed fixed, ?_, ?_, ?_⟩
    · intro β _ bus
      refine ⟨step_makesOnly cpu bus, ?_⟩
      intro access member
      exact framed access ((step_makesOnly cpu bus).translated access member)
    · intro word access member
      exact framed access (translated_of_dataAccesses member).2
    · intro user denied ram count quiet
      obtain ⟨stillFixed, status, kept⟩ := steps_confined fixed user denied ram quiet
      have stillUser : (cpu.steps ram count).cpu.core.userMode = true := by
        rw [Core.userMode, status]
        exact user
      exact ⟨kept, kept.trans (keptOutside_step stillFixed stillUser _)⟩

/-- A block around the lowest physical address of user space. The program there stores a word, and
then tries to store it at the highest address. -/
def storesAround : Ram :=
  ((Ram.zeroed 0x3ffffff0 64 .big).loadWords 0x40000000 [0x2409ffff, 0xac090020, 0xac09fffc]).1

/-- The second store is left for the kernel. The first went to the thirty-second byte of user space,
and no byte below user space has changed. -/
theorem fixed_mapping_separates_stores :
    userProgram.core.mmu = .fixed ∧
      userProgram.translate 0x7fffffff .write = some 0xbfffffff ∧
      userProgram.translate 0x80000000 .write = some 0 ∧
      (∃ place, userProgram.core.resolve true 0 .write = .ok place ∧ UserFrame place) ∧
      userProgram.accesses storesAround = [⟨0, .fetch, .program, .word, 0x40000000⟩] ∧
      (∀ access ∈ userProgram.accesses storesAround, UserFrame access.place) ∧
      entered (userProgram.steps storesAround 2).notes = [] ∧
      entered (userProgram.steps storesAround 3).notes = [.addressStore] ∧
      (userProgram.steps storesAround 3).bus.byteAt 48 = 0xff ∧
      (userProgram.steps storesAround 3).bus.byteAt 15 = storesAround.byteAt 15 := by
  obtain ⟨built, separates⟩ := fixed_mapping_separates
  have fixed : userProgram.core.mmu = .fixed := by
    have history : Leads (fun _ => True) (Cpu.build (.ofModel .r3051)).1
        ((Cpu.build (.ofModel .r3051)).1.operateAll storesAround
          [.setSystemReg 12 0x2, .setPc 0]) :=
      Leads.refl.operateAll storesAround fun _ _ => trivial
    exact built (.ofModel .r3051) _ rfl history
  obtain ⟨apart, accesses, -, confined⟩ := separates userProgram fixed
  have quiet : entered (userProgram.steps storesAround 2).notes = [] := by decide +kernel
  have made : userProgram.accesses storesAround = [⟨0, .fetch, .program, .word, 0x40000000⟩] := by
    decide +kernel
  refine ⟨fixed, by decide +kernel, by decide +kernel, ?_, made, ?_, quiet, by decide +kernel,
    by decide +kernel, ?_⟩
  · obtain ⟨place, resolved⟩ := apart.total true 0 .write (.inr (by decide))
    exact ⟨place, resolved, (apart.frame _ _ _ _ resolved).mp (by decide)⟩
  · intro access member
    have low : access.address < 0x80000000 := by
      rw [made] at member
      cases List.mem_singleton.mp member
      decide
    exact ((accesses storesAround).2 access member).mp low
  · obtain ⟨-, kept⟩ := confined (by decide +kernel) (by decide +kernel) storesAround 2 quiet
    exact kept.bytes 15 (by decide +kernel)

end Cpu

end R3000
