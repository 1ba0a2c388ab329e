import R3000.Proofs.CheckedIssue

/-!
# What is issued with checks

The fields of a word are the registers that its instruction was decoded with. So, on whatever core
it is issued, an instruction passes all checks, and what is issued is the same as without them. A
load among it has a destination that can be received.
-/
namespace R3000.Strict

/-! ### The fields that an instruction reads -/

/-- The registers of a condition are those that the fields of a word name. -/
def ReadsCondition (word : Word) : Condition → Prop
  | .equal rs rt | .notEqual rs rt => rs = Encoding.rs word ∧ rt = Encoding.rt word
  | .lessEqualZero rs | .greaterZero rs | .negative rs | .notNegative rs => rs = Encoding.rs word

def ReadsSystem (word : Word) : SystemOp → Prop
  | .moveFrom rt rd | .moveTo rt rd => rt = Encoding.rt word ∧ rd = Encoding.rd word
  | .branch _ | .restoreMode | .tlb _ | .reserved => True

def ReadsFloatInstr (word : Word) : FloatInstr → Prop
  | .moveFrom rt fs | .moveTo rt fs => rt = Encoding.rt word ∧ fs = Encoding.rd word
  | .controlFrom rt _ | .controlTo rt _ => rt = Encoding.rt word
  | .load ft base _ | .store ft base _ => ft = Encoding.rt word ∧ base = Encoding.rs word
  | .operate op => ReadsFloat word op
  | .branch _ | .unimplemented => True

/-- The registers and the shift amount of an instruction are those that the fields of a word
name. -/
def Reads (word : Word) : Instr → Prop
  | .shift _ rd rt amount =>
    rd = Encoding.rd word ∧ rt = Encoding.rt word ∧ amount = Encoding.shamt word
  | .shiftVariable _ rd rt rs =>
    rd = Encoding.rd word ∧ rt = Encoding.rt word ∧ rs = Encoding.rs word
  | .compute _ rd rs rt | .checked _ rd rs rt | .multiply _ rd rs rt | .multiplyAdd _ rd rs rt =>
    rd = Encoding.rd word ∧ rs = Encoding.rs word ∧ rt = Encoding.rt word
  | .computeImmediate _ rt rs _ | .checkedImmediate rt rs _ | .load _ rt rs _ | .store _ rt rs _ =>
    rt = Encoding.rt word ∧ rs = Encoding.rs word
  | .loadUpper rt _ => rt = Encoding.rt word
  | .divide _ rs rt => rs = Encoding.rs word ∧ rt = Encoding.rt word
  | .moveFromHi rd | .moveFromLo rd => rd = Encoding.rd word
  | .moveToHi rs | .moveToLo rs => rs = Encoding.rs word
  | .jumpRegister link rs => (∀ rd ∈ link, rd = Encoding.rd word) ∧ rs = Encoding.rs word
  | .branch condition _ _ _ => ReadsCondition word condition
  | .system op => ReadsSystem word op
  | .float instr => ReadsFloatInstr word instr
  | .foreign unit _ => unit = Encoding.unitNum word
  | .jump _ _ | .syscall | .breakpoint | .nothing | .reserved => True

theorem decodeSpecial_reads (word : Word) : Reads word (decodeSpecial word) := by
  unfold decodeSpecial
  split <;> simp [Reads]

theorem decodeSignBranch_reads (word : Word) : Reads word (decodeSignBranch word) := by
  unfold decodeSignBranch
  split <;> simp [Reads, ReadsCondition]

theorem decodeSystem_reads (word : Word) : ReadsSystem word (decodeSystem word) := by
  unfold decodeSystem
  repeat' split
  all_goals simp [ReadsSystem]

theorem decodeFloatOp_reads {word : Word} {op : FloatOp} (decoded : decodeFloatOp word = some op) :
    ReadsFloat word op := by
  simp only [decodeFloatOp, decodeFloatFormat, decodeFloatWord] at decoded
  repeat' split at decoded
  all_goals cases decoded
  all_goals simp [ReadsFloat, Encoding.fs, Encoding.ft]

theorem decodeFloat_reads (word : Word) : ReadsFloatInstr word (decodeFloat word) := by
  unfold decodeFloat
  repeat' split
  any_goals simp [ReadsFloatInstr, Encoding.fs]
  next op decoded => exact decodeFloatOp_reads decoded

theorem decode_reads (word : Word) : Reads word (decode word) := by
  unfold decode
  split
  any_goals first
    | exact decodeSpecial_reads word
    | exact decodeSignBranch_reads word
    | exact decodeSystem_reads word
    | exact decodeFloat_reads word
  any_goals simp [Reads, ReadsCondition, ReadsFloatInstr, Encoding.ft, decodeForeign]
  -- The instructions of the coprocessors 2 and 3 that have an opcode of their own.
  all_goals
    next code =>
      rw [Encoding.unitNum_eq, code]
      rfl

/-! ### What is issued -/

theorem effectiveAddress_eq (core : Core) (word offset : Word) :
    effectiveAddress core word offset =
      .ok (core.effectiveAddress (Encoding.rs word) offset) := by
  simp only [effectiveAddress, Field.source_eq, readGpr_val, ok_bind, pure_eq_ok,
    Core.effectiveAddress]

theorem link_eq (core : Core) (value : Word) :
    writeGpr core 31 value = .ok (core.setReg 31 value) := writeGpr_val core 31 value

theorem issueProduct_eq (core : Core) (word : Word) (value : BitVec 64) :
    issueProduct core word value = .ok (.of (core.issueProduct (Encoding.rd word) value)) := by
  simp only [issueProduct, Field.destination_eq, writeGpr_val, ok_bind, pure_eq_ok]
  rfl

/-- No quotient is asked for when there is none. -/
theorem issueDivide_eq (core : Core) (word : Word) (signed : Bool) :
    issueDivide core word signed =
      .ok (.of (core.issueDivide signed (core.reg (Encoding.rs word))
        (core.reg (Encoding.rt word)))) := by
  simp only [issueDivide, Field.source_eq, Field.target_eq, readGpr_val, ok_bind, pure_eq_ok,
    Core.issueDivide]
  by_cases zero : core.reg (Encoding.rt word) = 0
  · simp only [zero, if_true]
    rfl
  · simp only [zero, if_false, divide_of_ne signed zero, ok_bind]
    rfl

theorem indexedSlot_eq (core : Core) : indexedSlot core = .ok core.system.indexedSlot := by
  have cut : (core.system.read SystemControl.indexReg >>> 8 &&& 0x3f).toNat =
      core.system.indexedSlot.val := toNat_cut _ 8 (by decide : 6 ≤ 32)
  rw [indexedSlot, cut, slot_val]

section

variable (core : Core) {random : Fin 64} {counter : Checked Word}
  (counts : counter = .ok (BitVec.ofNat 32 random.val))

include counts

theorem issueTlb_eq (buffer : Tlb) (op : TlbOp) :
    issueTlb core counter buffer op = .ok (.of (core.issueTlb random buffer op)) := by
  have number : (BitVec.ofNat 32 random.val).toNat = random.val := by
    rw [BitVec.toNat_ofNat]
    omega
  cases op with
  | read | writeIndexed =>
    simp only [issueTlb, indexedSlot_eq, ok_bind, pure_eq_ok]
    rfl
  | writeRandom =>
    simp only [issueTlb, counts, number, slot_val, ok_bind, pure_eq_ok]
    rfl
  | probe => rfl

theorem issueSystem_eq {word : Word} {op : SystemOp} (reads : ReadsSystem word op) :
    issueSystem core counter word op = .ok (.of (core.issueSystem random word op)) := by
  simp only [issueSystem, Core.issueSystem]
  split
  · rfl
  · cases op with
    | moveFrom rt rd =>
      obtain ⟨rfl, rfl⟩ := reads
      simp only [Field.destination_eq, Field.target_eq, readSystem_eq core counts, writeGpr_val,
        ok_bind, pure_eq_ok]
      rfl
    | moveTo rt rd =>
      obtain ⟨rfl, rfl⟩ := reads
      simp only [Field.destination_eq, Field.target_eq, readGpr_val, writeSystem_eq, ok_bind,
        pure_eq_ok]
      rfl
    | tlb op =>
      cases core.mmu.buffer? with
      | none => rfl
      | some buffer => exact issueTlb_eq core counts buffer op
    | branch branch | restoreMode | reserved => rfl

end

theorem issueForeign_eq (core : Core) (word : Word) (branch : Option UnitBranch) :
    issueForeign core word branch =
      .ok (.of (core.issueForeign word (Encoding.unitNum word) branch)) := by
  simp only [issueForeign, Core.issueForeign, Field.unit_eq, unitUsable_eq, ok_bind, pure_eq_ok]
  split
  · rfl
  · cases branch with
    | none => rfl
    | some branch =>
      simp only [condition_val, ok_bind]
      rfl

theorem issueFloatOn_eq (core : Core) (unit : FloatUnit) {word : Word} {instr : FloatInstr}
    (reads : ReadsFloatInstr word instr) :
    issueFloatOn core unit word instr = .ok (.of (core.issueFloatOn unit word instr)) := by
  cases instr with
  | moveFrom rt fs | moveTo rt fs =>
    obtain ⟨rfl, rfl⟩ := reads
    simp only [issueFloatOn, Field.destination_eq, Field.target_eq, readGpr_val, writeGpr_val,
      half_val, setHalf_val, ok_bind, pure_eq_ok]
    rfl
  | controlFrom rt fs =>
    obtain rfl := reads
    simp only [issueFloatOn, Field.target_eq, writeGpr_val, Core.issueFloatOn]
    cases unit.control? fs <;> rfl
  | controlTo rt fs =>
    obtain rfl := reads
    simp only [issueFloatOn, Field.target_eq, readGpr_val, updateUnit_eq, ok_bind,
      Core.issueFloatOn]
    cases unit.setControl? fs (core.reg (Encoding.rt word)) <;> rfl
  | load ft base offset =>
    obtain ⟨rfl, rfl⟩ := reads
    simp only [issueFloatOn, effectiveAddress_eq, Field.target_eq, ok_bind, pure_eq_ok]
    rfl
  | store ft base offset =>
    obtain ⟨rfl, rfl⟩ := reads
    simp only [issueFloatOn, effectiveAddress_eq, Field.target_eq, half_val, ok_bind, pure_eq_ok]
    rfl
  | operate op =>
    simp only [issueFloatOn, executeFloat_eq unit reads, updateUnit_eq, ok_bind, pure_eq_ok]
    rfl
  | unimplemented =>
    simp only [issueFloatOn, unimplementedFloat_eq, ok_bind, pure_eq_ok]
    rfl
  | branch branch => rfl

theorem issueFloat_eq (core : Core) {word : Word} {instr : FloatInstr}
    (reads : ReadsFloatInstr word instr) :
    issueFloat core word instr = .ok (.of (core.issueFloat word instr)) := by
  simp only [issueFloat, Core.issueFloat]
  split
  · rfl
  · cases core.fpu with
    | none => rfl
    | some unit => exact issueFloatOn_eq core unit reads

theorem holds_eq (core : Core) {word : Word} {condition : Condition}
    (reads : ReadsCondition word condition) :
    holds core word condition = .ok (condition.holds core.registers) := by
  cases condition with
  | equal rs rt | notEqual rs rt =>
    obtain ⟨rfl, rfl⟩ := reads
    simp only [holds, Field.source_eq, Field.target_eq, readGpr_val, ok_bind, pure_eq_ok]
    rfl
  | lessEqualZero rs | greaterZero rs | negative rs | notNegative rs =>
    obtain rfl := reads
    simp only [holds, Field.source_eq, readGpr_val, ok_bind, pure_eq_ok]
    rfl

/-- An instruction passes all checks, on whatever core it is issued. -/
theorem issueInstr_eq (core : Core) {random : Fin 64} {counter : Checked Word}
    (counts : counter = .ok (BitVec.ofNat 32 random.val)) {word : Word} {instr : Instr}
    (reads : Reads word instr) :
    issueInstr core counter word instr = .ok (.of (core.issueInstr random word instr)) := by
  -- By the instruction: its fields are its registers, so what it reads and writes passes.
  cases instr with
  | shift op rd rt amount =>
    obtain ⟨rfl, rfl, rfl⟩ := reads
    have inside := (Encoding.fd word).isLt
    simp only [issueInstr, Field.target_eq, Field.destination_eq, Field.amount_eq, readGpr_val,
      shift_of_lt op inside, writeGpr_val, ok_bind, pure_eq_ok]
    rfl
  | shiftVariable op rd rt rs =>
    obtain ⟨rfl, rfl, rfl⟩ := reads
    -- The amount is what a register holds, cut to five bits.
    have cut : (core.reg (Encoding.rs word) &&& 0x1f).toNat =
        ((core.reg (Encoding.rs word)).extractLsb' 0 5).toNat := toNat_cut _ 0 (by decide : 5 ≤ 32)
    have inside := ((core.reg (Encoding.rs word)).extractLsb' 0 5).isLt
    simp only [issueInstr, Field.source_eq, Field.target_eq, Field.destination_eq, readGpr_val,
      ok_bind, cut, shift_of_lt op inside, writeGpr_val, pure_eq_ok]
    rfl
  | compute op rd rs rt =>
    obtain ⟨rfl, rfl, rfl⟩ := reads
    simp only [issueInstr, Field.source_eq, Field.target_eq, Field.destination_eq, readGpr_val,
      writeGpr_val, ok_bind, pure_eq_ok]
    rfl
  | computeImmediate op rt rs operand =>
    obtain ⟨rfl, rfl⟩ := reads
    simp only [issueInstr, Field.source_eq, Field.target_eq, readGpr_val, writeGpr_val, ok_bind,
      pure_eq_ok]
    rfl
  | checked op rd rs rt =>
    obtain ⟨rfl, rfl, rfl⟩ := reads
    simp only [issueInstr, Field.source_eq, Field.target_eq, Field.destination_eq, readGpr_val,
      writeGpr_val, ok_bind, Core.issueInstr]
    cases op.apply? (core.reg (Encoding.rs word)) (core.reg (Encoding.rt word)) <;> rfl
  | checkedImmediate rt rs operand =>
    obtain ⟨rfl, rfl⟩ := reads
    simp only [issueInstr, Field.source_eq, Field.target_eq, readGpr_val, writeGpr_val, ok_bind,
      Core.issueInstr]
    cases CheckedOp.apply? .add (core.reg (Encoding.rs word)) operand <;> rfl
  | loadUpper rt value =>
    obtain rfl := reads
    simp only [issueInstr, Field.target_eq, writeGpr_val, ok_bind, pure_eq_ok]
    rfl
  | multiply signed rd rs rt | multiplyAdd signed rd rs rt =>
    obtain ⟨rfl, rfl, rfl⟩ := reads
    simp only [issueInstr, Field.source_eq, Field.target_eq, readGpr_val, wideProduct_eq, ok_bind,
      issueProduct_eq]
    rfl
  | divide signed rs rt =>
    obtain ⟨rfl, rfl⟩ := reads
    exact issueDivide_eq core word signed
  | moveFromHi rd | moveFromLo rd =>
    obtain rfl := reads
    simp only [issueInstr, Field.destination_eq, writeGpr_val, ok_bind, pure_eq_ok]
    rfl
  | moveToHi rs | moveToLo rs =>
    obtain rfl := reads
    simp only [issueInstr, Field.source_eq, readGpr_val, ok_bind, pure_eq_ok]
    rfl
  | jump link region =>
    simp only [issueInstr, link_eq]
    cases link <;> rfl
  | jumpRegister link rs =>
    obtain ⟨linked, rfl⟩ := reads
    simp only [issueInstr, Field.source_eq, Field.destination_eq, readGpr_val, writeGpr_val,
      ok_bind]
    cases link with
    | none => rfl
    | some rd =>
      obtain rfl := linked rd rfl
      rfl
  | branch condition likely link offset =>
    simp only [issueInstr, holds_eq core reads, link_eq, ok_bind]
    cases link <;> rfl
  | load op rt rs offset =>
    obtain ⟨rfl, rfl⟩ := reads
    simp only [issueInstr, effectiveAddress_eq, Field.target_eq, loadOf_val, ok_bind, pure_eq_ok]
    rfl
  | store op rt rs offset =>
    obtain ⟨rfl, rfl⟩ := reads
    simp only [issueInstr, effectiveAddress_eq, Field.target_eq, readGpr_val, storeOf_eq, ok_bind,
      pure_eq_ok]
    rfl
  | system op => exact issueSystem_eq core counts reads
  | float instr => exact issueFloat_eq core reads
  | foreign unit branch =>
    obtain rfl := reads
    exact issueForeign_eq core word branch
  | syscall | breakpoint | nothing | reserved => rfl

/-- What is issued is no load, or one whose value can be received. -/
def IssueFits : R3000.Issue → Prop
  | .load load => Fits load.destination
  | .retire _ _ _ | .raise _ | .store _ => True

theorem issueSystem_fits (core : Core) (random : Fin 64) (word : Word) (op : SystemOp) :
    IssueFits (core.issueSystem random word op) := by
  simp only [Core.issueSystem]
  split
  · trivial
  · cases op with
    | tlb op =>
      cases core.mmu.buffer? with
      | none => trivial
      | some buffer => cases op <;> trivial
    | moveFrom rt source | moveTo rt target | branch branch | restoreMode | reserved => trivial

theorem issueFloat_fits (core : Core) (word : Word) (instr : FloatInstr) :
    IssueFits (core.issueFloat word instr) := by
  simp only [Core.issueFloat]
  split
  · trivial
  · cases core.fpu with
    | none => trivial
    | some unit =>
      cases instr with
      | controlFrom rt fs | controlTo rt fs =>
        simp only [Core.issueFloatOn]
        split <;> trivial
      | _ => trivial

theorem issueInstr_fits (core : Core) (random : Fin 64) (word : Word) (instr : Instr) :
    IssueFits (core.issueInstr random word instr) := by
  cases instr with
  | load op rt base offset => exact loadOf_fits core op rt _
  | system op => exact issueSystem_fits core random word op
  | float instr => exact issueFloat_fits core word instr
  | foreign unit branch =>
    simp only [Core.issueInstr, Core.issueForeign]
    repeat' split
    all_goals trivial
  | divide signed rs rt =>
    simp only [Core.issueInstr, Core.issueDivide]
    split <;> trivial
  | checked op rd rs rt | checkedImmediate rt rs operand =>
    simp only [Core.issueInstr]
    split <;> trivial
  | _ =>
    -- What remains completes, raises or stores.
    trivial

theorem issue_eq (core : Core) {random : Fin 64} {counter : Checked Word}
    (counts : counter = .ok (BitVec.ofNat 32 random.val)) (word : Word) :
    issue core counter word = .ok (.of (core.issue random word)) :=
  issueInstr_eq core counts (decode_reads word)

end R3000.Strict
