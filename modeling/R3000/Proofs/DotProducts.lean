import Mathlib.Algebra.BigOperators.Group.List.Basic
import Mathlib.Algebra.Ring.Int.Defs
import R3000.Proofs.Multiplier

/-!
# Dot products

The two registers of the multiplier together hold one number of 64 bits. A multiplication leaves the
product of two words there, which always fits. A product can also be added to what they hold; many
such products add up to a dot product, modulo 2^64, whatever their order and the program around
them.

Products are told over the integers, with the operands that each instruction finds when it is
executed.
-/
namespace R3000

/-! ### Exact products -/

/-- A product of two words, which are read with or without a sign. -/
structure Product where
  signed : Bool
  left : Word
  right : Word
  deriving DecidableEq, Repr

/-- The product as a number. -/
def Product.exact (product : Product) : Int :=
  if product.signed then product.left.toInt * product.right.toInt
  else (product.left.toNat * product.right.toNat : Nat)

section

variable (left right : Word)

/-- What is computed of two words is their product modulo 2^64. -/
theorem wideProduct_eq (signed : Bool) :
    wideProduct signed left right = BitVec.ofInt 64 (Product.exact ⟨signed, left, right⟩) := by
  cases signed with
  | true =>
    have extended (value : Word) : value.signExtend 64 = BitVec.ofInt 64 value.toInt := by
      rw [BitVec.signExtend]
    simp only [wideProduct, Product.exact, if_true, BitVec.ofInt_mul, extended]
  | false =>
    simp only [wideProduct, Product.exact, Bool.false_eq_true, if_false, BitVec.ofInt_natCast,
      BitVec.ofNat_mul, BitVec.ofNat_toNat]

/-- A signed number of 64 bits holds every product of signed words. -/
theorem toInt_wideProduct : (wideProduct true left right).toInt = left.toInt * right.toInt := by
  have small (value : Word) : value.toInt.natAbs ≤ 2 ^ 31 := by
    have low : -2 ^ 31 ≤ value.toInt := value.le_toInt
    have high : value.toInt < 2 ^ 31 := value.toInt_lt
    omega
  have bound : (left.toInt * right.toInt).natAbs ≤ 2 ^ 31 * 2 ^ 31 := by
    rw [Int.natAbs_mul]
    exact Nat.mul_le_mul (small left) (small right)
  have wrapped : (wideProduct true left right).toInt =
      (left.toInt * right.toInt).bmod (2 ^ 64) := by
    rw [wideProduct_eq, BitVec.toInt_ofInt]
    rfl
  rw [wrapped]
  apply Int.bmod_eq_of_le_mul_two <;> omega

theorem toNat_wideProduct : (wideProduct false left right).toNat = left.toNat * right.toNat := by
  have bound : left.toNat * right.toNat < 2 ^ 32 * 2 ^ 32 :=
    Nat.mul_lt_mul'' left.isLt right.isLt
  have wide (value : Word) : (value.setWidth 64).toNat = value.toNat :=
    BitVec.toNat_setWidth_of_le (by decide)
  have wrapped : (wideProduct false left right).toNat = left.toNat * right.toNat % 2 ^ 64 := by
    simp only [wideProduct, Bool.false_eq_true, if_false, BitVec.toNat_mul, wide]
  rw [wrapped]
  exact Nat.mod_eq_of_lt bound

end

/-! ### Multiplications and additions of products -/

namespace Registers

/-- The registers with a number in the multiplier, and with its low word in `rd`. -/
def putProduct (registers : Registers) (rd : RegNum) (value : BitVec 64) : Registers :=
  (registers.setProduct value).write rd (registers.setProduct value).lo

section

variable (registers : Registers) (rd : RegNum) (value : BitVec 64)

@[simp] theorem product_putProduct : (registers.putProduct rd value).product = value := by
  simp only [product, putProduct, hi_write, lo_write]
  exact registers.product_setProduct value

/-- The low word goes to `rd`, unless that is register zero. -/
theorem read_putProduct (reg : RegNum) :
    (registers.putProduct rd value).read reg =
      if reg = rd ∧ reg ≠ 0 then (registers.putProduct rd value).lo else registers.read reg := by
  rw [putProduct, read_write, lo_write]
  by_cases same : reg = rd
  · subst same
    rfl
  · simp only [same, false_and, if_false]
    rfl

end

end Registers

section

variable {word : Word}

/-- A multiplication replaces what the multiplier holds. -/
theorem computes_multiply (signed : Bool) (code : Encoding.opcode word = 0x00)
    (selected : Encoding.funct word = if signed then 0x18 else 0x19) :
    (decode word).Computes (fun registers => registers.putProduct (Encoding.rd word)
      (wideProduct signed (registers.read (Encoding.rs word)) (registers.read (Encoding.rt word))))
      multiplyCycles := by
  have decoded : decode word =
      .multiply signed (Encoding.rd word) (Encoding.rs word) (Encoding.rt word) := by
    cases signed <;> simp_all [decode, decodeSpecial]
  rw [decoded]
  exact fun _ _ _ => rfl

/-- The low bit of the word asks for operands without a sign. -/
theorem computes_multiplyAdd (code : Encoding.opcode word = 0x1c) :
    (decode word).Computes (fun registers => registers.putProduct (Encoding.rd word)
      (registers.product + wideProduct (!word.getLsbD 0) (registers.read (Encoding.rs word))
        (registers.read (Encoding.rt word)))) multiplyCycles := by
  have decoded : decode word = .multiplyAdd (!word.getLsbD 0) (Encoding.rd word)
      (Encoding.rs word) (Encoding.rt word) := by simp [decode, code]
  rw [decoded]
  exact fun _ _ _ => rfl

end

namespace Cpu

section

variable {β : Type} [Bus β]

/-! ### What keeps the multiplier -/

theorem product_congr {first second : Registers}
    (same : first.hi = second.hi ∧ first.lo = second.lo) : first.product = second.product := by
  simp only [Registers.product, same.1, same.2]

/-- Only instructions change the registers of the multiplier, and only those that set them. -/
theorem product_operate_of_spared {cpu : Cpu} {bus : β} {operation : Operation}
    (spared : ∀ word, cpu.executed? bus operation = some word →
      Encoding.setsMultiplier word = false) :
    (cpu.operate bus operation).cpu.core.registers.product = cpu.core.registers.product := by
  have began {core : Core} (same : core.forgetOrders = cpu.core.forgetOrders) :
      core.registers.product = cpu.core.registers.product := by
    rw [Core.eq_of_forgetOrders same]
  rcases cpu.operate_courses bus operation with ⟨word, start, memory, ran⟩ |
    ⟨trap, core, memory, left⟩ | host
  · rw [ran.closes.registers, ← began ran.same]
    exact product_congr (start.multiplier_execute memory (spared word ran.executed))
  · rw [left.closes.registers, ← began left.same]
    rfl
  · cases operation with
    | step | execute word => cases host
    | setGpr number value =>
      change (cpu.core.registers.writeNumbered number value).product = _
      simp only [Registers.writeNumbered]
      split <;> rfl
    | setSystemReg number value =>
      exact congrArg Registers.product (Core.registers_writeSystem _ number value)
    | setInput line level =>
      exact congrArg Registers.product (Core.registers_setInput _ line level)
    | _ => rfl

/-! ### Products that are added -/

/-- The product that an operation adds, of the registers that its word names. -/
def added? (cpu : Cpu) (bus : β) (operation : Operation) : Option Product :=
  (cpu.executed? bus operation).bind fun word =>
    if Encoding.opcode word = 0x1c then
      some ⟨!word.getLsbD 0, cpu.core.reg (Encoding.rs word), cpu.core.reg (Encoding.rt word)⟩
    else none

/-- The products that a session adds. -/
def sessionProducts (cpu : Cpu) (bus : β) : List Operation → List Product
  | [] => []
  | operation :: rest =>
    let after := cpu.operate bus operation
    (cpu.added? bus operation).toList ++ after.cpu.sessionProducts after.bus rest

variable {cpu : Cpu} {bus : β} {operation : Operation} {word : Word}

theorem added_of_executed (executed : cpu.executed? bus operation = some word)
    (code : Encoding.opcode word = 0x1c) :
    cpu.added? bus operation = some ⟨!word.getLsbD 0, cpu.core.reg (Encoding.rs word),
      cpu.core.reg (Encoding.rt word)⟩ := by
  rw [added?, executed, Option.bind_some, if_pos code]

/-- An operation adds its product to the multiplier. -/
theorem product_operate
    (adds : ∀ word, cpu.executed? bus operation = some word →
      Encoding.setsMultiplier word = true → Encoding.opcode word = 0x1c) :
    (cpu.operate bus operation).cpu.core.registers.product =
      cpu.core.registers.product +
        BitVec.ofInt 64 ((cpu.added? bus operation).toList.map Product.exact).sum := by
  by_cases adding : ∃ word, cpu.executed? bus operation = some word ∧ Encoding.opcode word = 0x1c
  · obtain ⟨word, executed, code⟩ := adding
    obtain ⟨-, computed, -⟩ := operate_computes (computes_multiplyAdd code) executed
    rw [computed, Registers.product_putProduct, wideProduct_eq, added_of_executed executed code]
    simp only [Option.toList_some, List.map_cons, List.map_nil, List.sum_cons, List.sum_nil,
      Int.add_zero]
    rfl
  · have nothing : cpu.added? bus operation = none := by
      cases executed : cpu.executed? bus operation with
      | none => rw [added?, executed, Option.bind_none]
      | some word =>
        rw [added?, executed, Option.bind_some, if_neg fun code => adding ⟨word, executed, code⟩]
    have spared (word : Word) (executed : cpu.executed? bus operation = some word) :
        Encoding.setsMultiplier word = false := by
      cases sets : Encoding.setsMultiplier word with
      | false => rfl
      | true => exact absurd ⟨word, executed, adds word executed sets⟩ adding
    rw [product_operate_of_spared spared, nothing]
    exact (BitVec.add_zero _).symm

/-- A session adds all its products. -/
theorem product_session {operations : List Operation}
    (adds : ∀ word ∈ cpu.sessionWords bus operations,
      Encoding.setsMultiplier word = true → Encoding.opcode word = 0x1c) :
    (cpu.session bus operations).2.cpu.core.registers.product =
      cpu.core.registers.product +
        BitVec.ofInt 64 ((cpu.sessionProducts bus operations).map Product.exact).sum := by
  induction operations generalizing cpu bus with
  | nil => exact (BitVec.add_zero _).symm
  | cons operation rest ih =>
    simp only [sessionWords, List.mem_append, Option.mem_toList] at adds
    have first := product_operate fun word executed => adds word (.inl executed)
    have later := ih fun word executed => adds word (.inr executed)
    simp only [session, sessionProducts, List.map_append, List.sum_append, BitVec.ofInt_add]
    rw [later, first, BitVec.add_assoc]

/-! ### Every list of products -/

/-- The instruction that adds the product of registers 8 and 9. -/
def addProduct (signed : Bool) : Word := if signed then 0x71090000 else 0x71090001

/-- The operations that put two words into registers 8 and 9 and add their product. -/
def feed (product : Product) : List Operation :=
  [.setGpr 8 product.left, .setGpr 9 product.right, .execute (addProduct product.signed)]

/-- The processor with the operands of a product in the two registers. -/
def fed (cpu : Cpu) (product : Product) : Cpu := (cpu.setGpr 8 product.left).setGpr 9 product.right

theorem fields_addProduct : ∀ signed, Encoding.opcode (addProduct signed) = 0x1c ∧
    (!(addProduct signed).getLsbD 0) = signed ∧ Encoding.rs (addProduct signed) = 8 ∧
      Encoding.rt (addProduct signed) = 9 := by
  decide

theorem added_fed (cpu : Cpu) (bus : β) (product : Product) :
    (cpu.fed product).added? bus (.execute (addProduct product.signed)) = some product := by
  obtain ⟨code, sign, first, second⟩ := fields_addProduct product.signed
  have left : (cpu.fed product).core.reg 8 = product.left := by
    simp +decide [fed, setGpr, Core.reg, Registers.writeNumbered, Registers.read, Registers.select]
  have right : (cpu.fed product).core.reg 9 = product.right := by
    simp [fed, setGpr, Core.reg, Registers.writeNumbered, Registers.read, Registers.select]
  rw [added_of_executed rfl code, sign, first, second, left, right]

/-- Every list of products is added by some session, which executes nothing else. -/
theorem session_feed (cpu : Cpu) (bus : β) (products : List Product) :
    cpu.sessionProducts bus (products.flatMap feed) = products ∧
      ∀ word ∈ cpu.sessionWords bus (products.flatMap feed), Encoding.opcode word = 0x1c := by
  induction products generalizing cpu bus with
  | nil => exact ⟨rfl, fun word member => by cases member⟩
  | cons product rest ih =>
    let after := (cpu.fed product).operate bus (.execute (addProduct product.signed))
    obtain ⟨products, words⟩ := ih after.cpu after.bus
    constructor
    · change ((cpu.fed product).added? bus _).toList ++ _ = _
      rw [added_fed]
      exact congrArg (product :: ·) products
    · intro word member
      rcases List.mem_cons.mp (show word ∈ addProduct product.signed :: _ from member) with
        rfl | later
      · exact (fields_addProduct product.signed).1
      · exact words word later

/-! ### What every product leaves -/

/-- An instruction with a product leaves a number in the multiplier and its low word in `rd`. -/
theorem operate_product {value : Registers → BitVec 64} {rd : RegNum}
    (computes : (decode word).Computes (fun registers => registers.putProduct rd (value registers))
      multiplyCycles)
    (executed : cpu.executed? bus operation = some word) :
    let after := cpu.operate bus operation
    after.cpu.core.registers.product = value cpu.core.registers ∧
      (∀ reg, after.cpu.core.reg reg =
        if reg = rd ∧ reg ≠ 0 then after.cpu.core.registers.lo else cpu.core.reg reg) ∧
      entered after.notes = [] ∧ cpu.elapsed after = if operation = .step then 12 else 11 := by
  obtain ⟨quiet, computed, elapsed⟩ := operate_computes computes executed
  refine ⟨?_, fun reg => ?_, quiet, ?_⟩
  · rw [computed, Registers.product_putProduct]
  · rw [Core.reg, computed, Registers.read_putProduct]
    rfl
  · rw [elapsed, multiplyCycles]
    split <;> rfl

end

/-- Products add up to a dot product. Let any session of operations run, on any memory, in which no
instruction sets the multiplier but by adding a product. However the products that it adds are
ordered, the multiplier holds in the end what it held at the beginning and their exact sum, modulo
2^64. Every list of products, signed and unsigned, is what some session adds, which executes nothing
else.

A multiplication replaces what the multiplier holds by the exact product, signed or unsigned. It and
an addition of a product also write the resulting LO to the register that the word names for it,
unless that is register zero, and they find their operands before. Neither enters an exception or
changes another register, and each takes 12 cycles as a step, and one less when it is executed
directly. -/
theorem products_accumulate {β : Type} [Bus β] (cpu : Cpu) (bus : β) :
    (∀ operations,
        (∀ word ∈ cpu.sessionWords bus operations,
          Encoding.setsMultiplier word = true → Encoding.opcode word = 0x1c) →
        ∀ products : List Product, products.Perm (cpu.sessionProducts bus operations) →
          (cpu.session bus operations).2.cpu.core.registers.product =
            cpu.core.registers.product + BitVec.ofInt 64 (products.map Product.exact).sum) ∧
      (∀ products : List Product, cpu.sessionProducts bus (products.flatMap feed) = products ∧
        ∀ word ∈ cpu.sessionWords bus (products.flatMap feed), Encoding.opcode word = 0x1c) ∧
      ∀ operation word, cpu.executed? bus operation = some word →
        let n := cpu.core.reg (Encoding.rs word)
        let m := cpu.core.reg (Encoding.rt word)
        let after := cpu.operate bus operation
        let signed := Encoding.opcode word = 0x00 ∧ Encoding.funct word = 0x18
        let unsigned := Encoding.opcode word = 0x00 ∧ Encoding.funct word = 0x19
        (signed → after.cpu.core.registers.product.toInt = n.toInt * m.toInt) ∧
          (unsigned → after.cpu.core.registers.product.toNat = n.toNat * m.toNat) ∧
          (signed ∨ unsigned ∨ Encoding.opcode word = 0x1c →
            (∀ reg, after.cpu.core.reg reg =
              if reg = Encoding.rd word ∧ reg ≠ 0 then after.cpu.core.registers.lo
              else cpu.core.reg reg) ∧
            entered after.notes = [] ∧
            cpu.elapsed after = if operation = .step then 12 else 11) := by
  refine ⟨fun operations adds products same => ?_, cpu.session_feed bus,
    fun operation word executed => ?_⟩
  · rw [product_session adds, (same.map Product.exact).sum_eq]
  · intro n m after signed unsigned
    refine ⟨fun ⟨code, selected⟩ => ?_, fun ⟨code, selected⟩ => ?_, ?_⟩
    · obtain ⟨product, -⟩ := operate_product (computes_multiply true code selected) executed
      exact (congrArg BitVec.toInt product).trans (toInt_wideProduct n m)
    · obtain ⟨product, -⟩ := operate_product (computes_multiply false code selected) executed
      exact (congrArg BitVec.toNat product).trans (toNat_wideProduct n m)
    · rintro (⟨code, selected⟩ | ⟨code, selected⟩ | code)
      · exact (operate_product (computes_multiply true code selected) executed).2
      · exact (operate_product (computes_multiply false code selected) executed).2
      · exact (operate_product (computes_multiplyAdd code) executed).2

/-- Minus two times three and, without signs, five times seven. -/
def twoProducts : List Product := [⟨true, 0xfffffffe, 3⟩, ⟨false, 5, 7⟩]

/-- Both products add up to 29, in either order. A multiplication of register 8 into itself finds
its operand before it writes the result. -/
theorem products_accumulate_mixed :
    (justBuilt.session noMemory (twoProducts.flatMap feed)).2.cpu.core.registers.product = 29 ∧
      (justBuilt.session noMemory
        (twoProducts.reverse.flatMap feed)).2.cpu.core.registers.product = 29 ∧
      let after := minusSeven.operate noMemory (.execute 0x01094018)
      after.cpu.core.registers.product.toInt = -7 * 2 ∧
        after.cpu.core.reg 8 = after.cpu.core.registers.lo := by
  have empty : justBuilt.core.registers.product = 0 := by decide +kernel
  obtain ⟨adds, found, -⟩ := products_accumulate justBuilt noMemory
  obtain ⟨forwards, onlyThese⟩ := found twoProducts
  obtain ⟨backwards, onlyThose⟩ := found twoProducts.reverse
  obtain ⟨-, -, leaves⟩ := products_accumulate minusSeven noMemory
  obtain ⟨signed, -, every⟩ := leaves (.execute 0x01094018) 0x01094018 rfl
  refine ⟨?_, ?_, signed ⟨by decide, by decide⟩, ?_⟩
  · rw [adds _ (fun word member _ => onlyThese word member) twoProducts (forwards ▸ .refl _), empty]
    decide
  · rw [adds _ (fun word member _ => onlyThose word member) twoProducts.reverse
      (backwards ▸ .refl _), empty]
    decide
  · exact (every (.inl ⟨by decide, by decide⟩)).1 8

end Cpu

end R3000
