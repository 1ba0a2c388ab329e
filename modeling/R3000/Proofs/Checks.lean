import Mathlib.Algebra.GroupWithZero.Nat
import R3000.Word

/-!
# Checks

An operation on machine integers or arrays that is only defined for some operands can be made to
look: then it gives a result, or it says which check failed. What is done with wrapping, or by a
constant amount that is right, has nothing to check.

Each operation comes with the condition under which it passes, and with the result it then gives.
-/
namespace R3000.Strict

/-- The check that failed. -/
inductive Panic where
  /-- An index outside of its array. -/
  | index
  /-- A sum, a difference or a product that the integers of its width do not hold. -/
  | overflow
  /-- A shift by the width or more. -/
  | shift
  /-- A division by zero. -/
  | division
  deriving DecidableEq, Repr

/-- The result of a computation in which all checks passed, or the check that did not. -/
abbrev Checked := Except Panic

@[simp] theorem ok_bind {α β : Type} (value : α) (next : α → Checked β) :
    (Except.ok value >>= next) = next value := rfl

@[simp] theorem pure_eq_ok {α : Type} (value : α) : (pure value : Checked α) = .ok value := rfl

/-! ### Indices -/

/-- An index into an array of a certain size. -/
def within (size index : Nat) : Checked (Fin size) :=
  if bound : index < size then .ok ⟨index, bound⟩ else .error .index

theorem within_of_lt {size index : Nat} (bound : index < size) :
    within size index = .ok ⟨index, bound⟩ := dif_pos bound

@[simp] theorem within_val {size : Nat} (index : Fin size) : within size index.val = .ok index :=
  within_of_lt index.isLt

/-- A difference of indices. -/
def difference (a b : Nat) : Checked Nat := if b ≤ a then .ok (a - b) else .error .overflow

theorem difference_of_le {a b : Nat} (bound : b ≤ a) : difference a b = .ok (a - b) := if_pos bound

/-! ### Arithmetic -/

section

variable {width : Nat} (a b : BitVec width)

def add : Checked (BitVec width) :=
  if a.uaddOverflow b then .error .overflow else .ok (a + b)

def subtract : Checked (BitVec width) :=
  if a.usubOverflow b then .error .overflow else .ok (a - b)

def multiply (signed : Bool) : Checked (BitVec width) :=
  if if signed then a.smulOverflow b else a.umulOverflow b then .error .overflow
  else .ok (a * b)

/-- Quotient and remainder of unsigned numbers, and of signed ones where the one quotient that
overflows wraps. -/
def divide (signed : Bool) : Checked (BitVec width × BitVec width) :=
  if b = 0 then .error .division
  else .ok (if signed then (a.sdiv b, a.srem b) else (a.udiv b, a.umod b))

variable {a b}

theorem add_of_lt (bound : a.toNat + b.toNat < 2 ^ width) : add a b = .ok (a + b) := by
  have fits : a.uaddOverflow b = false := by
    simp only [BitVec.uaddOverflow, decide_eq_false_iff_not]
    omega
  simp only [add, fits, Bool.false_eq_true, if_false]

theorem subtract_of_le (bound : b.toNat ≤ a.toNat) : subtract a b = .ok (a - b) := by
  have fits : a.usubOverflow b = false := by
    simp only [BitVec.usubOverflow, decide_eq_false_iff_not]
    omega
  simp only [subtract, fits, Bool.false_eq_true, if_false]

theorem divide_of_ne (signed : Bool) (nonzero : b ≠ 0) :
    divide a b signed =
      .ok (if signed then (a.sdiv b, a.srem b) else (a.udiv b, a.umod b)) := by
  simp only [divide, if_neg nonzero]

end

theorem natAbs_toInt_le (a : Word) : a.toInt.natAbs ≤ 2 ^ 31 := by
  have low := BitVec.le_toInt a
  have high := BitVec.toInt_lt (x := a)
  omega

/-- The product of two words fits into a double word, with their signs or without. -/
theorem multiply_words (a b : Word) :
    multiply (a.setWidth 64) (b.setWidth 64) false = .ok (a.setWidth 64 * b.setWidth 64) ∧
      multiply (a.signExtend 64) (b.signExtend 64) true =
        .ok (a.signExtend 64 * b.signExtend 64) := by
  constructor
  · -- Without signs both factors are below a bound whose square is that of a double word.
    have bound : a.toNat * b.toNat < 2 ^ 32 * 2 ^ 32 := Nat.mul_lt_mul'' a.isLt b.isLt
    have same (x : Word) : (x.setWidth 64).toNat = x.toNat :=
      BitVec.toNat_setWidth_of_le (by decide)
    have fits : (a.setWidth 64).umulOverflow (b.setWidth 64) = false := by
      simp only [BitVec.umulOverflow, same, decide_eq_false_iff_not]
      omega
    simp only [multiply, fits, Bool.false_eq_true, if_false]
  · -- With signs the largest product is that of the least word with itself, and it fits.
    have bound : (a.toInt * b.toInt).natAbs ≤ 2 ^ 31 * 2 ^ 31 := by
      rw [Int.natAbs_mul]
      exact Nat.mul_le_mul (natAbs_toInt_le a) (natAbs_toInt_le b)
    have same (x : Word) : (x.signExtend 64).toInt = x.toInt :=
      BitVec.toInt_signExtend_of_le (by decide)
    have fits : (a.signExtend 64).smulOverflow (b.signExtend 64) = false := by
      simp only [BitVec.smulOverflow, same, Bool.or_eq_false_iff, decide_eq_false_iff_not]
      omega
    simp only [multiply, fits, Bool.false_eq_true, if_true, if_false]

/-! ### Shifts -/

section

variable {width : Nat} (value : BitVec width) (amount : Nat)

def shiftLeft : Checked (BitVec width) :=
  if amount < width then .ok (value <<< amount) else .error .shift

def shiftRight : Checked (BitVec width) :=
  if amount < width then .ok (value >>> amount) else .error .shift

/-- The shift that repeats the sign. -/
def shiftSigned : Checked (BitVec width) :=
  if amount < width then .ok (value.sshiftRight amount) else .error .shift

variable {value amount} (bound : amount < width)

include bound

theorem shiftLeft_of_lt : shiftLeft value amount = .ok (value <<< amount) := if_pos bound

theorem shiftRight_of_lt : shiftRight value amount = .ok (value >>> amount) := if_pos bound

theorem shiftSigned_of_lt : shiftSigned value amount = .ok (value.sshiftRight amount) :=
  if_pos bound

end

/-! ### Loops -/

/-- A loop passes all checks when every round does that starts from a state with a property, which
it keeps. -/
theorem foldlM_eq_ok {α σ : Type} {body : σ → α → Checked σ} {result : σ → α → σ} (P : σ → Prop)
    {items : List α} {state : σ} (initial : P state)
    (round : ∀ item ∈ items, ∀ state, P state →
      body state item = .ok (result state item) ∧ P (result state item)) :
    items.foldlM body state = .ok (items.foldl result state) := by
  induction items generalizing state with
  | nil => rfl
  | cons item rest ih =>
    obtain ⟨passes, kept⟩ := round item List.mem_cons_self state initial
    rw [List.foldlM_cons, passes, ok_bind, List.foldl_cons]
    exact ih kept fun later member => round later (List.mem_cons_of_mem item member)

end R3000.Strict
