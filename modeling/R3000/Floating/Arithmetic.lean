import R3000.Floating.Format
import R3000.Word

/-!
# The arithmetic of a unit

A floating point unit works on patterns of its two formats and leaves all
arithmetic to a library that it is built with. The library takes patterns for
the numbers that they denote, rounds in a direction that it is told, and reports
the exceptions that an operation raises. What it computes is its own affair: the
unit is described for every library, and what a statement relies on is named
where it is stated.

Three operations are not in the library. Negation is multiplication by minus
one. The absolute value of a number below zero is its negation, and every other
number is its own. A number that no word holds after rounding becomes the
nearest of the two extreme words; so does a datum that is not a number, which
counts as positive.
-/
namespace R3000.Floating

/-- The directions in which a result is rounded. -/
inductive Mode where
  | nearestEven
  | towardZero
  | towardPositive
  | towardNegative
  deriving DecidableEq, Repr

/-! ### Exception flags -/

structure Flags where
  inexact : Bool := false
  underflow : Bool := false
  overflow : Bool := false
  divByZero : Bool := false
  invalid : Bool := false
  deriving DecidableEq, Repr

namespace Flags

def none : Flags := {}

def any (flags : Flags) : Bool :=
  flags.inexact || flags.underflow || flags.overflow || flags.divByZero || flags.invalid

/-- Only `invalid`, and only if `raised`. -/
def invalidIf (raised : Bool) : Flags := { invalid := raised }

end Flags

/-- The pattern an operation gives, with the exceptions it raises. -/
structure Answer (width : Nat) where
  bits : BitVec width
  flags : Flags
  deriving DecidableEq, Repr

/-- The integer a conversion gives, with the exceptions it raises. -/
structure IntegerAnswer where
  value : Int
  flags : Flags
  deriving DecidableEq, Repr

/-! ### Libraries -/

/-- The operations of a library, for each format. -/
structure Arithmetic where
  add (format : Format) (mode : Mode) (a b : BitVec format.width) : Answer format.width
  sub (format : Format) (mode : Mode) (a b : BitVec format.width) : Answer format.width
  mul (format : Format) (mode : Mode) (a b : BitVec format.width) : Answer format.width
  div (format : Format) (mode : Mode) (a b : BitVec format.width) : Answer format.width
  /-- The order of two numbers, if they have one. -/
  compare (format : Format) (a b : BitVec format.width) : Option Ordering
  /-- The number in another format. -/
  convert (source target : Format) (mode : Mode) (a : BitVec source.width) : Answer target.width
  ofInteger (format : Format) (mode : Mode) (value : Int) : Answer format.width
  /-- The integer that a signed word of the given width is to hold. -/
  toInteger (format : Format) (mode : Mode) (width : Nat) (a : BitVec format.width) : IntegerAnswer
  isNan (format : Format) (a : BitVec format.width) : Bool
  isNegative (format : Format) (a : BitVec format.width) : Bool

/-- The extreme word on one side of zero. -/
def extremeWord (negative : Bool) : Word := if negative then 0x80000000 else 0x7fffffff

namespace Arithmetic

variable (arithmetic : Arithmetic) (format : Format) (mode : Mode)

def neg (a : BitVec format.width) : Answer format.width :=
  arithmetic.mul format mode a format.minusOne

/-- The absolute value, found by a comparison with zero that no operand may fail. -/
def abs (a : BitVec format.width) : Answer format.width :=
  match arithmetic.compare format a (format.packZero false) with
  | none => ⟨a, { invalid := true }⟩
  | some .lt => arithmetic.neg format mode a
  | some .eq | some .gt => ⟨a, .none⟩

def ofWord (word : Word) : Answer format.width := arithmetic.ofInteger format mode word.toInt

/-- An invalid conversion saturates. -/
def toWord (a : BitVec format.width) : Answer 32 :=
  let answer := arithmetic.toInteger format mode 32 a
  if answer.flags.invalid then
    ⟨extremeWord (!arithmetic.isNan format a && arithmetic.isNegative format a), answer.flags⟩
  else ⟨BitVec.ofInt 32 answer.value, answer.flags⟩

end Arithmetic

end R3000.Floating
