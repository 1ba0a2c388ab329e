import R3000.Floating.Rounding

/-!
# Operations on numbers

Each operation finds the exact result of its operands and rounds it once. An
operand that is not a number is the result, made quiet; with two of them it is
the first. An operation without a result is invalid.
-/
namespace R3000.Floating

/-! ### Operands that are not numbers -/

/-- A datum that is not a number as a result: its quiet form. -/
def Format.quiet (format : Format) (negative : Bool) (payload : Nat) : BitVec format.width :=
  format.packNan negative (payload ||| format.quietBit)

/-- The result of an operation one of whose operands is not a number. -/
def Format.propagate (format : Format) (first second : Datum) : Answer format.width :=
  let flags := Flags.invalidIf (first.signals format || second.signals format)
  match first, second with
  | .nan negative payload, _ => ⟨format.quiet negative payload, flags⟩
  | _, .nan negative payload => ⟨format.quiet negative payload, flags⟩
  | _, _ => ⟨format.defaultNan, flags⟩

def Format.invalid (format : Format) : Answer format.width :=
  ⟨format.defaultNan, { invalid := true }⟩

/-! ### Sums -/

/-- A significand with its sign, in units of a lower place. -/
def scaled (negative : Bool) (significand : Nat) (exponent place : Int) : Int :=
  signed negative (significand * 2 ^ (exponent - place).toNat)

/-- The sign of a sum that is zero: that of two like operands, else positive
unless results are rounded downwards. -/
def zeroSumSign (mode : Mode) (first second : Bool) : Bool :=
  if first = second then first else mode == .towardNegative

def Format.addData (format : Format) (mode : Mode) (first second : Datum) : Answer format.width :=
  match first, second with
  | .infinity a, .infinity b =>
    if a = b then ⟨format.packInfinity a, .none⟩ else format.invalid
  | .infinity a, .finite _ _ _ => ⟨format.packInfinity a, .none⟩
  | .finite _ _ _, .infinity b => ⟨format.packInfinity b, .none⟩
  | .finite a m d, .finite b n e =>
    let place := min d e
    let sum := scaled a m d place + scaled b n e place
    if sum = 0 then ⟨format.packZero (zeroSumSign mode a b), .none⟩
    else format.round mode (sum < 0) (.ofScaled sum.natAbs place)
  | _, _ => format.propagate first second

/-- The number with the opposite sign; what is not a number stays as it is. -/
def Datum.opposite : Datum → Datum
  | nan negative payload => nan negative payload
  | infinity negative => infinity (!negative)
  | finite negative significand exponent => finite (!negative) significand exponent

def Format.add (format : Format) (mode : Mode) (a b : BitVec format.width) :
    Answer format.width :=
  format.addData mode (format.decode a) (format.decode b)

/-- Subtraction adds the second operand with its sign changed. -/
def Format.sub (format : Format) (mode : Mode) (a b : BitVec format.width) :
    Answer format.width :=
  format.addData mode (format.decode a) (format.decode b).opposite

/-! ### Products and quotients -/

def Format.mulData (format : Format) (mode : Mode) (first second : Datum) : Answer format.width :=
  match first, second with
  | .infinity a, .infinity b => ⟨format.packInfinity (a != b), .none⟩
  | .infinity a, .finite b n _ | .finite b n _, .infinity a =>
    if n = 0 then format.invalid else ⟨format.packInfinity (a != b), .none⟩
  | .finite a m d, .finite b n e => format.round mode (a != b) (.ofScaled (m * n) (d + e))
  | _, _ => format.propagate first second

def Format.mul (format : Format) (mode : Mode) (a b : BitVec format.width) :
    Answer format.width :=
  format.mulData mode (format.decode a) (format.decode b)

def Format.divData (format : Format) (mode : Mode) (first second : Datum) : Answer format.width :=
  match first, second with
  | .infinity _, .infinity _ => format.invalid
  | .infinity a, .finite b _ _ => ⟨format.packInfinity (a != b), .none⟩
  | .finite a _ _, .infinity b => ⟨format.packZero (a != b), .none⟩
  | .finite a m d, .finite b n e =>
    if n = 0 then
      if m = 0 then format.invalid
      else ⟨format.packInfinity (a != b), { divByZero := true }⟩
    else format.round mode (a != b) ⟨m, n, d - e⟩
  | _, _ => format.propagate first second

def Format.div (format : Format) (mode : Mode) (a b : BitVec format.width) :
    Answer format.width :=
  format.divData mode (format.decode a) (format.decode b)

/-! ### Order -/

/-- The order of two data; none when either is not a number. -/
def Datum.compare : Datum → Datum → Option Ordering
  | .infinity a, .infinity b =>
    some (if a = b then .eq else if a then .lt else .gt)
  | .infinity a, .finite _ _ _ => some (if a then .lt else .gt)
  | .finite _ _ _, .infinity b => some (if b then .gt else .lt)
  | .finite a m d, .finite b n e =>
    let place := min d e
    some (Ord.compare (scaled a m d place) (scaled b n e place))
  | _, _ => none

def Format.compare (format : Format) (a b : BitVec format.width) : Option Ordering :=
  (format.decode a).compare (format.decode b)

end R3000.Floating
