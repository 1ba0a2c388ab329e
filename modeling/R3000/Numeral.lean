import R3000.Word

/-!
# Numerals

Addresses and register contents are written as hexadecimal numerals of a least
width, filled with zeros; longer numbers keep all their digits. Columns of
decimal numbers are filled with blanks.
-/
namespace R3000.Numeral

def padLeft (fill : Char) (width : Nat) (text : List Char) : List Char :=
  List.replicate (width - text.length) fill ++ text

def padRight (fill : Char) (width : Nat) (text : List Char) : List Char :=
  text ++ List.replicate (width - text.length) fill

def hexLower (width number : Nat) : String :=
  String.ofList (padLeft '0' width (Nat.toDigits 16 number))

def hexUpper (width number : Nat) : String :=
  String.ofList ((padLeft '0' width (Nat.toDigits 16 number)).map Char.toUpper)

/-- A word as log lines show addresses: eight capital digits after `0x`. -/
def address (word : Word) : String := "0x" ++ hexUpper 8 word.toNat

def decimalRight (width number : Nat) : String :=
  String.ofList (padLeft ' ' width (Nat.toDigits 10 number))

def decimalLeft (width number : Nat) : String :=
  String.ofList (padRight ' ' width (Nat.toDigits 10 number))

end R3000.Numeral
