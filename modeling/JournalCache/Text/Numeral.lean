/-!
# Decimal numerals

Digits are the ten ASCII digits, most significant first. `Decimal.value` reads a list of digits of
any length, `Decimal.digits` writes a number without leading zeros, and `Decimal.padded` fills it up
with zeros to a given width.
-/

namespace JournalCache

namespace Decimal

def isDigit (c : Char) : Bool := '0' ≤ c && c ≤ '9'

def digitValue (c : Char) : Nat := c.toNat - '0'.toNat

/-- The digit that stands for `n`, for `n` below ten. -/
def digitChar (n : Nat) : Char := Char.ofNat ('0'.toNat + n)

/-- The number that digits stand for, continuing from the number `n` read so far. -/
def valueFrom (n : Nat) (ds : List Char) : Nat := ds.foldl (fun n d => 10 * n + digitValue d) n

def value (ds : List Char) : Nat := valueFrom 0 ds

/-- The digits of `n` in front of `rest`. -/
def digitsOnto (n : Nat) (rest : List Char) : List Char :=
  if n < 10 then digitChar n :: rest
  else digitsOnto (n / 10) (digitChar (n % 10) :: rest)

/-- The digits of a number, without leading zeros. -/
def digits (n : Nat) : List Char := digitsOnto n []

def text (n : Nat) : String := String.ofList (digits n)

/-- The digits of a number, filled up with zeros to at least `width` digits. -/
def padded (width n : Nat) : List Char :=
  List.replicate (width - (digits n).length) '0' ++ digits n

/-- The digits of an integer behind its sign, if it is negative. -/
def signed : Int → List Char
  | .ofNat n => digits n
  | .negSucc n => '-' :: digits (n + 1)

/-- A number written as one optional plus sign and then digits, leading zeros allowed. -/
def unsigned? (cs : List Char) : Option Nat :=
  let ds := match cs with
    | '+' :: ds => ds
    | ds => ds
  if ds.isEmpty || !ds.all isDigit then none else some (value ds)

end Decimal

end JournalCache
