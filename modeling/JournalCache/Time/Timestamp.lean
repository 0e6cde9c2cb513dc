import JournalCache.Text.Blank
import JournalCache.Text.Numeral
import JournalCache.Time.Instant

/-!
# Written timestamps

A timestamp is a date, one of `T`, `t` and a blank, a time of day and a zone. It is read leniently:
month, day, hour, minute and second may have one digit, a year of more than four digits needs a
sign, the fraction of the second may have any number of digits of which nine count, and the zone is
`Z`, `UTC` or an offset, whose hours and minutes any number of colons and blanks may part. Blanks
may also stand before each number, before each `-` and `:` between two numbers, before the zone and
at the end; but what separates the date from the time of day follows the day at once. It is written
in one way: in UTC, with two digits for each part, a year of at least four digits that has a sign
outside of 0 to 9999, and a fraction of none, three, six or nine digits, as few as lose nothing.
-/

namespace JournalCache

namespace Timestamp

/-- Reads from one up to `limit` digits. -/
def digitRun? (limit : Nat) (cs : List Char) : Option (List Char × List Char) :=
  let ds := (cs.take limit).takeWhile Decimal.isDigit
  if ds.isEmpty then none else some (ds, cs.drop ds.length)

/-- Reads digits as a number, from one up to `limit` of them. -/
def unsigned? (limit : Nat) (cs : List Char) : Option (Nat × List Char) :=
  (digitRun? limit cs).map fun (ds, r) => (Decimal.value ds, r)

/-- Reads a number of one or two digits, behind any blanks. -/
def part? (cs : List Char) : Option (Nat × List Char) := unsigned? 2 (Text.skipBlanks cs)

/-- Reads a year that starts the text: any number of digits behind a sign, at most four without. -/
def signedYear? : List Char → Option (Int × List Char)
  | '-' :: cs => (unsigned? cs.length cs).map fun (n, r) => (-(n : Int), r)
  | '+' :: cs => (unsigned? cs.length cs).map fun (n, r) => ((n : Int), r)
  | cs => (unsigned? 4 cs).map fun (n, r) => ((n : Int), r)

/-- Reads a year, behind any blanks. -/
def year? (cs : List Char) : Option (Int × List Char) := signedYear? (Text.skipBlanks cs)

/-- Reads this character, behind any blanks. -/
def mark? (c : Char) (cs : List Char) : Option (List Char) :=
  match Text.skipBlanks cs with
  | d :: r => if d = c then some r else none
  | [] => none

/-- Reads what separates the date from the time of day, which no blank may precede. -/
def separator? : List Char → Option (List Char)
  | c :: r => if c = 'T' ∨ c = 't' ∨ c = ' ' then some r else none
  | [] => none

/-- The nanoseconds that the digits of a fraction stand for; digits after the ninth do not count. -/
def nanoseconds (ds : List Char) : Nat :=
  Decimal.value (ds.take 9) * Nat.pow 10 (9 - (ds.take 9).length)

/-- Reads a fraction of a second, if the text starts with a dot. -/
def fraction? : List Char → Option (Nat × List Char)
  | '.' :: cs => (digitRun? cs.length cs).map fun (ds, r) => (nanoseconds ds, r)
  | cs => some (0, cs)

def isLetter (lower upper c : Char) : Bool := c == lower || c == upper

def skipColons (cs : List Char) : List Char := cs.dropWhile fun c => c == ':' || Text.isBlank c

/-- Reads exactly two digits of a number below `bound`. -/
def pair? (bound : Nat) : List Char → Option (Nat × List Char)
  | a :: b :: r =>
    if Decimal.isDigit a && Decimal.isDigit b && Decimal.value [a, b] < bound then
      some (Decimal.value [a, b], r)
    else none
  | _ => none

/-- Reads the hours and minutes of an offset, as minutes. -/
def offset? (cs : List Char) : Option (Nat × List Char) := do
  let (h, cs) ← pair? 24 cs
  let (m, cs) ← pair? 60 (skipColons cs)
  pure (h * 60 + m, cs)

/-- Reads a zone, as the minutes by which it is ahead of UTC. -/
def zone? : List Char → Option (Int × List Char)
  | '+' :: r => (offset? r).map fun (n, r) => ((n : Int), r)
  | '-' :: r => (offset? r).map fun (n, r) => (-(n : Int), r)
  | '\u2212' :: r => (offset? r).map fun (n, r) => (-(n : Int), r)
  | c :: r =>
    if isLetter 'z' 'Z' c then some (0, r)
    else
      match r with
      | d :: e :: r =>
        if isLetter 'u' 'U' c && isLetter 't' 'T' d && isLetter 'c' 'C' e then some (0, r)
        else none
      | _ => none
  | [] => none

/-- Reads what a clock shows, up to the end of the text, where blanks may stand. -/
def reading? (cs : List Char) : Option ClockReading := do
  let (year, cs) ← year? cs
  let cs ← mark? '-' cs
  let (month, cs) ← part? cs
  let cs ← mark? '-' cs
  let (day, cs) ← part? cs
  let cs ← separator? cs
  let (hour, cs) ← part? cs
  let cs ← mark? ':' cs
  let (minute, cs) ← part? cs
  let cs ← mark? ':' cs
  let (second, cs) ← part? cs
  let (nanosecond, cs) ← fraction? cs
  let (ahead, cs) ← zone? (Text.skipBlanks cs)
  if (Text.skipBlanks cs).isEmpty then
    pure ⟨⟨year, month, day⟩, hour, minute, second, nanosecond, ahead⟩
  else none

def read? (s : String) : Option Instant := do
  let r ← reading? s.toList
  r.instant?

/-- The digits of a year, with a sign outside of 0 to 9999. -/
def writtenYear (y : Int) : List Char :=
  if 0 ≤ y ∧ y ≤ 9999 then Decimal.padded 4 y.toNat
  else if y < 0 then '-' :: Decimal.padded 4 (-y).toNat
  else '+' :: Decimal.digits y.toNat

/-- The fraction of a second, with as few groups of three digits as lose nothing. -/
def writtenFraction (n : Nat) : List Char :=
  if n = 0 then []
  else if n % 1000000 = 0 then '.' :: Decimal.padded 3 (n / 1000000)
  else if n % 1000 = 0 then '.' :: Decimal.padded 6 (n / 1000)
  else '.' :: Decimal.padded 9 n

def twoDigits (n : Nat) : List Char := Decimal.padded 2 n

def written (t : Instant) : List Char :=
  writtenYear t.date.year ++ '-' :: twoDigits t.date.month ++ '-' :: twoDigits t.date.day
    ++ 'T' :: twoDigits t.hour ++ ':' :: twoDigits t.minuteOfHour ++ ':' :: twoDigits t.second
    ++ writtenFraction t.nanosecond ++ ['Z']

def print (t : Instant) : String := String.ofList (written t)

end Timestamp

end JournalCache
