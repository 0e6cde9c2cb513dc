import JournalCache.Text.Numeral

/-!
# Durations

A duration is a number of nanoseconds. For people it is written in the largest of the units second,
millisecond, microsecond and nanosecond of which it holds at least one, with the rest as a decimal
fraction without trailing zeros.
-/

namespace JournalCache

structure Duration where
  nanoseconds : Nat
  deriving DecidableEq, Repr, Inhabited

namespace Duration

def ofMilliseconds (n : Nat) : Duration := ⟨n * 1000000⟩

def ofSeconds (n : Nat) : Duration := ⟨n * 1000000000⟩

/-- The whole milliseconds in a duration. -/
def milliseconds (d : Duration) : Nat := d.nanoseconds / 1000000

/-- The milliseconds that a clock of whole milliseconds lets pass until the duration is over. -/
def ticks (d : Duration) : Nat := (d.nanoseconds + 999999) / 1000000

/-- `n` units of which each is worth `10 ^ places`, as a decimal without trailing zeros. -/
def decimal (places n : Nat) : List Char :=
  let unit := Nat.pow 10 places
  let rest := n % unit
  Decimal.digits (n / unit) ++
    if rest = 0 then []
    else '.' :: ((Decimal.padded places rest).reverse.dropWhile (· == '0')).reverse

/-- A duration in its largest unit. -/
def text (d : Duration) : String :=
  let n := d.nanoseconds
  if n ≥ 1000000000 then String.ofList (decimal 9 n) ++ "s"
  else if n ≥ 1000000 then String.ofList (decimal 6 n) ++ "ms"
  else if n ≥ 1000 then String.ofList (decimal 3 n) ++ "\u00b5s"
  else String.ofList (decimal 0 n) ++ "ns"

end Duration

end JournalCache
