/-!
# Durations

A duration is shown in the largest of the units s, ms, µs, ns in which
it is at least one, as an exact decimal without trailing zeros.
-/

namespace OneShot

/-- The seconds of a duration are a number of 64 bits, and what is left is less than a second. -/
def Duration.bound : Nat := 18446744073709551616 * 1000000000

/-- As in arithmetic of a fixed width, a number beyond the bound starts again from nought. -/
def Duration.wrap (n : Nat) : Fin Duration.bound := ⟨n % Duration.bound, Nat.mod_lt n (by decide)⟩

instance : Coe Nat (Fin Duration.bound) := ⟨Duration.wrap⟩

structure Duration where
  nanoseconds : Fin Duration.bound
  deriving DecidableEq

namespace Duration

def longest : Duration := ⟨Duration.bound - 1, by decide⟩

def ofParts (seconds nanoseconds : Nat) : Duration :=
  ⟨wrap (seconds * 1000000000 + nanoseconds)⟩

/-- The digits of `n` behind a decimal point, as `places` places with the
trailing zeros dropped; empty if nothing is left. -/
def fraction (places n : Nat) : List Char :=
  let digits := (Nat.toDigits 10 n).leftpad places '0'
  let kept := (digits.reverse.dropWhile (· = '0')).reverse
  if kept.isEmpty then [] else '.' :: kept

/-- The quotient of `n` by ten to the power `places`, exactly. -/
def decimal (places n : Nat) : String :=
  String.ofList (Nat.toDigits 10 (n / Nat.pow 10 places) ++
    fraction places (n % Nat.pow 10 places))

def display (d : Duration) : String :=
  let n := d.nanoseconds.val
  if 1000000000 ≤ n then decimal 9 n ++ "s"
  else if 1000000 ≤ n then decimal 6 n ++ "ms"
  else if 1000 ≤ n then decimal 3 n ++ "µs"
  else decimal 0 n ++ "ns"

end Duration

end OneShot
