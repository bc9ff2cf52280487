/-!
# Hexadecimal bytes

A byte is written as two lower-case digits, high half first. Reading
takes either case and refuses odd lengths and other characters.
-/

namespace OneShot.Text.Hex

def pair (b : UInt8) : List Char :=
  [Nat.digitChar (b.toNat / 16), Nat.digitChar (b.toNat % 16)]

def encode (bytes : List UInt8) : String :=
  String.ofList (bytes.flatMap pair)

def digit? (c : Char) : Option Nat :=
  if '0' ≤ c ∧ c ≤ '9' then some (c.toNat - '0'.toNat)
  else if 'a' ≤ c ∧ c ≤ 'f' then some (c.toNat - 'a'.toNat + 10)
  else if 'A' ≤ c ∧ c ≤ 'F' then some (c.toNat - 'A'.toNat + 10)
  else none

def decodeChars? : List Char → Option (List UInt8)
  | [] => some []
  | [_] => none
  | high :: low :: rest => do
      let h ← digit? high
      let l ← digit? low
      let bytes ← decodeChars? rest
      pure (UInt8.ofNat (16 * h + l) :: bytes)

def decode? (text : String) : Option (List UInt8) :=
  decodeChars? text.toList

end OneShot.Text.Hex
