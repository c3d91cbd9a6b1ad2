/-! Numbers as text. Natural numbers are read and written in decimal, rounded to the nearest value
with ties to the even neighbour, and shown as kilobytes of 1024 bytes. -/
namespace ScriptBundle

namespace Decimal

def digit (c : Char) : Nat := c.toNat - '0'.toNat

def value (digits : List Char) : Nat := digits.foldl (fun n c => n * 10 + digit c) 0

def padded (width : Nat) (n : Nat) : String :=
  let text := Nat.repr n
  String.ofList (List.replicate (width - text.length) '0') ++ text

def fixed (units places : Nat) : String :=
  if places = 0 then Nat.repr units
  else Nat.repr (units / Nat.pow 10 places) ++ "." ++ padded places (units % Nat.pow 10 places)

theorem reprDecimal (n : Nat) : ∀ c ∈ (Nat.repr n).toList, c.isDigit = true := by
  intro c member
  rw [Nat.toList_repr] at member
  exact Nat.isDigit_of_mem_toDigits (by decide) (by decide) member

end Decimal

namespace Rounding

def nearest (n d : Nat) : Nat :=
  if d < 2 * (n % d) ∨ (2 * (n % d) = d ∧ n / d % 2 = 1) then n / d + 1 else n / d

def significandBits : Nat := 53

def toSignificand (n : Nat) : Nat :=
  if n < Nat.pow 2 significandBits then n
  else
    let unit := Nat.pow 2 (n.log2 + 1 - significandBits)
    nearest n unit * unit

end Rounding

/- A byte count is first brought to 53 significant bits; the quotient is exact from there on. -/
namespace Kilobytes

def units (bytes places : Nat) : Nat :=
  Rounding.nearest (Rounding.toSignificand bytes * Nat.pow 10 places) 1024

def text (bytes places : Nat) : String := Decimal.fixed (units bytes places) places

end Kilobytes
end ScriptBundle
