/-! Decimal numbers with at most 96 bits of digits, at most 28 of them after the point. -/
namespace LimitBook

def tenTo (exponent : Nat) : Nat := Nat.pow 10 exponent

/-- The number `digits / 10 ^ scale`. -/
structure Magnitude where
  digits : Nat
  scale : Nat
  digits_lt : digits < 0x1_0000_0000_0000_0000_0000_0000
  scale_le : scale ≤ 28
deriving DecidableEq

namespace Magnitude

def zero : Magnitude := ⟨0, 0, by decide, by decide⟩

def ofDigits? (digits scale : Nat) : Option Magnitude :=
  if fits : digits < 0x1_0000_0000_0000_0000_0000_0000 ∧ scale ≤ 28 then some ⟨digits, scale, fits.1, fits.2⟩ else none

def roundUp? (size : Magnitude) : Option Magnitude :=
  if size.digits + 1 < 0x1_0000_0000_0000_0000_0000_0000 then ofDigits? (size.digits + 1) size.scale
  else if size.scale = 0 then none
  else ofDigits? ((size.digits + 5) / 10) (size.scale - 1)

def scaleUp? (size : Magnitude) (exponent : Nat) : Option Magnitude :=
  if exponent ≤ size.scale then ofDigits? size.digits (size.scale - exponent)
  else if 28 < exponent then none
  else ofDigits? (size.digits * tenTo (exponent - size.scale)) 0

/-- Division by a power of ten. Digits beyond the 28th place are rounded off, a half away from
zero. -/
def scaleDown? (size : Magnitude) (exponent : Nat) : Option Magnitude :=
  if 28 < exponent then none
  else if size.scale + exponent ≤ 28 then ofDigits? size.digits (size.scale + exponent)
  else
    let lost := tenTo (size.scale + exponent - 28)
    ofDigits? ((2 * size.digits + lost) / (2 * lost)) 28

end Magnitude

structure Decimal where
  negative : Bool
  size : Magnitude
deriving DecidableEq

namespace Decimal

def ofInt? (mantissa : Int) (scale : Nat) : Option Decimal :=
  (Magnitude.ofDigits? mantissa.natAbs scale).map fun size => ⟨mantissa < 0, size⟩

def mantissa (decimal : Decimal) : Int :=
  if decimal.negative then -(decimal.size.digits : Int) else decimal.size.digits

end Decimal
end LimitBook
