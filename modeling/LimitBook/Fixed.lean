import LimitBook.Decimal

/-! Decimal numbers with a fixed number of places, kept as a signed 64-bit count of their last
place. Arithmetic either is exact or says why it cannot be. -/
namespace LimitBook

inductive NumericError
  | overflow
  | underflow
  | precisionLoss
  | invalidInput
deriving DecidableEq

def NumericError.message : NumericError → String
  | overflow => "arithmetic overflow: result exceeded maximum value"
  | underflow => "arithmetic underflow: result below minimum value"
  | precisionLoss => "precision loss: conversion would lose significant digits"
  | invalidInput => "invalid input: could not parse value"

/-- The number `raw / 10 ^ places`. -/
@[ext] structure Fixed (places : Nat) where
  raw : Int
  lower : -0x8000_0000_0000_0000 ≤ raw
  upper : raw < 0x8000_0000_0000_0000
deriving DecidableEq

namespace Fixed
variable {places : Nat}

def ofRaw? (raw : Int) : Option (Fixed places) :=
  if bounds : -0x8000_0000_0000_0000 ≤ raw ∧ raw < 0x8000_0000_0000_0000 then some ⟨raw, bounds.1, bounds.2⟩ else none

def ofRaw (raw : Int) (otherwise : NumericError) : Except NumericError (Fixed places) :=
  match ofRaw? raw with
  | some number => .ok number
  | none => .error otherwise

def scale (places : Nat) : Int := tenTo places

instance : OfNat (Fixed places) 0 := ⟨⟨0, by decide, by decide⟩⟩

def greatest : Fixed places := ⟨0x7fff_ffff_ffff_ffff, by decide, by decide⟩

def one? : Option (Fixed places) := ofRaw? (scale places)

instance : LE (Fixed places) := ⟨fun left right => left.raw ≤ right.raw⟩
instance : LT (Fixed places) := ⟨fun left right => left.raw < right.raw⟩
instance (left right : Fixed places) : Decidable (left ≤ right) :=
  inferInstanceAs (Decidable (left.raw ≤ right.raw))
instance (left right : Fixed places) : Decidable (left < right) :=
  inferInstanceAs (Decidable (left.raw < right.raw))

instance : Ord (Fixed places) := ⟨fun left right => compare left.raw right.raw⟩

def ofInteger (value : Int) : Except NumericError (Fixed places) :=
  ofRaw (value * scale places) .overflow

def ofParts (whole : Int) (fraction : Nat) : Except NumericError (Fixed places) :=
  if scale places ≤ fraction then .error .invalidInput
  else do
    let base : Fixed places ← ofInteger whole
    ofRaw (if whole < 0 then base.raw - fraction else base.raw + fraction) .overflow

def isPositive (number : Fixed places) : Bool := 0 < number.raw

def isMultipleOf (number step : Fixed places) : Bool :=
  0 < step.raw && number.raw % step.raw == 0

-- The sign of the second number names the bound that a sum or a difference passes.
def add (left right : Fixed places) : Except NumericError (Fixed places) :=
  ofRaw (left.raw + right.raw) (if 0 < right.raw then .overflow else .underflow)

def sub (left right : Fixed places) : Except NumericError (Fixed places) :=
  ofRaw (left.raw - right.raw) (if right.raw < 0 then .overflow else .underflow)

def timesCount (number : Fixed places) (count : Nat) : Except NumericError (Fixed places) :=
  if count < 0x8000_0000_0000_0000 then ofRaw (number.raw * count) .overflow else .error .overflow

def ofDecimal (decimal : Decimal) : Except NumericError (Fixed places) :=
  let scaled := decimal.mantissa * scale places
  let divisor : Int := tenTo decimal.size.scale
  if scaled % divisor = 0 then ofRaw (scaled / divisor) .overflow else .error .precisionLoss

theorem le_iff_raw {left right : Fixed places} : left ≤ right ↔ left.raw ≤ right.raw := Iff.rfl

theorem lt_iff_raw {left right : Fixed places} : left < right ↔ left.raw < right.raw := Iff.rfl

theorem ofRaw_eq_ok_iff {raw : Int} {otherwise : NumericError} {number : Fixed places} :
    ofRaw raw otherwise = .ok number ↔ number.raw = raw := by
  unfold ofRaw ofRaw?
  split
  case h_1 other fits =>
    split at fits
    · obtain rfl := Option.some.inj fits
      rw [Except.ok.injEq, Fixed.ext_iff, eq_comm]
    · cases fits
  case h_2 outside =>
    split at outside
    · cases outside
    case isFalse unbounded =>
      constructor
      · intro answered
        cases answered
      · intro exactly
        rw [← exactly] at unbounded
        exact absurd ⟨number.lower, number.upper⟩ unbounded

theorem isPositive_iff {number : Fixed places} : number.isPositive = true ↔ 0 < number.raw := by
  simp [isPositive]

theorem isMultipleOf_iff {number step : Fixed places} :
    number.isMultipleOf step = true ↔ 0 < step.raw ∧ step.raw ∣ number.raw := by
  rw [isMultipleOf, Bool.and_eq_true, decide_eq_true_eq, beq_iff_eq, Int.dvd_iff_emod_eq_zero]

end Fixed

abbrev Price := Fixed 2

-- A count that does not fit is taken for zero, as in `Volume.ofUnits` and `OrderId.ofNumber`.
def Price.ofCents (count : Int) : Price := (Fixed.ofRaw? count).getD 0

end LimitBook
