import LimitBook.Trade
import LimitBook.Proofs.Fixed.RoundTrip

/-! Sums, differences and products of fixed-point numbers against the exact results over the integers. A sum or a
difference that does not fit names the bound it passes. A product does not: what cannot be made is an overflow on
either side, and so is every product with a count beyond the greatest number. -/
namespace LimitBook.Fixed
variable {places : Nat}

def Fits (raw : Int) : Prop := -0x8000_0000_0000_0000 ≤ raw ∧ raw < 0x8000_0000_0000_0000

instance (raw : Int) : Decidable (Fits raw) := inferInstanceAs (Decidable (_ ∧ _))

structure Reports (exact : Int) (outcome : Except NumericError (Fixed places)) : Prop where
  succeeds : (∃ number, outcome = .ok number) ↔ Fits exact
  same : ∀ number, outcome = .ok number → number.raw = exact
  above : 0x8000_0000_0000_0000 ≤ exact → outcome = .error .overflow
  below : exact < -0x8000_0000_0000_0000 → outcome = .error .underflow

/-- What a product with a count comes to. It is the exact one for a count that fits a signed word, as far as the exact
one fits; every other product is an overflow. -/
structure Multiplies (number : Fixed places) (count : Nat) (outcome : Except NumericError (Fixed places)) : Prop where
  succeeds : ∀ product, outcome = .ok product ↔ count < 0x8000_0000_0000_0000 ∧ product.raw = number.raw * count
  fails : ∀ cause, outcome = .error cause → cause = .overflow
  /-- Where the outcome is the one that the exact product calls for. -/
  exact : Reports (number.raw * count) outcome ↔ 0x8000_0000_0000_0000 ≤ number.raw * count
    ∨ count < 0x8000_0000_0000_0000 ∧ -0x8000_0000_0000_0000 ≤ number.raw * count

private theorem fits_raw (number : Fixed places) : Fits number.raw := ⟨number.lower, number.upper⟩

section Outcome
variable {raw : Int} {otherwise : NumericError}

theorem ofRaw_of_fits (fits : Fits raw) :
    (ofRaw raw otherwise : Except NumericError (Fixed places)) = .ok ⟨raw, fits.1, fits.2⟩ :=
  ofRaw_eq_ok_iff.mpr rfl

theorem ofRaw_of_not_fits (outside : ¬ Fits raw) :
    (ofRaw raw otherwise : Except NumericError (Fixed places)) = .error otherwise := by
  rw [ofRaw, ofRaw?, dif_neg (show ¬ (_ ∧ _) from outside)]

private theorem exists_ofRaw_eq_ok_iff : (∃ number : Fixed places, ofRaw raw otherwise = .ok number) ↔ Fits raw := by
  constructor
  · rintro ⟨number, made⟩
    rw [← ofRaw_eq_ok_iff.mp made]
    exact number.fits_raw
  · exact fun fits => ⟨_, ofRaw_of_fits fits⟩

/-- An exact result is reported by the number or by an error that is right about the bound. -/
theorem reports_ofRaw (above : 0x8000_0000_0000_0000 ≤ raw → otherwise = .overflow)
    (below : raw < -0x8000_0000_0000_0000 → otherwise = .underflow) :
    Reports raw (ofRaw raw otherwise : Except NumericError (Fixed places)) where
  succeeds := exists_ofRaw_eq_ok_iff
  same _ made := ofRaw_eq_ok_iff.mp made
  above high := by
    rw [← above high]
    exact ofRaw_of_not_fits fun fits => absurd fits.2 (by omega)
  below low := by
    rw [← below low]
    exact ofRaw_of_not_fits fun fits => absurd fits.1 (by omega)

private theorem reports_overflow (high : 0x8000_0000_0000_0000 ≤ raw) :
    Reports raw (.error .overflow : Except NumericError (Fixed places)) where
  succeeds := iff_of_false (fun ⟨_, made⟩ => nomatch made) (fun fits => absurd fits.2 (by omega))
  same _ made := nomatch made
  above _ := rfl
  below low := absurd high (by omega)

end Outcome

theorem reports_add (left right : Fixed places) : Reports (left.raw + right.raw) (left.add right) := by
  have lower := left.lower
  have upper := left.upper
  refine reports_ofRaw (fun high => if_pos ?_) (fun low => if_neg ?_)
  · omega
  · omega

theorem reports_sub (left right : Fixed places) : Reports (left.raw - right.raw) (left.sub right) := by
  have lower := left.lower
  have upper := left.upper
  refine reports_ofRaw (fun high => if_pos ?_) (fun low => if_neg ?_)
  · omega
  · omega

theorem timesCount_eq_ok_iff {number product : Fixed places} {count : Nat} : number.timesCount count = .ok product
    ↔ count < 0x8000_0000_0000_0000 ∧ product.raw = number.raw * count := by
  unfold timesCount
  split
  case isTrue small => rw [ofRaw_eq_ok_iff, and_iff_right small]
  case isFalse large => simp [large]

private theorem eq_overflow_of_timesCount {number : Fixed places} {count : Nat} {cause : NumericError}
    (failed : number.timesCount count = .error cause) : cause = .overflow := by
  unfold timesCount at failed
  split at failed
  · by_cases fits : Fits (number.raw * count)
    · rw [ofRaw_of_fits fits] at failed
      cases failed
    · rw [ofRaw_of_not_fits fits] at failed
      exact (Except.error.inj failed).symm
  · exact (Except.error.inj failed).symm

theorem multiplies_timesCount (number : Fixed places) (count : Nat) :
    Multiplies number count (number.timesCount count) where
  succeeds _ := timesCount_eq_ok_iff
  fails _ := eq_overflow_of_timesCount
  exact := by
    constructor
    · intro reports
      obtain within | high := Int.lt_or_le (number.raw * count) 0x8000_0000_0000_0000
      · have least : -0x8000_0000_0000_0000 ≤ number.raw * count := by
          by_contra low
          cases eq_overflow_of_timesCount (reports.below (Int.not_le.mp low))
        obtain ⟨product, made⟩ := reports.succeeds.mpr ⟨least, within⟩
        exact .inr ⟨(timesCount_eq_ok_iff.mp made).1, least⟩
      · exact .inl high
    · intro exact
      unfold timesCount
      split
      case isTrue small => exact reports_ofRaw (fun _ => rfl) (fun low => absurd low (by omega))
      case isFalse large => exact reports_overflow (exact.resolve_right fun within => large within.1)

/-- Sums and differences are exact, or an error that names the bound they pass. Products are exact where they are
made, and what keeps one from being made is always called an overflow; the value of a trade is such a product. -/
theorem arithmetic_exact :
    (∀ left right : Fixed places,
      Reports (left.raw + right.raw) (left.add right) ∧ Reports (left.raw - right.raw) (left.sub right))
    ∧ (∀ (number : Fixed places) (count : Nat), Multiplies number count (number.timesCount count))
    ∧ ∀ trade : Trade, Multiplies trade.price trade.volume.units trade.notional :=
  ⟨fun left right => ⟨reports_add left right, reports_sub left right⟩, multiplies_timesCount,
    fun trade => multiplies_timesCount trade.price trade.volume.units⟩

/-- Nothing at all, times one more than the greatest number, overflows; so does twice the least number. -/
theorem products_misreported :
    (0 : Price).timesCount 0x8000_0000_0000_0000 = .error .overflow ∧ Fits ((0 : Price).raw * 0x8000_0000_0000_0000)
    ∧ (least : Price).timesCount 2 = .error .overflow ∧ (least : Price).raw * 2 < -0x8000_0000_0000_0000
    ∧ ¬ ∀ (price : Price) (count : Word), Reports (price.raw * count.val) (price.timesCount count.val) := by
  have empty : (0 : Price).timesCount 0x8000_0000_0000_0000 = .error .overflow := by decide
  refine ⟨empty, by decide, by decide, by decide, fun always => ?_⟩
  have within : Fits ((0 : Price).raw * 0x8000_0000_0000_0000) := by decide
  obtain ⟨product, made⟩ := (always 0 ⟨0x8000_0000_0000_0000, by decide⟩).succeeds.mpr within
  rw [empty] at made
  cases made

end LimitBook.Fixed
