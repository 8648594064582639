import LimitBook.Config
import LimitBook.Proofs.Order

/-! Grids. The check of an order tells whether the order is on the grid of a configuration, be it one that can
carry a book or not. Only a lot of zero units leaves it without a verdict. -/
namespace LimitBook.Config
variable {config : Config} {order : Order} {price : Price}

structure TakesPrice (config : Config) (price : Price) : Prop where
  positive : 0 < price
  onTick : ∀ tick, config.tickSize = some tick → 0 < tick ∧ tick.raw ∣ price.raw

def TakesVolume (config : Config) (volume : Volume) : Prop :=
  ∀ lot, config.lotSize = some lot → 0 < lot ∧ lot.units ∣ volume.units

structure Takes (config : Config) (order : Order) : Prop where
  sided : order.side ≠ none
  positive : 0 < order.volume
  volume : config.TakesVolume order.volume
  limit : ∀ price, order.limitPrice = some price → config.TakesPrice price
  trigger : ∀ price, order.triggerPrice = some price → config.TakesPrice price

def Spans (config : Config) (order : Order) : Prop := order.isCancel = true ∨ config.Takes order

structure Unmeasured (config : Config) (order : Order) : Prop where
  trades : order.isCancel = false
  sided : order.side ≠ none
  positive : 0 < order.volume
  zeroLot : config.lotSize = some 0

inductive Judges (config : Config) (order : Order) : Verdict → Prop
  | cancels (cancel : order.isCancel = true) : Judges config order .onGrid
  | takes (trades : order.isCancel = false) (takes : config.Takes order) : Judges config order .onGrid
  | sideless (trades : order.isCancel = false) (sideless : order.side = none) :
    Judges config order (.offGrid (.noSide order.kind))
  | empty (trades : order.isCancel = false) (empty : order.volume = 0) : Judges config order (.offGrid .noVolume)
  | unmeasured (unmeasured : config.Unmeasured order) : Judges config order .undefined
  | offLot {lot : Volume} (trades : order.isCancel = false) (given : config.lotSize = some lot) (positive : 0 < lot)
    (broken : ¬ lot.units ∣ order.volume.units) : Judges config order (.offGrid (.offLot order.volume lot))
  | notPositive {price : Price} (trades : order.isCancel = false) (measured : config.TakesVolume order.volume)
    (carried : price ∈ order.kind.prices) (low : ¬ 0 < price) : Judges config order (.offGrid (.priceNotPositive price))
  | offTick {price tick : Price} (trades : order.isCancel = false) (measured : config.TakesVolume order.volume)
    (carried : price ∈ order.kind.prices) (given : config.tickSize = some tick)
    (broken : ¬ (0 < tick ∧ tick.raw ∣ price.raw)) : Judges config order (.offGrid (.offTick price tick))

structure Settles (config : Config) (order : Order) (verdict : Verdict) : Prop where
  accepts : verdict = .onGrid ↔ config.Spans order
  rejects : (∃ cause, verdict = .offGrid cause) ↔ ¬ config.Spans order

private theorem Takes.of_prices (sided : order.side ≠ none) (positive : 0 < order.volume)
    (volume : config.TakesVolume order.volume)
    (prices : ∀ price ∈ order.kind.prices, config.TakesPrice price) : config.Takes order where
  sided := sided
  positive := positive
  volume := volume
  limit price limited := prices price (OrderKind.mem_prices_iff.mpr (.inl limited))
  trigger price given := prices price (OrderKind.mem_prices_iff.mpr (.inr given))

theorem Takes.takesPrice (takes : config.Takes order) (carried : price ∈ order.kind.prices) :
    config.TakesPrice price := by
  rcases OrderKind.mem_prices_iff.mp carried with limited | given
  · exact takes.limit price limited
  · exact takes.trigger price given

theorem objectionToPrice_eq_none_iff : config.objectionToPrice price = none ↔ config.TakesPrice price := by
  unfold objectionToPrice
  by_cases positive : price.isPositive = true
  · have above : 0 < price := Fixed.isPositive_iff.mp positive
    cases given : config.tickSize with
    | none => simpa [positive] using (⟨above, by simp [given]⟩ : config.TakesPrice price)
    | some tick =>
      have multiple : price.isMultipleOf tick = true ↔ config.TakesPrice price := by
        rw [Fixed.isMultipleOf_iff]
        constructor
        · intro onTick
          refine ⟨above, fun other same => ?_⟩
          obtain rfl := Option.some.inj (given.symm.trans same)
          exact onTick
        · exact fun takes => takes.onTick tick given
      simpa [positive] using multiple
  · have low : ¬ 0 < price := fun above => positive (Fixed.isPositive_iff.mpr above)
    simpa [positive] using fun takes : config.TakesPrice price => low takes.positive

private theorem objectionToPrice_cases {cause : Rejection} (objected : config.objectionToPrice price = some cause) :
    cause = .priceNotPositive price ∧ ¬ 0 < price
      ∨ ∃ tick, config.tickSize = some tick ∧ cause = .offTick price tick ∧ ¬ (0 < tick ∧ tick.raw ∣ price.raw) := by
  unfold objectionToPrice at objected
  split at objected
  case isTrue low =>
    rw [Bool.not_eq_true', ← Bool.not_eq_true, Fixed.isPositive_iff] at low
    exact .inl ⟨(Option.some.inj objected).symm, low⟩
  case isFalse =>
    split at objected
    case h_1 tick given =>
      split at objected
      case isTrue => cases objected
      case isFalse broken =>
        rw [Fixed.isMultipleOf_iff] at broken
        exact .inr ⟨tick, given, (Option.some.inj objected).symm, broken⟩
    case h_2 => cases objected

private theorem judges_checkPrices (trades : order.isCancel = false) (sided : order.side ≠ none)
    (positive : 0 < order.volume)
    (measured : config.TakesVolume order.volume) : config.Judges order (config.checkPrices order) := by
  unfold checkPrices
  split
  case h_1 cause objected =>
    obtain ⟨price, carried, objects⟩ := List.exists_of_findSome?_eq_some objected
    rcases objectionToPrice_cases objects with ⟨rfl, low⟩ | ⟨tick, given, rfl, broken⟩
    · exact .notPositive trades measured carried low
    · exact .offTick trades measured carried given broken
  case h_2 unobjected =>
    rw [List.findSome?_eq_none_iff] at unobjected
    exact .takes trades (.of_prices sided positive measured fun price carried =>
      objectionToPrice_eq_none_iff.mp (unobjected price carried))

/-- Every verdict has its reason. -/
theorem judges_check (config : Config) (order : Order) : config.Judges order (config.check order) := by
  unfold check
  split
  case isTrue cancel => exact .cancels cancel
  case isFalse cancel =>
    have trades : order.isCancel = false := Bool.not_eq_true _ ▸ cancel
    split
    case isTrue sideless => exact .sideless trades sideless
    case isFalse sided =>
      split
      case isTrue empty => exact .empty trades empty
      case isFalse full =>
        have positive : 0 < order.volume := Nat.pos_of_ne_zero fun nothing => full (Volume.eq_zero_iff.mpr nothing)
        split
        case h_1 free => exact judges_checkPrices trades sided positive (by simp [TakesVolume, free])
        case h_2 lot given =>
          split
          case isTrue zero => exact .unmeasured ⟨trades, sided, positive, zero ▸ given⟩
          case isFalse units =>
            have lots : 0 < lot := Nat.pos_of_ne_zero fun nothing => units (Volume.eq_zero_iff.mpr nothing)
            split
            case isTrue whole =>
              refine judges_checkPrices trades sided positive fun other same => ?_
              obtain rfl := Option.some.inj (given.symm.trans same)
              exact ⟨lots, Nat.dvd_of_mod_eq_zero whole⟩
            case isFalse part => exact .offLot trades given lots fun whole => part (Nat.mod_eq_zero_of_dvd whole)

private theorem not_spans (trades : order.isCancel = false) (refuted : ¬ config.Takes order) :
    ¬ config.Spans order := by
  rintro (cancel | takes)
  · rw [trades] at cancel
    cases cancel
  · exact refuted takes

private theorem Unmeasured.not_takesVolume (unmeasured : config.Unmeasured order) {volume : Volume} :
    ¬ config.TakesVolume volume :=
  fun measured => Nat.lt_irrefl 0 (measured 0 unmeasured.zeroLot).1

private theorem Unmeasured.not_spans (unmeasured : config.Unmeasured order) : ¬ config.Spans order :=
  Config.not_spans unmeasured.trades fun takes => unmeasured.not_takesVolume takes.volume

/-- What a verdict with a reason says of the order. -/
theorem Judges.outcome {verdict : Verdict} (judged : config.Judges order verdict) :
    verdict = .onGrid ∧ config.Spans order ∨ verdict = .undefined ∧ config.Unmeasured order
      ∨ (∃ cause, verdict = .offGrid cause) ∧ ¬ config.Spans order ∧ ¬ config.Unmeasured order := by
  cases judged with
  | cancels cancel => exact .inl ⟨rfl, .inl cancel⟩
  | takes _ takes => exact .inl ⟨rfl, .inr takes⟩
  | unmeasured unmeasured => exact .inr (.inl ⟨rfl, unmeasured⟩)
  | sideless trades sideless =>
    refine .inr (.inr ⟨⟨_, rfl⟩, not_spans trades ?_, ?_⟩)
    · exact fun takes => takes.sided sideless
    · exact fun unmeasured => unmeasured.sided sideless
  | empty trades empty =>
    have nothing : ¬ 0 < order.volume := by
      rw [empty]
      exact Nat.lt_irrefl 0
    refine .inr (.inr ⟨⟨_, rfl⟩, not_spans trades ?_, ?_⟩)
    · exact fun takes => nothing takes.positive
    · exact fun unmeasured => nothing unmeasured.positive
  | offLot trades given positive broken =>
    refine .inr (.inr ⟨⟨_, rfl⟩, not_spans trades ?_, ?_⟩)
    · exact fun takes => broken (takes.volume _ given).2
    · intro unmeasured
      obtain rfl := Option.some.inj (given.symm.trans unmeasured.zeroLot)
      exact Nat.lt_irrefl 0 positive
  | notPositive trades measured carried low =>
    refine .inr (.inr ⟨⟨_, rfl⟩, not_spans trades ?_, ?_⟩)
    · exact fun takes => low (takes.takesPrice carried).positive
    · exact fun unmeasured => unmeasured.not_takesVolume measured
  | offTick trades measured carried given broken =>
    refine .inr (.inr ⟨⟨_, rfl⟩, not_spans trades ?_, ?_⟩)
    · exact fun takes => broken ((takes.takesPrice carried).onTick _ given)
    · exact fun unmeasured => unmeasured.not_takesVolume measured

theorem check_eq_onGrid_iff : config.check order = .onGrid ↔ config.Spans order := by
  rcases (judges_check config order).outcome with ⟨answer, spans⟩ | ⟨answer, unmeasured⟩ | ⟨⟨cause, answer⟩, off, -⟩
  · simp [answer, spans]
  · simp [answer, unmeasured.not_spans]
  · simp [answer, off]

theorem check_eq_undefined_iff : config.check order = .undefined ↔ config.Unmeasured order := by
  rcases (judges_check config order).outcome with
    ⟨answer, spans⟩ | ⟨answer, unmeasured⟩ | ⟨⟨cause, answer⟩, -, measured⟩
  · simpa [answer] using fun unmeasured : config.Unmeasured order => unmeasured.not_spans spans
  · simp [answer, unmeasured]
  · simp [answer, measured]

theorem settles_check_iff : config.Settles order (config.check order) ↔ ¬ config.Unmeasured order := by
  constructor
  · intro settles unmeasured
    obtain ⟨cause, rejected⟩ := settles.rejects.mpr unmeasured.not_spans
    rw [check_eq_undefined_iff.mpr unmeasured] at rejected
    cases rejected
  · intro measured
    refine ⟨check_eq_onGrid_iff, ?_⟩
    rcases (judges_check config order).outcome with ⟨answer, spans⟩ | ⟨-, unmeasured⟩ | ⟨rejected, off, -⟩
    · simp [answer, spans]
    · exact absurd unmeasured measured
    · exact iff_of_true rejected off

/-- Under every configuration, with or without a flaw, every order has the verdict that there is a reason for:
it is accepted exactly on the grid, and off the grid it is rejected, except that there is no verdict on a volume
to be measured in lots of zero units. -/
theorem check_decides_grid (config : Config) (order : Order) :
    config.Judges order (config.check order) ∧ (config.check order = .onGrid ↔ config.Spans order)
    ∧ (config.check order = .undefined ↔ config.Unmeasured order)
    ∧ (config.Settles order (config.check order) ↔ ¬ config.Unmeasured order) :=
  ⟨judges_check config order, check_eq_onGrid_iff, check_eq_undefined_iff, settles_check_iff⟩

/-- A purchase of one unit in lots of zero units is not on the grid, and is not rejected either. -/
theorem zero_lot_unsettled :
    let config := (Config.plain "ACME").withGrid none (some 0)
    let order := Order.market .buy 1
    config.check order = .undefined ∧ ¬ config.Spans order
    ∧ ¬ ∀ (config : Config) (order : Order), config.Settles order (config.check order) := by
  intro config order
  have unmeasured : config.Unmeasured order := ⟨rfl, nofun, by decide, rfl⟩
  have unanswered : config.check order = .undefined := by decide
  refine ⟨unanswered, unmeasured.not_spans, fun always => ?_⟩
  obtain ⟨cause, rejected⟩ := (always config order).rejects.mpr unmeasured.not_spans
  rw [unanswered] at rejected
  cases rejected

end LimitBook.Config
