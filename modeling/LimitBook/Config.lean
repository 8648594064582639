import LimitBook.Error
import LimitBook.Text.Blank

/-! Configurations: the instrument of a book and the grid on which it takes orders. -/
namespace LimitBook
open Text

@[ext] structure Config where
  instrument : String
  /-- The grid of limits and triggers; without one every positive price is on the grid. -/
  tickSize : Option Price
  /-- The grid of volumes; without one every positive volume is on the grid. -/
  lotSize : Option Volume
deriving DecidableEq

inductive Verdict
  | onGrid
  | offGrid (cause : Rejection)
  /-- A lot of zero units spans no grid, so there is no remainder to look at. -/
  | undefined
deriving DecidableEq

namespace Config

def plain (instrument : String) : Config := ⟨instrument, none, none⟩

def cents (instrument : String) : Config := ⟨instrument, some ⟨1, by decide, by decide⟩, some 1⟩

def standard : Config := plain "DEFAULT"

def withGrid (config : Config) (tickSize : Option Price) (lotSize : Option Volume) : Config :=
  { config with tickSize := tickSize <|> config.tickSize, lotSize := lotSize <|> config.lotSize }

def flaw (config : Config) : Option ConfigError :=
  if trim config.instrument.toList = [] then some .emptyInstrument
  else if config.tickSize.any (fun tick => !tick.isPositive) then some .tickNotPositive
  else if config.lotSize = some 0 then some .lotNotPositive
  else none

def objectionToPrice (config : Config) (price : Price) : Option Rejection :=
  if !price.isPositive then some (.priceNotPositive price)
  else
    match config.tickSize with
    | some tick => if price.isMultipleOf tick then none else some (.offTick price tick)
    | none => none

def checkPrices (config : Config) (order : Order) : Verdict :=
  match order.kind.prices.findSome? config.objectionToPrice with
  | some cause => .offGrid cause
  | none => .onGrid

def check (config : Config) (order : Order) : Verdict :=
  if order.isCancel then .onGrid
  else if order.side = none then .offGrid (.noSide order.kind)
  else if order.volume = 0 then .offGrid .noVolume
  else
    match config.lotSize with
    | none => config.checkPrices order
    | some lot =>
      if lot = 0 then .undefined
      else if order.volume.units % lot.units = 0 then config.checkPrices order
      else .offGrid (.offLot order.volume lot)

private theorem checkPrices_ne_undefined (config : Config) (order : Order) :
    config.checkPrices order ≠ .undefined := by
  unfold checkPrices
  split <;> simp

/-- Under a configuration without a flaw every order gets a verdict. -/
theorem check_ne_undefined {config : Config} (sound : config.flaw = none) (order : Order) :
    config.check order ≠ .undefined := by
  have positiveLot : config.lotSize ≠ some 0 := by
    intro zero
    rw [flaw, zero] at sound
    split at sound
    · simp at sound
    split at sound <;> simp at sound
  unfold check
  split
  · simp
  split
  · simp
  split
  · simp
  split
  · exact checkPrices_ne_undefined config order
  · rename_i lot given
    split
    · rename_i zero
      exact absurd (zero ▸ given) positiveLot
    split
    · exact checkPrices_ne_undefined config order
    · simp

end Config
end LimitBook
