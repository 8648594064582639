import LimitBook.Order
import LimitBook.Fixed.Text

/-! Trades: what two orders exchanged. -/
namespace LimitBook

@[ext] structure Trade where
  taker : OrderId
  maker : OrderId
  volume : Volume
  price : Price
deriving DecidableEq

namespace Trade

def line (trade : Trade) : String :=
  "match " ++ trade.taker.text ++ " " ++ trade.maker.text ++ " " ++ trade.volume.text ++ " " ++ trade.price.text

def notional (trade : Trade) : Except NumericError Price := trade.price.timesCount trade.volume.units

end Trade
end LimitBook
