import LimitBook.Volume
import LimitBook.Fixed

/-! Snapshots: the book by price levels. -/
namespace LimitBook

@[ext] structure Level where
  price : Price
  volume : Volume
deriving DecidableEq

@[ext] structure Snapshot where
  instrument : String
  bids : List Level
  asks : List Level
  /-- Best ask less best bid, where both exist and the difference fits. -/
  spread : Option Price
  lastPrice : Option Price
  pendingStops : UInt64
deriving DecidableEq

def spreadOf (bid ask : Option Price) : Option Price :=
  match bid, ask with
  | some bid, some ask => (ask.sub bid).toOption
  | _, _ => none

namespace Snapshot

def ofLevels (instrument : String) (bids asks : List Level) (lastPrice : Option Price)
    (pendingStops : UInt64) : Snapshot where
  instrument := instrument
  bids := bids
  asks := asks
  spread := spreadOf (bids.head?.map Level.price) (asks.head?.map Level.price)
  lastPrice := lastPrice
  pendingStops := pendingStops

def bestBid (snapshot : Snapshot) : Option Price := snapshot.bids.head?.map Level.price

def bestAsk (snapshot : Snapshot) : Option Price := snapshot.asks.head?.map Level.price

def totalVolume (levels : List Level) : Volume :=
  levels.foldl (fun total level => total.saturatingAdd level.volume) 0

end Snapshot
end LimitBook
