import LimitBook.Ledger
import LimitBook.Snapshot

/-! The depth of a side: its resting volume by price, best price first. -/
namespace LimitBook.Ledger

/-- Adds entries to the levels begun, the latest of which comes first, and stops where one level too
many would begin. -/
def gather (ledger : Ledger) (limit : Nat) (begun : List Level) : List Entry → Except Fault (List Level)
  | [] => .ok begun.reverse
  | entry :: rest =>
    match ledger.find entry.id with
    | .error fault => .error fault
    | .ok order =>
      match begun with
      | level :: earlier =>
        if level.price = entry.price then
          ledger.gather limit (⟨level.price, level.volume.saturatingAdd order.remaining⟩ :: earlier) rest
        else if begun.length = limit then .ok begun.reverse
        else ledger.gather limit (⟨entry.price, order.remaining⟩ :: begun) rest
      | [] =>
        if limit = 0 then .ok []
        else ledger.gather limit [⟨entry.price, order.remaining⟩] rest

def depth (ledger : Ledger) (side : Side) (limit : Nat) : Except Fault (List Level) :=
  ledger.gather limit [] ((ledger.index side.indexKind).walk (side = .buy))

end LimitBook.Ledger
