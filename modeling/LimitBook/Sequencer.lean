import LimitBook.Desk

/-! Sequencers: one worker owns a desk and takes requests from a queue in the order of their
arrival. Each request has a ticket, under which its sender finds the reply. -/
namespace LimitBook

structure Request where
  ticket : Nat
  order : Order

structure Reply where
  ticket : Nat
  answer : Except Refusal (List Trade)

structure Sequencer where
  /-- What the worker owns; nothing once it has broken down. -/
  desk : Option Desk
  accepting : Bool
  nextTicket : Nat
  /-- The requests not yet taken, the oldest first. -/
  queue : List Request
  replies : List Reply

inductive SubmitError
  /-- The worker is gone or takes no more requests. -/
  | closed
  | refused (refusal : Refusal)
deriving DecidableEq

namespace SubmitError

def kind : SubmitError → ErrorKind
  | closed => .sequencerClosed
  | refused refusal => refusal.kind

def message : SubmitError → String
  | closed => ErrorKind.sequencerClosed.message ""
  | refused refusal => refusal.message

end SubmitError

namespace Sequencer

def start (desk : Desk) : Sequencer := ⟨some desk, true, 0, [], []⟩

def send (sequencer : Sequencer) (order : Order) : Option (Nat × Sequencer) :=
  if sequencer.accepting && sequencer.desk.isSome then
    some (sequencer.nextTicket,
      { sequencer with
        nextTicket := sequencer.nextTicket + 1
        queue := sequencer.queue ++ [⟨sequencer.nextTicket, order⟩] })
  else none

/-- The worker takes the oldest request, carries it out and replies. When its listener breaks down
the worker and all requests with it are lost. -/
def work (sequencer : Sequencer) : Sequencer :=
  match sequencer.desk, sequencer.queue with
  | some desk, request :: rest =>
    match desk.add request.order with
    | some (desk, answer) =>
      { sequencer with
        desk := some desk
        queue := rest
        replies := sequencer.replies ++ [⟨request.ticket, answer⟩] }
    | none => { sequencer with desk := none, queue := [] }
  | _, _ => sequencer

def workFor (sequencer : Sequencer) : Nat → Sequencer
  | 0 => sequencer
  | count + 1 => sequencer.work.workFor count

def drain (sequencer : Sequencer) : Sequencer := sequencer.workFor sequencer.queue.length

def collect (sequencer : Sequencer) (ticket : Nat) : Option (Except Refusal (List Trade)) × Sequencer :=
  ((sequencer.replies.find? (·.ticket = ticket)).map Reply.answer,
    { sequencer with replies := sequencer.replies.filter (·.ticket ≠ ticket) })

def submit (sequencer : Sequencer) (order : Order) : Sequencer × Except SubmitError (List Trade) :=
  match sequencer.send order with
  | none => (sequencer, .error .closed)
  | some (ticket, sent) =>
    match sent.drain.collect ticket with
    | (some (.ok trades), rest) => (rest, .ok trades)
    | (some (.error refusal), rest) => (rest, .error (.refused refusal))
    | (none, rest) => (rest, .error .closed)

def close (sequencer : Sequencer) : Sequencer := { sequencer with accepting := false }

def shutdown (sequencer : Sequencer) : Option Desk := sequencer.close.drain.desk

end Sequencer

inductive Host
  /-- To its one owner. -/
  | plain (desk : Desk)
  /-- To several owners, one call at a time. -/
  | shared (desk : Desk)
  | sequenced (sequencer : Sequencer)
  /-- The desk was lost with its worker. -/
  | lost

namespace Host

def desk? : Host → Option Desk
  | plain desk | shared desk => some desk
  | sequenced _ | lost => none

def heard : Host → List Event
  | plain desk | shared desk => desk.listener.heard
  | sequenced sequencer => (sequencer.desk.map fun desk => desk.listener.heard).getD []
  | lost => []

def withDesk (host : Host) (desk : Desk) : Host :=
  match host with
  | plain _ => plain desk
  | shared _ => shared desk
  | other => other

private def submitTo (desk : Desk) (order : Order) (rewrap : Desk → Host) :
    Host × Except SubmitError (List Trade) :=
  match desk.add order with
  | some (next, .ok trades) => (rewrap next, .ok trades)
  | some (next, .error refusal) => (rewrap next, .error (.refused refusal))
  | none => (lost, .error .closed)

def submit (host : Host) (order : Order) : Host × Except SubmitError (List Trade) :=
  match host with
  | plain desk => submitTo desk order plain
  | shared desk => submitTo desk order shared
  | sequenced sequencer =>
    let (next, answer) := sequencer.submit order
    (sequenced next, answer)
  | lost => (lost, .error .closed)

def shutdown (host : Host) : Host × Except SubmitError Unit :=
  match host with
  | plain desk | shared desk => (plain desk, .ok ())
  | sequenced sequencer =>
    match sequencer.shutdown with
    | some desk => (plain desk, .ok ())
    | none => (lost, .error .closed)
  | lost => (lost, .error .closed)

end Host
end LimitBook
