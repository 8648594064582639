import LimitBook.Proofs.Book.History
import LimitBook.Sequencer
import Mathlib.Logic.Function.Basic

/-! A sequencer among its clients. Clients send, wait and give up waiting, the worker takes requests and answers
them, and somebody ends the hosting; a run is any interleaving of such acts. -/
namespace LimitBook

structure Hall (Client : Type) where
  sequencer : Sequencer
  /-- What the worker is busy with. It stays the first request of the queue until it has been answered. -/
  hands : Option Request
  /-- The ticket under which a client waits. -/
  waits : Client → Option Nat
  returned : Option Desk

inductive Act (Client : Type)
  | send (client : Client) (order : Order)
  | turnAway (client : Client)
  | take (request : Request)
  | answer (request : Request)
  | receive (client : Client) (answer : Except Refusal (List Trade))
  | abandon (client : Client)
  | close
  | handBack (desk : Desk)

namespace Act
variable {Client : Type}

def client? : Act Client → Option Client
  | send client _ | turnAway client | receive client _ | abandon client => some client
  | take _ | answer _ | close | handBack _ => none

def sent? : Act Client → Option (Client × Order)
  | send client order => some (client, order)
  | _ => none

def taken? : Act Client → Option Request
  | take request => some request
  | _ => none

def answered? : Act Client → Option Request
  | answer request => some request
  | _ => none

def isWork : Act Client → Bool
  | take _ | answer _ => true
  | _ => false

def sent (acts : List (Act Client)) : List (Client × Order) := acts.filterMap sent?

def orders (acts : List (Act Client)) : List Order := (sent acts).map Prod.snd

def taken (acts : List (Act Client)) : List Request := acts.filterMap taken?

def answered (acts : List (Act Client)) : List Request := acts.filterMap answered?

variable {acts : List (Act Client)} {act : Act Client} {client : Client} {order : Order}

theorem sent_append (acts more : List (Act Client)) : sent (acts ++ more) = sent acts ++ sent more :=
  List.filterMap_append

theorem taken_append (acts more : List (Act Client)) : taken (acts ++ more) = taken acts ++ taken more :=
  List.filterMap_append

theorem answered_append (acts more : List (Act Client)) : answered (acts ++ more) = answered acts ++ answered more :=
  List.filterMap_append

theorem answered?_of_idle (idle : act.isWork = false) : act.answered? = none := by
  cases act with
  | answer _ => cases idle
  | _ => rfl

theorem taken_of_idle (idle : act.isWork = false) : taken [act] = [] ∧ answered [act] = [] := by
  cases act with
  | take _ | answer _ => cases idle
  | _ => exact ⟨rfl, rfl⟩

theorem orders_of_work (work : ∀ act ∈ acts, act.isWork = true) : orders acts = [] := by
  have none : sent acts = [] := List.filterMap_eq_nil_iff.mpr fun act member => by
    cases act with
    | send _ _ => cases work _ member
    | _ => rfl
  rw [orders, none, List.map_nil]

theorem orders_append (acts more : List (Act Client)) : orders (acts ++ more) = orders acts ++ orders more := by
  rw [orders, sent_append, List.map_append]
  rfl

end Act

namespace Hall
open Act
variable {Client : Type}

def start (desk : Desk) : Hall Client := ⟨.start desk, none, fun _ => none, none⟩

variable [DecidableEq Client]

/-- One act of a client, of the worker or of whoever ends the hosting. A client that waits does nothing but
receive its reply or give up; the worker hands its desk back when nobody can send any more and the queue is
empty. -/
inductive Step : Hall Client → Act Client → Hall Client → Prop
  | send {hall : Hall Client} {client : Client} {order : Order} {ticket : Nat} {next : Sequencer}
      (idle : hall.waits client = none) (sent : hall.sequencer.send order = some (ticket, next)) :
      Step hall (.send client order)
        { hall with sequencer := next, waits := Function.update hall.waits client (some ticket) }
  | turnAway {hall : Hall Client} {client : Client} {order : Order} (idle : hall.waits client = none)
      (closed : hall.sequencer.send order = none) : Step hall (.turnAway client) hall
  | take {hall : Hall Client} {own : Desk} {request : Request} {rest : List Request}
      (working : hall.sequencer.desk = some own) (free : hall.hands = none)
      (oldest : hall.sequencer.queue = request :: rest) :
      Step hall (.take request) { hall with hands := some request }
  | answer {hall : Hall Client} {request : Request} (busy : hall.hands = some request) :
      Step hall (.answer request) { hall with sequencer := hall.sequencer.work, hands := none }
  | receive {hall : Hall Client} {client : Client} {ticket : Nat} {answer : Except Refusal (List Trade)}
      {next : Sequencer} (waiting : hall.waits client = some ticket)
      (collected : hall.sequencer.collect ticket = (some answer, next)) :
      Step hall (.receive client answer)
        { hall with sequencer := next, waits := Function.update hall.waits client none }
  | abandon {hall : Hall Client} {client : Client} {ticket : Nat} (waiting : hall.waits client = some ticket) :
      Step hall (.abandon client) { hall with waits := Function.update hall.waits client none }
  | close {hall : Hall Client} : Step hall .close { hall with sequencer := hall.sequencer.close }
  | handBack {hall : Hall Client} {own : Desk} (working : hall.sequencer.desk = some own)
      (closed : hall.sequencer.accepting = false) (drained : hall.sequencer.queue = []) :
      Step hall (.handBack own) { hall with sequencer := { hall.sequencer with desk := none }, returned := some own }

inductive Run : Hall Client → List (Act Client) → Hall Client → Prop
  | refl {hall : Hall Client} : Run hall [] hall
  | tail {first middle last : Hall Client} {acts : List (Act Client)} {act : Act Client} (run : Run first acts middle)
      (step : Step middle act last) : Run first (acts ++ [act]) last

variable {first middle last : Hall Client} {acts more : List (Act Client)} {act : Act Client}

theorem Run.trans (run : Run first acts middle) (others : Run middle more last) : Run first (acts ++ more) last := by
  induction others with
  | refl =>
    rw [List.append_nil]
    exact run
  | tail _ step ih =>
    rw [← List.append_assoc]
    exact .tail ih step

theorem Run.cons (step : Step first act middle) (run : Run middle acts last) : Run first (act :: acts) last :=
  (Run.tail .refl step).trans run

theorem Run.split (run : Run first (acts ++ act :: more) last) :
    ∃ middle next, Run first acts middle ∧ Step middle act next ∧ Run next more last := by
  generalize whole : acts ++ act :: more = all at run
  induction run generalizing more with
  | refl => simp at whole
  | tail run step ih =>
    rcases Book.concat_eq_append_cons_iff.mp whole.symm with ⟨rfl, rfl, rfl⟩ | ⟨rest, rfl, earlier⟩
    · exact ⟨_, _, run, step, .refl⟩
    · obtain ⟨middle, next, before, here, after⟩ := ih earlier.symm
      exact ⟨middle, next, before, here, .tail after step⟩

end Hall
end LimitBook
