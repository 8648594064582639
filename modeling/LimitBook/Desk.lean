import LimitBook.Book

/-! Desks: a book and the listener that hears its events. -/
namespace LimitBook

inductive Listener
  | silent
  | logging
  | recording (heard : List Event)
  | fragile

namespace Listener

def hear (listener : Listener) (events : List Event) : Option Listener :=
  match listener with
  | silent => some silent
  | logging => some logging
  | recording heard => some (recording (heard ++ events))
  | fragile => if events.any (fun event => event matches .rejected _) then none else some fragile

def heard : Listener → List Event
  | recording heard => heard
  | _ => []

def drained : Listener → Listener
  | recording _ => recording []
  | listener => listener

end Listener

structure Desk where
  book : Book
  listener : Listener

namespace Desk

def add (desk : Desk) (order : Order) : Option (Desk × Except Refusal (List Trade)) :=
  let response := desk.book.add order
  (desk.listener.hear response.events).map fun listener => (⟨response.book, listener⟩, response.answer)

def reset (desk : Desk) : Desk := { desk with book := desk.book.reset }

end Desk
end LimitBook
