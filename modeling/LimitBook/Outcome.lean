import LimitBook.Ledger

/-! Outcomes of steps on a ledger. A fault ends a chain of steps and keeps what was done before. -/
namespace LimitBook

structure Outcome (α : Type) where
  ledger : Ledger
  events : List Event
  answer : Except Fault α

namespace Outcome
variable {α β : Type}

def done (ledger : Ledger) (answer : α) : Outcome α := ⟨ledger, [], .ok answer⟩

def failed (ledger : Ledger) (fault : Fault) : Outcome α := ⟨ledger, [], .error fault⟩

def change (ledger : Ledger) : Except Fault Ledger → Outcome Unit
  | .ok changed => done changed ()
  | .error fault => failed ledger fault

def after (events : List Event) (outcome : Outcome α) : Outcome α :=
  { outcome with events := events ++ outcome.events }

def andThen (outcome : Outcome α) (next : Ledger → α → Outcome β) : Outcome β :=
  match outcome.answer with
  | .ok answer => (next outcome.ledger answer).after outcome.events
  | .error fault => ⟨outcome.ledger, outcome.events, .error fault⟩

def map (f : α → β) (outcome : Outcome α) : Outcome β :=
  { outcome with answer := outcome.answer.map f }

def Reaches (outcome : Outcome α) (ledger : Ledger) (answer : α) : Prop :=
  outcome.ledger = ledger ∧ outcome.answer = .ok answer

theorem reaches_done {ledger next : Ledger} {answer reached : α} :
    (done ledger answer).Reaches next reached ↔ ledger = next ∧ answer = reached := by
  simp [Reaches, done]

theorem not_reaches_failed {ledger next : Ledger} {fault : Fault} {reached : α} :
    ¬ (failed ledger fault).Reaches next reached := by
  simp [Reaches, failed]

theorem reaches_change {ledger next : Ledger} {changed : Except Fault Ledger} {reached : Unit} :
    (change ledger changed).Reaches next reached ↔ changed = .ok next := by
  cases changed <;> simp [change, Reaches, done, failed]

theorem reaches_andThen {outcome : Outcome α} {next : Ledger → α → Outcome β} {ledger : Ledger}
    {reached : β} :
    (outcome.andThen next).Reaches ledger reached
      ↔ ∃ middle answer, outcome.Reaches middle answer ∧ (next middle answer).Reaches ledger reached := by
  unfold andThen
  constructor
  · intro reaches
    cases answered : outcome.answer with
    | error fault => simp [answered, Reaches] at reaches
    | ok answer => exact ⟨_, answer, ⟨rfl, answered⟩, by simpa [answered, Reaches, after] using reaches⟩
  · rintro ⟨middle, answer, ⟨rfl, answered⟩, reaches⟩
    simpa [answered, Reaches, after] using reaches

theorem reaches_map {f : α → β} {outcome : Outcome α} {ledger : Ledger} {reached : β} :
    (outcome.map f).Reaches ledger reached ↔ ∃ answer, outcome.Reaches ledger answer ∧ f answer = reached := by
  unfold Reaches map
  cases outcome.answer with
  | error fault => simp [Except.map]
  | ok answer =>
    constructor
    · rintro ⟨same, answered⟩
      exact ⟨answer, ⟨same, rfl⟩, Except.ok.inj answered⟩
    · rintro ⟨_, ⟨same, answered⟩, rfl⟩
      exact ⟨same, by rw [← Except.ok.inj answered]; rfl⟩

theorem reaches_after {events : List Event} {outcome : Outcome α} {ledger : Ledger} {reached : α} :
    (outcome.after events).Reaches ledger reached ↔ outcome.Reaches ledger reached := Iff.rfl

/-- What holds after a step and is kept by the next one holds after both, fault or not. -/
theorem keeps_andThen (property : Ledger → Prop) {outcome : Outcome α} {next : Ledger → α → Outcome β}
    (start : property outcome.ledger)
    (step : ∀ ledger answer, property ledger → property (next ledger answer).ledger) :
    property (outcome.andThen next).ledger := by
  unfold andThen
  cases outcome.answer with
  | error fault => exact start
  | ok answer => exact step _ answer start

theorem keeps_change (property : Ledger → Prop) {ledger : Ledger} {changed : Except Fault Ledger}
    (start : property ledger) (step : ∀ next, changed = .ok next → property next) :
    property (change ledger changed).ledger := by
  cases changed with
  | error fault => exact start
  | ok next => exact step next rfl

@[simp] theorem ledger_after (events : List Event) (outcome : Outcome α) :
    (outcome.after events).ledger = outcome.ledger := rfl

end Outcome
end LimitBook
