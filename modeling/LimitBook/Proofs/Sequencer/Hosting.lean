import LimitBook.Proofs.Sequencer.Service

/-! Sequenced hosting. However the acts of clients interleave with those of the worker, its book is the plain
book that was given the orders in the order of their arrival, and each client is answered as that book answers. -/
namespace LimitBook.Hall
open Act
variable {Client : Type} {desk : Desk} {hall : Hall Client} {acts : List (Act Client)} {client : Client} {ticket : Nat}

private theorem Sound.answered_of_drained (sound : Sound desk acts hall) (drained : hall.sequencer.queue = []) :
    answered acts = requests (sent acts) := by
  rw [← sound.arrival, drained, List.append_nil]

private theorem Holds.book_of_drained {own : Desk} (holds : Holds desk acts own) (sound : Sound desk acts hall)
    (drained : hall.sequencer.queue = []) : own.book = desk.book.after (orders acts) := by
  rw [holds.book, sound.answered_of_drained drained, map_order_requests]
  rfl

private theorem Sound.taken_prefix (sound : Sound desk acts hall) : taken acts <+: requests (sent acts) := by
  rw [sound.handling.hands, ← sound.arrival]
  refine (List.prefix_append_right_inj _).mpr ?_
  cases busy : hall.hands with
  | none => exact List.nil_prefix
  | some request =>
    obtain ⟨rest, first⟩ := sound.handling.first request busy
    rw [first]
    exact ⟨rest, rfl⟩

def desk? (hall : Hall Client) : Option Desk := hall.sequencer.desk <|> hall.returned

def Owed (desk : Desk) (acts : List (Act Client)) (client : Client) (answer : Except Refusal (List Trade)) : Prop :=
  ∃ early order late, acts = early ++ .send client order :: late ∧ (∀ act ∈ late, act.client? ≠ some client)
    ∧ answer = ((desk.book.after (orders early)).add order).answer

private theorem Sound.owed {more : List (Act Client)} {answer : Except Refusal (List Trade)} {next : Sequencer}
    (sound : Sound desk (acts ++ more) hall) (awaits : Awaits acts client ticket)
    (collected : hall.sequencer.collect ticket = (some answer, next)) : Owed desk acts client answer := by
  obtain ⟨⟨reply, member, mine, rfl⟩, -⟩ := Sequencer.collect_eq collected
  obtain ⟨early, order, late, rfl, rfl, quiet⟩ := awaits
  have answers := sound.replies reply member
  rw [mine, List.append_assoc, List.cons_append] at answers
  exact ⟨early, order, late, rfl, quiet, answers.eq_of_split⟩

variable [DecidableEq Client]

def sentBy (client : Client) (acts : List (Act Client)) : List Order :=
  ((sent acts).filter fun item => item.1 = client).map Prod.snd

def takenFrom (client : Client) (acts : List (Act Client)) : List Order :=
  ((taken acts).filter fun request => (sent acts)[request.ticket]?.any fun item => item.1 = client).map Request.order

structure LikePlain (desk : Desk) (acts : List (Act Client)) (hall : Hall Client) : Prop where
  arrival : taken acts <+: requests (sent acts)
  fifo : ∀ client, takenFrom client acts <+: sentBy client acts
  /-- The worker has carried out all that it has taken but for the request in hand. -/
  hands : taken acts = answered acts ++ hall.hands.toList
  book : ∃ own, hall.desk? = some own ∧ own.book = desk.book.after ((answered acts).map Request.order)
  answers : ∀ before client answer after, acts = before ++ .receive client answer :: after →
      Owed desk before client answer
  /-- Whoever waits has only to let the worker finish its queue. -/
  served : ∀ client ticket, hall.waits client = some ticket → ∃ work next answer last, (∀ act ∈ work, act.isWork = true)
    ∧ Run hall work next ∧ Step next (.receive client answer) last ∧ Owed desk acts client answer
  /-- To submit an order and wait for it is one run among others. -/
  submit : hall.returned = none → hall.sequencer.accepting = true → ∀ client order, hall.waits client = none →
    ∃ work answer last, (∀ act ∈ work, act.isWork = true)
      ∧ Run hall (.send client order :: work ++ [.receive client answer]) last
      ∧ hall.sequencer.submit order = (last.sequencer, answer.mapError .refused)
      ∧ answer = ((desk.book.after (orders acts)).add order).answer
  shutdown : hall.returned = none → ∃ own, hall.sequencer.shutdown = some own ∧ own.book = desk.book.after (orders acts)
    ∧ ∃ work last, (∀ act ∈ work, act.isWork = true) ∧ Run hall (.close :: work ++ [.handBack own]) last
  returned : ∀ own, hall.returned = some own → own.book = desk.book.after (orders acts)

private theorem Sound.takenFrom_prefix (sound : Sound desk acts hall) (client : Client) :
    takenFrom client acts <+: sentBy client acts := by
  have all : ((requests (sent acts)).filter fun request =>
      (sent acts)[request.ticket]?.any fun item => item.1 = client).map Request.order = sentBy client acts := by
    rw [requests, List.filter_map, List.map_map, sentBy]
    conv_rhs => rw [← List.zipIdx_map_fst 0 (sent acts), List.filter_map, List.map_map]
    congr 1
    refine List.filter_congr ?_
    rintro ⟨⟨other, order⟩, ticket⟩ member
    simp [List.mem_zipIdx_iff_getElem?.mp member]
  rw [← all]
  exact (sound.taken_prefix.filter _).map _

private theorem Sound.exists_receive (sound : Sound desk acts hall) (drained : hall.sequencer.queue = [])
    (waiting : hall.waits client = some ticket) : ∃ answer next, hall.sequencer.collect ticket = (some answer, next)
      ∧ Step hall (.receive client answer)
        { hall with sequencer := next, waits := Function.update hall.waits client none } := by
  obtain ⟨order, sends⟩ := (sound.waiting client ticket waiting).sent_eq
  obtain ⟨within, -⟩ := List.getElem?_eq_some_iff.mp sends
  obtain ⟨reply, member, mine⟩ := sound.pending client ticket waiting (by
    rw [sound.answered_of_drained drained, length_requests]
    exact within)
  obtain ⟨answer, next, collected⟩ := Sequencer.exists_collect member mine
  exact ⟨answer, next, collected, .receive waiting collected⟩

private theorem Sound.served (sound : Sound desk acts hall) (waiting : hall.waits client = some ticket) :
    ∃ work next answer last, (∀ act ∈ work, act.isWork = true) ∧ Run hall work next
      ∧ Step next (.receive client answer) last ∧ Owed desk acts client answer := by
  have awaits := sound.waiting client ticket waiting
  -- The queue is empty when the desk has been handed back, and else the worker can empty it.
  have drains : ∃ work next, (∀ act ∈ work, act.isWork = true) ∧ Run hall work next ∧ next.sequencer.queue = []
      ∧ next.waits = hall.waits := by
    cases sound.held with
    | working own holds there =>
      obtain ⟨work, all, run, drained, -⟩ := run_drain there holds.steady sound.handling.first
      exact ⟨work, _, all, run, drained, rfl⟩
    | ended _ _ _ _ drained => exact ⟨[], hall, by simp, .refl, drained, rfl⟩
  obtain ⟨work, next, all, run, drained, still⟩ := drains
  have finished := run.sound sound
  rw [← still] at waiting
  obtain ⟨answer, _, collected, step⟩ := finished.exists_receive drained waiting
  exact ⟨work, next, answer, _, all, run, step, finished.owed awaits collected⟩

private theorem Sound.shutdown (sound : Sound desk acts hall) (running : hall.returned = none) :
    ∃ own, hall.sequencer.shutdown = some own ∧ own.book = desk.book.after (orders acts)
      ∧ ∃ work last, (∀ act ∈ work, act.isWork = true) ∧ Run hall (.close :: work ++ [.handBack own]) last := by
  cases sound.held with
  | ended _ _ _ back =>
    rw [running] at back
    cases back
  | working own holds there =>
    have closes : Step hall .close { hall with sequencer := hall.sequencer.close } := .close
    obtain ⟨work, all, run, drained, closed, last, left⟩ :=
      @run_drain _ { hall with sequencer := hall.sequencer.close } _ own there holds.steady sound.handling.first
    have ends := Run.cons closes run
    have finished := ends.sound sound
    refine ⟨last, left, ?_, work, _, all, .tail ends (.handBack left closed drained)⟩
    have unsent : orders (.close :: work) = orders work := rfl
    cases finished.held with
    | ended _ _ gone =>
      rw [left] at gone
      cases gone
    | working other holds there =>
      obtain rfl := Option.some.inj (left.symm.trans there)
      have whole := holds.book_of_drained finished drained
      rw [orders_append, unsent, orders_of_work all, List.append_nil] at whole
      exact whole

private theorem Sound.submit (sound : Sound desk acts hall) (running : hall.returned = none)
    (accepting : hall.sequencer.accepting = true)
    (order : Order) (idle : hall.waits client = none) : ∃ work answer last, (∀ act ∈ work, act.isWork = true)
      ∧ Run hall (.send client order :: work ++ [.receive client answer]) last
      ∧ hall.sequencer.submit order = (last.sequencer, answer.mapError .refused)
      ∧ answer = ((desk.book.after (orders acts)).add order).answer := by
  cases sound.held with
  | ended _ _ _ back =>
    rw [running] at back
    cases back
  | working own holds there =>
    have sends : hall.sequencer.send order = some (hall.sequencer.nextTicket, hall.sequencer.queued order) :=
      Sequencer.send_eq_some_iff.mpr ⟨accepting, by rw [there]; rfl, rfl, rfl⟩
    have begun : Sound desk (acts ++ [.send client order]) _ := sound.send sends
    obtain ⟨work, all, works, drained, -⟩ := @run_drain _ { hall with
      sequencer := hall.sequencer.queued order
      waits := Function.update hall.waits client (some hall.sequencer.nextTicket) }
      _ own there holds.steady begun.handling.first
    have run := Run.cons (.send idle sends) works
    have finished := run.sound sound
    have waits : Function.update hall.waits client (some hall.sequencer.nextTicket) client
        = some hall.sequencer.nextTicket :=
      Function.update_self ..
    obtain ⟨answer, next, collected, receives⟩ := finished.exists_receive drained waits
    refine ⟨work, answer, _, all, .tail run receives, ?_, ?_⟩
    · unfold Sequencer.submit
      rw [sends]
      dsimp only at collected ⊢
      rw [collected]
      cases answer <;> rfl
    · obtain ⟨⟨reply, member, mine, rfl⟩, -⟩ := Sequencer.collect_eq collected
      have answers := finished.replies reply member
      rw [mine, sound.counted] at answers
      exact answers.eq_of_split

/-- Whatever clients send and whenever they give up or the hosting is ended, the sequencer does what the plain
book would do with the same orders. The listener does not break down, and so cannot take the worker with it. -/
theorem hosts_like_plain_book (steady : desk.listener ≠ .fragile) (run : Run (start desk) acts hall) :
    LikePlain desk acts hall := by
  have sound := sound_of_run steady run
  constructor
  · exact sound.taken_prefix
  · exact sound.takenFrom_prefix
  · exact sound.handling.hands
  · cases sound.held with
    | working own holds there => exact ⟨own, by rw [desk?, there]; rfl, holds.book⟩
    | ended own holds gone back => exact ⟨own, by rw [desk?, gone, back]; rfl, holds.book⟩
  · rintro before client answer after rfl
    obtain ⟨middle, next, earlier, step, -⟩ := run.split
    have kept := sound_of_run steady earlier
    cases step with
    | receive waiting collected =>
      have awaits := kept.waiting _ _ waiting
      rw [← List.append_nil before] at kept
      exact kept.owed awaits collected
  · exact fun _ _ => sound.served
  · exact fun running accepting _ => sound.submit running accepting
  · exact sound.shutdown
  · intro own back
    cases sound.held with
    | working _ _ _ still =>
      rw [still] at back
      cases back
    | ended other holds _ returned drained =>
      obtain rfl := Option.some.inj (back.symm.trans returned)
      exact holds.book_of_drained sound drained

/-- One client gives up while the worker has its order in hand, and the hosting is ended while another order is
in the queue. -/
theorem hosts_like_plain_book_left_client : ∃ fresh, Book.open? (Config.cents "ACME") = .ok fresh ∧ ∃ own hall,
    let sell : Order := .limit .sell (.ofUnits 3) (.ofCents 100)
    let buy : Order := .market .buy 1
    let acts : List (Act Bool) :=
      [.send false sell, .take ⟨0, sell⟩, .send true buy, .abandon false, .answer ⟨0, sell⟩, .close,
        .take ⟨1, buy⟩, .answer ⟨1, buy⟩, .receive true (.ok [⟨.ofNumber 2, .ofNumber 1, 1, .ofCents 100⟩]),
        .handBack own]
    Run (start ⟨fresh, .silent⟩) acts hall ∧ LikePlain ⟨fresh, .silent⟩ acts hall := by
  refine ⟨_, rfl, Exists.imp (fun _ => Exists.imp fun _ run => ⟨run, hosts_like_plain_book nofun run⟩) ?_⟩
  exact ⟨_, _, .cons (.send rfl rfl) <| .cons (.take rfl rfl rfl) <| .cons (.send rfl rfl) <| .cons (.abandon rfl) <|
    .cons (.answer rfl) <| .cons .close <| .cons (.take rfl rfl rfl) <| .cons (.answer rfl) <|
    .cons (.receive rfl (Prod.ext (by decide +kernel) rfl)) <| .cons (.handBack rfl rfl rfl) .refl⟩

end LimitBook.Hall
