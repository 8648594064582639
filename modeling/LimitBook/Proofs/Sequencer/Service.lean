import LimitBook.Proofs.Sequencer.Hall

/-! What a sequencer keeps among its clients, one act at a time and over every run: how the requests and replies
in flight go with what has been sent, and where the desk is. -/
namespace LimitBook

private theorem Listener.hear_of_ne_fragile {listener : Listener} (steady : listener ≠ .fragile) (events : List Event) :
    ∃ next, listener.hear events = some next ∧ next ≠ .fragile := by
  cases listener with
  | fragile => exact absurd rfl steady
  | _ => exact ⟨_, rfl, nofun⟩

private theorem Desk.add_of_ne_fragile {desk : Desk} (steady : desk.listener ≠ .fragile) (order : Order) :
    ∃ next : Desk, desk.add order = some (next, (desk.book.add order).answer) ∧ next.book = (desk.book.add order).book
      ∧ next.listener ≠ .fragile := by
  obtain ⟨listener, heard, still⟩ := Listener.hear_of_ne_fragile steady (desk.book.add order).events
  exact ⟨⟨(desk.book.add order).book, listener⟩, by rw [add, heard]; rfl, rfl, still⟩

namespace Sequencer
variable {sequencer : Sequencer} {own : Desk} {request : Request} {rest : List Request}

def queued (sequencer : Sequencer) (order : Order) : Sequencer :=
  { sequencer with
    nextTicket := sequencer.nextTicket + 1
    queue := sequencer.queue ++ [⟨sequencer.nextTicket, order⟩] }

theorem send_eq_some_iff {order : Order} {ticket : Nat} {next : Sequencer} : sequencer.send order = some (ticket, next)
    ↔ sequencer.accepting = true ∧ sequencer.desk.isSome = true ∧ ticket = sequencer.nextTicket
      ∧ next = sequencer.queued order := by
  unfold send
  split
  · rename_i takes
    rw [Bool.and_eq_true] at takes
    simp [takes, queued, eq_comm]
  · rename_i refuses
    rw [Bool.and_eq_true, not_and] at refuses
    simp only [reduceCtorEq, false_iff]
    exact fun ⟨accepting, working, _⟩ => refuses accepting working

private theorem work_eq (working : sequencer.desk = some own) (steady : own.listener ≠ .fragile)
    (oldest : sequencer.queue = request :: rest) : ∃ next : Desk, next.book = (own.book.add request.order).book
      ∧ next.listener ≠ .fragile ∧ sequencer.work = { sequencer with
          desk := some next
          queue := rest
          replies := sequencer.replies ++ [⟨request.ticket, (own.book.add request.order).answer⟩] } := by
  obtain ⟨next, added, book, still⟩ := Desk.add_of_ne_fragile steady request.order
  refine ⟨next, book, still, ?_⟩
  rw [work, working, oldest]
  dsimp only
  rw [added]

theorem collect_eq {next : Sequencer} {ticket : Nat} {answer : Except Refusal (List Trade)}
    (collected : sequencer.collect ticket = (some answer, next)) : (∃ reply ∈ sequencer.replies, reply.ticket = ticket
      ∧ reply.answer = answer) ∧ next = { sequencer with replies := sequencer.replies.filter (·.ticket ≠ ticket) } := by
  obtain ⟨found, rfl⟩ := Prod.mk.inj collected
  obtain ⟨reply, first, rfl⟩ := Option.map_eq_some_iff.mp found
  have mine : reply.ticket = ticket := by simpa using List.find?_some first
  exact ⟨⟨reply, List.mem_of_find?_eq_some first, mine, rfl⟩, rfl⟩

theorem exists_collect {ticket : Nat} {reply : Reply} (member : reply ∈ sequencer.replies)
    (mine : reply.ticket = ticket) :
    ∃ answer next, sequencer.collect ticket = (some answer, next) := by
  have found : (sequencer.replies.find? (·.ticket = ticket)).isSome := by
    rw [List.find?_isSome]
    exact ⟨reply, member, decide_eq_true mine⟩
  obtain ⟨first, there⟩ := Option.isSome_iff_exists.mp found
  exact ⟨first.answer, _, by rw [collect, there]; rfl⟩

end Sequencer

namespace Hall
open Act
variable {Client : Type} {desk : Desk} {hall next : Hall Client} {acts more : List (Act Client)}
    {act : Act Client} {client : Client}
  {order : Order} {ticket : Nat} {answer : Except Refusal (List Trade)}

def requests (sent : List (Client × Order)) : List Request :=
  sent.zipIdx.map fun ((_, order), ticket) => ⟨ticket, order⟩

def Answers (desk : Desk) (acts : List (Act Client)) (ticket : Nat) (answer : Except Refusal (List Trade)) : Prop :=
  ∃ client order, (sent acts)[ticket]? = some (client, order)
    ∧ answer = ((desk.book.after ((orders acts).take ticket)).add order).answer

def Awaits (acts : List (Act Client)) (client : Client) (ticket : Nat) : Prop :=
  ∃ early order late, acts = early ++ .send client order :: late ∧ (sent early).length = ticket
    ∧ ∀ act ∈ late, act.client? ≠ some client

structure Holds (desk : Desk) (acts : List (Act Client)) (own : Desk) : Prop where
  book : own.book = desk.book.after ((answered acts).map Request.order)
  steady : own.listener ≠ .fragile

inductive Held (desk : Desk) (acts : List (Act Client)) (hall : Hall Client) : Prop
  | working (own : Desk) (holds : Holds desk acts own) (there : hall.sequencer.desk = some own)
      (still : hall.returned = none)
  | ended (own : Desk) (holds : Holds desk acts own) (gone : hall.sequencer.desk = none)
      (back : hall.returned = some own) (drained : hall.sequencer.queue = [])

structure Handling (acts : List (Act Client)) (hall : Hall Client) : Prop where
  hands : taken acts = answered acts ++ hall.hands.toList
  first : ∀ request, hall.hands = some request → ∃ rest, hall.sequencer.queue = request :: rest

structure Sound (desk : Desk) (acts : List (Act Client)) (hall : Hall Client) : Prop where
  held : Held desk acts hall
  handling : Handling acts hall
  counted : hall.sequencer.nextTicket = (sent acts).length
  arrival : answered acts ++ hall.sequencer.queue = requests (sent acts)
  replies : ∀ reply ∈ hall.sequencer.replies, Answers desk acts reply.ticket reply.answer
  waiting : ∀ client ticket, hall.waits client = some ticket → Awaits acts client ticket
  /-- Whoever waits is still in the queue or finds a reply. -/
  pending : ∀ client ticket, hall.waits client = some ticket → ticket < (answered acts).length →
    ∃ reply ∈ hall.sequencer.replies, reply.ticket = ticket

@[simp] theorem length_requests (sent : List (Client × Order)) : (requests sent).length = sent.length := by
  simp [requests]

theorem map_order_requests (sent : List (Client × Order)) : (requests sent).map Request.order = sent.map Prod.snd := by
  rw [requests, List.map_map]
  conv_rhs => rw [← List.zipIdx_map_fst 0 sent, List.map_map]
  rfl

private theorem requests_concat (sent : List (Client × Order)) (client : Client) (order : Order) :
    requests (sent ++ [(client, order)]) = requests sent ++ [⟨sent.length, order⟩] := by
  simp [requests, List.zipIdx_append]

private theorem getElem?_requests {sent : List (Client × Order)} {request : Request} {place : Nat}
    (found : (requests sent)[place]? = some request) :
    request.ticket = place ∧ ∃ client, sent[place]? = some (client, request.order) := by
  rw [requests, List.getElem?_map, List.getElem?_zipIdx, Option.map_map, Option.map_eq_some_iff] at found
  obtain ⟨⟨client, order⟩, there, rfl⟩ := found
  exact ⟨Nat.zero_add place, client, there⟩

private theorem Answers.append (answers : Answers desk acts ticket answer) (more : List (Act Client)) :
    Answers desk (acts ++ more) ticket answer := by
  obtain ⟨client, order, found, rfl⟩ := answers
  obtain ⟨within, -⟩ := List.getElem?_eq_some_iff.mp found
  refine ⟨client, order, ?_, ?_⟩
  · rw [sent_append, List.getElem?_append_left within, found]
  · rw [orders_append, List.take_append_of_le_length]
    rw [orders, List.length_map]
    exact Nat.le_of_lt within

private theorem Awaits.concat (awaits : Awaits acts client ticket) (other : act.client? ≠ some client) :
    Awaits (acts ++ [act]) client ticket := by
  obtain ⟨early, order, late, rfl, place, quiet⟩ := awaits
  refine ⟨early, order, late ++ [act], by simp, place, ?_⟩
  intro later member
  rcases List.mem_append.mp member with before | now
  · exact quiet later before
  · obtain rfl := List.mem_singleton.mp now
    exact other

private theorem getElem?_sent_of_split (early late : List (Act Client)) (client : Client) (order : Order) :
    (sent (early ++ .send client order :: late))[(sent early).length]? = some (client, order) := by
  rw [sent_append, List.getElem?_append_right (Nat.le_refl _), Nat.sub_self]
  rfl

theorem Awaits.sent_eq (awaits : Awaits acts client ticket) : ∃ order, (sent acts)[ticket]? = some (client, order) := by
  obtain ⟨early, order, late, rfl, rfl, -⟩ := awaits
  exact ⟨order, getElem?_sent_of_split early late client order⟩

private theorem Awaits.unique {other : Client} (one : Awaits acts client ticket)
    (two : Awaits acts other ticket) : client = other := by
  obtain ⟨order, mine⟩ := one.sent_eq
  obtain ⟨order, yours⟩ := two.sent_eq
  rw [mine] at yours
  exact (Prod.mk.inj (Option.some.inj yours)).1

theorem Answers.eq_of_split {early late : List (Act Client)}
    (answers : Answers desk (early ++ .send client order :: late) (sent early).length answer) :
    answer = ((desk.book.after (orders early)).add order).answer := by
  obtain ⟨other, same, found, rfl⟩ := answers
  rw [getElem?_sent_of_split] at found
  obtain ⟨rfl, rfl⟩ := Prod.mk.inj (Option.some.inj found)
  rw [orders_append, List.take_left' (by rw [orders, List.length_map])]

private theorem sound_start (steady : desk.listener ≠ .fragile) : Sound desk [] (start desk : Hall Client) where
  held := .working desk ⟨rfl, steady⟩ rfl rfl
  handling := ⟨rfl, by simp [start]⟩
  counted := rfl
  arrival := rfl
  replies := by simp [start, Sequencer.start]
  waiting := by simp [start]
  pending := by simp [start]

private theorem Sound.answered_eq (sound : Sound desk acts hall) :
    answered acts = (requests (sent acts)).take (answered acts).length := by
  rw [← sound.arrival, List.take_left' rfl]

private theorem Sound.length_answered_le (sound : Sound desk acts hall) :
    (answered acts).length ≤ (sent acts).length := by
  rw [← length_requests, ← sound.arrival, List.length_append]
  exact Nat.le_add_right _ _

private theorem Sound.map_order_answered (sound : Sound desk acts hall) :
    (answered acts).map Request.order = (orders acts).take (answered acts).length := by
  rw [sound.answered_eq, List.map_take, map_order_requests, ← sound.answered_eq]
  rfl

private theorem Holds.concat {own : Desk} (holds : Holds desk acts own) (quiet : act.answered? = none) :
    Holds desk (acts ++ [act]) own := by
  refine ⟨?_, holds.steady⟩
  rw [answered_append, holds.book]
  simp [answered, quiet]

private theorem Handling.concat (handling : Handling acts hall) (idle : act.isWork = false)
    (hands : next.hands = hall.hands)
    (queue : ∃ late, next.sequencer.queue = hall.sequencer.queue ++ late) : Handling (acts ++ [act]) next := by
  refine ⟨?_, ?_⟩
  · obtain ⟨untaken, unanswered⟩ := taken_of_idle idle
    rw [taken_append, answered_append, untaken, unanswered, List.append_nil, List.append_nil, hands]
    exact handling.hands
  · intro request busy
    obtain ⟨late, queue⟩ := queue
    obtain ⟨rest, first⟩ := handling.first request (hands ▸ busy)
    exact ⟨rest ++ late, by rw [queue, first]; rfl⟩

private theorem Held.concat (held : Held desk acts hall) (quiet : act.answered? = none)
    (desks : next.sequencer.desk = hall.sequencer.desk) (returned : next.returned = hall.returned)
    (queue : hall.sequencer.queue = [] → hall.sequencer.desk = none →
      next.sequencer.queue = []) : Held desk (acts ++ [act]) next := by
  cases held with
  | working own holds there still => exact .working own (holds.concat quiet) (desks.trans there) (returned.trans still)
  | ended own holds gone back drained =>
    exact .ended own (holds.concat quiet) (desks.trans gone) (returned.trans back) (queue drained gone)

private theorem Sound.aside (sound : Sound desk acts hall) (unsent : act.sent? = none) (quiet : act.answered? = none)
    (held : Held desk (acts ++ [act]) next) (handling : Handling (acts ++ [act]) next)
    (counted : next.sequencer.nextTicket = hall.sequencer.nextTicket)
    (queue : next.sequencer.queue = hall.sequencer.queue)
    (replies : ∀ reply ∈ next.sequencer.replies, reply ∈ hall.sequencer.replies)
    (waits : ∀ client ticket, next.waits client = some ticket →
      hall.waits client = some ticket ∧ act.client? ≠ some client
      ∧ ∀ reply ∈ hall.sequencer.replies, reply.ticket = ticket → reply ∈ next.sequencer.replies) :
    Sound desk (acts ++ [act]) next := by
  have sameSent : sent (acts ++ [act]) = sent acts := by simp [sent, unsent]
  have sameAnswered : answered (acts ++ [act]) = answered acts := by simp [answered, quiet]
  refine ⟨held, handling, ?_, ?_, ?_, ?_, ?_⟩
  · rw [sameSent, counted, sound.counted]
  · rw [sameSent, sameAnswered, queue, sound.arrival]
  · exact fun reply member => (sound.replies reply (replies reply member)).append [act]
  · intro client ticket waiting
    obtain ⟨before, other, -⟩ := waits client ticket waiting
    exact (sound.waiting client ticket before).concat other
  · intro client ticket waiting early
    rw [sameAnswered] at early
    obtain ⟨before, -, kept⟩ := waits client ticket waiting
    obtain ⟨reply, member, mine⟩ := sound.pending client ticket before early
    exact ⟨reply, kept reply member mine, mine⟩

/-- An act of a client that sends nothing, or the end of all sending. -/
theorem Sound.bystand {sequencer : Sequencer} {waits : Client → Option Nat} (sound : Sound desk acts hall)
    (idle : act.isWork = false) (unsent : act.sent? = none) (same : sequencer.desk = hall.sequencer.desk)
    (counted : sequencer.nextTicket = hall.sequencer.nextTicket) (queue : sequencer.queue = hall.sequencer.queue)
    (replies : ∀ reply ∈ sequencer.replies, reply ∈ hall.sequencer.replies)
    (kept : ∀ client ticket, waits client = some ticket → hall.waits client = some ticket ∧ act.client? ≠ some client
      ∧ ∀ reply ∈ hall.sequencer.replies, reply.ticket = ticket → reply ∈ sequencer.replies) :
    Sound desk (acts ++ [act]) { hall with sequencer := sequencer, waits := waits } := by
  have quiet : act.answered? = none := answered?_of_idle idle
  refine sound.aside unsent quiet (sound.held.concat quiet same rfl fun drained _ => queue.trans drained)
    ?_ counted queue replies kept
  exact sound.handling.concat idle rfl ⟨[], queue.trans (List.append_nil _).symm⟩

section Steps
variable [DecidableEq Client]

theorem Sound.send {next : Sequencer} (sound : Sound desk acts hall)
    (sends : hall.sequencer.send order = some (ticket, next)) :
    Sound desk (acts ++ [.send client order])
      { hall with sequencer := next, waits := Function.update hall.waits client (some ticket) } := by
  obtain ⟨-, working, rfl, rfl⟩ := Sequencer.send_eq_some_iff.mp sends
  have sentNow : sent (acts ++ [.send client order]) = sent acts ++ [(client, order)] := sent_append ..
  have answeredNow : answered (acts ++ [.send client order]) = answered acts := by simp [answered, answered?]
  refine ⟨?_, sound.handling.concat rfl rfl ⟨_, rfl⟩, ?_, ?_, ?_, ?_, ?_⟩
  · refine sound.held.concat rfl rfl rfl fun _ gone => ?_
    rw [gone] at working
    cases working
  · rw [sentNow, List.length_append, ← sound.counted]
    rfl
  · rw [sentNow, answeredNow, requests_concat, ← sound.arrival, ← sound.counted, List.append_assoc]
    rfl
  · exact fun reply member => (sound.replies reply member).append _
  · intro other number waiting
    by_cases same : other = client
    · subst same
      simp only [Function.update_self, Option.some.injEq] at waiting
      exact ⟨acts, order, [], rfl, by rw [← sound.counted, waiting], fun _ member => absurd member List.not_mem_nil⟩
    · simp only [Function.update_of_ne same] at waiting
      exact (sound.waiting other number waiting).concat fun mine => same (Option.some.inj mine).symm
  · intro other number waiting early
    rw [answeredNow] at early
    by_cases same : other = client
    · subst same
      simp only [Function.update_self, Option.some.injEq] at waiting
      have bound := sound.length_answered_le
      rw [← waiting, sound.counted] at early
      omega
    · simp only [Function.update_of_ne same] at waiting
      exact sound.pending other number waiting early

end Steps

private theorem Sound.take {request : Request} {rest : List Request} (sound : Sound desk acts hall)
    (free : hall.hands = none) (oldest : hall.sequencer.queue = request :: rest) :
    Sound desk (acts ++ [.take request]) { hall with hands := some request } := by
  have handling : Handling (acts ++ [.take request]) { hall with hands := some request } := by
    refine ⟨?_, ?_⟩
    · have before := sound.handling.hands
      rw [free, Option.toList_none, List.append_nil] at before
      rw [taken_append, answered_append, before, List.append_assoc]
      rfl
    · rintro other same
      exact ⟨rest, Option.some.inj same ▸ oldest⟩
  exact sound.aside rfl rfl (sound.held.concat rfl rfl rfl fun drained _ => drained) handling rfl rfl
    (fun _ member => member) fun _ _ waiting => ⟨waiting, (Option.some_ne_none _).symm, fun _ member _ => member⟩

/-- The request in hand arrived first of those left, and is answered as the plain book answers it. -/
theorem Sound.answer_first {request : Request} (sound : Sound desk acts hall) (busy : hall.hands = some request) :
    Sound desk (acts ++ [.answer request]) { hall with sequencer := hall.sequencer.work, hands := none } := by
  obtain ⟨rest, oldest⟩ := sound.handling.first request busy
  have answeredNow : answered (acts ++ [.answer request]) = answered acts ++ [request] := answered_append ..
  have sentNow : sent (acts ++ [.answer request]) = sent acts := by simp [sent, sent?]
  have ordersNow : orders (acts ++ [.answer request]) = orders acts := by rw [orders, sentNow, orders]
  have found : (requests (sent acts))[(answered acts).length]? = some request := by
    rw [← sound.arrival, oldest, List.getElem?_append_right (Nat.le_refl _), Nat.sub_self]
    rfl
  obtain ⟨place, client, sends⟩ := getElem?_requests found
  cases sound.held with
  | ended _ _ _ _ drained =>
    rw [oldest] at drained
    cases drained
  | working own holds there still =>
    obtain ⟨next, book, steady, worked⟩ := Sequencer.work_eq there holds.steady oldest
    rw [worked]
    refine ⟨.working next ⟨?_, steady⟩ rfl still, ⟨?_, by simp⟩, ?_, ?_, ?_, ?_, ?_⟩
    · rw [answeredNow, List.map_append, List.map_cons, List.map_nil, Book.after_concat, book, holds.book]
    · rw [taken_append, answeredNow, sound.handling.hands, busy]
      simp [taken, taken?]
    · rw [sentNow]
      exact sound.counted
    · rw [answeredNow, sentNow, ← sound.arrival, oldest, List.append_assoc]
      rfl
    · intro reply member
      rcases List.mem_append.mp member with earlier | now
      · exact (sound.replies reply earlier).append _
      · obtain rfl := List.mem_singleton.mp now
        refine ⟨client, request.order, ?_, ?_⟩
        · rw [sentNow, place, sends]
        · rw [ordersNow, place, ← sound.map_order_answered, ← holds.book]
    · exact fun other ticket waiting => (sound.waiting other ticket waiting).concat (Option.some_ne_none other).symm
    · intro other ticket waiting early
      rw [answeredNow, List.length_append, List.length_singleton] at early
      by_cases before : ticket < (answered acts).length
      · obtain ⟨reply, member, mine⟩ := sound.pending other ticket waiting before
        exact ⟨reply, List.mem_append_left _ member, mine⟩
      · exact ⟨_, List.mem_append_right _ List.mem_cons_self, place.trans (by omega)⟩

variable [DecidableEq Client]

private theorem waits_of_update {waits : Client → Option Nat} {other : Client}
    (waiting : Function.update waits client none other = some ticket) : other ≠ client ∧ waits other = some ticket := by
  by_cases same : other = client
  · subst same
    rw [Function.update_self] at waiting
    cases waiting
  · rw [Function.update_of_ne same] at waiting
    exact ⟨same, waiting⟩

private theorem Sound.receive {next : Sequencer} (sound : Sound desk acts hall)
    (waiting : hall.waits client = some ticket)
    (collected : hall.sequencer.collect ticket = (some answer, next)) : Sound desk (acts ++ [.receive client answer])
      { hall with sequencer := next, waits := Function.update hall.waits client none } := by
  obtain ⟨-, rfl⟩ := Sequencer.collect_eq collected
  refine sound.bystand rfl rfl rfl rfl rfl (fun _ member => (List.mem_filter.mp member).1) ?_
  intro other number still
  obtain ⟨apart, before⟩ := waits_of_update still
  refine ⟨before, fun same => apart (Option.some.inj same).symm, fun reply member mine => ?_⟩
  refine List.mem_filter.mpr ⟨member, decide_eq_true ?_⟩
  -- Another client waits under another ticket, so that its reply stays.
  rintro rfl
  rw [← mine] at before
  exact apart ((sound.waiting _ _ before).unique (sound.waiting _ _ waiting))

theorem Sound.step (sound : Sound desk acts hall) (step : Step hall act next) : Sound desk (acts ++ [act]) next := by
  cases step with
  | send _ sends => exact sound.send sends
  | take _ free oldest => exact sound.take free oldest
  | answer busy => exact sound.answer_first busy
  | receive waiting collected => exact sound.receive waiting collected
  | turnAway idle =>
    refine sound.bystand rfl rfl rfl rfl rfl (fun _ member => member) ?_
    intro other ticket waiting
    refine ⟨waiting, fun same => ?_, fun _ member _ => member⟩
    rw [← Option.some.inj same, idle] at waiting
    cases waiting
  | abandon =>
    refine sound.bystand rfl rfl rfl rfl rfl (fun _ member => member) ?_
    intro other number still
    obtain ⟨apart, before⟩ := waits_of_update still
    exact ⟨before, fun same => apart (Option.some.inj same).symm, fun _ member _ => member⟩
  | close =>
    exact sound.bystand rfl rfl rfl rfl rfl (fun _ member => member)
      fun _ _ waiting => ⟨waiting, nofun, fun _ member _ => member⟩
  | @handBack own working closed drained =>
    have ended : Held desk (acts ++ [.handBack own])
        { hall with sequencer := { hall.sequencer with desk := none }, returned := some own } := by
      cases sound.held with
      | working other holds there =>
        obtain rfl := Option.some.inj (working.symm.trans there)
        exact .ended own (holds.concat rfl) rfl rfl drained
      | ended _ _ gone =>
        rw [working] at gone
        cases gone
    exact sound.aside rfl rfl ended (sound.handling.concat rfl rfl ⟨[], (List.append_nil _).symm⟩) rfl rfl
      (fun _ member => member)
      fun _ _ waiting => ⟨waiting, nofun, fun _ member _ => member⟩

theorem Run.sound (run : Run hall more next) (sound : Sound desk acts hall) : Sound desk (acts ++ more) next := by
  induction run with
  | refl =>
    rw [List.append_nil]
    exact sound
  | tail _ step ih =>
    rw [← List.append_assoc]
    exact ih.step step

theorem sound_of_run (steady : desk.listener ≠ .fragile) (run : Run (start desk) acts hall) : Sound desk acts hall := by
  have sound := run.sound (sound_start steady)
  rw [List.nil_append] at sound
  exact sound

private theorem exists_work {own : Desk} {request : Request} {rest : List Request}
    (working : hall.sequencer.desk = some own) (oldest : hall.sequencer.queue = request :: rest) :
    ∃ acts, (∀ act ∈ acts, act.isWork = true)
      ∧ Run hall acts { hall with sequencer := hall.sequencer.work, hands := none } := by
  cases busy : hall.hands with
  | none =>
    have takes : Step hall (.take request) { hall with hands := some request } := .take working busy oldest
    exact ⟨[.take request, .answer request], by simp [isWork], .cons takes (.cons (.answer rfl) .refl)⟩
  | some other => exact ⟨[.answer other], by simp [isWork], .cons (.answer busy) .refl⟩

theorem run_drain {own : Desk} (working : hall.sequencer.desk = some own) (steady : own.listener ≠ .fragile)
    (first : ∀ request, hall.hands = some request → ∃ rest, hall.sequencer.queue = request :: rest) :
    ∃ acts, (∀ act ∈ acts, act.isWork = true)
      ∧ Run hall acts { hall with sequencer := hall.sequencer.drain, hands := none }
      ∧ hall.sequencer.drain.queue = [] ∧ hall.sequencer.drain.accepting = hall.sequencer.accepting
      ∧ ∃ last, hall.sequencer.drain.desk = some last := by
  unfold Sequencer.drain
  generalize waiting : hall.sequencer.queue = queue at first
  induction queue generalizing hall own with
  | nil =>
    have free : hall.hands = none :=
      Option.eq_none_iff_forall_ne_some.mpr fun request busy => by simpa using first request busy
    refine ⟨[], by simp, ?_, waiting, rfl, own, working⟩
    rw [← free]
    exact .refl
  | cons request rest ih =>
    obtain ⟨next, -, still, worked⟩ := Sequencer.work_eq working steady waiting
    obtain ⟨begun, theirs, run⟩ := exists_work working waiting
    obtain ⟨acts, all, others, drained, accepting, last, there⟩ :=
      @ih { hall with sequencer := hall.sequencer.work, hands := none }
        next (by rw [worked]) still (by rw [worked]) (by simp)
    refine ⟨begun ++ acts, ?_, run.trans others, drained, ?_, last, there⟩
    · exact fun act member => (List.mem_append.mp member).elim (theirs act) (all act)
    · rw [List.length_cons, Sequencer.workFor, accepting, worked]

end Hall
end LimitBook
