import LimitBook.Proofs.Book.Lockstep

/-! The mirror: buyers become sellers, and what was dear becomes cheap. Without a tick size a book does with the
mirrored orders what it does with the orders themselves. -/
namespace LimitBook

def Order.complaint (order : Order) (lotSize : Option Volume) : Option Rejection :=
  if order.id.isAssigned then some (.alreadyAdmitted order.id)
  else if order.carriesState then some .carriesState
  else if order.isCancel then none
  else if order.side = none then some (.noSide order.kind)
  else if order.volume = 0 then some .noVolume
  else lotSize.bind fun lot => if order.volume.units % lot.units = 0 then none else some (.offLot order.volume lot)

def Rejection.isAboutPrice : Rejection → Bool
  | priceNotPositive _ | offTick _ _ => true
  | _ => false

section Complaints
variable {names : Renaming} {order : Order} {lotSize : Option Volume}

private theorem Order.complaint_rename :
    (names.order order).complaint lotSize = (order.complaint lotSize).map names.rejection := by
  have sideless : (names.order order).side = none ↔ order.side = none := Option.map_eq_none_iff
  have cancels : (names.order order).isCancel = order.isCancel := isCancel_rename
  have id : (names.order order).id = order.id := rfl
  have volume : (names.order order).volume = order.volume := rfl
  have state : (names.order order).carriesState = order.carriesState := rfl
  have kind : (names.order order).kind = order.kind.rename names.price := rfl
  unfold complaint
  simp only [sideless, cancels, id, volume, state, kind]
  cases lotSize with
  | none => split_ifs <;> rfl
  | some lot =>
    simp only [Option.bind_some]
    split_ifs <;> rfl

private theorem Order.not_isAboutPrice_of_complaint {cause : Rejection}
    (objected : order.complaint lotSize = some cause) :
    cause.isAboutPrice = false := by
  unfold complaint at objected
  cases lotSize <;> grind [Rejection.isAboutPrice]

private theorem Rejection.message_rename {cause : Rejection} (other : cause.isAboutPrice = false) :
    (names.rejection cause).message = cause.message := by
  cases cause with
  | noSide kind => cases kind <;> rfl
  | priceNotPositive | offTick => cases other
  | _ => rfl

end Complaints

private theorem Config.checkPrices_of_positive {config : Config} {order : Order} (gridless : config.tickSize = none)
    (positive : ∀ own ∈ order.kind.prices, 0 < own) : config.checkPrices order = .onGrid := by
  have unobjected : order.kind.prices.findSome? config.objectionToPrice = none := by
    rw [List.findSome?_eq_none_iff]
    intro own carried
    exact objectionToPrice_eq_none_iff.mpr ⟨positive own carried, by simp [gridless]⟩
  unfold checkPrices
  rw [unobjected]

namespace Book
variable {book : Book} {order : Order}

/-- Without a tick size a book has nothing to say about positive prices. -/
theorem objection_eq_complaint (gridless : book.config.tickSize = none)
    (positive : ∀ own ∈ order.kind.prices, 0 < own) :
    book.objection order = order.complaint book.config.lotSize := by
  have agreed := Config.checkPrices_of_positive gridless positive
  have defined := Config.check_ne_undefined book.sound order
  unfold objection Order.complaint
  split
  · rfl
  split
  · rfl
  split
  · rename_i checked
    unfold Config.check at checked
    grind
  · rename_i cause checked
    unfold Config.check at checked
    grind
  · rename_i checked
    exact absurd checked defined

private theorem suits_of_gridless {names : Renaming} (gridless : book.config.tickSize = none)
    (positive : ∀ own ∈ order.kind.prices, 0 < own ∧ 0 < names.price own)
    (known : ∀ own ∈ order.kind.prices, names.knows own) : names.Suits book order := by
  have objection := objection_eq_complaint gridless fun own carried => (positive own carried).1
  have renamed : ∀ price ∈ (names.order order).kind.prices, 0 < price := by
    intro price carried
    have prices : (names.order order).kind.prices = order.kind.prices.map names.price := OrderKind.prices_rename _
    rw [prices, List.mem_map] at carried
    obtain ⟨own, member, rfl⟩ := carried
    exact (positive own member).2
  refine ⟨?_, ?_, known⟩
  · rw [objection_eq_complaint gridless renamed, objection, Order.complaint_rename]
  · intro cause objected
    rw [objection] at objected
    exact Rejection.message_rename (Order.not_isAboutPrice_of_complaint objected)

end Book

def IndexKind.opposite : IndexKind → IndexKind
  | bids => asks
  | asks => bids
  | stops => stops

structure Response.Mirrors (price : Price → Price) (response mirrored : Response) : Prop where
  events : mirrored.events = response.events.map (Event.rename Side.opposite price)
  accepted : ∀ trades, response.answer = .ok trades → mirrored.answer = .ok (trades.map (Trade.rename price))
  refused : ∀ refusal, response.answer = .error refusal →
    ∃ other, mirrored.answer = .error other ∧ other.message = refusal.message

structure Ledger.Mirrors (price : Price → Price) (ledger mirrored : Ledger) : Prop where
  orders : mirrored.orders = ledger.orders.map (Order.rename Side.opposite price)
  entries : ∀ kind entry, entry ∈ mirrored.index (IndexKind.opposite kind)
    ↔ ∃ own ∈ ledger.index kind, entry = ⟨price own.price, own.id⟩
  nextId : mirrored.nextId = ledger.nextId
  cancelled : mirrored.cancelled = ledger.cancelled
  lastPrice : mirrored.lastPrice = ledger.lastPrice.map price

private theorem Response.Renames.mirrors {price : Price → Price} {knows : Price → Prop}
    {turns : ∀ low high, knows low → knows high → low < high → price high < price low} {response mirrored : Response}
    (renames : response.Renames (.mirror price knows turns) mirrored) : response.Mirrors price mirrored where
  events := renames.events
  accepted := by
    intro trades answered
    rw [renames.answer, answered]
    rfl
  refused := by
    intro refusal answered
    refine ⟨_, ?_, renames.message refusal answered⟩
    rw [renames.answer, answered]
    rfl

private theorem Likeness.Books.mirrors {price : Price → Price} {knows : Price → Prop}
    {turns : ∀ low high, knows low → knows high → low < high → price high < price low} {book mirrored : Book}
    (books : (exact (.mirror price knows turns)).Books book mirrored) : book.ledger.Mirrors price mirrored.ledger where
  orders := by
    have records : mirrored.ledger.orders.map (fun order => order)
        = book.ledger.orders.map (Order.rename Side.opposite price) :=
      books.map_orders (fun _ _ related => related.1) fun _ _ => rfl
    rwa [Array.map_id_fun'] at records
  entries := by
    intro kind entry
    have swapped : Renaming.index (.mirror price knows turns) kind = kind.opposite := by cases kind <;> rfl
    rw [← swapped]
    exact books.mem_index_iff
  nextId := books.nextId
  cancelled := books.cancelled fun related => by rw [related.1]; rfl
  lastPrice := books.last

namespace Book

/-- Buyers and sellers are treated alike. Let the orders that a book without a tick size is given carry positive
prices, and let `price` turn these prices round and keep them positive: given the orders with the sides
exchanged and the prices turned, the book accepts the same orders under the same numbers, makes the same trades
at the turned prices, and ends with the mirrored records, the same cancelled numbers and the mirrored entries. -/
theorem responses_mirror {config : Config} {fresh : Book} (opened : open? config = .ok fresh)
    (gridless : config.tickSize = none) (orders : List Order) (price : Price → Price)
    (positive : ∀ own ∈ orders.flatMap (·.kind.prices), 0 < own ∧ 0 < price own)
    (turns : ∀ low ∈ orders.flatMap (·.kind.prices), ∀ high ∈ orders.flatMap (·.kind.prices), low < high →
      price high < price low) :
    let mirrored := orders.map (Order.rename Side.opposite price)
    List.Forall₂ (Response.Mirrors price) (fresh.responses orders) (fresh.responses mirrored)
      ∧ (fresh.after orders).ledger.Mirrors price (fresh.after mirrored).ledger := by
  intro mirrored
  obtain ⟨same, empty, unfaulted⟩ := open?_eq opened
  let names := Renaming.mirror price (· ∈ orders.flatMap (·.kind.prices)) fun low high lowKnown highKnown =>
    turns low lowKnown high highKnown
  have known : ∀ order ∈ orders, ∀ own ∈ order.kind.prices, names.knows own := by
    intro order member own carried
    exact List.mem_flatMap.mpr ⟨order, member, carried⟩
  have start : (Likeness.exact names).Books fresh fresh := by
    refine .running rfl unfaulted unfaulted ?_
    rw [empty]
    exact .empty rfl
  obtain ⟨responses, last⟩ := start.responses fun order member =>
    suits_of_gridless (same ▸ gridless) (fun own carried => positive own (known order member own carried))
      (known order member)
  exact ⟨responses.imp fun _ _ alike => alike.1.mirrors, last.mirrors⟩

/-- A sale fires a stop, which takes from two bids at one price, the older first; in the mirror a purchase fires
it, and it takes from two asks. -/
theorem responses_mirror_stop : ∃ fresh, open? (Config.plain "ACME") = .ok fresh ∧
    let orders := [.limit .buy 1 (.ofCents 100), .limit .buy (.ofUnits 2) (.ofCents 99), .limit .buy 1 (.ofCents 99),
      .stopLimit .sell (.ofUnits 3) (.ofCents 101) (.ofCents 98), .market .sell 1, .fresh none .market 1,
      .cancel (.ofNumber 4)]
    let price : Price → Price := fun own => (Fixed.ofRaw? (300 - own.raw)).getD 0
    let mirrored := orders.map (Order.rename Side.opposite price)
    (∀ own ∈ orders.flatMap (·.kind.prices), 0 < own ∧ 0 < price own)
      ∧ (∀ low ∈ orders.flatMap (·.kind.prices), ∀ high ∈ orders.flatMap (·.kind.prices), low < high →
        price high < price low)
      ∧ fresh.returned orders = [⟨.ofNumber 5, .ofNumber 1, 1, .ofCents 100⟩,
        ⟨.ofNumber 4, .ofNumber 2, .ofUnits 2, .ofCents 99⟩, ⟨.ofNumber 4, .ofNumber 3, 1, .ofCents 99⟩]
      ∧ fresh.returned mirrored = [⟨.ofNumber 5, .ofNumber 1, 1, .ofCents 200⟩,
        ⟨.ofNumber 4, .ofNumber 2, .ofUnits 2, .ofCents 201⟩, ⟨.ofNumber 4, .ofNumber 3, 1, .ofCents 201⟩]
      ∧ List.Forall₂ (Response.Mirrors price) (fresh.responses orders) (fresh.responses mirrored)
      ∧ (fresh.after orders).ledger.Mirrors price (fresh.after mirrored).ledger :=
  ⟨_, rfl, by decide, by decide, by decide +kernel, by decide +kernel,
    responses_mirror (rfl : open? (Config.plain "ACME") = _) rfl _ _ (by decide) (by decide)⟩

end Book
end LimitBook
