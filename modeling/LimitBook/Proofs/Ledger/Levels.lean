import LimitBook.Proofs.Ledger.Depth
import LimitBook.Proofs.Ledger.Offers
import Mathlib.Algebra.BigOperators.Group.List.Basic
import Mathlib.Algebra.Ring.Nat

/-! Levels of a side, recomputed from the records: the limits of the orders that rest there, each once and the
best first, and beside each what these orders have left, as an exact sum that stays at the greatest volume. -/
namespace LimitBook

def Volume.capped (units : Nat) : Volume := ⟨min units 0xffff_ffff_ffff_ffff, by omega⟩

private theorem Volume.capped_units (volume : Volume) : capped volume.units = volume := by
  have fits := volume.fits
  apply Volume.ext
  simp only [capped]
  omega

/-- It makes no difference whether each sum is cut down or only the last. -/
theorem Volume.capped_saturatingAdd (units more : Nat) :
    (capped units).saturatingAdd (capped more) = capped (units + more) := by
  apply Volume.ext
  rw [units_saturatingAdd]
  simp only [capped]
  omega

private theorem Volume.capped_saturatingAdd_units (units : Nat) (volume : Volume) :
    (capped units).saturatingAdd volume = capped (units + volume.units) := by
  rw [← capped_saturatingAdd, capped_units]

def Side.leads : Side → Price → Price → Prop
  | buy, left, right => right < left
  | sell, left, right => left < right

namespace Side
variable {side : Side} {left right : Price}

theorem leads_iff : side.leads left right ↔ (match side with
    | buy => right.raw < left.raw
    | sell => left.raw < right.raw) := by
  cases side <;> rfl

instance : Std.Irrefl side.leads := ⟨fun price => by cases side <;> exact Int.lt_irrefl price.raw⟩

instance : Std.Antisymm side.leads where
  antisymm := by
    intro left right one two
    rw [leads_iff] at one two
    cases side <;> simp only at one two <;> omega

end Side

abbrev Quantity := Price × Nat

namespace Quantity

def tallyFrom (price : Price) (units : Nat) : List Quantity → List Quantity
  | [] => [(price, units)]
  | item :: rest =>
    if price = item.1 then tallyFrom price (units + item.2) rest
    else (price, units) :: tallyFrom item.1 item.2 rest

def tally : List Quantity → List Quantity
  | [] => []
  | item :: rest => tallyFrom item.1 item.2 rest

def level (quantity : Quantity) : Level := ⟨quantity.1, .capped quantity.2⟩

def unitsAt (price : Price) (items : List Quantity) : Nat :=
  ((items.filter fun item => item.1 = price).map Prod.snd).sum

variable {price : Price} {units : Nat} {items : List Quantity}

private theorem head?_tallyFrom : ((tallyFrom price units items).head?).map Prod.fst = some price := by
  induction items generalizing units with
  | nil => rfl
  | cons item rest ih =>
    rw [tallyFrom]
    split
    · exact ih
    · rfl

theorem head?_tally : (tally items).head?.map Prod.fst = items.head?.map Prod.fst := by
  cases items with
  | nil => rfl
  | cons item rest => exact head?_tallyFrom

private theorem sum_tallyFrom :
    ((tallyFrom price units items).map Prod.snd).sum = units + (items.map Prod.snd).sum := by
  induction items generalizing price units with
  | nil => simp [tallyFrom]
  | cons item rest ih =>
    rw [tallyFrom]
    split
    · rw [ih, List.map_cons, List.sum_cons, Nat.add_assoc]
    · rw [List.map_cons, List.sum_cons, ih, List.map_cons, List.sum_cons]

theorem sum_tally : ((tally items).map Prod.snd).sum = (items.map Prod.snd).sum := by
  cases items with
  | nil => rfl
  | cons item rest => exact sum_tallyFrom

private theorem mem_tallyFrom {other : Price} :
    other ∈ (tallyFrom price units items).map Prod.fst ↔ other = price ∨ other ∈ items.map Prod.fst := by
  induction items generalizing price units with
  | nil => simp [tallyFrom]
  | cons item rest ih =>
    rw [tallyFrom]
    split
    · rename_i same
      rw [ih, List.map_cons, List.mem_cons, ← same]
      tauto
    · rw [List.map_cons, List.mem_cons, ih, List.map_cons, List.mem_cons]

theorem mem_tally {other : Price} : other ∈ (tally items).map Prod.fst ↔ other ∈ items.map Prod.fst := by
  cases items with
  | nil => rfl
  | cons item rest => rw [tally, mem_tallyFrom, List.map_cons, List.mem_cons]

section Sorted
variable {side : Side}

def Sorted (side : Side) (items : List Quantity) : Prop := items.Pairwise fun left right => ¬ side.leads right.1 left.1

variable {item : Quantity} {rest : List Quantity}

/-- Where the price changes, the one before leads all that follow. -/
theorem Sorted.leads_of_ne (sorted : Sorted side ((price, units) :: item :: rest)) (apart : price ≠ item.1)
    {other : Price} (member : other ∈ (item :: rest).map Prod.fst) : side.leads price other := by
  obtain ⟨first, others⟩ := List.pairwise_cons.mp sorted
  have early := first item List.mem_cons_self
  have change : price.raw ≠ item.1.raw := fun same => apart (Fixed.ext same)
  obtain ⟨later, within, rfl⟩ := List.mem_map.mp member
  rcases List.mem_cons.mp within with rfl | behind
  · rw [Side.leads_iff] at early ⊢
    cases side <;> simp only at early ⊢ <;> omega
  · have late := (List.pairwise_cons.mp others).1 later behind
    rw [Side.leads_iff] at early late ⊢
    cases side <;> simp only at early late ⊢ <;> omega

private theorem Sorted.join (sorted : Sorted side ((price, units) :: item :: rest)) (sum : Nat) :
    Sorted side ((price, sum) :: rest) := by
  obtain ⟨first, others⟩ := List.pairwise_cons.mp sorted
  exact List.pairwise_cons.mpr ⟨fun later behind => first later (List.mem_cons_of_mem _ behind), others.of_cons⟩

private theorem pairwise_tallyFrom (sorted : Sorted side ((price, units) :: items)) :
    ((tallyFrom price units items).map Prod.fst).Pairwise side.leads := by
  induction items generalizing price units with
  | nil => exact List.pairwise_singleton _ _
  | cons item rest ih =>
    rw [tallyFrom]
    split
    · exact ih (sorted.join _)
    · rename_i apart
      rw [List.map_cons, List.pairwise_cons]
      refine ⟨fun other member => sorted.leads_of_ne apart ?_, ih (List.pairwise_cons.mp sorted).2⟩
      rw [List.map_cons, List.mem_cons]
      exact mem_tallyFrom.mp member

theorem pairwise_tally (sorted : Sorted side items) : ((tally items).map Prod.fst).Pairwise side.leads := by
  cases items with
  | nil => exact .nil
  | cons item rest => exact pairwise_tallyFrom sorted

theorem unitsAt_cons : unitsAt price (item :: rest) = (if item.1 = price then item.2 else 0) + unitsAt price rest := by
  unfold unitsAt
  rw [List.filter_cons]
  split <;> simp_all

private theorem unitsAt_eq_zero (absent : price ∉ items.map Prod.fst) : unitsAt price items = 0 := by
  have none : (items.filter fun item => item.1 = price) = [] := by
    rw [List.filter_eq_nil_iff]
    intro item member same
    exact absent (List.mem_map.mpr ⟨item, member, of_decide_eq_true same⟩)
  rw [unitsAt, none]
  rfl

private theorem units_of_mem_tallyFrom (sorted : Sorted side ((price, units) :: items)) {quantity : Quantity}
    (member : quantity ∈ tallyFrom price units items) : quantity.2 = unitsAt quantity.1 ((price, units) :: items) := by
  induction items generalizing price units with
  | nil =>
    obtain rfl := List.mem_singleton.mp member
    simp [unitsAt]
  | cons item rest ih =>
    rw [tallyFrom] at member
    split at member
    · rename_i same
      rw [ih (sorted.join _) member, unitsAt_cons, unitsAt_cons, unitsAt_cons, ← same]
      split <;> omega
    · rename_i apart
      rw [unitsAt_cons]
      rcases List.mem_cons.mp member with rfl | later
      · have absent : price ∉ (item :: rest).map Prod.fst :=
          fun there => Std.Irrefl.irrefl (r := side.leads) price (sorted.leads_of_ne apart there)
        rw [if_pos rfl, unitsAt_eq_zero absent, Nat.add_zero]
      · have behind : quantity.1 ∈ (item :: rest).map Prod.fst := by
          rw [List.map_cons, List.mem_cons]
          exact mem_tallyFrom.mp (List.mem_map_of_mem later)
        have other : price ≠ quantity.1 := by
          intro same
          exact Std.Irrefl.irrefl (r := side.leads) price (same ▸ sorted.leads_of_ne apart behind)
        rw [if_neg other, Nat.zero_add]
        exact ih (List.pairwise_cons.mp sorted).2 later

theorem units_of_mem_tally (sorted : Sorted side items) {quantity : Quantity} (member : quantity ∈ tally items) :
    quantity.2 = unitsAt quantity.1 items := by
  cases items with
  | nil => cases member
  | cons item rest => exact units_of_mem_tallyFrom sorted member

end Sorted

theorem foldl_capped (sums : List Nat) (units : Nat) :
    (sums.map Volume.capped).foldl Volume.saturatingAdd (.capped units) = .capped (units + sums.sum) := by
  induction sums generalizing units with
  | nil => rfl
  | cons sum rest ih =>
    rw [List.map_cons, List.foldl_cons, Volume.capped_saturatingAdd, ih, List.sum_cons, Nat.add_assoc]

end Quantity

namespace Ledger
variable {ledger : Ledger} {limit : Nat}

def quantity (ledger : Ledger) (entry : Entry) : Quantity :=
  (entry.price, ((ledger.get? entry.id).map fun order => order.remaining.units).getD 0)

theorem quantity_of_get? {entry : Entry} {order : Order} (found : ledger.get? entry.id = some order) :
    ledger.quantity entry = (entry.price, order.remaining.units) := by
  rw [quantity, found]
  rfl

/-- The levels so far, the last of which is in progress, and what the other entries add to them. -/
theorem gather_cons {price : Price} {units : Nat} {volume : Volume} {earlier : List Level} {entries : List Entry}
    (records : ∀ entry ∈ entries, ∃ order, ledger.get? entry.id = some order) (begun : earlier.length < limit)
    (sum : volume = .capped units) : ledger.gather limit (⟨price, volume⟩ :: earlier) entries = .ok ((earlier.reverse
      ++ (Quantity.tallyFrom price units (entries.map ledger.quantity)).map Quantity.level).take limit) := by
  induction entries generalizing price units volume earlier with
  | nil =>
    rw [List.take_of_length_le (by simpa [Quantity.tallyFrom] using Nat.succ_le_of_lt begun), gather,
      List.reverse_cons, sum]
    rfl
  | cons entry rest ih =>
    obtain ⟨order, found⟩ := records entry List.mem_cons_self
    have others := fun other member => records other (List.mem_cons_of_mem _ member)
    rw [gather, find_of_get? found, List.map_cons, Quantity.tallyFrom, quantity_of_get? found]
    dsimp only
    split
    · exact ih others begun (by rw [sum, Volume.capped_saturatingAdd_units])
    rw [List.map_cons, List.append_cons, Quantity.level, ← sum, ← List.reverse_cons]
    split
    · rename_i full
      rw [List.take_left' (by rw [List.length_reverse]; exact full)]
    · rename_i left
      exact ih others (by simp only [List.length_cons] at left ⊢; omega) (Volume.capped_units _).symm

/-- Where each entry has its record the levels are the tally of the entries, as far as they are asked for. -/
theorem gather_eq_take {entries : List Entry}
    (records : ∀ entry ∈ entries, ∃ order, ledger.get? entry.id = some order) :
    ledger.gather limit [] entries
      = .ok (((Quantity.tally (entries.map ledger.quantity)).map Quantity.level).take limit) := by
  cases entries with
  | nil => simp [gather, Quantity.tally]
  | cons entry rest =>
    obtain ⟨order, found⟩ := records entry List.mem_cons_self
    have others := fun other member => records other (List.mem_cons_of_mem _ member)
    rw [gather, find_of_get? found]
    dsimp only
    split
    · rename_i zero
      rw [zero]
      rfl
    · rename_i positive
      rw [gather_cons others (Nat.pos_of_ne_zero positive) (Volume.capped_units _).symm, List.map_cons, Quantity.tally,
        quantity_of_get? found]
      rfl

/-- Where each entry has its record nothing keeps a side from being read, and it shows no price that no entry has. -/
theorem depth_eq {shown : Price → Prop} {side : Side}
    (prices : ∀ entry ∈ ledger.index side.indexKind, shown entry.price)
    (records : ∀ entry ∈ ledger.index side.indexKind, ∃ order, ledger.get? entry.id = some order) (limit : Nat) :
    ∃ levels, ledger.depth side limit = .ok levels ∧ ∀ level ∈ levels, shown level.price := by
  refine ⟨_, gather_eq_take fun entry member => records entry (PriceIndex.mem_walk.mp member), fun level member => ?_⟩
  obtain ⟨quantity, tallied, rfl⟩ := List.mem_map.mp (List.mem_of_mem_take member)
  have listed := Quantity.mem_tally.mp (List.mem_map_of_mem tallied)
  rw [List.map_map] at listed
  obtain ⟨entry, walked, same⟩ := List.mem_map.mp listed
  have priced := prices entry (PriceIndex.mem_walk.mp walked)
  rw [Quantity.level, ← same]
  exact priced

end Ledger
end LimitBook
