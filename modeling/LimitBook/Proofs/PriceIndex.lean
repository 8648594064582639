import LimitBook.Error
import LimitBook.Proofs.SortedSet

/-! Price indexes over any history. An index holds what was put in and not taken out since. A query is a range that ends
at the least or at the greatest entry of a price, and what it lists is said by prices alone. -/
namespace LimitBook

namespace Entry
variable {entry : Entry} {price : Price}

private theorem lt_first_iff : entry < first price ↔ entry.price < price := by
  rw [lt_iff, Fixed.lt_iff_raw]
  change entry.price.raw < price.raw ∨ (entry.price.raw = price.raw ∧ entry.id.number < 0) ↔ _
  omega

private theorem last_lt_iff : last price < entry ↔ price < entry.price := by
  have fits := entry.id.fits
  rw [lt_iff, Fixed.lt_iff_raw]
  change price.raw < entry.price.raw ∨ (price.raw = entry.price.raw ∧ 0xffff_ffff_ffff_ffff < entry.id.number) ↔ _
  omega

private theorem not_lt_first_iff : ¬ entry < first price ↔ price ≤ entry.price := by
  rw [lt_first_iff, Fixed.lt_iff_raw, Fixed.le_iff_raw]
  omega

private theorem not_last_lt_iff : ¬ last price < entry ↔ entry.price ≤ price := by
  rw [last_lt_iff, Fixed.lt_iff_raw, Fixed.le_iff_raw]
  omega

private theorem lt_of_price_lt {left right : Entry} (below : left.price < right.price) : left < right := .inl below

end Entry

namespace PriceIndex
variable {index : PriceIndex} {kind : IndexKind} {entry : Entry} {price : Price} {first second : List Entry}

structure Lists (index : PriceIndex) (condition : Price → Prop) (listed : List Entry) : Prop where
  ascending : listed.Pairwise (· < ·)
  mem_iff : ∀ entry, entry ∈ listed ↔ entry ∈ index ∧ condition entry.price

section Queries
variable {condition low high : Price → Prop}

theorem lists_range {lower upper : Bound Entry}
    (within : ∀ entry, lower.isBelow entry = true ∧ upper.isAbove entry = true ↔ condition entry.price) :
    index.Lists condition (index.range lower upper) where
  ascending := SortedSet.ascending_range index lower upper
  mem_iff entry := by rw [SortedSet.mem_range, within]

theorem lists_all (wantHighest : Bool) : index.Lists (fun _ => True) (index.atOrBetter none wantHighest) :=
  lists_range fun entry => by simp [Bound.isBelow, Bound.isAbove]

theorem lists_atOrAbove : index.Lists (price ≤ ·) (index.atOrBetter (some price) true) :=
  lists_range fun entry => by simp [Bound.isBelow, Bound.isAbove, Entry.not_lt_first_iff]

theorem lists_atOrBelow : index.Lists (· ≤ price) (index.atOrBetter (some price) false) :=
  lists_range fun entry => by simp [Bound.isBelow, Bound.isAbove, Entry.not_last_lt_iff]

theorem lists_below : index.Lists (· < price) (index.below price) :=
  lists_range fun entry => by simp [Bound.isBelow, Bound.isAbove, Entry.lt_first_iff]

theorem lists_above : index.Lists (price < ·) (index.above price) :=
  lists_range fun entry => by simp [Bound.isBelow, Bound.isAbove, Entry.last_lt_iff]

theorem lists_walk : index.Lists (fun _ => True) (index.walk false) where
  ascending := index.ascending
  mem_iff _ := (and_iff_left trivial).symm

private theorem Lists.append (lower : index.Lists low first) (upper : index.Lists high second)
    (apart : ∀ {left right}, low left → high right → left < right) :
    index.Lists (fun price => low price ∨ high price) (first ++ second) where
  ascending := by
    refine List.pairwise_append.mpr ⟨lower.ascending, upper.ascending, ?_⟩
    intro left early right late
    apply Entry.lt_of_price_lt
    exact apart ((lower.mem_iff left).mp early).2 ((upper.mem_iff right).mp late).2
  mem_iff entry := by rw [List.mem_append, lower.mem_iff, upper.mem_iff, and_or_left]

/-- What lists the entries of all prices is the whole walk. -/
theorem Lists.eq_walk (listed : index.Lists condition first) (every : ∀ price, condition price) :
    first = index.walk false := by
  apply listed.ascending.eq_of_mem_iff index.ascending
  intro entry
  rw [listed.mem_iff, and_iff_left (every entry.price)]
  rfl

end Queries

structure Exact (index : PriceIndex) : Prop where
  all : ∀ wantHighest, index.Lists (fun _ => True) (index.atOrBetter none wantHighest)
  atOrAbove : ∀ price, index.Lists (price ≤ ·) (index.atOrBetter (some price) true)
  atOrBelow : ∀ price, index.Lists (· ≤ price) (index.atOrBetter (some price) false)
  below : ∀ price, index.Lists (· < price) (index.below price)
  above : ∀ price, index.Lists (price < ·) (index.above price)
  upward : index.Lists (fun _ => True) (index.walk false)
  downward : index.walk true = (index.walk false).reverse
  below_append : ∀ price, index.below price ++ index.atOrBetter (some price) true = index.walk false
  append_above : ∀ price, index.atOrBetter (some price) false ++ index.above price = index.walk false

private theorem exact (index : PriceIndex) : index.Exact where
  all := lists_all
  atOrAbove _ := lists_atOrAbove
  atOrBelow _ := lists_atOrBelow
  below _ := lists_below
  above _ := lists_above
  upward := lists_walk
  downward := rfl
  below_append price := by
    refine (lists_below.append lists_atOrAbove fun low high => ?_).eq_walk fun other => ?_
    · rw [Fixed.lt_iff_raw, Fixed.le_iff_raw] at *
      omega
    · exact Int.lt_or_le other.raw price.raw
  append_above price := by
    refine (lists_atOrBelow.append lists_above fun low high => ?_).eq_walk fun other => ?_
    · rw [Fixed.lt_iff_raw, Fixed.le_iff_raw] at *
      omega
    · exact (Int.lt_or_le price.raw other.raw).symm

inductive Edit
  | insert (entry : Entry)
  | delete (entry : Entry)
  | clear

def edit (index : PriceIndex) (kind : IndexKind) : Edit → PriceIndex × Option Fault
  | .insert entry => (index.insert entry, none)
  | .delete entry =>
    match index.remove? entry with
    | some rest => (rest, none)
    | none => (index, some (.missingEntry entry kind))
  | .clear => (.empty, none)

def edited (index : PriceIndex) (kind : IndexKind) (edits : List Edit) : PriceIndex :=
  edits.foldl (fun index change => (index.edit kind change).1) index

def Retained (edits : List Edit) (entry : Entry) : Prop :=
  ∃ earlier later, edits = earlier ++ .insert entry :: later ∧ .delete entry ∉ later ∧ .clear ∉ later

section Edits
variable {change : Edit} {edits : List Edit}

private theorem edit_delete_of_mem (member : entry ∈ index) :
    index.edit kind (.delete entry) = (index.erase entry, none) := by
  have listed : entry ∈ index.toList := member
  simp only [edit, remove?, listed, if_true]

private theorem edit_delete_of_not_mem (absent : entry ∉ index) :
    index.edit kind (.delete entry) = (index, some (.missingEntry entry kind)) := by
  have unlisted : entry ∉ index.toList := absent
  simp only [edit, remove?, unlisted, if_false]

theorem mem_edit : entry ∈ (index.edit kind change).1
    ↔ change = .insert entry ∨ entry ∈ index ∧ .delete entry ≠ change ∧ .clear ≠ change := by
  cases change with
  | insert new =>
    change entry ∈ index.insert new ↔ _
    simp [eq_comm]
  | delete struck =>
    by_cases member : struck ∈ index
    · rw [edit_delete_of_mem member]
      simp
    · rw [edit_delete_of_not_mem member]
      have apart : entry ∈ index → entry ≠ struck := fun held same => member (same ▸ held)
      simpa using apart
  | clear =>
    change entry ∈ SortedSet.empty ↔ _
    simp

private theorem fault_of_edit {fault : Fault} : (index.edit kind change).2 = some fault
    ↔ ∃ entry, change = .delete entry ∧ entry ∉ index ∧ fault = .missingEntry entry kind := by
  cases change with
  | insert new => simp [edit]
  | delete struck =>
    by_cases member : struck ∈ index
    · rw [edit_delete_of_mem member]
      simp [member]
    · rw [edit_delete_of_not_mem member]
      simp [member, eq_comm]
  | clear => simp [edit]

private theorem edit_goes_through_or_keeps (index : PriceIndex) (kind : IndexKind) (change : Edit) :
    (index.edit kind change).2 = none ∨ (index.edit kind change).1 = index := by
  cases failed : (index.edit kind change).2 with
  | none => exact .inl rfl
  | some fault =>
    obtain ⟨entry, rfl, absent, -⟩ := fault_of_edit.mp failed
    rw [edit_delete_of_not_mem absent]
    exact .inr rfl

private theorem retained_cons : Retained (change :: edits) entry
    ↔ Retained edits entry ∨ change = .insert entry ∧ .delete entry ∉ edits ∧ .clear ∉ edits := by
  constructor
  · rintro ⟨earlier, later, split, kept⟩
    rcases List.cons_eq_append_iff.mp split with ⟨-, same⟩ | ⟨rest, -, inside⟩
    · obtain ⟨rfl, rfl⟩ := List.cons.inj same
      exact .inr ⟨rfl, kept⟩
    · exact .inl ⟨rest, later, inside, kept⟩
  · rintro (⟨earlier, later, rfl, kept⟩ | ⟨rfl, kept⟩)
    · exact ⟨change :: earlier, later, rfl, kept⟩
    · exact ⟨[], edits, rfl, kept⟩

/-- What an index holds after some edits is what they put in for good, and what it held before and they have
left alone. -/
theorem mem_edited : entry ∈ index.edited kind edits
    ↔ Retained edits entry ∨ entry ∈ index ∧ .delete entry ∉ edits ∧ .clear ∉ edits := by
  induction edits generalizing index with
  | nil => simp [edited, Retained]
  | cons change edits ih =>
    change entry ∈ (index.edit kind change).1.edited kind edits ↔ _
    rw [ih, mem_edit, retained_cons, List.mem_cons, List.mem_cons]
    tauto

private theorem mem_edited_empty : entry ∈ edited .empty kind edits ↔ Retained edits entry := by
  rw [mem_edited]
  simp

end Edits

/-- Whatever has been done to an index, it holds the entries that were put in and not taken out since; deleting
fails, and then changes nothing, exactly for an entry that it does not hold; and its queries list what they say,
ascending, so that the two parts below and above a price make up the whole. -/
theorem exact_after_edits (kind : IndexKind) (edits : List Edit) :
    let index := edited .empty kind edits
    (∀ entry, (entry ∈ index ↔ Retained edits entry) ∧ (index.contains entry = true ↔ Retained edits entry))
    ∧ (∀ change fault, (index.edit kind change).2 = some fault
        ↔ ∃ entry, change = .delete entry ∧ ¬ Retained edits entry ∧ fault = .missingEntry entry kind)
    ∧ (∀ change, (index.edit kind change).2 = none ∨ (index.edit kind change).1 = index)
    ∧ index.Exact := by
  intro index
  have holds : ∀ entry, entry ∈ index ↔ Retained edits entry := fun _ => mem_edited_empty
  refine ⟨fun entry => ⟨holds entry, ?_⟩, fun change fault => ?_, index.edit_goes_through_or_keeps kind, index.exact⟩
  · rw [← holds, SortedSet.contains, decide_eq_true_eq]
    rfl
  · simp only [fault_of_edit, holds]

/-- The entries with the least and the greatest number stand at their price, neither below nor above it. -/
example :
    let price : Price := .ofCents 100
    let index := edited .empty .stops [.insert (.last price), .insert (.first price)]
    index.below price = [] ∧ index.above price = [] ∧ index.atOrBetter (some price) true = [.first price, .last price]
    ∧ index.atOrBetter (some price) false = [.first price, .last price] := by decide

end PriceIndex
end LimitBook
