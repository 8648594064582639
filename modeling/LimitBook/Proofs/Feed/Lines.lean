import LimitBook.Feed

/-! The lines of a stream of bytes. They keep every byte, and lines that are left out do not change where the
others begin and end. -/
namespace LimitBook.Feed

inductive Framed : List (List UInt8) → Prop
  | nil : Framed []
  | unended (line : List UInt8) (filled : line ≠ []) (inside : 10 ∉ line) : Framed [line]
  | ended (line : List UInt8) (inside : 10 ∉ line) {rest : List (List UInt8)} (framed : Framed rest) :
      Framed ((line ++ [10]) :: rest)

variable {byte : UInt8} {lines kept : List (List UInt8)}

private theorem lines_cons (byte : UInt8) (bytes : List UInt8) :
    Feed.lines (byte :: bytes) = prepend byte (Feed.lines bytes) :=
  rfl

private theorem prepend_feed : prepend 10 lines = [10] :: lines := rfl

private theorem prepend_nil (other : byte ≠ 10) : prepend byte [] = [[byte]] := by
  rw [prepend, if_neg other]

private theorem prepend_cons (other : byte ≠ 10) (first : List UInt8) :
    prepend byte (first :: lines) = (byte :: first) :: lines := by
  rw [prepend, if_neg other]

private theorem flatten_prepend : (prepend byte lines).flatten = byte :: lines.flatten := by
  unfold prepend
  split
  · rename_i feed
    subst feed
    rfl
  · cases lines <;> rfl

theorem flatten_lines (bytes : List UInt8) : (Feed.lines bytes).flatten = bytes := by
  induction bytes with
  | nil => rfl
  | cons byte rest ih => rw [lines_cons, flatten_prepend, ih]

private theorem Framed.prepend (framed : Framed lines) (byte : UInt8) : Framed (prepend byte lines) := by
  by_cases feed : byte = 10
  · subst feed
    exact .ended [] List.not_mem_nil framed
  have outside : ∀ {line : List UInt8}, 10 ∉ line → 10 ∉ byte :: line := fun inside member =>
    (List.mem_cons.mp member).elim (fun same => feed same.symm) inside
  cases framed with
  | nil =>
    rw [prepend_nil feed]
    exact .unended [byte] (List.cons_ne_nil _ _) (outside List.not_mem_nil)
  | unended line filled inside =>
    rw [prepend_cons feed]
    exact .unended (byte :: line) (List.cons_ne_nil _ _) (outside inside)
  | ended line inside framed =>
    rw [prepend_cons feed]
    exact .ended (byte :: line) (outside inside) framed

theorem framed_lines (bytes : List UInt8) : Framed (Feed.lines bytes) := by
  induction bytes with
  | nil => exact .nil
  | cons byte rest ih => exact ih.prepend byte

private theorem lines_append_ended {line : List UInt8} (inside : 10 ∉ line) (bytes : List UInt8) :
    Feed.lines (line ++ 10 :: bytes) = (line ++ [10]) :: Feed.lines bytes := by
  induction line with
  | nil => exact prepend_feed
  | cons byte rest ih =>
    have other := List.ne_of_not_mem_cons inside
    have later := List.not_mem_of_not_mem_cons inside
    rw [List.cons_append, lines_cons, ih later, prepend_cons (Ne.symm other)]
    rfl

private theorem lines_open {line : List UInt8} (filled : line ≠ []) (inside : 10 ∉ line) :
    Feed.lines line = [line] := by
  induction line with
  | nil => exact absurd rfl filled
  | cons byte rest ih =>
    have other := List.ne_of_not_mem_cons inside
    have later := List.not_mem_of_not_mem_cons inside
    cases rest with
    | nil => exact prepend_nil (Ne.symm other)
    | cons next more => rw [lines_cons, ih (List.cons_ne_nil _ _) later, prepend_cons (Ne.symm other)]

/-- Lines that can follow one another are read again as they are. -/
theorem Framed.lines_flatten (framed : Framed lines) : Feed.lines lines.flatten = lines := by
  induction framed with
  | nil => rfl
  | unended line filled inside => rw [List.flatten_singleton, lines_open filled inside]
  | ended line inside framed ih =>
    rw [List.flatten_cons, List.append_assoc, List.singleton_append, lines_append_ended inside, ih]

theorem Framed.sublist (framed : Framed lines) (within : kept.Sublist lines) : Framed kept := by
  induction within with
  | slnil => exact .nil
  | cons _ _ ih =>
    cases framed with
    | unended => exact ih .nil
    | ended _ _ framed => exact ih framed
  | cons_cons _ within ih =>
    cases framed with
    | unended _ filled inside =>
      obtain rfl := List.sublist_nil.mp within
      exact .unended _ filled inside
    | ended line inside framed => exact .ended line inside (ih framed)

end LimitBook.Feed
