import LimitBook.Proofs.Text.Numeral

/-! Lines as fields between blanks. A line has one list of fields, and blanks that are put in beside others or
at its ends leave it as it is. -/
namespace LimitBook.Text

inductive Spaced : List (List Char) → List Char → Prop
  | none {blanks : List Char} (blank : blanks.all isBlank = true) : Spaced [] blanks
  | field {blanks field rest : List Char} {fields : List (List Char)} (blank : blanks.all isBlank = true)
      (filled : field ≠ [])
      (solid : field.all (fun character => !isBlank character) = true) (ended : rest.head?.all isBlank = true)
      (spaced : Spaced fields rest) : Spaced (field :: fields) (blanks ++ (field ++ rest))

def Apart (before after : List Char) : Prop := before.getLast?.all isBlank = true ∨ after.head?.all isBlank = true

variable {before after blanks field line other rest : List Char} {list more : List (List Char)}

private theorem fields_blanks (blank : blanks.all isBlank = true) (rest : List Char) :
    fields (blanks ++ rest) = fields rest := by
  induction blanks with
  | nil => rfl
  | cons first others ih =>
    rw [List.all_cons, Bool.and_eq_true] at blank
    rw [List.cons_append, fields, if_pos blank.1, ih blank.2]

private theorem fields_field (filled : field ≠ []) (solid : field.all (fun character => !isBlank character) = true)
    (ended : rest.head?.all isBlank = true) : fields (field ++ rest) = field :: fields rest := by
  obtain ⟨first, others, rfl⟩ := List.exists_cons_of_ne_nil filled
  rw [List.all_cons, Bool.and_eq_true, Bool.not_eq_true'] at solid
  have visible : rest.head?.all (fun next => !!isBlank next) = true := by simpa using ended
  obtain ⟨taken, dropped⟩ := span_run solid.2 visible
  rw [List.cons_append, fields, if_neg (by simp [solid.1]), taken, dropped]

/-- The blanks before a field belong to the line as much as the field does. -/
theorem Spaced.indent (blank : blanks.all isBlank = true) (spaced : Spaced list line) :
    Spaced list (blanks ++ line) := by
  cases spaced with
  | none rest => exact .none (by rw [List.all_append, blank, rest]; rfl)
  | field leading filled solid ended spaced =>
    rw [← List.append_assoc]
    exact .field (by rw [List.all_append, blank, leading]; rfl) filled solid ended spaced

private theorem spaced_fields (line : List Char) : Spaced (fields line) line := by
  fun_induction fields line with
  | case1 => exact .none rfl
  | case2 first rest blank ih =>
    have single : [first].all isBlank = true := by simpa using blank
    exact ih.indent single
  | case3 first rest visible ih =>
    have solid : (first :: rest.takeWhile fun next => !isBlank next).all (fun character => !isBlank character)
        = true := by
      rw [List.all_cons, List.all_takeWhile]
      simpa using visible
    have ended : (rest.dropWhile fun next => !isBlank next).head?.all isBlank = true := by
      have leading := List.head?_dropWhile_not (fun next => !isBlank next) rest
      split at leading
      case h_1 found => simpa [found] using leading
      case h_2 found => simp [found]
    have spaced : Spaced _
        ([] ++ ((first :: rest.takeWhile fun next => !isBlank next) ++ rest.dropWhile fun next => !isBlank next)) :=
      .field rfl (List.cons_ne_nil _ _) solid ended ih
    rwa [List.nil_append, List.cons_append, List.takeWhile_append_dropWhile] at spaced

theorem fields_eq_iff : fields line = list ↔ Spaced list line := by
  constructor
  · rintro rfl
    exact spaced_fields line
  · intro spaced
    induction spaced with
    | none blank => simpa [fields] using fields_blanks blank []
    | field blank filled solid ended _ ih => rw [fields_blanks blank, fields_field filled solid ended, ih]

private theorem Spaced.append (first : Spaced list before) (second : Spaced more after) (apart : Apart before after) :
    Spaced (list ++ more) (before ++ after) := by
  induction first with
  | none blank => exact second.indent blank
  | @field _ field rest _ blank filled solid ended _ ih =>
    rw [List.append_assoc, List.append_assoc, List.cons_append]
    cases rest with
    | nil =>
      -- The field ends the first text, so it is the second one that has the blank.
      have led : after.head?.all isBlank = true := by
        refine apart.resolve_left fun last => ?_
        obtain ⟨initial, final, rfl⟩ := (List.eq_nil_or_concat field).resolve_left filled
        simp_all
      exact .field blank filled solid led (ih (.inl rfl))
    | cons next later => exact .field blank filled solid ended (ih (by simpa [Apart, List.getLast?_cons] using apart))

private theorem fields_append (apart : Apart before after) : fields (before ++ after) = fields before ++ fields after :=
  fields_eq_iff.mpr ((spaced_fields before).append (spaced_fields after) apart)

/-- Blanks where two texts are apart already change none of the fields. -/
theorem fields_widened (blank : blanks.all isBlank = true) (apart : Apart before after) :
    fields (before ++ (blanks ++ after)) = fields (before ++ after) := by
  have led : Apart before (blanks ++ after) := by
    cases blanks with
    | nil => exact apart
    | cons first others =>
      rw [List.all_cons, Bool.and_eq_true] at blank
      exact .inr blank.1
  rw [fields_append led, fields_append apart, fields_blanks blank]

/-- Words with a blank between each two are the fields of the line. -/
theorem spaced_intercalate (solid : ∀ word ∈ list, word ≠ [] ∧ word.all (fun character => !isBlank character) = true) :
    Spaced list ([' '].intercalate list) := by
  induction list with
  | nil => exact .none rfl
  | cons word others ih =>
    obtain ⟨filled, visible⟩ := solid word List.mem_cons_self
    have later := ih fun other member => solid other (List.mem_cons_of_mem _ member)
    cases others with
    | nil =>
      have alone : Spaced [word] ([] ++ (word ++ [])) := .field rfl filled visible rfl (.none rfl)
      simpa using alone
    | cons next rest =>
      have parted : Spaced (word :: next :: rest) ([] ++ (word ++ ([' '] ++ [' '].intercalate (next :: rest)))) :=
        .field rfl filled visible rfl (later.indent rfl)
      simpa [List.intercalate] using parted

end LimitBook.Text
