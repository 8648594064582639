import LimitBook.Json.Reader
import LimitBook.Proofs.Json.Lexing

/-! Printed values read back. The tokens of what is printed take the reader from awaiting a value to having it,
whatever is open around it. -/
namespace LimitBook.Json

inductive Exact : Json → Prop
  | null : Exact null
  | bool (value : Bool) : Exact (bool value)
  | whole (value : Int) : Exact (whole value)
  | string (text : Option (List Char)) : Exact (string text)
  | array {items : List Json} (exact : ∀ item ∈ items, Exact item) : Exact (array items)
  | object {fields : List (Option (List Char) × Json)} (exact : ∀ field ∈ fields, Exact field.2) : Exact (object fields)

def Ended (rest : List Char) : Prop := rest.head?.all (fun next => (punctuation? next).isSome) = true

def Ready (awaited : Awaited) : Prop := awaited = .value ∨ awaited = .itemOrEnd

def Spells (list : List Token) (json : Json) : Prop :=
  ∀ awaited, Ready awaited → ∀ (frames : List Frame) (more : List Token),
    (list ++ more).foldlM Progress.take ⟨frames, awaited⟩ = more.foldlM Progress.take ⟨frames, .separator json⟩

def Legible (json : Json) : Prop :=
  ∃ list, Spells list json ∧ ∀ rest, Ended rest → tokens (json.print ++ rest) = (tokens rest).map (list ++ ·)

variable {json : Json} {character : Char} {token : Token} {rest : List Char}

private theorem ended_cons (punctuation : punctuation? character = some token) : Ended (character :: rest) := by
  rw [Ended, List.head?_cons, Option.all_some, punctuation]
  rfl

private theorem Ended.not_kind {kind : Char → Bool} (ended : Ended rest)
    (marked : ∀ character, kind character = true → punctuation? character = none) :
    rest.head?.all (fun next => !kind next) = true := by
  cases rest with
  | nil => rfl
  | cons next later =>
    simp only [Ended, List.head?_cons, Option.all_some] at ended ⊢
    cases found : kind next with
    | false => rfl
    | true =>
      rw [marked next found] at ended
      cases ended

private theorem Ended.not_letter (ended : Ended rest) : rest.head?.all (fun next => !next.isAlpha) = true :=
  ended.not_kind fun _ letter => (unmarked (.inl letter)).1

private theorem Ended.not_numeric (ended : Ended rest) : rest.head?.all (fun next => !isNumeralCharacter next) = true :=
  ended.not_kind fun _ numeric => (unmarked (.inr numeric)).1

private theorem spells_scalar (json : Json) : Spells [.scalar json] json := by
  rintro awaited (rfl | rfl) frames more <;> rfl

private theorem legible_scalar
    (lexed : ∀ rest, Ended rest → tokens (json.print ++ rest) = (tokens rest).map (.scalar json :: ·)) :
    Legible json :=
  ⟨[.scalar json], spells_scalar json, lexed⟩

/-- Some items and the end of their array, as tokens that complete an array which is open. -/
theorem legible_items {items : List Json} (filled : items ≠ []) (legible : ∀ item ∈ items, Legible item) :
    ∃ list, (∀ rest, tokens (printItems items ++ ']' :: rest) = (tokens rest).map (list ++ ·))
      ∧ ∀ awaited, Ready awaited → ∀ (done : List Json) (frames : List Frame) (more : List Token),
        (list ++ more).foldlM Progress.take ⟨.items done :: frames, awaited⟩
          = more.foldlM Progress.take ⟨frames, .separator (array (done.reverse ++ items))⟩ := by
  have closing : punctuation? ']' = some .closeArray := rfl
  have comma : punctuation? ',' = some .comma := rfl
  induction items with
  | nil => exact absurd rfl filled
  | cons item others ih =>
    obtain ⟨list, spells, lexed⟩ := legible item List.mem_cons_self
    cases others with
    | nil =>
      refine ⟨list ++ [.closeArray], fun rest => ?_, fun awaited ready done frames more => ?_⟩
      · rw [printItems, lexed _ (ended_cons closing), tokens_punctuation closing, Option.map_map]
        simp [Function.comp_def]
      · rw [List.append_assoc, spells awaited ready]
        simp [Progress.take, Progress.takeSeparator]
    | cons next later =>
      have remaining := fun other member => legible other (List.mem_cons_of_mem _ member)
      obtain ⟨following, after, built⟩ := ih (List.cons_ne_nil _ _) remaining
      refine ⟨list ++ .comma :: following, fun rest => ?_, fun awaited ready done frames more => ?_⟩
      · rw [printItems, List.append_assoc, List.cons_append, lexed _ (ended_cons comma),
          tokens_punctuation comma, after, Option.map_map, Option.map_map]
        · simp [Function.comp_def]
        · exact fun same => List.cons_ne_nil _ _ same
      · have second := built .value (.inl rfl) (item :: done) frames more
        rw [List.append_assoc, spells awaited ready]
        simpa [Progress.take, Progress.takeSeparator] using second

/-- Some fields and the end of their object, as tokens that complete an object which is open. -/
theorem legible_fields {fields : List (Option (List Char) × Json)} (filled : fields ≠ [])
    (legible : ∀ field ∈ fields, Legible field.2) :
    ∃ list, (∀ rest, tokens (printFields fields ++ '\x7d' :: rest) = (tokens rest).map (list ++ ·))
      ∧ ∀ awaited, awaited = .name ∨ awaited = .nameOrEnd →
        ∀ (done : List (Option (List Char) × Json)) (frames : List Frame) (more : List Token),
          (list ++ more).foldlM Progress.take ⟨.fields done :: frames, awaited⟩
            = more.foldlM Progress.take ⟨frames, .separator (object (done.reverse ++ fields))⟩ := by
  have closing : punctuation? '\x7d' = some .closeObject := rfl
  have comma : punctuation? ',' = some .comma := rfl
  have colon : punctuation? ':' = some .colon := rfl
  induction fields with
  | nil => exact absurd rfl filled
  | cons field others ih =>
    obtain ⟨name, value⟩ := field
    obtain ⟨list, spells, lexed⟩ := legible (name, value) List.mem_cons_self
    -- A field begins alike whether others follow it or not.
    have named : ∀ rest, Ended rest → tokens (printedString name ++ ':' :: (value.print ++ rest))
        = (tokens rest).map fun more => .scalar (string name) :: .colon :: (list ++ more) := by
      intro rest ended
      rw [tokens_string, tokens_punctuation colon, lexed rest ended, Option.map_map, Option.map_map]
      rfl
    have opened : ∀ awaited, awaited = .name ∨ awaited = .nameOrEnd → ∀ done frames more,
        (.scalar (string name) :: .colon :: (list ++ more)).foldlM Progress.take ⟨.fields done :: frames, awaited⟩
          = more.foldlM Progress.take ⟨.field done name :: frames, .separator value⟩ := by
      intro awaited ready done frames more
      rw [← spells .value (.inl rfl)]
      obtain rfl | rfl := ready <;> rfl
    cases others with
    | nil =>
      refine ⟨.scalar (string name) :: .colon :: (list ++ [.closeObject]), fun rest => ?_,
        fun awaited ready done frames more => ?_⟩
      · rw [printFields, List.append_assoc, List.cons_append, named _ (ended_cons closing), tokens_punctuation closing,
          Option.map_map]
        simp [Function.comp_def]
      · rw [List.cons_append, List.cons_append, List.append_assoc, opened awaited ready]
        simp [Progress.take, Progress.takeSeparator]
    | cons next later =>
      have remaining := fun other member => legible other (List.mem_cons_of_mem _ member)
      obtain ⟨following, after, built⟩ := ih (List.cons_ne_nil _ _) remaining
      refine ⟨.scalar (string name) :: .colon :: (list ++ .comma :: following), fun rest => ?_,
        fun awaited ready done frames more => ?_⟩
      · rw [printFields]
        · simp only [List.append_assoc, List.cons_append]
          rw [named _ (ended_cons comma), tokens_punctuation comma, after, Option.map_map, Option.map_map]
          simp [Function.comp_def]
        · exact fun same => List.cons_ne_nil _ _ same
      · have second := built .name (.inl rfl) ((name, value) :: done) frames more
        rw [List.cons_append, List.cons_append, List.append_assoc, opened awaited ready]
        simpa [Progress.take, Progress.takeSeparator] using second

/-- A container is legible where what stands between its ends, with the last of them, is. -/
theorem legible_enclosed {opening closing : Char} {inner : List Char} {list : List Token}
    (punctuation : punctuation? opening = some token) (printed : json.print = opening :: inner ++ [closing])
    (lexed : ∀ rest, tokens (inner ++ closing :: rest) = (tokens rest).map (list ++ ·))
    (spells : Spells (token :: list) json) :
    Legible json := by
  refine ⟨token :: list, spells, fun rest _ => ?_⟩
  have enclosed : json.print ++ rest = opening :: (inner ++ closing :: rest) := by simp [printed]
  rw [enclosed, tokens_punctuation punctuation, lexed, Option.map_map]
  rfl

private theorem legible_array {items : List Json} (legible : ∀ item ∈ items, Legible item) : Legible (array items) := by
  have opening : punctuation? '[' = some .openArray := rfl
  have closing : punctuation? ']' = some .closeArray := rfl
  by_cases empty : items = []
  · subst empty
    have lexed : ∀ rest, tokens (printItems [] ++ ']' :: rest) = (tokens rest).map ([.closeArray] ++ ·) :=
      tokens_punctuation closing
    have spells : Spells [.openArray, .closeArray] (array []) := by rintro awaited (rfl | rfl) frames more <;> rfl
    exact legible_enclosed opening rfl lexed spells
  · obtain ⟨list, lexed, built⟩ := legible_items empty legible
    have spells : Spells (.openArray :: list) (array items) := by
      rintro awaited (rfl | rfl) frames more <;> exact built .itemOrEnd (.inr rfl) [] frames more
    exact legible_enclosed opening rfl lexed spells

private theorem legible_object {fields : List (Option (List Char) × Json)}
    (legible : ∀ field ∈ fields, Legible field.2) :
    Legible (object fields) := by
  have opening : punctuation? '\x7b' = some .openObject := rfl
  have closing : punctuation? '\x7d' = some .closeObject := rfl
  by_cases empty : fields = []
  · subst empty
    have lexed : ∀ rest, tokens (printFields [] ++ '\x7d' :: rest) = (tokens rest).map ([.closeObject] ++ ·) :=
      tokens_punctuation closing
    have spells : Spells [.openObject, .closeObject] (object []) := by rintro awaited (rfl | rfl) frames more <;> rfl
    exact legible_enclosed opening rfl lexed spells
  · obtain ⟨list, lexed, built⟩ := legible_fields empty legible
    have spells : Spells (.openObject :: list) (object fields) := by
      rintro awaited (rfl | rfl) frames more <;> exact built .nameOrEnd (.inr rfl) [] frames more
    exact legible_enclosed opening rfl lexed spells

private theorem Exact.legible (exact : Exact json) : Legible json := by
  induction exact with
  | null => exact legible_scalar fun _ ended => tokens_word rfl ended.not_letter
  | bool value => cases value <;> exact legible_scalar fun _ ended => tokens_word rfl ended.not_letter
  | whole value => exact legible_scalar fun _ ended => tokens_whole value ended.not_numeric
  | string text => exact legible_scalar fun rest _ => tokens_string text rest
  | array _ ih => exact legible_array ih
  | object _ ih => exact legible_object ih

theorem read?_print (exact : Exact json) : read? json.print = some json := by
  obtain ⟨list, spells, lexed⟩ := exact.legible
  have read := lexed [] rfl
  rw [List.append_nil] at read
  rw [read?, read, tokens, Option.map_some, Option.bind_some, ofTokens?]
  rw [spells .value (.inl rfl)]
  rfl

end LimitBook.Json
