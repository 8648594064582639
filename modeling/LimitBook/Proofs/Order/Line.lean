import LimitBook.Order.Line
import LimitBook.Proofs.Fixed.RoundTrip
import LimitBook.Proofs.Text.Fields

/-! Order lines and their grammar: which lines are orders and which order each is, what is wrong with every
other line, and that what is written of an order is read back. -/
namespace LimitBook
open Text

namespace Order

def sided : List (String × (Side → Volume → Price → Order)) :=
  [("market", fun side volume _ => market side volume), ("limit", limit), ("stop", stop)]

inductive Writes : List (List Char) → Order → Prop
  | cancel {ignored amount last : List Char} {target : OrderId} {price : Price}
      (number : Numeral.Writes amount ⟨target.number, target.fits⟩) (priced : Fixed.read last = .ok price) :
      Writes ["cancel".toList, ignored, amount, last] (.cancel target)
  | sided {word : String} {make : Side → Volume → Price → Order} {side : Side} {amount last : List Char}
      {volume : Volume}
      {price : Price} (named : (word, make) ∈ sided) (number : Numeral.Writes amount ⟨volume.units, volume.fits⟩)
      (priced : Fixed.read last = .ok price) :
      Writes [word.toList, side.name.toList, amount, last] (make side volume price)

end Order

inductive LineCheck
  | count
  | price
  | kind
  | side
  | amount

namespace LineCheck

def all : List LineCheck := [count, price, kind, side, amount]

instance (field : List Char) : Decidable (∃ side : Side, field = side.name.toList) :=
  decidable_of_iff (field = Side.buy.name.toList ∨ field = Side.sell.name.toList)
    ⟨by rintro (named | named) <;> exact ⟨_, named⟩, by rintro ⟨_ | _, named⟩ <;> simp [named]⟩

instance (text : List Char) : Decidable (∃ word, Numeral.Writes text word) :=
  decidable_of_iff ((Numeral.readWord? text).isSome = true)
    (by simp [Option.isSome_iff_exists, Numeral.readWord?_eq_some_iff])

def objection (fields : List (List Char)) (check : LineCheck) : Option LineError :=
  match check, fields with
  | count, fields => if fields.length = 4 then none else some (.fieldCount fields.length)
  | price, [_, _, _, last] =>
    match (Fixed.read last : Except NumericError Price) with
    | .ok _ => none
    | .error cause => some (.invalidPrice last cause)
  | kind, [word, _, _, _] =>
    if word = "cancel".toList ∨ word ∈ Order.sided.map (·.1.toList) then none else some (.unknownKind word)
  | side, [word, field, _, _] =>
    if word = "cancel".toList ∨ ∃ side : Side, field = side.name.toList then none else some (.unknownSide field)
  | amount, [word, _, field, _] =>
    if ∃ word, Numeral.Writes field word then none
    else if word = "cancel".toList then some (.invalidOrderId field)
    else some (.invalidVolume field)
  | _, _ => none

def verdict (fields : List (List Char)) : Option LineError := all.findSome? (objection fields)

end LineCheck

section Except
variable {ε α β : Type} {first : Except ε α} {next : α → Except ε β}

private theorem bind_eq_ok_iff {result : β} :
    (first >>= next) = .ok result ↔ ∃ middle, first = .ok middle ∧ next middle = .ok result := by
  cases first with
  | error cause => exact iff_of_false nofun nofun
  | ok middle => exact ⟨fun made => ⟨middle, rfl, made⟩, fun ⟨_, same, made⟩ => Except.ok.inj same ▸ made⟩

private theorem bind_eq_error_iff {cause : ε} :
    (first >>= next) = .error cause ↔ first = .error cause ∨ ∃ middle, first = .ok middle
      ∧ next middle = .error cause := by
  cases first with
  | error other =>
    constructor
    · intro failed
      exact .inl (congrArg Except.error (Except.error.inj failed))
    · rintro (failed | ⟨_, made, -⟩)
      · exact congrArg Except.error (Except.error.inj failed)
      · cases made
  | ok middle =>
    constructor
    · exact fun failed => .inr ⟨middle, rfl, failed⟩
    · rintro (failed | ⟨_, made, failed⟩)
      · cases failed
      · exact Except.ok.inj made ▸ failed

end Except

namespace Order
variable {fields : List (List Char)} {line other field : List Char} {order : Order} {cause : LineError}

private theorem readPrice_eq_ok_iff {price : Price} : readPrice field = .ok price ↔ Fixed.read field = .ok price := by
  unfold readPrice
  split
  case h_1 found => rw [found, Except.ok.injEq, Except.ok.injEq]
  case h_2 found =>
    rw [found]
    exact iff_of_false nofun nofun

private theorem readSide_eq_ok_iff {side : Side} : readSide field = .ok side ↔ field = side.name.toList := by
  unfold readSide
  split
  case isTrue buy => cases side <;> simp [buy, Side.name]
  case isFalse other =>
    split
    case isTrue sell => cases side <;> simp [sell, Side.name]
    case isFalse => cases side <;> simp_all [Side.name]

def readWord {α : Type} (make : Word → α) (otherwise : LineError) (field : List Char) : Except LineError α :=
  match Numeral.readWord? field with
  | some word => .ok (make word)
  | none => .error otherwise

section Word
variable {α : Type} {make : Word → α} {otherwise : LineError}

private theorem readWord_eq_ok_iff {value : α} :
    readWord make otherwise field = .ok value ↔ ∃ word, Numeral.Writes field word ∧ make word = value := by
  simp only [← Numeral.readWord?_eq_some_iff, readWord]
  cases Numeral.readWord? field with
  | none => exact iff_of_false nofun fun ⟨_, read, _⟩ => nomatch read
  | some word => simp

private theorem readWord_eq_error (failed : readWord make otherwise field = .error cause) :
    (¬ ∃ word, Numeral.Writes field word) ∧ cause = otherwise := by
  refine ⟨?_, ?_⟩
  · rintro ⟨word, written⟩
    rw [readWord_eq_ok_iff.mpr ⟨word, written, rfl⟩] at failed
    cases failed
  · unfold readWord at failed
    split at failed
    · cases failed
    · exact (Except.error.inj failed).symm

end Word

private theorem readVolume_eq_readWord : readVolume field = readWord .ofWord (.invalidVolume field) field := rfl

private theorem readTarget_eq_readWord : readTarget field = readWord .ofWord (.invalidOrderId field) field := rfl

private theorem readVolume_eq_ok_iff {volume : Volume} :
    readVolume field = .ok volume ↔ Numeral.Writes field ⟨volume.units, volume.fits⟩ := by
  rw [readVolume_eq_readWord, readWord_eq_ok_iff]
  refine ⟨?_, fun written => ⟨_, written, rfl⟩⟩
  rintro ⟨word, written, rfl⟩
  exact written

private theorem readTarget_eq_ok_iff {target : OrderId} :
    readTarget field = .ok target ↔ Numeral.Writes field ⟨target.number, target.fits⟩ := by
  rw [readTarget_eq_readWord, readWord_eq_ok_iff]
  refine ⟨?_, fun written => ⟨_, written, rfl⟩⟩
  rintro ⟨word, written, rfl⟩
  exact written

private theorem readPrice_eq_error (failed : readPrice field = .error cause) :
    ∃ numeric, (Fixed.read field : Except NumericError Price) = .error numeric
      ∧ cause = .invalidPrice field numeric := by
  unfold readPrice at failed
  split at failed
  case h_1 => cases failed
  case h_2 numeric found => exact ⟨numeric, found, (Except.error.inj failed).symm⟩

private theorem readSide_eq_error (failed : readSide field = .error cause) :
    (¬ ∃ side : Side, field = side.name.toList) ∧ cause = .unknownSide field := by
  have unknown : ¬ ∃ side : Side, field = side.name.toList := by
    rintro ⟨side, named⟩
    rw [readSide_eq_ok_iff.mpr named] at failed
    cases failed
  unfold readSide at failed
  split at failed
  · cases failed
  · split at failed
    · cases failed
    · exact ⟨unknown, (Except.error.inj failed).symm⟩

def sided? (kind : List Char) : Option (Side → Volume → Price → Order) :=
  (sided.find? fun entry => kind = entry.1.toList).map (·.2)

private theorem mem_sided_of_sided? {kind : List Char} {make : Side → Volume → Price → Order}
    (found : sided? kind = some make) :
    ∃ word, (word, make) ∈ sided ∧ kind = word.toList := by
  obtain ⟨⟨word, other⟩, first, rfl⟩ := Option.map_eq_some_iff.mp found
  exact ⟨word, List.mem_of_find?_eq_some first, by simpa using List.find?_some first⟩

private theorem ofFields_four (kind side amount last : List Char) : ofFields [kind, side, amount, last] =
    (readPrice last >>= fun price =>
      if kind = "cancel".toList then readTarget amount >>= fun target => .ok (cancel target)
      else
        match sided? kind with
        | some make => readSide side >>= fun side => readVolume amount >>= fun volume => .ok (make side volume price)
        | none => .error (.unknownKind kind)) := by
  show (readPrice last >>= fun price => _) = _
  congr 1
  funext price
  by_cases market : kind = "market".toList
  · subst market
    rfl
  by_cases limit : kind = "limit".toList
  · subst limit
    rfl
  by_cases stop : kind = "stop".toList
  · subst stop
    rfl
  have none : sided? kind = none := by
    simpa [sided?, sided] using ⟨market, limit, stop⟩
  rw [none]
  exact if_congr Iff.rfl rfl ((if_neg market).trans ((if_neg limit).trans (if_neg stop)))

private theorem ofFields_eq_fieldCount (different : fields.length ≠ 4) :
    ofFields fields = .error (.fieldCount fields.length) := by
  unfold ofFields
  split
  · exact absurd rfl different
  · rfl

private theorem four_fields (four : fields.length = 4) :
    ∃ kind side amount last, fields = [kind, side, amount, last] := by
  obtain ⟨kind, others, rfl⟩ := List.exists_cons_of_length_eq_add_one four
  obtain ⟨side, others, rfl⟩ := List.exists_cons_of_length_eq_add_one (Nat.succ.inj four)
  obtain ⟨amount, others, rfl⟩ := List.exists_cons_of_length_eq_add_one (Nat.succ.inj (Nat.succ.inj four))
  obtain ⟨last, rfl⟩ := List.length_eq_one_iff.mp (Nat.succ.inj (Nat.succ.inj (Nat.succ.inj four)))
  exact ⟨kind, side, amount, last, rfl⟩

private theorem sided?_word {word : String} {make : Side → Volume → Price → Order} (named : (word, make) ∈ sided) :
    word.toList ≠ "cancel".toList ∧ sided? word.toList = some make := by
  simp only [sided, List.mem_cons, List.not_mem_nil, or_false, Prod.mk.injEq] at named
  obtain ⟨rfl, rfl⟩ | ⟨rfl, rfl⟩ | ⟨rfl, rfl⟩ := named <;> exact ⟨by decide, rfl⟩

private theorem sided?_eq_none {kind : List Char} (missing : sided? kind = none) : kind ∉ sided.map (·.1.toList) := by
  intro member
  obtain ⟨⟨word, make⟩, named, rfl⟩ := List.mem_map.mp member
  rw [(sided?_word named).2] at missing
  cases missing

private theorem ofFields_of_writes (written : Writes fields order) : ofFields fields = .ok order := by
  cases written with
  | cancel number priced =>
    rw [ofFields_four, readPrice_eq_ok_iff.mpr priced, readTarget_eq_ok_iff.mpr number]
    rfl
  | @sided _ make _ _ _ _ _ named number priced =>
    obtain ⟨other, found⟩ := sided?_word named
    rw [ofFields_four, bind_eq_ok_iff]
    refine ⟨_, readPrice_eq_ok_iff.mpr priced, ?_⟩
    rw [if_neg other, found, readSide_eq_ok_iff.mpr rfl, readVolume_eq_ok_iff.mpr number]
    rfl

private theorem writes_of_ofFields (read : ofFields fields = .ok order) : Writes fields order := by
  by_cases four : fields.length = 4
  case neg =>
    rw [ofFields_eq_fieldCount four] at read
    cases read
  obtain ⟨kind, side, amount, last, rfl⟩ := four_fields four
  rw [ofFields_four, bind_eq_ok_iff] at read
  obtain ⟨price, priced, read⟩ := read
  rw [readPrice_eq_ok_iff] at priced
  split at read
  case isTrue cancelling =>
    obtain ⟨target, number, made⟩ := bind_eq_ok_iff.mp read
    cases made
    exact cancelling ▸ .cancel (readTarget_eq_ok_iff.mp number) priced
  case isFalse other =>
    split at read
    case h_2 => cases read
    case h_1 make found =>
      obtain ⟨side, named, read⟩ := bind_eq_ok_iff.mp read
      obtain ⟨volume, number, made⟩ := bind_eq_ok_iff.mp read
      obtain ⟨word, member, rfl⟩ := mem_sided_of_sided? found
      cases made
      cases readSide_eq_ok_iff.mp named
      exact .sided member (readVolume_eq_ok_iff.mp number) priced

theorem ofFields_eq_ok_iff : ofFields fields = .ok order ↔ Writes fields order :=
  ⟨writes_of_ofFields, ofFields_of_writes⟩

private theorem verdict_four (kind side amount last : List Char) : LineCheck.verdict [kind, side, amount, last] =
    (LineCheck.objection [kind, side, amount, last] .price
      <|> LineCheck.objection [kind, side, amount, last] .kind
      <|> LineCheck.objection [kind, side, amount, last] .side
      <|> LineCheck.objection [kind, side, amount, last] .amount) := by
  have counted : LineCheck.objection [kind, side, amount, last] .count = none := rfl
  simp only [LineCheck.verdict, LineCheck.all, List.findSome?_cons, counted]
  cases LineCheck.objection [kind, side, amount, last] .price <;>
    cases LineCheck.objection [kind, side, amount, last] .kind <;>
    cases LineCheck.objection [kind, side, amount, last] .side <;>
    cases LineCheck.objection [kind, side, amount, last] .amount <;> rfl

private theorem verdict_of_writes (written : Writes fields order) : LineCheck.verdict fields = none := by
  cases written with
  | cancel number priced =>
    rw [verdict_four]
    simp only [LineCheck.objection, priced, true_or, if_true, if_pos (Exists.intro _ number)]
    rfl
  | @sided word make side _ _ _ _ named number priced =>
    have known : word.toList ∈ Order.sided.map (·.1.toList) := List.mem_map_of_mem named
    have sided : ∃ other : Side, side.name.toList = other.name.toList := ⟨side, rfl⟩
    rw [verdict_four]
    simp only [LineCheck.objection, priced, known, sided, or_true, if_true, if_pos (Exists.intro _ number)]
    rfl

private theorem verdict_of_ofFields (failed : ofFields fields = .error cause) :
    LineCheck.verdict fields = some cause := by
  by_cases four : fields.length = 4
  case neg =>
    rw [ofFields_eq_fieldCount four] at failed
    cases failed
    simp only [LineCheck.verdict, LineCheck.all, List.findSome?_cons, LineCheck.objection, if_neg four]
  obtain ⟨kind, side, amount, last, rfl⟩ := four_fields four
  rw [ofFields_four, bind_eq_error_iff] at failed
  rw [verdict_four]
  obtain failed | ⟨price, priced, failed⟩ := failed
  · obtain ⟨numeric, unread, rfl⟩ := readPrice_eq_error failed
    simp only [LineCheck.objection, unread]
    rfl
  rw [readPrice_eq_ok_iff] at priced
  split at failed
  case isTrue cancelling =>
    obtain failed | ⟨target, -, made⟩ := bind_eq_error_iff.mp failed
    case inr => cases made
    obtain ⟨unwritten, rfl⟩ := readWord_eq_error failed
    simp only [LineCheck.objection, priced, cancelling, true_or, if_true, if_neg unwritten]
    rfl
  case isFalse other =>
    split at failed
    case h_2 missing =>
      cases failed
      simp only [LineCheck.objection, priced, other, sided?_eq_none missing, or_self, if_false]
      rfl
    case h_1 make found =>
      obtain ⟨word, member, rfl⟩ := mem_sided_of_sided? found
      have known : word.toList ∈ Order.sided.map (·.1.toList) := List.mem_map_of_mem member
      obtain failed | ⟨found, named, failed⟩ := bind_eq_error_iff.mp failed
      · obtain ⟨unnamed, rfl⟩ := readSide_eq_error failed
        simp only [LineCheck.objection, priced, other, known, unnamed, or_true, or_self, if_true, if_false]
        rfl
      · obtain failed | ⟨volume, -, made⟩ := bind_eq_error_iff.mp failed
        case inr => cases made
        obtain ⟨unwritten, rfl⟩ := readWord_eq_error failed
        have sided : ∃ other : Side, side = other.name.toList := ⟨found, readSide_eq_ok_iff.mp named⟩
        simp only [LineCheck.objection, priced, known, sided, other, or_true, if_true, if_false, if_neg unwritten]
        rfl

theorem ofFields_eq_error_iff : ofFields fields = .error cause ↔ LineCheck.verdict fields = some cause := by
  constructor
  · exact verdict_of_ofFields
  · intro against
    cases read : ofFields fields with
    | ok order =>
      rw [verdict_of_writes (writes_of_ofFields read)] at against
      cases against
    | error other =>
      rw [verdict_of_ofFields read, Option.some.injEq] at against
      rw [against]

theorem ofLine_eq_ok_iff : ofLine line = .ok order ↔ ∃ fields, Spaced fields line ∧ Writes fields order := by
  simp only [ofLine, ofFields_eq_ok_iff, ← fields_eq_iff, exists_eq_left']

theorem ofLine_eq_error_iff :
    ofLine line = .error cause ↔ ∃ fields, Spaced fields line ∧ LineCheck.verdict fields = some cause := by
  simp only [ofLine, ofFields_eq_error_iff, ← fields_eq_iff, exists_eq_left']

def Solid (word : String) : Prop := word.toList ≠ [] ∧ word.toList.all (fun character => !isBlank character) = true

private theorem solid_number (number : Nat) : Solid (toString number) := by
  rw [Solid, Numeral.toList_toString_natCast]
  exact ⟨Nat.toDigits_ne_nil, solid_of_all_isDigit (Numeral.all_isDigit_toDigits number)⟩

private theorem solid_price (price : Price) : Solid price.text := by
  rw [Solid, Fixed.text, String.toList_ofList, Fixed.characters_eq]
  exact ⟨Fixed.signedText_ne_nil _ _ _, Fixed.solid_signedText _ _ _⟩

private theorem solid_side (side : Side) : Solid side.name := by cases side <;> exact ⟨by decide, by decide⟩

/-- Four words with a blank between each two are read as the order that they write. -/
theorem ofLine_words {kind side amount last : String} {order : Order}
    (solid : ∀ word ∈ [kind, side, amount, last], Solid word)
    (written : Writes [kind.toList, side.toList, amount.toList, last.toList] order) :
    ofLine (" ".intercalate [kind, side, amount, last]).toList = .ok order := by
  have spaced : Spaced ([kind, side, amount, last].map String.toList)
      ([' '].intercalate ([kind, side, amount, last].map String.toList)) :=
    spaced_intercalate (List.forall_mem_map.mpr solid)
  refine ofLine_eq_ok_iff.mpr ⟨_, ?_, written⟩
  rw [String.toList_intercalate]
  exact spaced

private theorem ofLine_sided {word : String} {make : Side → Volume → Price → Order}
    (named : (word, make) ∈ sided) (side : Side) (volume : Volume) (price : Price) :
    ofLine (" ".intercalate [word, side.name, volume.text, price.text]).toList = .ok (make side volume price) := by
  have number : Numeral.Writes volume.text.toList ⟨volume.units, volume.fits⟩ :=
    Numeral.writes_toString ⟨volume.units, volume.fits⟩
  have priced : Fixed.read price.text.toList = .ok price := Fixed.read_text price (by decide)
  have counted : Solid volume.text := solid_number volume.units
  have solid : Solid word := by
    simp only [sided, List.mem_cons, List.not_mem_nil, or_false, Prod.mk.injEq] at named
    obtain ⟨rfl, -⟩ | ⟨rfl, -⟩ | ⟨rfl, -⟩ := named <;> exact ⟨by decide, by decide⟩
  refine ofLine_words ?_ (.sided named number priced)
  simp only [List.forall_mem_cons]
  exact ⟨solid, solid_side side, counted, solid_price price, List.forall_mem_nil _⟩

private theorem ofLine_cancel (side : Side) (target : OrderId) (price : Price) :
    ofLine (" ".intercalate ["cancel", side.name, target.text, price.text]).toList = .ok (cancel target) := by
  have number : Numeral.Writes target.text.toList ⟨target.number, target.fits⟩ :=
    Numeral.writes_toString ⟨target.number, target.fits⟩
  have priced : Fixed.read price.text.toList = .ok price := Fixed.read_text price (by decide)
  have counted : Solid target.text := solid_number target.number
  refine ofLine_words ?_ (.cancel number priced)
  simp only [List.forall_mem_cons]
  exact ⟨⟨by decide, by decide⟩, solid_side side, counted, solid_price price, List.forall_mem_nil _⟩

/-- A line is the order that its fields write, and else has the error of the first check that its fields fail;
its blanks do not matter. An order written from its values is read with these values. -/
theorem lines_read_by_grammar :
    (∀ line order, ofLine line = .ok order ↔ ∃ fields, Spaced fields line ∧ Writes fields order)
    ∧ (∀ line cause, ofLine line = .error cause ↔ ∃ fields, Spaced fields line ∧ LineCheck.verdict fields = some cause)
    ∧ (∀ fields one other, Spaced fields one → Spaced fields other → ofLine one = ofLine other)
    ∧ (∀ before blanks after : List Char, blanks.all isBlank = true → Apart before after →
      ofLine (before ++ (blanks ++ after)) = ofLine (before ++ after))
    ∧ ∀ (side : Side) (volume : Volume) (price : Price) (target : OrderId),
      ofLine (" ".intercalate ["market", side.name, volume.text, price.text]).toList = .ok (market side volume)
      ∧ ofLine (" ".intercalate ["limit", side.name, volume.text, price.text]).toList = .ok (limit side volume price)
      ∧ ofLine (" ".intercalate ["stop", side.name, volume.text, price.text]).toList = .ok (stop side volume price)
      ∧ ofLine (" ".intercalate ["cancel", side.name, target.text, price.text]).toList = .ok (cancel target) := by
  refine ⟨fun _ _ => ofLine_eq_ok_iff, fun _ _ => ofLine_eq_error_iff, ?_, ?_, ?_⟩
  · intro fields one other first second
    rw [ofLine, ofLine, fields_eq_iff.mpr first, fields_eq_iff.mpr second]
  · intro before blanks after blank apart
    rw [ofLine, fields_widened blank apart, ofLine]
  · intro side volume price target
    have unpriced : ("market", fun side volume _ => market side volume) ∈ sided := by simp [sided]
    have bounded : ("limit", limit) ∈ sided := by simp [sided]
    have waiting : ("stop", stop) ∈ sided := by simp [sided]
    exact ⟨ofLine_sided unpriced side volume price, ofLine_sided bounded side volume price,
      ofLine_sided waiting side volume price, ofLine_cancel side target price⟩

/-- A stop order at the least price there is, with blanks of three kinds around and between its fields. -/
theorem lines_read_by_grammar_stop :
    ['\t', '\u2003', '\u0085'].all isBlank = true
    ∧ Apart "stop ".toList "sell +007 -92233720368547758.08".toList
    ∧ ofLine ("stop ".toList ++ (['\t', '\u2003', '\u0085'] ++ "sell +007 -92233720368547758.08".toList))
      = .ok (stop .sell ⟨7, by decide⟩ ⟨-0x8000_0000_0000_0000, by decide, by decide⟩) := by
  have blank : ['\t', '\u2003', '\u0085'].all isBlank = true := by decide
  have apart : Apart "stop ".toList "sell +007 -92233720368547758.08".toList := .inl (by decide)
  refine ⟨blank, apart, (lines_read_by_grammar.2.2.2.1 _ _ _ blank apart).trans ?_⟩
  decide +kernel

end Order
end LimitBook
