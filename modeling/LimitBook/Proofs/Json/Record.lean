import LimitBook.Json.Record
import Mathlib.Data.List.Nodup

/-! Records and lists in JSON. A record whose fields have the names that are asked for gives their values, and
fields that say nothing about it do not change what it gives. -/
namespace LimitBook.Json
variable {α β : Type} {name : String} {names : List String} {fields : List (Option (List Char) × Json)}

def given (name : List Char) (fields : List (Option (List Char) × Json)) : Option (Option Json) :=
  match fields.filter (fun field => field.1 = some name) with
  | [] => some none
  | [(_, value)] => some (some value)
  | _ => none

private theorem pick?_eq (names : List String) (fields : List (Option (List Char) × Json)) : pick? names fields =
    if fields.any (fun field => field.1.isNone) then none else names.mapM fun name => given name.toList fields := rfl

private theorem mapM_congr {list : List α} {read other : α → Option β} (same : ∀ item ∈ list, read item = other item) :
    list.mapM read = list.mapM other := by
  induction list with
  | nil => rfl
  | cons item others ih =>
    rw [List.mapM_cons, List.mapM_cons, same item List.mem_cons_self,
      ih fun later member => same later (List.mem_cons_of_mem _ member)]

theorem mapM_eq_some_map {list : List α} {read : α → Option β} {result : α → β}
    (each : ∀ item ∈ list, read item = some (result item)) : list.mapM read = some (list.map result) :=
  (mapM_congr each).trans List.mapM_pure

private theorem given_absent (absent : ∀ field ∈ fields, field.1 ≠ some name.toList) :
    given name.toList fields = some none := by
  have none : fields.filter (fun field => field.1 = some name.toList) = [] :=
    List.filter_eq_nil_iff.mpr fun field member => by simpa using absent field member
  rw [given, none]

/-- A field is found by its name among fields with other names. -/
theorem given_between {before after : List (Option (List Char) × Json)} {value : Json}
    (absent : ∀ field ∈ before ++ after, field.1 ≠ some name.toList) :
    given name.toList (before ++ (some name.toList, value) :: after) = some (some value) := by
  have none : (before ++ after).filter (fun field => field.1 = some name.toList) = [] :=
    List.filter_eq_nil_iff.mpr fun field member => by simpa using absent field member
  rw [List.filter_append, List.append_eq_nil_iff] at none
  rw [given, List.filter_append, List.filter_cons_of_pos (by simp), none.1, none.2]
  rfl

/-- A field with another name does not change what an object gives. -/
theorem given_other {before after : List (Option (List Char) × Json)} {field : Option (List Char) × Json}
    (other : field.1 ≠ some name.toList) :
    given name.toList (before ++ field :: after) = given name.toList (before ++ after) := by
  rw [given, given, List.filter_append, List.filter_append, List.filter_cons_of_neg (by simpa using other)]

private theorem pick?_ofFields {entries : List (String × Json)} (distinct : (entries.map (·.1)).Nodup) :
    pick? (entries.map (·.1)) (entries.map fun (name, value) => (some name.toList, value))
      = some (entries.map fun entry => some entry.2) := by
  have textual : (entries.map fun (name, value) => (some name.toList, value)).any
      (fun field : Option (List Char) × Json => field.1.isNone) = false := by simp
  rw [pick?_eq, if_neg (by rw [textual]; decide), List.mapM_map]
  refine mapM_eq_some_map fun entry member => ?_
  obtain ⟨before, after, rfl⟩ := List.append_of_mem member
  rw [List.map_append, List.map_cons, List.nodup_middle, ← List.map_append, List.nodup_cons] at distinct
  rw [List.map_append, List.map_cons]
  refine given_between fun field among same => ?_
  rw [← List.map_append] at among
  obtain ⟨other, listed, rfl⟩ := List.mem_map.mp among
  exact distinct.1 (List.mem_map.mpr ⟨other, listed, String.toList_injective (Option.some.inj same)⟩)

theorem record?_ofFields {entries : List (String × Json)} (distinct : (entries.map (·.1)).Nodup) :
    (ofFields entries).record? (entries.map (·.1)) = some (entries.map fun entry => some entry.2) :=
  pick?_ofFields distinct

theorem fields?_ofFields {entries : List (String × Json)} (distinct : (entries.map (·.1)).Nodup) :
    (ofFields entries).fields? (entries.map (·.1)) = some (entries.map fun entry => some entry.2) :=
  pick?_ofFields distinct

theorem fields?_single (name : String) (value : Json) : (ofFields [(name, value)]).fields? [name] = some [some value] :=
  fields?_ofFields (List.nodup_singleton name)

theorem fields?_pair {first second : String} (distinct : first ≠ second) (one other : Json) :
    (ofFields [(first, one), (second, other)]).fields? [first, second] = some [some one, some other] :=
  fields?_ofFields (by simpa using distinct)

/-- Whether the fields of one object are those of another and more that say nothing: fields nobody asks for, and
optional ones that are null. -/
inductive Widened (names optional : List String) :
    List (Option (List Char) × Json) → List (Option (List Char) × Json) → Prop
  | same (fields : List (Option (List Char) × Json)) : Widened names optional fields fields
  | unknown {before after narrow : List (Option (List Char) × Json)} {name : List Char} (value : Json)
      (unasked : ∀ asked ∈ names, asked.toList ≠ name) (widened : Widened names optional (before ++ after) narrow) :
      Widened names optional (before ++ (some name, value) :: after) narrow
  | null {before after narrow : List (Option (List Char) × Json)} {name : String} (listed : name ∈ optional)
      (absent : ∀ field ∈ before ++ after, field.1 ≠ some name.toList)
      (widened : Widened names optional (before ++ after) narrow) :
      Widened names optional (before ++ (some name.toList, .null) :: after) narrow

def filled (optional : List String) (name : String) (value : Option Json) : Option Json :=
  if name ∈ optional then some (value.getD .null) else value

variable {optional : List String} {wide narrow : List (Option (List Char) × Json)}

private theorem Widened.nameless (widened : Widened names optional wide narrow) :
    wide.any (fun field => field.1.isNone) = narrow.any fun field => field.1.isNone := by
  induction widened with
  | same => rfl
  | unknown _ _ _ ih => simpa using ih
  | null _ _ _ ih => simpa using ih

private theorem Widened.given (widened : Widened names optional wide narrow) (asked : name ∈ names) :
    (given name.toList wide).map (filled optional name) = (given name.toList narrow).map (filled optional name) := by
  induction widened with
  | same => rfl
  | unknown value unasked _ ih => rw [given_other fun same => unasked name asked (Option.some.inj same).symm, ih]
  | @null _ _ _ other listed absent _ ih =>
    by_cases same : other = name
    · subst same
      rw [given_between absent, ← ih, given_absent absent]
      simp [filled, listed]
    · rw [given_other fun named => same (String.toList_injective (Option.some.inj named)), ih]

/-- What is given for some names, and then changed by name, is what is given and changed for each of them. -/
theorem map_mapM {lookup : String → Option α} {change : String → α → β} (names : List String) :
    (names.mapM lookup).map (List.zipWith change names) = names.mapM fun name => (lookup name).map (change name) := by
  induction names with
  | nil => rfl
  | cons name others ih =>
    rw [List.mapM_cons, List.mapM_cons, ← ih]
    cases lookup name with
    | none => rfl
    | some value => cases others.mapM lookup <;> rfl

private theorem length_mapM {lookup : String → Option α} {values : List α} (found : names.mapM lookup = some values) :
    values.length = names.length := by
  induction names generalizing values with
  | nil =>
    cases found
    rfl
  | cons name others ih =>
    rw [List.mapM_cons] at found
    obtain ⟨value, -, found⟩ := Option.bind_eq_some_iff.mp found
    obtain ⟨rest, later, made⟩ := Option.bind_eq_some_iff.mp found
    cases made
    rw [List.length_cons, List.length_cons, ih later]

/-- A record that takes null for no value where a field is optional takes no notice of fields that say nothing. -/
theorem Widened.pick?_bind {build : List (Option Json) → Option α} (widened : Widened names optional wide narrow)
    (alike : ∀ values, values.length = names.length → build (List.zipWith (filled optional) names values)
      = build values) :
    (pick? names wide).bind build = (pick? names narrow).bind build := by
  have completed : ∀ fields, (names.mapM fun name => Json.given name.toList fields).bind build
      = (names.mapM fun name => (Json.given name.toList fields).map (filled optional name)).bind build := by
    intro fields
    rw [← map_mapM, Option.bind_map]
    refine Option.bind_congr fun values found => ?_
    exact (alike values (length_mapM found)).symm
  have same : (names.mapM fun name => (Json.given name.toList wide).map (filled optional name))
      = names.mapM fun name => (Json.given name.toList narrow).map (filled optional name) :=
    mapM_congr fun name asked => widened.given asked
  rw [pick?_eq, pick?_eq, widened.nameless]
  split
  · rfl
  · rw [completed wide, completed narrow, same]

/-- Where nothing is optional, only fields that nobody asks for say nothing. -/
theorem Widened.pick?_same (widened : Widened names [] wide narrow) : pick? names wide = pick? names narrow := by
  have kept : ∀ name, filled [] name = id := fun name => funext fun value => if_neg List.not_mem_nil
  rw [pick?_eq, pick?_eq, widened.nameless]
  split
  · rfl
  · refine mapM_congr fun name asked => ?_
    have same := widened.given asked
    rwa [kept, Option.map_id, id_eq, id_eq] at same

end LimitBook.Json
