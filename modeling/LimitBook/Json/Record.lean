import LimitBook.Json
import LimitBook.Word

/-! Records and choices in JSON. Fields that a record does not name are ignored; a field that it
names may be given once. A name that is no text belongs to no record and to no choice. -/
namespace LimitBook.Json

/-- The values of the named fields in the order of the names, `none` for one that is absent; fails
where one is given twice or a name is no text. -/
def pick? (names : List String) (fields : List (Option (List Char) × Json)) : Option (List (Option Json)) :=
  if fields.any (fun field => field.1.isNone) then none
  else names.mapM fun name =>
    match fields.filter (fun field => field.1 = some name.toList) with
    | [] => some none
    | [(_, value)] => some (some value)
    | _ => none

def record? (names : List String) : Json → Option (List (Option Json))
  | object fields => pick? names fields
  | array items => if items.length = names.length then some (items.map some) else none
  | _ => none

def fields? (names : List String) : Json → Option (List (Option Json))
  | object fields => pick? names fields
  | _ => none

/-- A choice by its name: the name alone, or an object whose one field has that name and holds what
the choice carries. -/
def choice? : Json → Option (List Char × Option Json)
  | string (some name) => some (name, none)
  | object [(some name, content)] => some (name, some content)
  | _ => none

def isBare : Option Json → Bool
  | none | some null => true
  | _ => false

def optional? {α : Type} (decode : Json → Option α) : Option Json → Option (Option α)
  | none | some null => some none
  | some value => (decode value).map some

def bool? : Json → Option Bool
  | bool value => some value
  | _ => none

def text? : Json → Option String
  | string (some text) => some (String.ofList text)
  | _ => none

def word? : Json → Option Word
  | whole (.ofNat number) => Word.ofNat? number
  | _ => none

def list? {α : Type} (decode : Json → Option α) : Json → Option (List α)
  | array items => items.mapM decode
  | _ => none

end LimitBook.Json
