import LimitBook.Json.Lexer

/-! JSON text as a value. Tokens are taken one at a time; the containers that are open form a
stack. -/
namespace LimitBook.Json

inductive Frame
  | items (done : List Json)
  | fields (done : List (Option (List Char) × Json))
  /-- An object whose field `name` awaits its value. -/
  | field (done : List (Option (List Char) × Json)) (name : Option (List Char))

inductive Awaited
  | value
  /-- The first item of an array, or its end. -/
  | itemOrEnd
  /-- The first name of an object, or its end. -/
  | nameOrEnd
  | name
  | colon
  /-- A comma or an end after a value that is complete. -/
  | separator (completed : Json)

structure Progress where
  openFrames : List Frame
  awaited : Awaited

namespace Progress

def takeValue (frames : List Frame) : Token → Option Progress
  | .scalar value => some ⟨frames, .separator value⟩
  | .openArray => some ⟨.items [] :: frames, .itemOrEnd⟩
  | .openObject => some ⟨.fields [] :: frames, .nameOrEnd⟩
  | _ => none

def takeName (frames : List Frame) : Token → Option Progress
  | .scalar (.string name) =>
    match frames with
    | .fields done :: outer => some ⟨.field done name :: outer, .colon⟩
    | _ => none
  | _ => none

def takeSeparator (frames : List Frame) (completed : Json) (token : Token) : Option Progress :=
  match frames, token with
  | .items done :: outer, .comma => some ⟨.items (completed :: done) :: outer, .value⟩
  | .items done :: outer, .closeArray => some ⟨outer, .separator (array (completed :: done).reverse)⟩
  | .field done name :: outer, .comma => some ⟨.fields ((name, completed) :: done) :: outer, .name⟩
  | .field done name :: outer, .closeObject =>
    some ⟨outer, .separator (object ((name, completed) :: done).reverse)⟩
  | _, _ => none

def take (progress : Progress) (token : Token) : Option Progress :=
  match progress.awaited, token with
  | .value, token => takeValue progress.openFrames token
  | .itemOrEnd, .closeArray => some ⟨progress.openFrames.tail, .separator (array [])⟩
  | .itemOrEnd, token => takeValue progress.openFrames token
  | .nameOrEnd, .closeObject => some ⟨progress.openFrames.tail, .separator (object [])⟩
  | .nameOrEnd, token => takeName progress.openFrames token
  | .name, token => takeName progress.openFrames token
  | .colon, .colon => some ⟨progress.openFrames, .value⟩
  | .colon, _ => none
  | .separator completed, token => takeSeparator progress.openFrames completed token

end Progress

def ofTokens? (tokens : List Token) : Option Json := do
  match ← tokens.foldlM Progress.take ⟨[], .value⟩ with
  | ⟨[], .separator value⟩ => return value
  | _ => none

def read? (text : List Char) : Option Json := (tokens text).bind ofTokens?

end LimitBook.Json
