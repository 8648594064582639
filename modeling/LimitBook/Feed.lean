import LimitBook.Book
import LimitBook.Codec.Report
import LimitBook.Json.Printer
import LimitBook.Order.Line
import LimitBook.Text.Utf8

/-! Feeds: a stream of bytes with an order on each line. Lines that name no order, or one that the
book does not take, are reported and passed over; a fault ends the run. -/
namespace LimitBook
open Text

inductive TradeFormat
  | line
  | json
deriving DecidableEq

def TradeFormat.render (format : TradeFormat) (trade : Trade) : String :=
  match format with
  | line => trade.line
  | json => trade.toJson.text

inductive LineResult
  | blank
  | undecodable (problem : Utf8.Problem)
  | unreadable (line : List Char) (cause : LineError)
  | readable (order : Order)

def LineResult.ofBytes (bytes : List UInt8) : LineResult :=
  match Utf8.decode bytes with
  | .error problem => undecodable problem
  | .ok characters =>
    let line := trim characters
    if line = [] then blank
    else
      match Order.ofLine line with
      | .ok order => readable order
      | .error cause => unreadable line cause

namespace Feed

def prepend (byte : UInt8) (lines : List (List UInt8)) : List (List UInt8) :=
  if byte = 10 then [byte] :: lines
  else
    match lines with
    | [] => [[byte]]
    | first :: rest => (byte :: first) :: rest

def lines (bytes : List UInt8) : List (List UInt8) := bytes.foldr prepend []

structure Run where
  book : Book
  count : Nat
  output : Array String
  diagnostics : Array String
  fault : Option Fault

namespace Run

def start (book : Book) : Run := ⟨book, 0, #[], #[], none⟩

def report (run : Run) (text : String) : Run :=
  { run with diagnostics := run.diagnostics.push ("line " ++ toString run.count ++ ": " ++ text) }

def add (format : TradeFormat) (run : Run) (order : Order) : Run :=
  let response := run.book.add order
  let next := { run with book := response.book }
  match response.answer with
  | .ok trades => { next with output := next.output ++ trades.map format.render }
  | .error (.faulted fault) => { next with fault := some fault }
  | .error refusal => next.report refusal.message

def read (format : TradeFormat) (run : Run) (line : List UInt8) : Run :=
  if run.fault.isSome then run
  else
    let next := { run with count := run.count + 1 }
    match LineResult.ofBytes line with
    | .blank => next
    | .undecodable problem => next.report problem.message
    | .unreadable text cause => next.report (cause.message ++ ": " ++ String.ofList (quoted text))
    | .readable order => next.add format order

end Run

def run (format : TradeFormat) (book : Book) (bytes : List UInt8) : Run :=
  (lines bytes).foldl (Run.read format) (.start book)

end Feed
end LimitBook
