import LimitBook.Proofs.Book.History
import LimitBook.Proofs.Feed.Lines
import LimitBook.Proofs.Text.OneLine

/-! Runs over a stream. Lines without an order that the book can take are reported where they stand, and have no part in
what becomes of the book. -/
namespace LimitBook
open Text

instance (config : Config) (order : Order) : Decidable (order.Admissible config) :=
  decidable_of_iff (order.id = .unassigned ∧ order.remaining = order.volume ∧ order.cancelled = false
    ∧ order.executed = false
      ∧ order.triggered = false ∧ config.check order = .onGrid)
    ⟨fun ⟨unnumbered, whole, live, unfilled, waiting, onGrid⟩ => ⟨unnumbered, whole, live, unfilled, waiting, onGrid⟩,
      fun admissible => ⟨admissible.unnumbered, admissible.whole, admissible.live, admissible.unfilled,
        admissible.waiting, admissible.onGrid⟩⟩

private theorem Order.fresh_of_ofLine {line : List Char} {order : Order} (read : Order.ofLine line = .ok order) :
    ∃ side kind volume, order = .fresh side kind volume := by
  unfold ofLine ofFields at read
  split at read
  · simp only [bind, Except.bind, pure, Except.pure] at read
    grind [cancel, market, limit, stop]
  · cases read

private theorem Order.ofLine_nil : Order.ofLine [] = .error (.fieldCount 0) := by
  simp [ofLine, fields, ofFields]

private theorem Book.check_of_objection {book : Book} {side : Option Side} {kind : OrderKind} {volume : Volume}
    {cause : Rejection} (objected : book.objection (.fresh side kind volume) = some cause) :
    book.config.check (.fresh side kind volume) = .offGrid cause := by
  have unassigned : (Order.fresh side kind volume).id.isAssigned = false := rfl
  have untouched : (Order.fresh side kind volume).carriesState = false := by simp [Order.fresh, Order.carriesState]
  rw [objection, unassigned, untouched] at objected
  simp only [Bool.false_eq_true, if_false] at objected
  split at objected
  · cases objected
  · rename_i checked
    rw [checked, Option.some.inj objected]
  · rename_i undefined
    exact absurd undefined (Config.check_ne_undefined book.sound _)

namespace Feed

def order? (config : Config) (line : List UInt8) : Option Order :=
  match Utf8.decode line with
  | .error _ => none
  | .ok text =>
    match Order.ofLine (trim text) with
    | .error _ => none
    | .ok order => if order.Admissible config then some order else none

def isBlank (line : List UInt8) : Bool :=
  match Utf8.decode line with
  | .error _ => false
  | .ok text => trim text = []

def report? (config : Config) (line : List UInt8) : Option String :=
  match LineResult.ofBytes line with
  | .blank => none
  | .undecodable problem => some problem.message
  | .unreadable text cause => some (cause.message ++ ": " ++ .ofList (quoted text))
  | .readable order =>
    match config.check order with
    | .offGrid cause => some cause.message
    | .onGrid | .undefined => none

def orders (config : Config) (lines : List (List UInt8)) : List Order := lines.filterMap (order? config)

def reports (config : Config) (lines : List (List UInt8)) : List String :=
  (lines.zipIdx 1).filterMap fun (line, number) =>
    (report? config line).map fun text => "line " ++ toString number ++ ": " ++ text

variable {config : Config} {fresh : Book} {format : TradeFormat} {line : List UInt8}
    {lines : List (List UInt8)} {order : Order}

private theorem order?_eq (config : Config) (line : List UInt8) :
    order? config line = match LineResult.ofBytes line with
    | .readable order => if order.Admissible config then some order else none
    | _ => none := by
  unfold order? LineResult.ofBytes
  cases Utf8.decode line with
  | error problem => rfl
  | ok text =>
    dsimp only
    by_cases empty : trim text = []
    · rw [if_pos empty, empty, Order.ofLine_nil]
    · rw [if_neg empty]
      cases Order.ofLine (trim text) <;> rfl

private theorem order?_of_readable (readable : LineResult.ofBytes line = .readable order) :
    ∃ side kind volume, order = .fresh side kind volume := by
  unfold LineResult.ofBytes at readable
  split at readable
  · cases readable
  dsimp only at readable
  split at readable
  · cases readable
  split at readable
  · rename_i read
    rw [← LineResult.readable.inj readable]
    exact Order.fresh_of_ofLine read
  · cases readable

private theorem order?_eq_some (given : order? config line = some order) :
    LineResult.ofBytes line = .readable order ∧ order.Admissible config := by
  rw [order?_eq] at given
  split at given
  · rename_i other readable
    split at given
    · rename_i admissible
      obtain rfl := Option.some.inj given
      exact ⟨readable, admissible⟩
    · cases given
  · cases given

private theorem isBlank_iff : isBlank line = true ↔ LineResult.ofBytes line = .blank := by
  unfold isBlank LineResult.ofBytes
  cases Utf8.decode line with
  | error problem => simp
  | ok text =>
    by_cases empty : trim text = []
    · simp [empty]
    · cases read : Order.ofLine (trim text) <;> simp [empty, read]

private theorem report?_of_refused {book : Book} (readable : LineResult.ofBytes line = .readable order)
    (refused : ¬ order.Admissible book.config) :
    ∃ cause : Rejection, report? book.config line = some cause.message ∧ book.objection order = some cause := by
  obtain ⟨side, kind, volume, rfl⟩ := order?_of_readable readable
  obtain ⟨cause, objected⟩ := Option.ne_none_iff_exists'.mp (mt Book.objection_eq_none_iff.mp refused)
  refine ⟨cause, ?_, objected⟩
  rw [report?, readable]
  dsimp only
  rw [Book.check_of_objection objected]

private theorem isSome_report?_iff {book : Book} : (report? book.config line).isSome = true
    ↔ isBlank line = false ∧ order? book.config line = none := by
  rw [← Bool.not_eq_true, isBlank_iff, order?_eq]
  cases readable : LineResult.ofBytes line with
  | blank => simp [report?, readable]
  | undecodable problem => simp [report?, readable]
  | unreadable text cause => simp [report?, readable]
  | readable order =>
    by_cases admissible : order.Admissible book.config
    · simp [report?, readable, admissible.onGrid, admissible]
    · obtain ⟨cause, reported, -⟩ := report?_of_refused readable admissible
      simp [reported, admissible]

structure Reads (config : Config) (fresh : Book) (format : TradeFormat) (lines : List (List UInt8))
    (run : Run) : Prop where
  faultless : run.fault = none
  count : run.count = lines.length
  book : run.book = fresh.after (orders config lines)
  output : run.output.toList = (fresh.returned (orders config lines)).map format.render
  diagnostics : run.diagnostics.toList = reports config lines

private theorem reports_concat (config : Config) (lines : List (List UInt8)) (line : List UInt8) :
    reports config (lines ++ [line]) = reports config lines
      ++ ((report? config line).map fun text => "line " ++ toString (lines.length + 1) ++ ": " ++ text).toList := by
  rw [reports, List.zipIdx_append, List.filterMap_append, ← reports, Nat.add_comm]
  congr 1

private theorem reads_start (config : Config) (fresh : Book) (format : TradeFormat) :
    Reads config fresh format [] (.start fresh) :=
  ⟨rfl, rfl, rfl, rfl, rfl⟩

private theorem orders_concat (config : Config) (lines : List (List UInt8)) (line : List UInt8) :
    orders config (lines ++ [line]) = orders config lines ++ (order? config line).toList := by
  rw [orders, List.filterMap_append, ← orders]
  congr 1

def Run.pass (run : Run) (text : Option String) : Run :=
  match text with
  | none => { run with count := run.count + 1 }
  | some text => { run with count := run.count + 1 }.report text

private theorem Run.read_of_refused {run : Run} (running : run.fault = none) (unfaulted : run.book.fault = none)
    (skipped : order? run.book.config line = none) :
    run.read format line = run.pass (report? run.book.config line) := by
  rw [order?_eq] at skipped
  rw [Run.read, if_neg (by simp [running])]
  cases readable : LineResult.ofBytes line with
  | blank => simp [report?, readable, pass]
  | undecodable problem => simp [report?, readable, pass]
  | unreadable text cause => simp [report?, readable, pass]
  | readable order =>
    rw [readable] at skipped
    have refused : ¬ order.Admissible run.book.config := by
      intro admissible
      simp [admissible] at skipped
    obtain ⟨cause, reported, objected⟩ := report?_of_refused readable refused
    simp only [reported, pass, add, Book.add_of_objection unfaulted objected]
    rfl

private theorem Reads.pass {run : Run} (reads : Reads config fresh format lines run)
    (skipped : order? config line = none) :
    Reads config fresh format (lines ++ [line]) (run.pass (report? config line)) := by
  have same : orders config (lines ++ [line]) = orders config lines := by
    rw [orders_concat, skipped, Option.toList_none, List.append_nil]
  have all := reports_concat config lines line
  rw [← reads.diagnostics, ← reads.count] at all
  cases reported : report? config line with
  | none =>
    rw [reported] at all
    refine ⟨reads.faultless, ?_, ?_, ?_, ?_⟩
    · simp [Run.pass, reads.count]
    · rw [same]; exact reads.book
    · rw [same]; exact reads.output
    · rw [all]; simp [Run.pass]
  | some text =>
    rw [reported] at all
    refine ⟨reads.faultless, ?_, ?_, ?_, ?_⟩
    · simp [Run.pass, Run.report, reads.count]
    · rw [same]; exact reads.book
    · rw [same]; exact reads.output
    · rw [all]; simp [Run.pass, Run.report]

private theorem Run.read_of_order {run : Run} {next : Book} {events : List Event} {trades : List Trade}
    (running : run.fault = none)
    (found : order? run.book.config line = some order) (added : run.book.add order = ⟨next, events, .ok trades⟩) :
    run.read format line
      = { run with book := next, count := run.count + 1, output := run.output ++ trades.map format.render } := by
  rw [Run.read, if_neg (by simp [running]), (order?_eq_some found).1]
  simp only [add, added]

private theorem Reads.read {run : Run} (reads : Reads config fresh format lines run)
    (opened : Book.open? config = .ok fresh)
    (few : (orders config (lines ++ [line])).length < 0xffff_ffff_ffff_ffff) :
    Reads config fresh format (lines ++ [line]) (run.read format line) := by
  obtain ⟨standing, -, same, size⟩ := Book.standing_after opened (orders config lines)
  rw [orders_concat, List.length_append] at few
  rw [← reads.book] at standing same size
  obtain ⟨unfaulted, moves⟩ := standing.running_of_size (by omega)
  cases found : order? config line with
  | none =>
    rw [← same] at found
    rw [Run.read_of_refused reads.faultless unfaulted found, same]
    exact reads.pass (same ▸ found)
  | some order =>
    have taken : orders config (lines ++ [line]) = orders config lines ++ [order] := by rw [orders_concat, found]; rfl
    rw [found] at few
    have room : run.book.ledger.orders.size + 1 < 0x1_0000_0000_0000_0000 := by
      simp only [Option.toList_some, List.length_singleton] at few
      omega
    have silent : report? config line = none := by
      obtain ⟨readable, admissible⟩ := order?_eq_some found
      simp [report?, readable, admissible.onGrid]
    rw [← same] at found
    obtain ⟨next, events, added, -⟩ := Book.add_of_admissible unfaulted (moves.coherent Ledger.coherent_empty) room
      (order?_eq_some found).2
    rw [Run.read_of_order reads.faultless found added]
    refine ⟨reads.faultless, ?_, ?_, ?_, ?_⟩
    · simp [reads.count]
    · rw [taken, Book.after_concat, ← reads.book, added]
    · rw [taken, Book.returned_concat, ← reads.book, added, List.map_append, ← reads.output]
      simp [Response.trades]
    · rw [reports_concat, silent, ← reads.diagnostics]
      simp

theorem reads_lines (opened : Book.open? config = .ok fresh) (format : TradeFormat) (lines : List (List UInt8))
    (few : (orders config lines).length < 0xffff_ffff_ffff_ffff) :
    Reads config fresh format lines (lines.foldl (Run.read format) (.start fresh)) := by
  induction lines using List.reverseRecOn with
  | nil => exact reads_start config fresh format
  | append_singleton lines line ih =>
    have fewer := few
    rw [orders_concat, List.length_append] at fewer
    rw [List.foldl_append, List.foldl_cons, List.foldl_nil]
    exact (ih (Nat.lt_of_le_of_lt (Nat.le_add_right _ _) fewer)).read opened few

private theorem oneLine_of_report? {text : String} (reported : report? config line = some text) : OneLine text := by
  unfold report? at reported
  split at reported
  · cases reported
  · rw [← Option.some.inj reported]
    exact Utf8.Problem.oneLine_message _
  · rw [← Option.some.inj reported]
    exact oneLine_append (oneLine_append (LineError.oneLine_message _) (by simp [OneLine])) (oneLine_quoted _)
  · split at reported
    · rw [← Option.some.inj reported]
      exact Rejection.oneLine_message _
    · cases reported
    · cases reported

private theorem oneLine_of_mem_reports {text : String} (reported : text ∈ reports config lines) : OneLine text := by
  obtain ⟨⟨line, number⟩, -, given⟩ := List.mem_filterMap.mp reported
  obtain ⟨rest, said, rfl⟩ := Option.map_eq_some_iff.mp given
  refine oneLine_append (oneLine_append (oneLine_append ?_ (oneLine_toString _)) ?_) (oneLine_of_report? said)
    <;> simp [OneLine]

def kept (config : Config) (dropped : Nat → Bool) (lines : List (List UInt8)) : List (List UInt8) :=
  ((lines.zipIdx 1).filter fun (line, number) => (order? config line).isSome || !dropped number).map Prod.fst

private theorem kept_sublist (config : Config) (dropped : Nat → Bool) (lines : List (List UInt8)) :
    (kept config dropped lines).Sublist lines := by
  have within := (List.filter_sublist (l := lines.zipIdx 1)
    (p := fun (line, number) => (order? config line).isSome || !dropped number)).map Prod.fst
  rw [List.zipIdx_map_fst] at within
  exact within

private theorem orders_kept (config : Config) (dropped : Nat → Bool) (lines : List (List UInt8)) :
    orders config (kept config dropped lines) = orders config lines := by
  have all : orders config lines = ((lines.zipIdx 1).map Prod.fst).filterMap (order? config) := by
    rw [List.zipIdx_map_fst]
    rfl
  rw [all, orders, kept, List.filterMap_map, List.filterMap_map, List.filterMap_filter]
  refine List.filterMap_congr fun (line, number) _ => ?_
  cases found : order? config line <;> simp [found]

structure Skips (config : Config) (fresh : Book) (format : TradeFormat) (bytes : List UInt8) (run : Run) : Prop where
  framed : Framed (Feed.lines bytes)
  whole : (Feed.lines bytes).flatten = bytes
  reads : Reads config fresh format (Feed.lines bytes) run
  reported : ∀ line ∈ Feed.lines bytes, (report? config line).isSome = true ↔ isBlank line = false
      ∧ order? config line = none
  oneLine : ∀ text, text ∈ run.output.toList ∨ text ∈ run.diagnostics.toList → OneLine text
  unaffected : ∀ dropped, (Feed.run format fresh (kept config dropped (Feed.lines bytes)).flatten).fault = none
    ∧ (Feed.run format fresh (kept config dropped (Feed.lines bytes)).flatten).output = run.output
    ∧ (Feed.run format fresh (kept config dropped (Feed.lines bytes)).flatten).book = run.book

/-- A run over any bytes with a book just opened, as long as the 64-bit numbers of its orders do not run out. It
ends without a fault, the book is left as the orders of the lines that are text, well-formed and admissible
leave it, and the output is their trades, one on each line. Every other line that is not blank is reported on
one line of its own under its number, in the order of the lines. Any of the lines without an order may be
dropped from the stream: output and book stay the same. -/
theorem passes_over_bad_lines (opened : Book.open? config = .ok fresh) (format : TradeFormat) (bytes : List UInt8)
    (few : (orders config (Feed.lines bytes)).length < 0xffff_ffff_ffff_ffff) :
    Skips config fresh format bytes (Feed.run format fresh bytes) := by
  have reads := reads_lines opened format (Feed.lines bytes) few
  have same := (Book.open?_eq opened).1
  constructor
  · exact framed_lines bytes
  · exact flatten_lines bytes
  · exact reads
  · intro line _
    rw [← same]
    exact isSome_report?_iff
  · rintro text (written | reported)
    · rw [Feed.run, reads.output] at written
      obtain ⟨trade, -, rfl⟩ := List.mem_map.mp written
      exact format.oneLine_render trade
    · rw [Feed.run, reads.diagnostics] at reported
      exact oneLine_of_mem_reports reported
  · intro dropped
    have framed := (framed_lines bytes).sublist (kept_sublist config dropped _)
    have others := reads_lines opened format (kept config dropped (Feed.lines bytes)) (by rw [orders_kept]; exact few)
    rw [Feed.run, Feed.run, framed.lines_flatten]
    refine ⟨others.faultless, ?_, ?_⟩
    · rw [← Array.toList_inj, others.output, reads.output, orders_kept]
    · rw [others.book, reads.book, orders_kept]

/-- An ask, a blank line, bytes that are no text, an order without volume, a line of three fields, and a
purchase without a line feed at its end. -/
theorem passes_over_bad_lines_six : ∃ fresh, Book.open? (Config.cents "ACME") = .ok fresh ∧
    let bytes := "limit sell 5 100\n \n".toList.map (fun character => UInt8.ofNat character.toNat) ++ [0xff, 10]
      ++ "limit sell 0 100\nlimit buy 5\nmarket buy 2 0".toList.map fun character => UInt8.ofNat character.toNat
    (Feed.run .line fresh bytes).output = #["match 2 1 2 100.00"]
      ∧ (Feed.run .line fresh bytes).diagnostics = #["line 3: invalid utf-8 sequence of 1 bytes from index 0",
        "line 4: invalid order: volume must be positive", "line 5: expected 4 fields, found 3: \"limit buy 5\""]
      ∧ Skips (Config.cents "ACME") fresh .line bytes (Feed.run .line fresh bytes) :=
  ⟨_, rfl, by decide +kernel, by decide +kernel, passes_over_bad_lines (rfl : Book.open? (Config.cents "ACME") = _) _ _
    (by decide +kernel)⟩

end Feed
end LimitBook
