import LimitBook.Feed

/-! The command line: options, and what a whole run writes. -/
namespace LimitBook.CommandLine
open Text

inductive LogLevel
  | error
  | warn
  | info
  | debug
  | trace
deriving DecidableEq

def LogLevel.ofName? (name : String) : Option LogLevel :=
  [("error", error), ("warn", warn), ("info", info), ("debug", debug), ("trace", trace)].lookup name

structure Options where
  instrument : Option String := none
  tickSize : Option Price := none
  lotSize : Option Volume := none
  json : Bool := false
  logLevel : Option LogLevel := none

inductive Setting
  | instrument
  | tickSize
  | lotSize
  | logLevel
deriving DecidableEq

namespace Setting

def ofLongName? (name : String) : Option Setting :=
  [("instrument", instrument), ("tick-size", tickSize), ("lot-size", lotSize), ("log-level", logLevel)].lookup name

def assign? (setting : Setting) (options : Options) (value : String) : Option Options :=
  match setting with
  | instrument => if options.instrument.isSome then none else some { options with instrument := some value }
  | tickSize =>
    if options.tickSize.isSome then none
    else
      match Fixed.read value.toList with
      | .ok price => some { options with tickSize := some price }
      | .error _ => none
  | lotSize =>
    if options.lotSize.isSome then none
    else (Numeral.readWord? value.toList).map fun word => { options with lotSize := some (.ofWord word) }
  | logLevel =>
    if options.logLevel.isSome then none
    else (LogLevel.ofName? value).map fun level => { options with logLevel := some level }

end Setting

inductive Request
  | run (options : Options)
  | version
  | help
  | unusable

inductive Argument
  | version
  | help
  | json
  /-- An option with its value in the same argument, or with its value to come. -/
  | setting (setting : Setting) (value : Option String)
  /-- From here on every argument would be an operand. -/
  | operandsOnly
  | unknown

namespace Argument

def ofLong (body : List Char) : Argument :=
  let name := String.ofList (body.takeWhile (· ≠ '='))
  let value := match body.dropWhile (· ≠ '=') with
    | [] => none
    | _ :: rest => some (String.ofList rest)
  match Setting.ofLongName? name with
  | some named => .setting named value
  | none =>
    if value.isSome then .unknown
    else if name = "json" then .json
    else if name = "version" then .version
    else if name = "help" then .help
    else .unknown

def ofShort : List Char → Argument
  | ['i'] => .setting .instrument none
  | 'i' :: '=' :: value => .setting .instrument (some (String.ofList value))
  | 'i' :: value => .setting .instrument (some (String.ofList value))
  | 'V' :: _ => .version
  | 'h' :: _ => .help
  | _ => .unknown

def ofText (text : String) : Argument :=
  match text.toList with
  | ['-', '-'] => .operandsOnly
  | '-' :: '-' :: body => ofLong body
  | ['-'] => .unknown
  | '-' :: body => ofShort body
  | _ => .unknown

end Argument

def isSeparateValue (text : String) : Bool :=
  match text.toList with
  | '-' :: _ :: _ => false
  | _ => true

/-- Reads arguments from left to right. The first that cannot be used decides, unless the version or
the help was asked for before it. -/
def parse (options : Options) : List String → Request
  | [] => .run options
  | argument :: rest =>
    match Argument.ofText argument with
    | .version => .version
    | .help => .help
    | .json => if options.json then .unusable else parse { options with json := true } rest
    | .setting setting (some value) =>
      match setting.assign? options value with
      | some options => parse options rest
      | none => .unusable
    | .setting setting none =>
      match rest with
      | [] => .unusable
      | value :: rest =>
        if isSeparateValue value then
          match setting.assign? options value with
          | some options => parse options rest
          | none => .unusable
        else .unusable
    | .operandsOnly => if rest = [] then .run options else .unusable
    | .unknown => .unusable

def Options.config (options : Options) : Config where
  instrument := options.instrument.getD "DEFAULT"
  tickSize := options.tickSize
  lotSize := options.lotSize

def Options.format (options : Options) : TradeFormat := if options.json then .json else .line

structure Result where
  exitCode : UInt8
  output : Array String
  diagnostics : Array String

def versionLine : String := "order-match 0.1.0"

def failureLine (message : String) : String := "order-match: " ++ message

def usage : Array String := #[
  "Usage: order-match [OPTIONS]",
  "",
  "  -i, --instrument <NAME>   Instrument traded by the book",
  "      --tick-size <PRICE>   Grid of limits and triggers",
  "      --lot-size <UNITS>    Grid of volumes",
  "      --json                Print trades as JSON objects",
  "      --log-level <LEVEL>   error, warn, info, debug or trace",
  "  -h, --help                Print this text",
  "  -V, --version             Print the version"]

def runWith (options : Options) (input : List UInt8) : Result :=
  match Book.open? options.config with
  | .error cause => ⟨1, #[], #[failureLine cause.message]⟩
  | .ok book =>
    let run := Feed.run options.format book input
    match run.fault with
    | none => ⟨0, run.output, run.diagnostics⟩
    | some fault => ⟨1, run.output, run.diagnostics.push (failureLine fault.message)⟩

def run (arguments : List String) (input : List UInt8) : Result :=
  match parse {} arguments with
  | .run options => runWith options input
  | .version => ⟨0, #[versionLine], #[]⟩
  | .help => ⟨0, usage, #[]⟩
  | .unusable => ⟨2, #[], #[]⟩

end LimitBook.CommandLine
