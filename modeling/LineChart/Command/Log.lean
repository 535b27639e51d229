import LineChart.Number.Format
import LineChart.Text.Terminal

namespace LineChart.Command

inductive Level where
  | error
  | warn
  | info
  | debug
  | trace
deriving DecidableEq

def Level.rank : Level → Nat
  | error => 1
  | warn => 2
  | info => 3
  | debug => 4
  | trace => 5

def Level.name : Level → String
  | error => "ERROR"
  | warn => "WARN"
  | info => "INFO"
  | debug => "DEBUG"
  | trace => "TRACE"

/-- Diagnostics up to a level, or none at all. -/
inductive Verbosity where
  | off
  | upTo (level : Level)
deriving DecidableEq

def Verbosity.shows : Verbosity → Level → Bool
  | off, _ => false
  | upTo most, level => level.rank ≤ most.rank

/-- The step of a run that a diagnostic tells of. -/
inductive Event where
  | reading (path : String)
  | ignored (line : List Char)
  | parsed (title : String) (categories points : Nat) (low high : Float)
  | summary (title : String) (points : Nat)
  | extrapolated (categories points : Nat)
  | placed (points : Nat) (step : Float)
  | drawn (cells : Nat)
  | finished (bytes microseconds : Nat)
  | created (path : String)
  | hint

def Event.level : Event → Level
  | ignored _ => .trace
  | parsed .. | extrapolated .. | placed .. | drawn _ | finished .. => .debug
  | reading _ | summary .. | created _ | hint => .info

def Event.message : Event → String
  | reading path => s!"Reading {path}..."
  | ignored _ => "ignoring line"
  | parsed .. => "parsed chart"
  | summary title points => "Parsed chart: \"" ++ title ++ s!"\" with {points} points."
  | extrapolated .. => "series longer than category axis, extra points extrapolated"
  | placed .. => "computed geometry"
  | drawn _ => "built document"
  | finished .. => "conversion finished"
  | created path => s!"Successfully created {path}!"
  | hint => "You can now open this file in https://app.diagrams.net/"

open Number (Format) in
/-- The measures that follow the message, each under its name. -/
def Event.fields : Event → List (String × String)
  | ignored line => [("line", String.ofList (Text.quote line))]
  | parsed title categories points low high =>
    [("title", title), ("categories", toString categories), ("points", toString points),
      ("y_min", Format.diagnostic.text low), ("y_max", Format.diagnostic.text high)]
  | extrapolated categories points =>
    [("categories", toString categories), ("points", toString points)]
  | placed points step =>
    [("points", toString points), ("x_step", Format.diagnostic.text step)]
  | drawn cells => [("primitives", toString cells)]
  | finished bytes microseconds =>
    [("bytes", toString bytes), ("elapsed_us", toString microseconds)]
  | reading _ | summary .. | created _ | hint => []

/-- The message is shown disarmed, the fields as they are. -/
def Event.line (e : Event) : String :=
  e.level.name ++ " " ++ String.ofList (Text.disarm e.message.toList) ++
    String.join (e.fields.map fun (name, value) => s!" {name}={value}")

def Verbosity.lines (v : Verbosity) (events : List Event) : List String :=
  (events.filter fun e => v.shows e.level).map Event.line

end LineChart.Command
