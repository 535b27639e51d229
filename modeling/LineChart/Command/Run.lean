import LineChart.Command.Invocation
import LineChart.Command.System
import LineChart.Conversion

namespace LineChart.Command

inductive Failure where
  | inputNotFound (path : String)
  | unreadable (path : String) (cause : SystemFault)
  | unwritable (path : String) (cause : SystemFault)
  | unsound (fault : CanvasFault)
deriving DecidableEq

def Failure.message : Failure → String
  | inputNotFound path => s!"File '{path}' not found."
  | unreadable path cause => s!"failed to read {path}: {cause.text}"
  | unwritable path cause => s!"failed to write {path}: {cause.text}"
  | unsound fault => fault.message

def Failure.line (f : Failure) : String := "Error: " ++ f.message

/-- The log setting of the surroundings comes first, then the job's own wish. -/
def Job.verbosity (job : Job) (setting : Option Verbosity) : Verbosity :=
  setting.getD (.upTo (if job.debug then .debug else .info))

/-- What there is to tell about a chart text and the chart read from it. -/
def readingEvents (text : String) (chart : Chart Float) : List Event :=
  let categories := chart.categories.length
  let points := chart.series.length
  (ignoredLines text).map .ignored ++
    [.parsed chart.title categories points chart.valueAxis.min chart.valueAxis.max,
      .summary chart.title points]

/-- What there is to tell about a chart drawn on a canvas. -/
def drawingEvents (chart : Chart Float) (canvas : Canvas Float) : List Event :=
  let categories := chart.categories.length
  let points := chart.series.length
  (if categories < points then [.extrapolated categories points] else []) ++
    [.placed points (canvas.spacing categories),
      .drawn (chart.diagram (chart.plot canvas)).cells.length]

/-- What a job tells after its output has been written. -/
def Job.closing (job : Job) (document : String) (microseconds : Nat) : List Event :=
  .finished document.utf8ByteSize microseconds ::
    if job.writesStdout then [] else [.created job.output, .hint]

/-- The text of a job's input. -/
def Job.decode (job : Job) (content : ByteArray) : Except Failure String :=
  match String.fromUTF8? content with
  | some text => .ok text
  | none => .error (.unreadable job.input .notText)

section Course

variable {m : Type → Type} [Monad m] (job : Job) (services : Services m)

/-- The bytes of a job's input. What cannot be found counts as missing, whatever the cause. -/
def Job.bytes : ExceptT Failure m ByteArray :=
  if job.readsStdin then services.readStdin.adapt (.unreadable job.input)
  else do
    (services.find job.input).adapt fun _ => .inputNotFound job.input
    (services.read job.input).adapt (.unreadable job.input)

def Job.read : ExceptT Failure m String := do
  let content ← job.bytes services
  job.decode content

def Job.write (document : String) : ExceptT Failure m Unit :=
  (if job.writesStdout then services.writeStdout document
    else services.write job.output document).adapt (.unwritable job.output)

/-- A job up to its end or its first failure, whatever system it runs on. The chart is drawn with the
standard settings, stamped with the time of the run. -/
def Job.attempt : ExceptT Failure m Unit := do
  let text ← job.read services
  services.tell [.reading job.input]
  let chart := Chart.ofText text
  services.tell (readingEvents text chart)
  let settings ← (Settings.ofChoices [.modified (← services.stamp)]).mapError Failure.unsound
  services.tell (drawingEvents chart settings.canvas)
  let document := (chart.diagram (chart.plot settings.canvas)).document settings.toMetadata
  job.write services document
  services.tell (job.closing document (← services.microseconds))

end Course

/-- The exit code of a run, and what it prints at the last. -/
structure Ending where
  exitCode : Nat
  stdout : String
  stderr : List String

def Ending.ofResult : Except Failure Unit → Ending
  | .ok () => ⟨0, "", []⟩
  | .error failure => ⟨1, "", [failure.line]⟩

/-- The job that is asked for. A run without one is over at once. -/
def Invocation.job : Invocation → Except Ending Job
  | convert job => .ok job
  | help => .error ⟨0, helpText, []⟩
  | version => .error ⟨0, versionText, []⟩
  | misuse cause => .error ⟨2, "", [cause.message, usageLine]⟩

/-- All that a run leaves behind. The messages are kept apart, since one with a path in it may take
several lines. -/
structure Outcome where
  exitCode : Nat
  stdout : String
  tree : FileTree
  stderr : List String

/-- What stands on the standard error stream. -/
def Outcome.stderrText (outcome : Outcome) : String :=
  String.join (outcome.stderr.map (· ++ "\n"))

/-- How a job ends in given surroundings, and what it has brought about by then. -/
def Job.course (job : Job) (s : Surroundings) (refusals : Refusals) :
    Except Failure Unit × Progress :=
  (job.attempt (s.services refusals)).run.run (s.untouched [])

def Job.run (job : Job) (s : Surroundings) (refusals : Refusals := fun _ => none) : Outcome :=
  let (result, p) := job.course s refusals
  let ending := Ending.ofResult result
  ⟨ending.exitCode, p.stdout ++ ending.stdout, p.tree,
    (job.verbosity s.setting).lines p.events ++ ending.stderr⟩

def run (arguments : List String) (s : Surroundings) (refusals : Refusals := fun _ => none) :
    Outcome :=
  match (Invocation.ofArguments arguments).job with
  | .ok job => job.run s refusals
  | .error ending => ⟨ending.exitCode, ending.stdout, s.tree, ending.stderr⟩

end LineChart.Command
