import LineChart.Command.FileTree
import LineChart.Command.Log

namespace LineChart.Command

/-- What the system does for a run: it gives the time, takes diagnostics, and tries to meet requests. -/
structure Services (m : Type → Type) where
  stamp : m String
  microseconds : m Nat
  tell (events : List Event) : m Unit
  readStdin : ExceptT SystemFault m ByteArray
  writeStdout (text : String) : ExceptT SystemFault m Unit
  find (path : String) : ExceptT SystemFault m Unit
  read (path : String) : ExceptT SystemFault m ByteArray
  write (path text : String) : ExceptT SystemFault m Unit

/-! ## Services of given surroundings -/

/-- All that a run can see. -/
structure Surroundings where
  tree : FileTree
  stdin : ByteArray
  setting : Option Verbosity
  stamp : String
  microseconds : Nat

/-- What a run asks of the system. -/
inductive Request where
  | readStdin
  | writeStdout
  | find (path : String)
  | read (path : String)
  | write (path : String)
deriving DecidableEq

/-- What the system refuses, whatever the files hold, and why: a right is missing, a medium fails, a
stream is closed. -/
abbrev Refusals := Request → Option SystemFault

/-- What a run has brought about so far. -/
structure Progress where
  stdout : String
  tree : FileTree
  events : List Event

/-- The progress of a run that has told of events, and done nothing else. -/
def Surroundings.untouched (s : Surroundings) (events : List Event) : Progress :=
  ⟨"", s.tree, events⟩

/-- A request that is refused, or that cannot be met, has no effect. -/
def Refusals.meet {α : Type} (refusals : Refusals) (r : Request)
    (act : Progress → Except SystemFault (α × Progress)) :
    ExceptT SystemFault (StateM Progress) α :=
  fun p =>
    match refusals r with
    | some cause => (.error cause, p)
    | none =>
      match act p with
      | .error cause => (.error cause, p)
      | .ok (a, p') => (.ok a, p')

def Surroundings.services (s : Surroundings) (refusals : Refusals) :
    Services (StateM Progress) where
  stamp := return s.stamp
  microseconds := return s.microseconds
  tell events := modify fun p => { p with events := p.events ++ events }
  readStdin := refusals.meet .readStdin fun p => .ok (s.stdin, p)
  writeStdout text := refusals.meet .writeStdout fun p =>
    .ok ((), { p with stdout := p.stdout ++ text })
  find path := refusals.meet (.find path) fun p => do
    let _ ← p.tree.find path
    .ok ((), p)
  read path := refusals.meet (.read path) fun p => do
    let entry ← p.tree.find path
    let content ← entry.content
    .ok (content, p)
  write path text := refusals.meet (.write path) fun p => do
    let tree ← p.tree.write path text.toUTF8
    .ok ((), { p with tree := tree })

end LineChart.Command
