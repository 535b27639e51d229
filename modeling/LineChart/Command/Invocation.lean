namespace LineChart.Command

/-- A conversion asked for on the command line. -/
structure Job where
  input : String
  output : String
  debug : Bool
deriving DecidableEq

/-- The path that stands for a standard stream. -/
def streamPath : String := "-"

def Job.readsStdin (job : Job) : Bool := job.input == streamPath

def Job.writesStdout (job : Job) : Bool := job.output == streamPath

inductive Misuse where
  | unknownArgument
  | missingPath
  | emptyPath
  | repeatedFlag
  | flagWithValue
deriving DecidableEq

inductive Invocation where
  | convert (job : Job)
  | help
  | version
  | misuse (cause : Misuse)
deriving DecidableEq

inductive Argument where
  | path (text : String)
  | debug
  | help
  | version
  | flagWithValue
  | unknown
deriving DecidableEq

def Argument.ofLongName (name : List Char) : Argument :=
  if name = "debug".toList then .debug
  else if name = "help".toList then .help
  else if name = "version".toList then .version
  else .unknown

/-- An argument among the options: two hyphens and a name, a hyphen and letters of which the first
decides, or a path. A lone hyphen is a path. -/
def Argument.ofString (s : String) : Argument :=
  match s.toList with
  | '-' :: '-' :: name =>
    let known := Argument.ofLongName (name.takeWhile (· != '='))
    if '=' ∈ name ∧ known ≠ .unknown then .flagWithValue else known
  | '-' :: letter :: _ =>
    if letter = 'h' then .help else if letter = 'V' then .version else .unknown
  | _ => .path s

/-- The arguments in order; two hyphens end the options, and whatever follows is a path. -/
def Argument.ofStrings : List String → List Argument
  | [] => []
  | s :: rest => if s = "--" then rest.map .path else .ofString s :: Argument.ofStrings rest

/-- Takes the arguments one by one, given the paths seen so far and whether diagnostics were asked
for. What cannot be an argument at all is refused at once; an empty path is refused when the next
argument is accepted, or at the end. -/
def Invocation.step (paths : List String) (debug : Bool) : List Argument → Invocation
  | [] =>
    if "" ∈ paths then .misuse .emptyPath
    else
      match paths with
      | [input, output] => .convert ⟨input, output, debug⟩
      | _ => .misuse .missingPath
  | .unknown :: _ => .misuse .unknownArgument
  | .flagWithValue :: _ => .misuse .flagWithValue
  | .path p :: rest =>
    if paths.length = 2 then .misuse .unknownArgument
    else if "" ∈ paths then .misuse .emptyPath
    else Invocation.step (paths ++ [p]) debug rest
  | .help :: _ => if "" ∈ paths then .misuse .emptyPath else .help
  | .version :: _ => if "" ∈ paths then .misuse .emptyPath else .version
  | .debug :: rest =>
    if "" ∈ paths then .misuse .emptyPath
    else if debug then .misuse .repeatedFlag
    else Invocation.step paths true rest

def Invocation.ofArguments (arguments : List String) : Invocation :=
  Invocation.step [] false (Argument.ofStrings arguments)

def usageLine : String := "Usage: mermaid2drawio [OPTIONS] <INPUT> <OUTPUT>"

def helpText : String :=
  "CLI to convert Mermaid line charts to Draw.io XML\n\n" ++ usageLine ++ "\n\nArguments:\n" ++
    "  <INPUT>   Path to input mermaid file (use `-` for stdin)\n" ++
    "  <OUTPUT>  Path to output xml file (use `-` for stdout)\n\nOptions:\n" ++
    "      --debug    Emit debug diagnostics\n" ++
    "  -h, --help     Print help\n" ++
    "  -V, --version  Print version\n"

def versionText : String := "mermaid2drawio 0.1.0\n"

def Misuse.message : Misuse → String
  | unknownArgument => "error: unexpected argument found"
  | missingPath => "error: the required paths were not provided"
  | emptyPath => "error: a path must not be empty"
  | repeatedFlag => "error: the argument '--debug' cannot be used multiple times"
  | flagWithValue => "error: unexpected value for a flag"

end LineChart.Command
