namespace LineChart

/-- What a diagram file tells of its making. -/
structure Metadata where
  host : String := "Electron"
  agent : String := "MermaidCLI"
  modified : Option String := none
deriving DecidableEq

end LineChart
