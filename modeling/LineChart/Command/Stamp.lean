namespace LineChart.Command

/-- `n` in decimal, with zeros in front up to the given width. -/
def padded (width n : Nat) : String :=
  let digits := Nat.toDigits 10 n
  String.ofList (List.replicate (width - digits.length) '0' ++ digits)

/-- The date `days` days after the first of January 1970. Years are counted from March on, so that a
leap day is the last day of its year, and eras of 400 years have the same number of days. -/
def civilDate (days : Nat) : Nat × Nat × Nat :=
  let shifted := days + 719468
  let dayOfEra := shifted % 146097
  let yearOfEra := (dayOfEra - dayOfEra / 1460 + dayOfEra / 36524 - dayOfEra / 146096) / 365
  let dayOfYear := dayOfEra - (365 * yearOfEra + yearOfEra / 4 - yearOfEra / 100)
  let monthFromMarch := (5 * dayOfYear + 2) / 153
  let day := dayOfYear - (153 * monthFromMarch + 2) / 5 + 1
  let month := if monthFromMarch < 10 then monthFromMarch + 3 else monthFromMarch - 9
  let year := yearOfEra + 400 * (shifted / 146097) + if month ≤ 2 then 1 else 0
  (year, month, day)

/-- The stamp `YYYY-MM-DDTHH:MM:SS.mmmZ` of a moment in milliseconds since 1970. -/
def stamp (milliseconds : Nat) : String :=
  let seconds := milliseconds / 1000
  let (year, month, day) := civilDate (seconds / 86400)
  padded 4 year ++ "-" ++ padded 2 month ++ "-" ++ padded 2 day ++ "T" ++
    padded 2 (seconds / 3600 % 24) ++ ":" ++ padded 2 (seconds / 60 % 60) ++ ":" ++
    padded 2 (seconds % 60) ++ "." ++ padded 3 (milliseconds % 1000) ++ "Z"

end LineChart.Command
