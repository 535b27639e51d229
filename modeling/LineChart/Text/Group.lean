namespace LineChart.Text

/-- What stands between the first `opening` and the first `closing` after it. -/
def between? (opening closing : Char) (s : List Char) : Option (List Char) :=
  match s.dropWhile (· != opening) with
  | [] => none
  | _ :: rest => if closing ∈ rest then some (rest.takeWhile (· != closing)) else none

end LineChart.Text
