import LineChart.Markup.Element
import LineChart.Text.Blank

namespace LineChart.Markup

open Text

def reservedChars : List Char := ['<', '>', '/', '=', '"', '\'', '&']

/-- The characters that names of elements and attributes are made of. -/
def isNameChar (c : Char) : Bool := !isBlank c && !reservedChars.contains c

def skipBlanks (s : List Char) : List Char := s.dropWhile isBlank

/-- An attribute `key="value"`, its value without entities. -/
def readAttribute? (s : List Char) : Option ((String × String) × List Char) :=
  let key := s.takeWhile isNameChar
  match s.dropWhile isNameChar with
  | '=' :: '"' :: rest =>
    match rest.dropWhile (· != '"') with
    | _ :: after =>
      if key = [] then none
      else some ((.ofList key, .ofList (unescape (rest.takeWhile (· != '"')))), after)
    | [] => none
  | _ => none

/-- Attributes for as long as a name follows. -/
def readAttributes? : Nat → List Char → Option (List (String × String) × List Char)
  | 0, _ => none
  | fuel + 1, s =>
    match skipBlanks s with
    | [] => some ([], [])
    | c :: rest =>
      if isNameChar c then do
        let (entry, rest) ← readAttribute? (c :: rest)
        let (entries, rest) ← readAttributes? fuel rest
        return (entry :: entries, rest)
      else some ([], c :: rest)

mutual

def readElement? : Nat → List Char → Option (Element × List Char)
  | 0, _ => none
  | fuel + 1, s =>
    match skipBlanks s with
    | '<' :: rest => do
      let name := rest.takeWhile isNameChar
      guard (name ≠ [])
      let (attributes, rest) ← readAttributes? fuel (rest.dropWhile isNameChar)
      match rest with
      | '/' :: '>' :: rest => some (⟨.ofList name, attributes, []⟩, rest)
      | '>' :: rest => do
        let (children, rest) ← readChildren? fuel rest
        let rest ← (name ++ ['>']).isPrefixOf? rest
        return (⟨.ofList name, attributes, children⟩, rest)
      | _ => none
    | _ => none

/-- The elements up to a closing tag, whose opening bracket and slash are taken too. -/
def readChildren? : Nat → List Char → Option (List Element × List Char)
  | 0, _ => none
  | fuel + 1, s =>
    match skipBlanks s with
    | '<' :: '/' :: rest => some ([], rest)
    | rest => do
      let (e, rest) ← readElement? fuel rest
      let (es, rest) ← readChildren? fuel rest
      return (e :: es, rest)

end

/-- The root element of a document. -/
def Element.ofDocument? (text : String) : Option Element := do
  let s ← declaration.isPrefixOf? text.toList
  let (e, rest) ← readElement? (s.length + 1) s
  guard (skipBlanks rest = [])
  return e

end LineChart.Markup
