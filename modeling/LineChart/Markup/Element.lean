import LineChart.Markup.Entity

namespace LineChart.Markup

/-- A markup element without text of its own: attributes in the order they are written, repeated keys
included, and elements within. -/
structure Element where
  name : String
  attributes : List (String × String) := []
  children : List Element := []

def attributeChars (entry : String × String) : List Char :=
  ' ' :: entry.1.toList ++ "=\"".toList ++ escape entry.2.toList ++ ['"']

def margin (depth : Nat) : List Char := List.replicate (2 * depth) ' '

/-- An opening tag up to its closing bracket. -/
def tagChars (name : String) (attributes : List (String × String)) : List Char :=
  '<' :: name.toList ++ attributes.flatMap attributeChars

mutual

/-- The lines of an element, indented by two blanks for every element around it. -/
def Element.chars (depth : Nat) : Element → List Char
  | ⟨name, attributes, children⟩ =>
    margin depth ++ tagChars name attributes ++
      if children.isEmpty then "/>\n".toList
      else
        ">\n".toList ++ listChars (depth + 1) children ++
          margin depth ++ "</".toList ++ name.toList ++ ">\n".toList

def listChars (depth : Nat) : List Element → List Char
  | [] => []
  | e :: es => e.chars depth ++ listChars depth es

end

def declaration : List Char := "<?xml version=\"1.0\" encoding=\"UTF-8\"?>\n".toList

/-- A whole document with `e` as its root. -/
def Element.document (e : Element) : String := String.ofList (declaration ++ e.chars 0)

end LineChart.Markup
