import LineChart.Diagram.Color

namespace LineChart

inductive Align where
  | center
  | right
deriving DecidableEq

def Align.text : Align → String
  | center => "center"
  | right => "right"

inductive VerticalAlign where
  | top
  | middle
  | bottom
deriving DecidableEq

def VerticalAlign.text : VerticalAlign → String
  | top => "top"
  | middle => "middle"
  | bottom => "bottom"

/-- What can stand as the value of a style entry. -/
class StyleValue (α : Type) where
  text : α → String

instance : StyleValue String := ⟨id⟩

instance : StyleValue Int := ⟨toString⟩

instance : StyleValue Nat := ⟨toString⟩

instance : StyleValue Color := ⟨Color.text⟩

instance : StyleValue Align := ⟨Align.text⟩

instance : StyleValue VerticalAlign := ⟨VerticalAlign.text⟩

/-- The style of a cell: keywords and `key=value` entries, each ended by a semicolon. -/
structure Style where
  text : String
deriving DecidableEq

namespace Style

def empty : Style := ⟨""⟩

def flag (s : Style) (name : String) : Style := ⟨s.text ++ name ++ ";"⟩

def set {α : Type} [StyleValue α] (s : Style) (key : String) (value : α) : Style :=
  ⟨s.text ++ key ++ "=" ++ StyleValue.text value ++ ";"⟩

/-- Without the semicolon at the end, if there is one. -/
def unterminated (s : Style) : Style :=
  if s.text.toList.getLast? = some ';' then ⟨String.ofList s.text.toList.dropLast⟩ else s

def axis : Style :=
  empty.set "endArrow" "classic" |>.set "html" 1 |>.set "rounded" 0 |>.set "strokeWidth" 2
    |>.set "startSize" 8 |>.set "endSize" 8

def gridline : Style :=
  empty.set "endArrow" "none" |>.set "html" 1 |>.set "rounded" 0
    |>.set "strokeColor" Color.gridGray |>.set "dashed" 1

def dataLine : Style :=
  empty.set "endArrow" "none" |>.set "html" 1 |>.set "rounded" 0 |>.set "strokeWidth" 2
    |>.set "strokeColor" Color.lineBlue

/-- A disc with its value above it on a white ground. -/
def marker : Style :=
  empty.flag "ellipse" |>.set "whiteSpace" "wrap" |>.set "html" 1 |>.set "aspect" "fixed"
    |>.set "fillColor" Color.markerRed |>.set "strokeColor" Color.clear
    |>.set "verticalLabelPosition" VerticalAlign.top |>.set "verticalAlign" VerticalAlign.bottom
    |>.set "fontSize" 11 |>.set "fontStyle" 1 |>.set "labelBackgroundColor" Color.white

def textBox (align : Align) (vertical : VerticalAlign) : Style :=
  empty.flag "text" |>.set "html" 1 |>.set "strokeColor" Color.clear |>.set "fillColor" Color.clear
    |>.set "align" align |>.set "verticalAlign" vertical |>.set "whiteSpace" "wrap"
    |>.set "rounded" 0

def title : Style :=
  (textBox .center .middle |>.set "fontSize" 18 |>.set "fontStyle" 1).unterminated

end Style

inductive StyleEntry where
  | flag (name : List Char)
  | pair (key value : List Char)
deriving DecidableEq

def StyleEntry.ofChars (s : List Char) : StyleEntry :=
  match s.dropWhile (· != '=') with
  | _ :: value => .pair (s.takeWhile (· != '=')) value
  | [] => .flag s

/-- The entries of a style in the order they are written. -/
def Style.entries (s : Style) : List StyleEntry :=
  ((s.text.toList.splitOn ';').filter (· ≠ [])).map .ofChars

end LineChart
