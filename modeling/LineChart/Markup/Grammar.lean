import LineChart.Markup.Element
import LineChart.Text.Blank

namespace LineChart.Markup.Grammar

open Text

/-! The grammar of XML 1.0 for documents that consist of the declaration, elements and white space,
together with what a processor reports of them. -/

/-- The characters that a document can hold (Char). -/
def charRanges : List (Nat × Nat) :=
  [(0x9, 0xA), (0xD, 0xD), (0x20, 0xD7FF), (0xE000, 0xFFFD), (0x10000, 0x10FFFF)]

def isChar (c : Char) : Bool := inRanges charRanges c

def OnlyChars (s : List Char) : Prop := ∀ c ∈ s, isChar c

/-- White space (S). -/
def isSpace (c : Char) : Bool := inRanges [(0x9, 0xA), (0xD, 0xD), (0x20, 0x20)] c

def nameStartRanges : List (Nat × Nat) :=
  [(0x3A, 0x3A), (0x41, 0x5A), (0x5F, 0x5F), (0x61, 0x7A), (0xC0, 0xD6), (0xD8, 0xF6),
    (0xF8, 0x2FF), (0x370, 0x37D), (0x37F, 0x1FFF), (0x200C, 0x200D), (0x2070, 0x218F),
    (0x2C00, 0x2FEF), (0x3001, 0xD7FF), (0xF900, 0xFDCF), (0xFDF0, 0xFFFD), (0x10000, 0xEFFFF)]

/-- What a name begins with (NameStartChar). -/
def isNameStart (c : Char) : Bool := inRanges nameStartRanges c

/-- What a name goes on with (NameChar). -/
def isNamePart (c : Char) : Bool :=
  isNameStart c ||
    inRanges [(0x2D, 0x2E), (0x30, 0x39), (0xB7, 0xB7), (0x300, 0x36F), (0x203F, 0x2040)] c

/-- A name, of an element or of an attribute (Name). -/
def IsName (name : String) : Prop :=
  ∃ c rest, name.toList = c :: rest ∧ isNameStart c ∧ ∀ d ∈ rest, isNamePart d

def IsSpaces (s : List Char) : Prop := ∀ c ∈ s, isSpace c

/-- Every line end becomes a single line feed before anything else is read (2.11). -/
def normalizeLineEnds : List Char → List Char
  | '\r' :: '\n' :: s => '\n' :: normalizeLineEnds s
  | '\r' :: s => '\n' :: normalizeLineEnds s
  | c :: s => c :: normalizeLineEnds s
  | [] => []

/-- In an attribute value white space counts as a blank. -/
def asBlank (c : Char) : Char := if isSpace c then ' ' else c

/-- What may stand between two quotes, with the attribute value that it is read as (AttValue and
3.3.3): an entity is read as the character it stands for. -/
inductive IsValue (quote : Char) : List Char → List Char → Prop
  | nil : IsValue quote [] []
  | plain {c : Char} {s value : List Char} (hc : c ∉ ['<', '&', quote])
      (hs : IsValue quote s value) : IsValue quote (c :: s) (asBlank c :: value)
  | entity {c : Char} {image s value : List Char} (hc : (c, image) ∈ entities)
      (hs : IsValue quote s value) : IsValue quote (image ++ s) (c :: value)

/-- An attribute with the white space before it (Attribute). -/
inductive IsAttribute : List Char → String × String → Prop
  | mk {key value : String} {gap before after raw : List Char} {quote : Char} (hne : gap ≠ [])
      (hgap : IsSpaces gap) (hkey : IsName key) (hbefore : IsSpaces before)
      (hafter : IsSpaces after) (hquote : quote ∈ ['"', '\''])
      (hraw : IsValue quote raw value.toList) :
      IsAttribute (gap ++ (key.toList ++ (before ++ '=' :: (after ++ quote :: (raw ++ [quote])))))
        (key, value)

inductive IsAttributes : List Char → List (String × String) → Prop
  | nil : IsAttributes [] []
  | cons {a s : List Char} {entry : String × String} {attributes : List (String × String)}
      (ha : IsAttribute a entry) (hs : IsAttributes s attributes) :
      IsAttributes (a ++ s) (entry :: attributes)

/-- The inside of a tag, no attribute of which is given twice (STag and EmptyElemTag). -/
inductive IsTag : List Char → String → List (String × String) → Prop
  | mk {name : String} {attributes : List (String × String)} {s gap : List Char}
      (hname : IsName name) (hs : IsAttributes s attributes)
      (hkeys : (attributes.map Prod.fst).Nodup) (hgap : IsSpaces gap) :
      IsTag (name.toList ++ (s ++ gap)) name attributes

/-- Elements with white space between them (content). -/
inductive IsContent : List Char → List Element → Prop
  | nil : IsContent [] []
  | blank {c : Char} {s : List Char} {es : List Element} (hc : isSpace c) (hs : IsContent s es) :
      IsContent (c :: s) es
  | leaf {tag s : List Char} {name : String} {attributes : List (String × String)}
      {es : List Element} (htag : IsTag tag name attributes) (hs : IsContent s es) :
      IsContent ('<' :: (tag ++ '/' :: '>' :: s)) (⟨name, attributes, []⟩ :: es)
  | nested {tag inner gap s : List Char} {name : String} {attributes : List (String × String)}
      {children es : List Element} (htag : IsTag tag name attributes)
      (hinner : IsContent inner children) (hgap : IsSpaces gap) (hs : IsContent s es) :
      IsContent ('<' :: (tag ++ '>' :: (inner ++ '<' :: '/' :: (name.toList ++ (gap ++ '>' :: s)))))
        (⟨name, attributes, children⟩ :: es)

/-- The document is well-formed, and a processor reports `root` as its root element. -/
def Reports (document : String) (root : Element) : Prop :=
  OnlyChars document.toList ∧
    ∃ s, normalizeLineEnds document.toList = declaration ++ s ∧ IsContent s [root]

def IsWellFormed (document : String) : Prop := ∃ root, Reports document root

end LineChart.Markup.Grammar
