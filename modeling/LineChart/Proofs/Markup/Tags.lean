import LineChart.Markup.Element

namespace LineChart.Markup

/-- The name of an element with its attributes. -/
abbrev Tag : Type := String × List (String × String)

mutual

/-- The tags of an element and of all elements within, in the order in which they are opened. -/
def Element.tags : Element → List Tag
  | ⟨name, attributes, children⟩ => (name, attributes) :: listTags children

def listTags : List Element → List Tag
  | [] => []
  | e :: es => e.tags ++ listTags es

end

theorem listTags_eq_flatMap (es : List Element) : listTags es = es.flatMap Element.tags := by
  induction es with
  | nil => rfl
  | cons e es ih => rw [listTags, ih, List.flatMap_cons]

/-! ## Values replaced -/

def Tag.mapValues (f : String → String) (tag : Tag) : Tag := (tag.1, tag.2.map (Prod.map id f))

mutual

/-- The element with every attribute value replaced. -/
def Element.mapValues (f : String → String) : Element → Element
  | ⟨name, attributes, children⟩ =>
    ⟨name, attributes.map (Prod.map id f), listMapValues f children⟩

def listMapValues (f : String → String) : List Element → List Element
  | [] => []
  | e :: es => e.mapValues f :: listMapValues f es

end

theorem listMapValues_eq_map (f : String → String) (es : List Element) :
    listMapValues f es = es.map (Element.mapValues f) := by
  induction es with
  | nil => rfl
  | cons e es ih => rw [listMapValues, ih, List.map_cons]

mutual

theorem Element.tags_mapValues (f : String → String) : ∀ e : Element,
    (e.mapValues f).tags = e.tags.map (Tag.mapValues f)
  | ⟨name, attributes, children⟩ => by
    rw [Element.mapValues, Element.tags, Element.tags, List.map_cons,
      listTags_listMapValues f children]
    rfl

theorem listTags_listMapValues (f : String → String) : ∀ es : List Element,
    listTags (listMapValues f es) = (listTags es).map (Tag.mapValues f)
  | [] => rfl
  | e :: es => by
    rw [listMapValues, listTags, listTags, List.map_append, e.tags_mapValues f,
      listTags_listMapValues f es]

end

mutual

theorem Element.mapValues_mapValues (f g : String → String) : ∀ e : Element,
    (e.mapValues f).mapValues g = e.mapValues (g ∘ f)
  | ⟨name, attributes, children⟩ => by
    simp [Element.mapValues, listMapValues_listMapValues f g children]

theorem listMapValues_listMapValues (f g : String → String) : ∀ es : List Element,
    listMapValues g (listMapValues f es) = listMapValues (g ∘ f) es
  | [] => rfl
  | e :: es => by
    rw [listMapValues, listMapValues, listMapValues, e.mapValues_mapValues f g,
      listMapValues_listMapValues f g es]

end

end LineChart.Markup
