namespace LineChart.Markup

/-- The characters that an attribute value cannot hold as they are, each with its entity. The
ampersand comes first, since every entity brings one. -/
def entities : List (Char × List Char) :=
  [('&', "&amp;".toList), ('<', "&lt;".toList), ('>', "&gt;".toList), ('"', "&quot;".toList),
    ('\'', "&apos;".toList)]

def replaceChar (c : Char) (image s : List Char) : List Char :=
  s.flatMap fun d => if d = c then image else [d]

/-- Replaces one special character after the other throughout the text. -/
def escape (s : List Char) : List Char :=
  entities.foldl (fun s (c, image) => replaceChar c image s) s

/-- Puts the characters back in the place of their entities, from left to right. -/
def unescape : List Char → List Char
  | '&' :: 'a' :: 'm' :: 'p' :: ';' :: rest => '&' :: unescape rest
  | '&' :: 'l' :: 't' :: ';' :: rest => '<' :: unescape rest
  | '&' :: 'g' :: 't' :: ';' :: rest => '>' :: unescape rest
  | '&' :: 'q' :: 'u' :: 'o' :: 't' :: ';' :: rest => '"' :: unescape rest
  | '&' :: 'a' :: 'p' :: 'o' :: 's' :: ';' :: rest => '\'' :: unescape rest
  | c :: rest => c :: unescape rest
  | [] => []

end LineChart.Markup
