namespace LineChart.Text

/-- A pattern of characters. Of the ways in which it matches a text the first counts, as the order of
preference has it. -/
inductive Pattern where
  | one (p : Char → Bool)
  /-- Any number of characters of a class, rather more than fewer. -/
  | many (p : Char → Bool)
  /-- Any number of characters of a class, rather fewer than more. -/
  | few (p : Char → Bool)
  /-- Rather with the part than without it. -/
  | optional (a : Pattern)
  | seq (a b : Pattern)
  /-- What the part matches is kept. -/
  | group (a : Pattern)

/-- A way in which a pattern matches the front of a text: what it takes, the groups that it keeps and
what it leaves. -/
structure Match where
  taken : List Char
  groups : List (List Char)
  rest : List Char
deriving DecidableEq

def Match.append (m n : Match) : Match := ⟨m.taken ++ n.taken, m.groups ++ n.groups, n.rest⟩

/-- The texts of a class of characters that `s` starts with, the longest first. -/
def runs (p : Char → Bool) : List Char → List Match
  | [] => [⟨[], [], []⟩]
  | c :: s =>
    (if p c then (runs p s).map fun m => ⟨c :: m.taken, m.groups, m.rest⟩ else []) ++
      [⟨[], [], c :: s⟩]

namespace Pattern

instance : Append Pattern := ⟨seq⟩

def char (c : Char) : Pattern := one (· == c)

/-- The ways in which a pattern matches the front of a text, in the order of preference. A later part
that does not match sends an earlier part on to its next way. -/
def ways : Pattern → List Char → List Match
  | one _, [] => []
  | one p, c :: s => if p c then [⟨[c], [], s⟩] else []
  | many p, s => runs p s
  | few p, s => (runs p s).reverse
  | optional a, s => a.ways s ++ [⟨[], [], s⟩]
  | seq a b, s => (a.ways s).flatMap fun m => (b.ways m.rest).map m.append
  | group a, s => (a.ways s).map fun m => { m with groups := m.taken :: m.groups }

/-- The groups of the first match in a text: the leftmost place counts, and there the first way. -/
def captures? (a : Pattern) : List Char → Option (List (List Char))
  | [] => (a.ways []).head?.map Match.groups
  | c :: s => ((a.ways (c :: s)).head?.map Match.groups).or (captures? a s)

/-- `opening(.*?)closing`, within one line. -/
def enclosed (opening closing : Char) : Pattern :=
  char opening ++ group (few (· != '\n')) ++ char closing

end Pattern

end LineChart.Text
