namespace LineChart.Command

inductive SystemFault where
  | noSuchEntry
  | notFolder
  | isFolder
  | nameTooLong
  | notText
  /-- Any other fault, by the text that the system has for it. -/
  | other (text : String)
deriving DecidableEq

def SystemFault.text : SystemFault → String
  | noSuchEntry => "No such file or directory (os error 2)"
  | notFolder => "Not a directory (os error 20)"
  | isFolder => "Is a directory (os error 21)"
  | nameTooLong => "File name too long (os error 36)"
  | notText => "stream did not contain valid UTF-8"
  | other text => text

/-- The names of the folders on the way, and of the entry last. The way begins at the working folder;
a step up from there has the name `..`, and the root folder has the name `/`. -/
abbrev Location := List String

/-- The working folder is the empty location. -/
structure FileTree where
  folders : List Location
  files : List (Location × ByteArray)

inductive Entry where
  | folder
  | file (content : ByteArray)

def Entry.content : Entry → Except SystemFault ByteArray
  | folder => .error .isFolder
  | file content => .ok content

/-- The root folder, the working folder and the folders above it, which are there in every tree. -/
def isStanding (l : Location) : Bool := l == ["/"] || l.all (· == "..")

/-- The root folder lies in itself. -/
def parent (l : Location) : Location :=
  if l = ["/"] then l else if isStanding l then l ++ [".."] else l.dropLast

/-- The bytes that a name may have. -/
def nameLimit : Nat := 255

/-- The bytes that a path may have. -/
def pathLimit : Nat := 4095

namespace FileTree

def entry? (t : FileTree) (l : Location) : Option Entry :=
  if isStanding l ∨ l ∈ t.folders then some .folder else (t.files.lookup l).map .file

/-- The entry of a name in folder `l`, if there is one. -/
def seek (t : FileTree) (l : Location) (name : String) : Except SystemFault (Option Entry) :=
  if nameLimit < name.utf8ByteSize then .error .nameTooLong else .ok (t.entry? (l ++ [name]))

/-- Follows the names of folders from location `l`. -/
def descend (t : FileTree) (l : Location) : List String → Except SystemFault Location
  | [] => .ok l
  | name :: rest =>
    if name = "." then t.descend l rest
    else if name = ".." then t.descend (parent l) rest
    else
      match t.seek l name with
      | .error fault => .error fault
      | .ok none => .error .noSuchEntry
      | .ok (some (.file _)) => .error .notFolder
      | .ok (some .folder) => t.descend (l ++ [name]) rest

/-- A path taken apart: the folders on the way, the last name, and whether a slash follows it. -/
structure Route where
  folders : List String
  last : String
  slash : Bool
deriving DecidableEq

def Route.ofPath (path : String) : Route :=
  let pieces := (path.toList.splitOn '/').map String.ofList
  let names := pieces.filter (· ≠ "")
  ⟨names.dropLast, names.getLast?.getD ".", pieces.getLast? = some ""⟩

/-- Names that lead to a folder whatever the folders hold. -/
def isDots (name : String) : Bool := name == "." || name == ".."

/-- The folder that holds the last name; a path that begins with a slash begins at the root. -/
def holder (t : FileTree) (path : String) (r : Route) : Except SystemFault Location :=
  if pathLimit < path.utf8ByteSize then .error .nameTooLong
  else t.descend (if path.toList.head? = some '/' then ["/"] else []) r.folders

def find (t : FileTree) (path : String) : Except SystemFault Entry := do
  let r := Route.ofPath path
  let l ← t.holder path r
  if isDots r.last then .ok .folder
  else
    match ← t.seek l r.last with
    | none => .error .noSuchEntry
    | some .folder => .ok .folder
    | some (.file content) => if r.slash then .error .notFolder else .ok (.file content)

/-- Where a file written under `path` comes to stand. -/
def place (t : FileTree) (path : String) : Except SystemFault Location := do
  let r := Route.ofPath path
  let l ← t.holder path r
  if isDots r.last ∨ r.slash then .error .isFolder
  else
    match ← t.seek l r.last with
    | some .folder => .error .isFolder
    | _ => .ok (l ++ [r.last])

def write (t : FileTree) (path : String) (content : ByteArray) : Except SystemFault FileTree := do
  let l ← t.place path
  .ok { t with files := (l, content) :: t.files.filter (·.1 ≠ l) }

end FileTree

end LineChart.Command
