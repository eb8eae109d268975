/-!
# Folders

A picture of a folder, from which scripts can be read without touching the
disk.

A path is followed name by name from the top of the folder. Each step has to
start in a folder, also a step that stays where it is, so a slash after the
name of a file leads nowhere. A path that leaves the top, or that does not
start there, leads nowhere either, since the picture shows nothing outside.

## Main definitions

* `Entry`: A file or a folder.
* `Folder`: Files and folders by their position.
* `Folder.insert`: The folder with another entry.
* `Folder.read?`: The text of a path.
-/

namespace PrefixScript

namespace CommandLine

/-- What a position in a folder holds. -/
inductive Entry where
  | file (content : ByteArray)
  | folder

/-- Files and folders by their position, which is the list of names that lead
    there from the top. A later entry replaces an earlier one at its position
    and is listed in front of it. -/
structure Folder where
  entries : List (List String × Entry)

namespace Folder

/-- A folder with nothing in it. -/
def empty : Folder :=
  ⟨[]⟩

/-- The names and signs between the slashes of a path. -/
def steps (path : String) : List String :=
  (path.toList.splitOn '/').map String.ofList

/-- What is at a position. The top, and every position above another one, is a
    folder without being listed as one. -/
def find? (folder : Folder) (position : List String) : Option Entry :=
  match folder.entries.lookup position with
  | some entry => some entry
  | none =>
    if folder.entries.any (fun entry => position.isPrefixOf entry.1) || position.isEmpty then
      some .folder
    else none

/-- The position one step further on, if the step can be taken. -/
def step? (folder : Folder) (position : List String) (step : String) : Option (List String) :=
  match folder.find? position with
  | some .folder =>
    if step = "" ∨ step = "." then some position
    else if step = ".." then (if position.isEmpty then none else some position.dropLast)
    else some (position ++ [step])
  | _ => none

/-- The position that a path leads to. A path that starts with a slash starts
    elsewhere. -/
def position? (folder : Folder) (path : String) : Option (List String) :=
  if path.toList.head? = some '/' then none
  else (steps path).foldlM folder.step? []

/-- The folder with another entry. -/
def insert (folder : Folder) (path : String) (entry : Entry) : Folder :=
  ⟨((steps path).filter fun name => name ≠ "" ∧ name ≠ ".", entry) :: folder.entries⟩

/-- The text of a path, if it leads to a file and the file is valid UTF-8. -/
def read? (folder : Folder) (path : String) : Option String :=
  match (folder.position? path).bind folder.find? with
  | some (.file content) => String.fromUTF8? content
  | _ => none

end Folder

end CommandLine

end PrefixScript
