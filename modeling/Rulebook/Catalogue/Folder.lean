import Rulebook.Catalogue.Basic

/-!
# Folders

The documents of a folder are visited in the order of their names, and those of a folder inside it
where that folder's name stands. A name decides what is a document before it is looked at: a folder
with the name of a document cannot be read.
-/

namespace Rulebook

/-- What a folder holds under a name. -/
inductive Entry where
  | file (content : String)
  | folder (entries : List (String × Entry))

/-- Whether a name is that of a document. A name that is nothing but the ending is not. -/
def isDocumentName (name : String) : Bool :=
  let cs := name.toList
  ".ron".toList.isSuffixOf cs && cs.length ≠ 4

namespace Entry

def inNameOrder (entries : List (String × Entry)) : List (String × Entry) :=
  entries.mergeSort fun p q => p.1 ≤ q.1

mutual

/-- The entry with the entries of every folder in the order of their names. -/
def sorted : Entry → Entry
  | file content => file content
  | folder entries => folder (inNameOrder (sortedEntries entries))

/-- The entries, each sorted inside. -/
def sortedEntries : List (String × Entry) → List (String × Entry)
  | [] => []
  | (name, e) :: rest => (name, e.sorted) :: sortedEntries rest

end

mutual

/-- The documents of an entry under a name, in their order; `none` stands for a folder with the name of
a document. -/
def documents (name : String) : Entry → List (Option String)
  | file content => if isDocumentName name then [some content] else []
  | folder entries => if isDocumentName name then [none] else documentsOf entries

/-- The documents of the entries of a folder. -/
def documentsOf : List (String × Entry) → List (Option String)
  | [] => []
  | (name, e) :: rest => e.documents name ++ documentsOf rest

end

/-- The documents to visit in a folder. -/
def visits : Entry → Option (List (Option String))
  | file _ => none
  | folder entries =>
    match (folder entries).sorted with
    | folder entries => some (documentsOf entries)
    | file _ => none

/-- What is found by following names from an entry, which lies in the folders `above`, the innermost
first. One point or no name at all stands for a folder itself, two points for the one that it lies in;
from a file there is no way on. -/
def follow (above : List Entry) : List String → Entry → Option Entry
  | [], e => some e
  | _ :: _, file _ => none
  | name :: names, folder entries =>
    match name, above with
    | "", _ | ".", _ => follow above names (folder entries)
    | "..", [] => none
    | "..", around :: above => follow above names around
    | name, _ =>
      match entries.find? fun p => p.1 = name with
      | some (_, e) => follow (folder entries :: above) names e
      | none => none

/-- What a path points at in a folder. A path that begins with a slash does not start there. -/
def find? (e : Entry) (path : String) : Option Entry :=
  if path.startsWith "/" then none else follow [] (path.splitOn "/") e

end Entry

namespace Catalogue

/-- Merges documents in turn up to the first that is refused. Those before it stay merged. -/
def loadAll (c : Catalogue) : List (Option String) → Except CatalogueError Unit × Catalogue
  | [] => (.ok (), c)
  | none :: _ => (.error .unreadable, c)
  | some text :: rest =>
    match c.load text with
    | .error e => (.error e, c)
    | .ok c => c.loadAll rest

def loadFile (c : Catalogue) (e? : Option Entry) : Except CatalogueError Unit × Catalogue :=
  match e? with
  | some (.file content) => c.loadAll [some content]
  | _ => (.error .unreadable, c)

/-- Merges the documents in a folder and the folders inside it. -/
def loadFolder (c : Catalogue) (e? : Option Entry) : Except CatalogueError Unit × Catalogue :=
  match e?.bind Entry.visits with
  | some texts => c.loadAll texts
  | none => (.error .unreadable, c)

/-- What can be loaded: a text, a file or a folder. There may be neither where one was looked for. -/
inductive Load where
  | text (text : String)
  | file (e? : Option Entry)
  | folder (e? : Option Entry)

/-- Loads something. A folder that is refused leaves the documents before the one at fault. -/
def perform (c : Catalogue) : Load → Except CatalogueError Unit × Catalogue
  | .text text => c.attempt text
  | .file e? => c.loadFile e?
  | .folder e? => c.loadFolder e?

end Catalogue

end Rulebook
