import Rulebook.Catalogue.Document
import Rulebook.Store.State

/-!
# Catalogues

A catalogue merges configuration documents into one. Fields and expressions must have names that
differ in their folded forms, within a document and across all of them; a document that breaks this
leaves no trace.
-/

namespace Rulebook

inductive CatalogueError where
  /-- A file or a folder could not be read. -/
  | unreadable
  /-- The text is no configuration document. -/
  | malformed
  | duplicateDefinition (name : String)
  | store (cause : StoreError)
deriving DecidableEq

def CatalogueError.message : CatalogueError → String
  | unreadable => "Cannot be read"
  | malformed => "No configuration"
  | duplicateDefinition name => "Duplicate definition: " ++ name
  | store cause => "Store error: " ++ cause.message

/-- The documents merged so far. -/
structure Catalogue where
  config : Config := {}
  /-- The folded names of the fields and expressions so far. -/
  seen : List String := []
deriving DecidableEq

namespace Catalogue

/-- Adds the folded forms of the names to those seen, up to the first name that is taken. -/
def addNames (seen : List String) : List String → Except CatalogueError (List String)
  | [] => .ok seen
  | name :: names =>
    let folded := foldName name
    if seen.contains folded then .error (.duplicateDefinition name)
    else addNames (seen ++ [folded]) names

def merge (c : Catalogue) (d : Config) : Except CatalogueError Catalogue := do
  let seen ← addNames c.seen d.names
  return { config := c.config.append d, seen }

def load (c : Catalogue) (text : String) : Except CatalogueError Catalogue :=
  match Config.ofRon? text with
  | none => .error .malformed
  | some d => c.merge d

/-- Tries a text. One that is refused changes nothing. -/
def attempt (c : Catalogue) (text : String) : Except CatalogueError Unit × Catalogue :=
  match c.load text with
  | .ok c' => (.ok (), c')
  | .error e => (.error e, c)

/-- The state that the documents describe. -/
def build (c : Catalogue) : Except CatalogueError State := (State.build c.config).mapError .store

end Catalogue

end Rulebook
