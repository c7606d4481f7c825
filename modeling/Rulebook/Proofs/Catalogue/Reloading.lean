import Rulebook.Catalogue.Document
import Rulebook.Catalogue.Folder
import Rulebook.Proofs.Catalogue.Merging
import Rulebook.Proofs.Format.Ron

/-!
# Catalogues read back

A configuration is read as the one that was written. What a catalogue holds passes its own test again, so a fresh
catalogue takes it over from its text, whatever was loaded.
-/

namespace Rulebook

namespace Config

/-! ### The fields of a configuration -/

/-- The fields under their names, in the order in which they are written. -/
def named (c : Config) : List (String × Part) :=
  [("data", .data c.data), ("expressions", .expressions c.expressions), ("rules", .rules c.rules)]

theorem forall_mem_named {c : Config} {P : String × Part → Prop} :
    (∀ p ∈ c.named, P p) ↔
      P ("data", .data c.data) ∧ P ("expressions", .expressions c.expressions) ∧ P ("rules", .rules c.rules) := by
  simp [named]

/-- The names of the fields are words that may begin a part. -/
theorem named_words {c : Config} : ∀ p ∈ c.named, Ron.isWord p.1.toList = true ∧ Begins Visible p.1.toList := by
  have words : Ron.isWord "data".toList = true ∧ Ron.isWord "expressions".toList = true ∧
      Ron.isWord "rules".toList = true := by decide
  have data : Begins Visible "data".toList := ⟨'d', _, rfl, by decide⟩
  have expressions : Begins Visible "expressions".toList := ⟨'e', _, rfl, by decide⟩
  have rules : Begins Visible "rules".toList := ⟨'r', _, rfl, by decide⟩
  exact forall_mem_named.mpr ⟨⟨words.1, data⟩, ⟨words.2.1, expressions⟩, ⟨words.2.2, rules⟩⟩

theorem ofParts?_named (c : Config) : ofParts? (c.named.map Prod.snd) = some c := rfl

/-- An entry with a text before the colon, on one line. -/
def pair (key : String) (part : List Char) : List Char := Ron.quote key.toList ++ ':' :: part

def Part.ron : Part → List Char
  | .data fs => inlineBracket '\x7b' '\x7d' (fs.entries.map fun p => pair p.1 (Ron.ofValue p.2))
  | .expressions t => inlineBracket '\x7b' '\x7d' (t.entries.map fun p => pair p.1 (Ron.quote p.2.toList))
  | .rules l => inlineBracket '[' ']' (l.map fun s => Ron.quote s.toList)
  | .other => []

theorem toRon_eq (c : Config) :
    c.toRon = String.ofList (inlineBracket '(' ')' (c.named.map fun p => p.1.toList ++ ':' :: p.2.ron)) := by
  have data : "data:".toList = "data".toList ++ [':'] := rfl
  have expressions : "expressions:".toList = "expressions".toList ++ [':'] := rfl
  have rules : "rules:".toList = "rules".toList ++ [':'] := rfl
  simp only [toRon, data, expressions, rules, List.append_assoc, List.singleton_append]
  rfl

theorem quote_visible (s : String) : Begins Visible (Ron.quote s.toList) := ⟨'"', _, rfl, by decide⟩

theorem quote_readable (s : String) : Readable Ron.Ends Ron.text (Ron.quote s.toList) s :=
  ⟨quote_visible s, fun rest _ => Ron.text_quote s rest⟩

theorem pair_readable {α : Type} {value : List Char → Option (α × List Char)} {part : List Char} {a : α}
    (key : String) (readable : Readable Ron.Ends value part a) :
    Readable Ron.Ends (Ron.entry Ron.text fun _ => value) (pair key part) (key, a) := by
  rw [pair, List.append_cons]
  exact Ron.entry_readable (quote_visible key) (fun cs => Ron.text_quote key (':' :: cs)) rfl readable

variable {c : Config}

theorem readPart_readable (exts : Ron.Extensions) :
    ∀ p ∈ c.named, Readable Ron.Ends (readPart exts p.1) p.2.ron p.2 := by
  refine forall_mem_named.mpr ⟨⟨⟨'\x7b', _, rfl, by decide⟩, fun rest _ => ?_⟩,
    ⟨⟨'\x7b', _, rfl, by decide⟩, fun rest _ => ?_⟩, ⟨⟨'[', _, rfl, by decide⟩, fun rest _ => ?_⟩⟩
  · have read : Ron.map Ron.value ((Part.data c.data).ron ++ rest) = some (c.data.entries, rest) :=
      Ron.bracketed_inline (fun p _ => pair_readable p.1 (Ron.value_readable p.2)) (by decide) rest
    simp [readPart, Ron.fields, read, Table.ofList_entries]
  · have read : Ron.map Ron.text ((Part.expressions c.expressions).ron ++ rest) = some (c.expressions.entries, rest) :=
      Ron.bracketed_inline (fun p _ => pair_readable p.1 (quote_readable p.2)) (by decide) rest
    simp [readPart, read, Table.ofList_entries]
  · have read : Ron.list Ron.text ((Part.rules c.rules).ron ++ rest) = some (c.rules, rest) :=
      Ron.bracketed_inline (fun s _ => quote_readable s) (by decide) rest
    simp [readPart, read]

/-- Whatever the names, the sentences and the values are, a configuration is read as it was written. -/
theorem ofRon?_toRon (c : Config) : ofRon? c.toRon = some c := by
  have readable : ∀ p ∈ c.named, Readable Ron.Ends (Ron.entry Ron.identifier (readPart {}))
      (p.1.toList ++ ':' :: p.2.ron) p := by
    intro p member
    obtain ⟨word, visible⟩ := named_words p member
    rw [List.append_cons]
    exact Ron.entry_readable visible (Ron.identifier_name word) rfl (readPart_readable {} p member)
  have read : Ron.bracketed '(' ')' (Ron.entry Ron.identifier (readPart {}))
      (inlineBracket '(' ')' (c.named.map fun p => p.1.toList ++ ':' :: p.2.ron) ++ []) = some (c.named, []) :=
    Ron.bracketed_inline readable (by decide) []
  rw [List.append_nil] at read
  have document : Ron.document (fun exts => Ron.record exts.explicitNames recordName (readPart exts)) c.toRon =
      some c.named := by
    rw [toRon_eq]
    refine Ron.document_of_read ?_ ?_
    · rw [String.toList_ofList]
      exact ⟨'(', _, rfl, rfl⟩
    · rw [String.toList_ofList]
      exact Ron.record_of_bracketed ⟨'(', _, rfl, rfl⟩ read
  simp only [ofRon?, document, Option.bind_some, ofParts?_named]

theorem append_of_empty (d : Config) : ({} : Config).append d = d := by
  rw [append, List.nil_append]
  exact congrArg₂ (fun data expressions => Config.mk data expressions d.rules) (Table.ofList_entries d.data)
    (Table.ofList_entries d.expressions)

end Config

namespace Catalogue

variable {c : Catalogue} {docs : List Config}

/-! ### Loads -/

/-- The catalogue after the loads, of which some may have been refused. -/
def ofLoads (loads : List Load) : Catalogue := (inTurn perform {} loads).2

theorem attempt_eq (c : Catalogue) (text : String) : c.attempt text = c.loadAll [some text] := by
  rw [attempt, loadAll]
  cases c.load text <;> rfl

/-- A load merges texts in turn, if it finds anything. -/
theorem perform_eq (c : Catalogue) (load : Load) :
    c.perform load = (.error .unreadable, c) ∨ ∃ texts, c.perform load = c.loadAll texts := by
  cases load with
  | text text => exact .inr ⟨_, c.attempt_eq text⟩
  | file e? =>
    rcases e? with _ | content | entries
    · exact .inl rfl
    · exact .inr ⟨[some content], rfl⟩
    · exact .inl rfl
  | folder e? =>
    rw [perform, loadFolder]
    split
    · exact .inr ⟨_, rfl⟩
    · exact .inl rfl

theorem Merged.loadAll (merged : c.Merged docs) (texts : List (Option String)) :
    ∃ docs, (c.loadAll texts).2.Merged docs := by
  induction texts generalizing c docs with
  | nil => exact ⟨docs, merged⟩
  | cons text? texts ih =>
    cases text? with
    | none => exact ⟨docs, merged⟩
    | some text =>
      rw [Catalogue.loadAll]
      cases loaded : c.load text with
      | error e => exact ⟨docs, merged⟩
      | ok c' =>
        obtain ⟨d, _, merges⟩ := exists_read_of_load loaded
        exact ih (merged.merge merges)

theorem Merged.perform (merged : c.Merged docs) (load : Load) : ∃ docs, (c.perform load).2.Merged docs := by
  rcases c.perform_eq load with same | ⟨texts, same⟩
  · rw [same]
    exact ⟨docs, merged⟩
  · rw [same]
    exact merged.loadAll texts

theorem merged_ofLoads (loads : List Load) : ∃ docs, (ofLoads loads).Merged docs := by
  have kept : ∀ (c : Catalogue) (load : Load), (∃ docs, c.Merged docs) → ∃ docs, (c.perform load).2.Merged docs :=
    fun _ load ⟨_, merged⟩ => merged.perform load
  exact inTurn_keeps kept ⟨[], merged_nil⟩ loads

/-- A catalogue that holds documents passes its own test again. -/
theorem Merged.merge_fresh (merged : c.Merged docs) :
    ({} : Catalogue).merge c.config = .ok { config := c.config, seen := c.config.folded } := by
  have distinct : c.config.folded.Nodup := merged.seen_perm.nodup_iff.mp merged.distinct
  refine merged_nil.merge_ok_iff.mpr ⟨distinct, ?_⟩
  rw [Config.append_of_empty]
  rfl

/-- Whatever was loaded, a fresh catalogue accepts the text of the configuration. It then holds the same fields,
expressions and rules in the same order, and has seen the same names. -/
theorem written_config_reloads (loads : List Load) :
    ∃ c, ({} : Catalogue).load (ofLoads loads).config.toRon = .ok c ∧ c.config = (ofLoads loads).config ∧
      c.seen.Perm (ofLoads loads).seen := by
  obtain ⟨docs, merged⟩ := merged_ofLoads loads
  have loaded : ({} : Catalogue).load (ofLoads loads).config.toRon = .ok ⟨(ofLoads loads).config, _⟩ :=
    (load_of_read (Config.ofRon?_toRon _)).trans merged.merge_fresh
  exact ⟨_, loaded, rfl, merged.seen_perm.symm⟩

end Catalogue

end Rulebook
