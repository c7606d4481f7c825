import Rulebook.History.Archive
import Rulebook.Proofs.Format.Json
import Rulebook.Proofs.Format.Ron
import Rulebook.Proofs.History.Playback

/-!
# Archives read back

An archive is read as the one that was written, and so a history, or a range of its versions, comes back from
its archive in either notation. `History.archives_restore` adds that stores of the same fields take it over.
-/

namespace Rulebook

namespace Archive

/-! ### The fields of an archive -/

/-- The fields under their names, in the order in which they are written. -/
def named (a : Archive) : List (String × Part) :=
  [("version", .version a.version), ("exported_at", .exportedAt a.exportedAt),
    ("first_version", .firstVersion a.firstVersion), ("snapshots", .snapshots a.snapshots)]

theorem forall_mem_named {a : Archive} {P : String × Part → Prop} :
    (∀ p ∈ a.named, P p) ↔
      P ("version", .version a.version) ∧ P ("exported_at", .exportedAt a.exportedAt) ∧
        P ("first_version", .firstVersion a.firstVersion) ∧ P ("snapshots", .snapshots a.snapshots) := by
  simp [named]

theorem ofParts?_named (a : Archive) : ofParts? (a.named.map Prod.snd) = some a := rfl

theorem mem_fieldNames {a : Archive} {p : String × Part} (member : p ∈ a.named) : p.1 ∈ fieldNames :=
  List.mem_map_of_mem (f := Prod.fst) member

theorem fieldNames_visible {name : String} (member : name ∈ fieldNames) : Begins Visible name.toList := by
  revert name
  simp only [fieldNames, List.forall_mem_cons]
  refine ⟨?_, ?_, ?_, ?_, fun _ none => nomatch none⟩
  · exact ⟨'v', _, rfl, by decide⟩
  · exact ⟨'e', _, rfl, by decide⟩
  · exact ⟨'f', _, rfl, by decide⟩
  · exact ⟨'s', _, rfl, by decide⟩

/-- The numbers fit into the 32 and the 64 bits that their readers allow. -/
structure Fits (a : Archive) : Prop where
  version : a.version < UInt32.size
  firstVersion : a.firstVersion < UInt64.size

theorem moment_text (t : Timestamp) (rest : List Char) : moment (t.text, rest) = some (t, rest) := by
  rw [moment, Timestamp.ofText?_text]
  rfl

variable {a : Archive}

/-! ### Object notation -/

def Part.ron : Part → List Char
  | .version n | .firstVersion n => Nat.toDigits 10 n
  | .exportedAt t => Ron.quote t.text.toList
  | .snapshots h => Ron.layout.bracket 1 '[' ']' (h.map (Ron.ofFields 2))
  | .other => []

theorem toRon_eq (a : Archive) :
    a.toRon = String.ofList
      (Ron.layout.bracket 0 '(' ')' (a.named.map fun p => p.1.toList ++ [':', ' '] ++ p.2.ron)) := rfl

theorem ronPart_readable (fits : a.Fits) (exts : Ron.Extensions) :
    ∀ p ∈ a.named, Readable Ron.Ends (ronPart exts p.1) p.2.ron p.2 := by
  have version := fits.version
  have firstVersion := fits.firstVersion
  simp only [UInt32.size, UInt64.size] at version firstVersion
  refine forall_mem_named.mpr
    ⟨⟨decimal_visible _, fun rest ends => ?_⟩, ⟨⟨'"', _, rfl, by decide⟩, fun rest _ => ?_⟩,
      ⟨decimal_visible _, fun rest ends => ?_⟩, ⟨Ron.layout.bracket_begins _ _ (by decide), fun rest _ => ?_⟩⟩
  · have held : Ron.Kind.u32.holds a.version = true := by
      simp [Ron.Kind.holds, Ron.Kind.least, Ron.Kind.greatest]
      omega
    have read := Ron.ofKind_decimal held (by omega) ends
    simp [ronPart, Part.ron, read]
  · simp [ronPart, Part.ron, Ron.text_quote, moment_text]
  · have held : Ron.Kind.u64.holds a.firstVersion = true := by
      simp [Ron.Kind.holds, Ron.Kind.least, Ron.Kind.greatest]
      omega
    have read := Ron.ofKind_decimal held firstVersion ends
    simp [ronPart, Part.ron, read]
  · have read := Ron.snapshots_read 1 a.snapshots rest
    simp [ronPart, Part.ron, read]

theorem ofRon?_toRon (fits : a.Fits) : ofRon? a.toRon = some a := by
  have words : ∀ name ∈ fieldNames, Ron.isWord name.toList = true := by decide
  have readable : ∀ p ∈ a.named, Readable Ron.Ends (Ron.entry Ron.identifier (ronPart {}))
      (p.1.toList ++ [':', ' '] ++ p.2.ron) p := by
    intro p member
    have name := mem_fieldNames member
    exact Ron.entry_readable (fieldNames_visible name) (Ron.identifier_name (words p.1 name)) (by decide)
      (ronPart_readable fits {} p member)
  have read := Ron.record_bracket readable "ExportData" 0 []
  rw [List.append_nil] at read
  have document : Ron.document (fun exts => Ron.record exts.explicitNames "ExportData" (ronPart exts)) a.toRon =
      some a.named := by
    rw [toRon_eq]
    refine Ron.document_of_read ?_ ?_
    · rw [String.toList_ofList]
      exact Ron.layout.bracket_begins 0 _ rfl
    · rw [String.toList_ofList]
      exact read
  simp only [ofRon?, document, Option.bind_some, ofParts?_named]

/-! ### JSON -/

def Part.json : Part → List Char
  | .version n | .firstVersion n => Nat.toDigits 10 n
  | .exportedAt t => Json.quote t.text.toList
  | .snapshots h => Json.layout.bracket 1 '[' ']' (h.map (Json.ofFields 2))
  | .other => []

theorem toJson_eq (a : Archive) :
    a.toJson = String.ofList (Json.layout.bracket 0 '\x7b' '\x7d'
      (a.named.map fun p => Json.quote p.1.toList ++ [':', ' '] ++ p.2.json)) := rfl

theorem integer_below {bound n : Nat} (within : n < bound) {rest : List Char} (ends : Json.Ends rest) :
    (Json.integer (Nat.toDigits 10 n ++ rest)).bind (below bound) = some (n, rest) := by
  rw [Json.integer_decimal n ends, Option.bind_some, below]
  simp [within]

theorem jsonPart_readable (fits : a.Fits) :
    ∀ p ∈ a.named, Readable Json.Ends (jsonPart p.1) p.2.json p.2 := by
  refine forall_mem_named.mpr
    ⟨⟨decimal_visible _, fun rest ends => ?_⟩, ⟨⟨'"', _, rfl, by decide⟩, fun rest _ => ?_⟩,
      ⟨decimal_visible _, fun rest ends => ?_⟩, ⟨Json.layout.bracket_begins _ _ (by decide), fun rest _ => ?_⟩⟩
  · rw [jsonPart, Part.json, integer_below fits.version ends]
    rfl
  · simp [jsonPart, Part.json, Json.text_quote, moment_text]
  · rw [jsonPart, Part.json, integer_below fits.firstVersion ends]
    rfl
  · have read := Json.snapshots_read 1 a.snapshots rest
    simp [jsonPart, Part.json, read]

theorem ofJson?_toJson (fits : a.Fits) : ofJson? a.toJson = some a := by
  have readable : ∀ p ∈ a.named, Readable Json.Ends (Json.entry jsonPart)
      (Json.quote p.1.toList ++ [':', ' '] ++ p.2.json) p := fun p member =>
    Json.entry_readable (jsonPart_readable fits p member)
  have read := Json.record_bracket readable fieldNames 0 []
  rw [List.append_nil] at read
  have document : Json.document (Json.record fieldNames jsonPart) a.toJson = some a.named := by
    rw [toJson_eq]
    refine Json.document_of_read ?_ ?_
    · rw [String.toList_ofList]
      exact Json.layout.bracket_begins 0 _ (by decide)
    · rw [String.toList_ofList]
      exact read
  rw [ofJson?, document, Option.bind_some, ofParts?_named]

theorem reads_back (understood : a.version = 1) (bounded : a.firstVersion < UInt64.size) :
    History.ofRon a.toRon = .ok a.snapshots ∧ History.ofJson a.toJson = .ok a.snapshots := by
  have one : 1 < UInt32.size := by decide
  have fits : a.Fits := ⟨understood ▸ one, bounded⟩
  rw [History.ofRon, History.ofJson, ofRon?_toRon fits, ofJson?_toJson fits, open?]
  simp [understood]

end Archive

/-! ### Histories -/

namespace ExportFormat

/-- The forms of archives. -/
def archives : List ExportFormat := [.ron, .json]

theorem ron_or_json {form : ExportFormat} (archive : form ∈ archives) : form = .ron ∨ form = .json := by
  simpa [archives] using archive

/-- The text is read back as the history, if it is in a form of archives. -/
def Reads : ExportFormat → String → History → Prop
  | .ron, text, h => History.ofRon text = .ok h
  | .json, text, h => History.ofJson text = .ok h
  | .sheet, _, _ | .listing, _, _ => False

end ExportFormat

namespace History

variable {form : ExportFormat}

theorem reads_exportAs (archive : form ∈ ExportFormat.archives) (h : History) (t : Timestamp) :
    form.Reads (h.exportAs t form) h := by
  have bounded : 0 < UInt64.size := by decide
  obtain ⟨ron, json⟩ := Archive.reads_back (a := ⟨1, t, 0, h⟩) rfl bounded
  rcases ExportFormat.ron_or_json archive with rfl | rfl
  · exact ron
  · exact json

theorem exportRange_of_within {first last : Nat} {h : History} (within : first ≤ last ∧ last < h.length)
    (archive : form ∈ ExportFormat.archives) (bounded : first < UInt64.size) (t : Timestamp) :
    ∃ text, h.exportRange t first last form = .ok text ∧ form.Reads text ((h.take (last + 1)).drop first) := by
  obtain ⟨ron, json⟩ := Archive.reads_back (a := ⟨1, t, first, (h.take (last + 1)).drop first⟩) rfl bounded
  simp only [exportRange, Nat.not_le.mpr within.2, Nat.not_lt.mpr within.1, if_false]
  rcases ExportFormat.ron_or_json archive with rfl | rfl
  · exact ⟨_, rfl, ron⟩
  · exact ⟨_, rfl, json⟩

theorem within_of_exportRange {first last : Nat} {h : History} {t : Timestamp} {text : String}
    (ran : h.exportRange t first last form = .ok text) : first ≤ last ∧ last < h.length := by
  unfold exportRange at ran
  split at ran
  · cases ran
  · split at ran
    · cases ran
    · omega

end History

namespace App

variable {σ τ : Type} {c d : Config} {app : App σ} {other : App τ}

/-- A store takes over the history of another store with the same fields. -/
theorem Reachable.restore_of_same_fields (reachable : app.Reachable c) (taking : other.Reachable d)
    (same : d.data.Covers c.data.names) : (other.restore app.store.history).1 = .ok () := by
  have consistent := reachable.consistent
  refine taking.restore_ok_iff.mpr ⟨consistent.kept, fun f member name => ?_⟩
  have held := (Table.covers_iff_perm consistent.distinct).mpr (consistent.history f member) name
  exact held.trans (same name).symm

end App

namespace Counter

/-- A store for the field of the counter, without its rule. -/
def shelf : Config where
  data := .ofList [("x", .null)]

def shelfApp : App Unit where
  store.live := shelf.data
  store.history := [shelf.data]
  store.vocabulary := { fields := .ofList [("x", "x")] }
  store.rules := []
  memory := ()

theorem shelf_attained : shelfApp.Attained shelf := .built () (by decide)

end Counter

/-- In either notation a history comes back from its archive, and so does a range of its versions, for which
there is an archive exactly if the versions are there and in order. What comes back from the archive of a
store is accepted by every store of the same fields, whose history and live fields it then determines. -/
theorem History.archives_restore :
    (∀ form ∈ ExportFormat.archives, ∀ (h : History) (t : Timestamp), form.Reads (h.exportAs t form) h) ∧
    (∀ form ∈ ExportFormat.archives, ∀ (h : History) (t : Timestamp) (first last : UInt64),
      ((∃ text, h.exportRange t first.toNat last.toNat form = .ok text) ↔
        first ≤ last ∧ last.toNat < h.length) ∧
      ∀ text, h.exportRange t first.toNat last.toNat form = .ok text →
        form.Reads text ((h.take (last.toNat + 1)).drop first.toNat)) ∧
    ∀ form ∈ ExportFormat.archives,
      ∀ (σ τ : Type) (c d : Config) (app : App σ) (other : App τ) (t : Timestamp),
      app.Attained c → other.Attained d → d.data.Covers c.data.names →
        ∃ imported, form.Reads (app.store.history.exportAs t form) imported ∧
          (other.restore imported).1 = .ok () ∧
          (other.restore imported).2.store.history = app.store.history ∧
          app.store.history.getLast? = some (other.restore imported).2.store.live := by
  refine ⟨fun form archive => reads_exportAs archive, fun form archive h t first last => ⟨⟨?_, ?_⟩, ?_⟩, ?_⟩
  · rintro ⟨text, ran⟩
    exact within_of_exportRange ran
  · intro within
    obtain ⟨text, ran, _⟩ := exportRange_of_within within archive first.toNat_lt t
    exact ⟨text, ran⟩
  · intro text ran
    obtain ⟨written, exported, reads⟩ := exportRange_of_within (within_of_exportRange ran) archive first.toNat_lt t
    cases ran.symm.trans exported
    exact reads
  · intro form archive σ τ c d app other t attained taking same
    have accepted := attained.reachable.restore_of_same_fields taking.reachable same
    obtain ⟨history, live⟩ := taking.reachable.restored accepted
    exact ⟨app.store.history, reads_exportAs archive _ t, accepted, history, live⟩

theorem counter_archive_restores :
    (∃ text, History.exportRange [Counter.config.data, Counter.shelf.data] .epoch 1 1 .ron = .ok text ∧
      ExportFormat.Reads .ron text [Counter.shelf.data]) ∧
    ∃ imported, ExportFormat.Reads .json (Counter.app.store.history.exportAs .epoch .json) imported ∧
      (Counter.shelfApp.restore imported).2.store.history = [Counter.config.data] := by
  obtain ⟨_, ranges, stores⟩ := History.archives_restore
  have ron : ExportFormat.ron ∈ ExportFormat.archives := by decide
  have json : ExportFormat.json ∈ ExportFormat.archives := by decide
  have range := ranges .ron ron [Counter.config.data, Counter.shelf.data] .epoch 1 1
  obtain ⟨text, exported⟩ := range.1.mpr ⟨by decide, by decide⟩
  have counter : Counter.app.Attained Counter.config := .built () Counter.built
  have same : Counter.shelf.data.Covers Counter.config.data.names := fun _ => Iff.rfl
  obtain ⟨imported, reads, _, history, _⟩ :=
    stores .json json Unit Unit _ _ _ _ .epoch counter Counter.shelf_attained same
  exact ⟨⟨text, exported, range.2 text exported⟩, imported, reads, history⟩

end Rulebook
