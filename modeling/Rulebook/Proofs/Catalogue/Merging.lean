import Mathlib.Data.List.Flatten
import Rulebook.Catalogue.Basic
import Rulebook.Proofs.Store.Build

/-!
# Merging documents

A catalogue holds the documents that were accepted, one after the other, whatever texts were tried on it.
`Merged` says so, and every text keeps it. It also says which document is accepted next, and why no state is
refused for a name that comes twice.
-/

namespace Rulebook

/-- The folded forms of the declared names. -/
def Config.folded (d : Config) : List String := d.names.map foldName

namespace Catalogue

variable {c c' : Catalogue} {d : Config} {docs : List Config} {seen names : List String} {text : String}

/-! ### One document -/

theorem addNames_ok_iff {out : List String} (distinct : seen.Nodup) :
    addNames seen names = .ok out ↔ (seen ++ names.map foldName).Nodup ∧ out = seen ++ names.map foldName := by
  -- The names seen stay distinct from step to step, so only the next one is in question.
  induction names generalizing seen with
  | nil => simp [addNames, distinct, eq_comm]
  | cons name names ih =>
    by_cases taken : foldName name ∈ seen
    · have twice : ¬ (seen ++ (name :: names).map foldName).Nodup := fun apart =>
        (List.nodup_append.mp apart).2.2 _ taken _ List.mem_cons_self rfl
      have stop : addNames seen (name :: names) = .error (.duplicateDefinition name) := by simp [addNames, taken]
      rw [stop]
      exact ⟨nofun, fun ⟨apart, _⟩ => (twice apart).elim⟩
    · have longer : (seen ++ [foldName name]).Nodup := by
        rw [List.nodup_append]
        refine ⟨distinct, List.pairwise_singleton _ _, fun a inside b last same => taken ?_⟩
        rwa [← List.mem_singleton.mp last, ← same]
      have step : addNames seen (name :: names) = addNames (seen ++ [foldName name]) names := by
        simp [addNames, taken]
      rw [step, ih longer, List.append_assoc]
      rfl

/-- The catalogue holds the documents, one after the other. The folded forms of their names are those seen, and
they are distinct. -/
structure Merged (docs : List Config) (c : Catalogue) : Prop where
  data : c.config.data.entries = docs.flatMap fun d => d.data.entries
  expressions : c.config.expressions.entries = docs.flatMap fun d => d.expressions.entries
  rules : c.config.rules = docs.flatMap Config.rules
  seen : c.seen = docs.flatMap Config.folded
  distinct : c.seen.Nodup

theorem merged_nil : Merged [] {} := ⟨rfl, rfl, rfl, rfl, List.nodup_nil⟩

/-- The names seen come document by document, and those of the configuration fields first. -/
theorem Merged.seen_perm (merged : c.Merged docs) : c.seen.Perm c.config.folded := by
  have parts : c.config.folded = (docs.flatMap fun d => d.data.names.map foldName) ++
      docs.flatMap fun d => d.expressions.names.map foldName := by
    rw [Config.folded, Config.names, Table.names, Table.names, merged.data, merged.expressions]
    simp only [List.map_append, List.map_flatMap]
    rfl
  rw [merged.seen, parts]
  have each : docs.flatMap Config.folded =
      docs.flatMap fun d => d.data.names.map foldName ++ d.expressions.names.map foldName :=
    congrArg docs.flatMap (funext fun d => List.map_append)
  rw [each]
  exact (List.flatMap_append_perm docs _ _).symm

theorem Merged.merge_ok_iff (merged : c.Merged docs) : c.merge d = .ok c' ↔
    (c.seen ++ d.folded).Nodup ∧ c' = { config := c.config.append d, seen := c.seen ++ d.folded } := by
  constructor
  · intro accepted
    obtain ⟨seen, added, accepted⟩ := bind_ok accepted
    cases accepted
    obtain ⟨apart, rfl⟩ := (addNames_ok_iff merged.distinct).mp added
    exact ⟨apart, rfl⟩
  · rintro ⟨apart, rfl⟩
    rw [merge, (addNames_ok_iff merged.distinct).mpr ⟨apart, rfl⟩]
    rfl

theorem Merged.merge (merged : c.Merged docs) (accepted : c.merge d = .ok c') : c'.Merged (docs ++ [d]) := by
  obtain ⟨apart, rfl⟩ := merged.merge_ok_iff.mp accepted
  -- Tables go by the names as declared. Those that fold apart are apart, so no entry is written over.
  have fresh : ∀ name ∈ c.config.names, name ∉ d.names := fun name old new =>
    (List.nodup_append.mp apart).2.2 (foldName name) (merged.seen_perm.mem_iff.mpr (List.mem_map_of_mem old))
      (foldName name) (List.mem_map_of_mem new) rfl
  refine ⟨?_, ?_, ?_, ?_, apart⟩
  · rw [List.flatMap_append, ← merged.data, List.flatMap_singleton]
    exact Table.entries_insertAll_entries fun name old new =>
      fresh name (List.mem_append_left _ old) (List.mem_append_left _ new)
  · rw [List.flatMap_append, ← merged.expressions, List.flatMap_singleton]
    exact Table.entries_insertAll_entries fun name old new =>
      fresh name (List.mem_append_right _ old) (List.mem_append_right _ new)
  · rw [List.flatMap_append, ← merged.rules, List.flatMap_singleton]
    rfl
  · rw [List.flatMap_append, ← merged.seen, List.flatMap_singleton]

theorem load_of_read (read : Config.ofRon? text = some d) : c.load text = c.merge d := by
  rw [load, read]

theorem exists_read_of_load (loaded : c.load text = .ok c') :
    ∃ d, Config.ofRon? text = some d ∧ c.merge d = .ok c' := by
  cases read : Config.ofRon? text with
  | none =>
    rw [load, read] at loaded
    cases loaded
  | some d => exact ⟨d, rfl, load_of_read read ▸ loaded⟩

/-- A document is accepted if its folded names are distinct, and none of them is one of an earlier document. -/
theorem Merged.load_ok_iff (merged : c.Merged docs) (read : Config.ofRon? text = some d) :
    (∃ c', c.load text = .ok c') ↔
      d.folded.Nodup ∧ ∀ name ∈ d.folded, ∀ earlier ∈ docs, name ∉ earlier.folded := by
  have apart : (c.seen ++ d.folded).Nodup ↔
      d.folded.Nodup ∧ ∀ name ∈ d.folded, ∀ earlier ∈ docs, name ∉ earlier.folded := by
    rw [List.nodup_append, and_iff_right merged.distinct, merged.seen]
    refine and_congr_right fun _ => ⟨fun disjoint name new earlier member old => ?_, ?_⟩
    · exact disjoint name (List.mem_flatMap.mpr ⟨earlier, member, old⟩) name new rfl
    · rintro fresh name old _ new rfl
      obtain ⟨earlier, member, old⟩ := List.mem_flatMap.mp old
      exact fresh name new earlier member old
  rw [load_of_read read, ← apart]
  exact ⟨fun ⟨_, accepted⟩ => (merged.merge_ok_iff.mp accepted).1, fun fresh => ⟨_, merged.merge_ok_iff.mpr ⟨fresh, rfl⟩⟩⟩

/-! ### Texts in turn -/

/-- Tries texts in turn. -/
def attempts (c : Catalogue) (texts : List String) : List (Except CatalogueError Unit) × Catalogue :=
  inTurn attempt c texts

theorem attempts_cons (c : Catalogue) (text : String) (texts : List String) :
    c.attempts (text :: texts) =
      ((c.attempt text).1 :: ((c.attempt text).2.attempts texts).1, ((c.attempt text).2.attempts texts).2) := rfl

/-- The documents of the texts that had a good reply. -/
def accepted (texts : List String) (replies : List (Except CatalogueError Unit)) : List Config :=
  (texts.zip replies).filterMap fun (text, reply) =>
    match reply with
    | .ok () => Config.ofRon? text
    | .error _ => none

theorem attempt_refused {e : CatalogueError} (refused : c.load text = .error e) : c.attempt text = (.error e, c) := by
  rw [attempt, refused]

theorem Merged.attempts (merged : c.Merged docs) (texts : List String) :
    (c.attempts texts).2.Merged (docs ++ accepted texts (c.attempts texts).1) := by
  induction texts generalizing c docs with
  | nil =>
    rw [Catalogue.attempts, inTurn, accepted, List.zip_nil_left, List.filterMap_nil, List.append_nil]
    exact merged
  | cons text texts ih =>
    rw [attempts_cons]
    cases loaded : c.load text with
    | error e =>
      rw [attempt_refused loaded]
      exact ih merged
    | ok c' =>
      have taken : c.attempt text = (.ok (), c') := by rw [attempt, loaded]
      obtain ⟨d, read, merges⟩ := exists_read_of_load loaded
      have later := ih (merged.merge merges)
      have first : accepted (text :: texts) (.ok () :: (c'.attempts texts).1) =
          d :: accepted texts (c'.attempts texts).1 := by
        rw [accepted, List.zip_cons_cons]
        exact List.filterMap_cons_some read
      rw [taken, first]
      rwa [List.append_assoc] at later

/-- The catalogue after the texts were tried. -/
def ofTexts (texts : List String) : Catalogue := (attempts {} texts).2

/-- The documents among the texts that it accepted. -/
def documents (texts : List String) : List Config := accepted texts (attempts {} texts).1

/-- Whatever texts were tried, the catalogue holds those that were accepted: the fields, the expressions and the
rules of their documents, in order. The names seen are the folded names of what it holds. A document is accepted
next if its folded names are distinct, and none of them is one of an accepted document; any other text is as if it
had not been tried. No state is refused for a name that comes twice. -/
theorem holds_what_was_accepted (texts : List String) :
    (ofTexts texts).config.data.entries = (documents texts).flatMap (fun d => d.data.entries) ∧
      (ofTexts texts).config.expressions.entries = (documents texts).flatMap (fun d => d.expressions.entries) ∧
      (ofTexts texts).config.rules = (documents texts).flatMap Config.rules ∧
      (∀ name, name ∈ (ofTexts texts).seen ↔ name ∈ (ofTexts texts).config.folded) ∧
      (∀ text d, Config.ofRon? text = some d → ((∃ c, (ofTexts texts).load text = .ok c) ↔
        d.folded.Nodup ∧ ∀ name ∈ d.folded, ∀ earlier ∈ documents texts, name ∉ earlier.folded)) ∧
      (∀ text e, (ofTexts texts).load text = .error e → ∀ rest, (ofTexts texts).attempts (text :: rest) =
        (.error e :: ((ofTexts texts).attempts rest).1, ((ofTexts texts).attempts rest).2)) ∧
      ∀ e, (ofTexts texts).build = .error e → (∃ name, e = .store (.reservedName name)) ∨
        ∃ sentence cause, e = .store (.compile sentence cause) := by
  have merged : (ofTexts texts).Merged (documents texts) := merged_nil.attempts texts
  refine ⟨merged.data, merged.expressions, merged.rules, fun name => merged.seen_perm.mem_iff,
    fun text d read => merged.load_ok_iff read, fun text e refused rest => ?_, fun e refused => ?_⟩
  · rw [attempts_cons, attempt_refused refused]
  · obtain ⟨cause, unbuilt, rfl⟩ := mapError_error.mp refused
    have distinct : (ofTexts texts).config.folded.Nodup := merged.seen_perm.nodup_iff.mp merged.distinct
    rcases State.build_error distinct unbuilt with ⟨name, _, rfl, _⟩ | ⟨sentence, _, reason, rfl⟩
    · exact .inl ⟨name, rfl⟩
    · exact .inr ⟨sentence, reason, rfl⟩

/-- A document that is refused for one of its names can be tried again without it. -/
theorem fresh_after_refusal :
    let texts := ["(data: \x7b\"x\": 0\x7d)", "(data: \x7b\"fresh\": 1, \"X\": 2\x7d)"]
    (attempts {} texts).1 = [.ok (), .error (.duplicateDefinition "X")] ∧
      (ofTexts texts).config.data.entries = [("x", .number .zero)] ∧
      ∃ c, (ofTexts texts).load "(data: \x7b\"fresh\": 1\x7d)" = .ok c := by
  intro texts
  obtain ⟨data, _, _, _, accepts, _⟩ := holds_what_was_accepted texts
  have replies : (attempts {} texts).1 = [.ok (), .error (.duplicateDefinition "X")] := by decide +kernel
  have docs : documents texts = [{ data := .ofList [("x", .number .zero)] }] := by decide +kernel
  rw [docs] at data accepts
  refine ⟨replies, data, ?_⟩
  exact (accepts _ { data := .ofList [("fresh", .number .one)] } (by decide +kernel)).mpr (by decide)

end Catalogue

end Rulebook
