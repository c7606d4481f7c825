import Rulebook.Catalogue.Folder
import Rulebook.Proofs.Catalogue.Merging
import Rulebook.Proofs.Text.ByteOrder

/-!
# Loading folders

A folder is loaded by going through it, and into the folders inside it, up to the first document that is refused.
That comes to the same as merging one list of documents in turn, and does not depend on the order in which
folders list what they hold.
-/

namespace Rulebook

/-- The name of a document is more than the ending. -/
def IsDocument (name : String) : Prop := ∃ stem, stem ≠ "" ∧ name = stem ++ ".ron"

theorem isDocumentName_iff {name : String} : isDocumentName name = true ↔ IsDocument name := by
  have ending : ".ron".toList.length = 4 := rfl
  simp only [isDocumentName, Bool.and_eq_true, decide_eq_true_eq, List.isSuffixOf_iff_suffix]
  constructor
  · rintro ⟨⟨stem, same⟩, more⟩
    refine ⟨String.ofList stem, ?_, ?_⟩
    · rintro none
      obtain rfl : stem = [] := by simpa using congrArg String.toList none
      exact more (same ▸ ending)
    · rw [← String.toList_inj, String.toList_append, String.toList_ofList, same]
  · rintro ⟨stem, some, rfl⟩
    have longer := List.length_pos_iff.mpr (mt String.toList_eq_nil_iff.mp some)
    rw [String.toList_append]
    refine ⟨List.suffix_append _ _, ?_⟩
    rw [List.length_append, ending]
    omega

namespace Entry

/-- The names are distinct and in the order of their bytes. -/
def InByteOrder (entries : List (String × Entry)) : Prop :=
  entries.Pairwise fun p q => Text.bytes p.1 < Text.bytes q.1

instance : DecidablePred InByteOrder := fun entries =>
  inferInstanceAs (Decidable (entries.Pairwise fun p q => Text.bytes p.1 < Text.bytes q.1))

/-- No folder lists a name twice. -/
inductive Distinct : Entry → Prop
  | file (content : String) : Distinct (file content)
  | folder {entries : List (String × Entry)} : (entries.map Prod.fst).Nodup → (∀ p ∈ entries, p.2.Distinct) →
    Distinct (folder entries)

/-- What is met when entries are gone through in turn: the contents of the documents, and `none` for a folder with
the name of a document. Other files are passed over, and other folders are gone through in the order of their
names before what comes behind them. -/
inductive Meets : List (String × Entry) → List (Option String) → Prop
  | done : Meets [] []
  | document {name content rest texts} : IsDocument name → Meets rest texts →
    Meets ((name, file content) :: rest) (some content :: texts)
  | unreadable {name inner rest texts} : IsDocument name → Meets rest texts →
    Meets ((name, folder inner) :: rest) (none :: texts)
  | other {name content rest texts} : ¬ IsDocument name → Meets rest texts →
    Meets ((name, file content) :: rest) texts
  | folder {name inner visit rest texts more} : ¬ IsDocument name → visit.Perm inner → InByteOrder visit →
    Meets visit texts → Meets rest more → Meets ((name, folder inner) :: rest) (texts ++ more)

/-- The same entries, listed in other orders by the folder and by those inside it. -/
inductive Rearranged : List (String × Entry) → List (String × Entry) → Prop
  | done : Rearranged [] []
  | keep {l m} (p) : Rearranged l m → Rearranged (p :: l) (p :: m)
  | swap (p q l) : Rearranged (p :: q :: l) (q :: p :: l)
  | inside {inner other} (name rest) : Rearranged inner other →
    Rearranged ((name, folder inner) :: rest) ((name, folder other) :: rest)
  | trans {l m n} : Rearranged l m → Rearranged m n → Rearranged l n

variable {entries visit inner rest l m : List (String × Entry)} {texts : List (Option String)} {name : String}

/-! ### The order of names -/

theorem inNameOrder_perm (entries : List (String × Entry)) : (inNameOrder entries).Perm entries :=
  List.mergeSort_perm ..

theorem inNameOrder_inByteOrder (distinct : (entries.map Prod.fst).Nodup) : InByteOrder (inNameOrder entries) := by
  have sorted : (inNameOrder entries).Pairwise fun p q => decide (p.1 ≤ q.1) = true :=
    List.pairwise_mergeSort (fun _ _ _ first second => by simp at *; exact String.le_trans first second)
      (fun p q => by simpa using String.le_total p.1 q.1) entries
  have apart : (inNameOrder entries).Pairwise fun p q => p.1 ≠ q.1 :=
    List.pairwise_map.mp (((inNameOrder_perm entries).map Prod.fst).nodup_iff.mpr distinct)
  refine (sorted.and apart).imp fun {p q} ⟨below, different⟩ => Text.bytes_lt_iff.mpr ?_
  exact Classical.byContradiction fun behind =>
    different (String.le_antisymm (of_decide_eq_true below) (String.not_lt.mp behind))

theorem nodup_of_inByteOrder (perm : visit.Perm entries) (ordered : InByteOrder visit) :
    (entries.map Prod.fst).Nodup := by
  rw [← (perm.map Prod.fst).nodup_iff]
  refine List.pairwise_map.mpr (ordered.imp ?_)
  intro p q before same
  exact List.lt_irrefl _ (same ▸ before)

/-- There is one way to go through entries in the order of their names. -/
theorem eq_inNameOrder (perm : visit.Perm entries) (ordered : InByteOrder visit) : visit = inNameOrder entries := by
  refine (perm.trans (inNameOrder_perm entries).symm).eq_of_pairwise ?_ ordered
    (inNameOrder_inByteOrder (nodup_of_inByteOrder perm ordered))
  exact fun _ _ _ _ below above => absurd below (List.lt_asymm above)

theorem inNameOrder_congr (perm : l.Perm m) (distinct : (l.map Prod.fst).Nodup) : inNameOrder l = inNameOrder m :=
  eq_inNameOrder ((inNameOrder_perm l).trans perm) (inNameOrder_inByteOrder distinct)

theorem sortedEntries_eq (entries : List (String × Entry)) :
    sortedEntries entries = entries.map fun p => (p.1, p.2.sorted) := by
  induction entries with
  | nil => rw [sortedEntries, List.map_nil]
  | cons p entries ih =>
    obtain ⟨name, e⟩ := p
    rw [sortedEntries, ih, List.map_cons]

theorem map_fst_sortedEntries (entries : List (String × Entry)) :
    (sortedEntries entries).map Prod.fst = entries.map Prod.fst := by
  rw [sortedEntries_eq, List.map_map]
  rfl

/-- It does not matter whether a folder is put in order before the folders inside it or after. -/
theorem inNameOrder_sortedEntries (distinct : (entries.map Prod.fst).Nodup) :
    inNameOrder (sortedEntries entries) = sortedEntries (inNameOrder entries) := by
  symm
  apply eq_inNameOrder
  · rw [sortedEntries_eq, sortedEntries_eq]
    exact (inNameOrder_perm entries).map _
  · have ordered : ((inNameOrder entries).map Prod.fst).Pairwise fun a b => Text.bytes a < Text.bytes b :=
      List.pairwise_map.mpr (inNameOrder_inByteOrder distinct)
    rw [← map_fst_sortedEntries] at ordered
    exact (List.pairwise_map (f := Prod.fst)).mp ordered

/-! ### What a folder holds -/

/-- What is met in entries when the folders among them are put in order. -/
def met (entries : List (String × Entry)) : List (Option String) := documentsOf (sortedEntries entries)

theorem met_cons (name : String) (e : Entry) (rest : List (String × Entry)) :
    met ((name, e) :: rest) = e.sorted.documents name ++ met rest := by
  rw [met, sortedEntries, documentsOf, met]

theorem met_file (name content : String) (rest : List (String × Entry)) :
    met ((name, file content) :: rest) = if isDocumentName name then some content :: met rest else met rest := by
  rw [met_cons, sorted, documents]
  split <;> rfl

theorem met_folder (distinct : (inner.map Prod.fst).Nodup) (name : String) (rest : List (String × Entry)) :
    met ((name, folder inner) :: rest) =
      if isDocumentName name then none :: met rest else met (inNameOrder inner) ++ met rest := by
  rw [met_cons, sorted, documents, inNameOrder_sortedEntries distinct]
  split <;> rfl

theorem visits_folder (distinct : (entries.map Prod.fst).Nodup) :
    (folder entries).visits = some (met (inNameOrder entries)) := by
  rw [visits, sorted, inNameOrder_sortedEntries distinct]
  rfl

theorem Meets.eq_met (meets : Meets visit texts) : texts = met visit := by
  induction meets with
  | done => rw [met, sortedEntries, documentsOf]
  | document isDocument _ ih => rw [met_file, if_pos (isDocumentName_iff.mpr isDocument), ih]
  | @unreadable name inner rest texts isDocument _ ih =>
    rw [met_cons, sorted, documents, if_pos (isDocumentName_iff.mpr isDocument), ih]
    rfl
  | other isOther _ ih => rw [met_file, if_neg (mt isDocumentName_iff.mp isOther), ih]
  | folder isOther perm ordered _ _ ih later =>
    rw [met_folder (nodup_of_inByteOrder perm ordered), if_neg (mt isDocumentName_iff.mp isOther), ih, later,
      eq_inNameOrder perm ordered]

/-- Entries can be gone through in any order, if what is inside them can. -/
theorem meets_met_of_inside (distinct : ∀ p ∈ visit, p.2.Distinct)
    (inside : ∀ p ∈ visit, ∀ inner, p.2 = .folder inner → Meets (inNameOrder inner) (met (inNameOrder inner))) :
    Meets visit (met visit) := by
  induction visit with
  | nil =>
    rw [met, sortedEntries, documentsOf]
    exact .done
  | cons p rest ih =>
    obtain ⟨name, e⟩ := p
    obtain ⟨first, later⟩ := List.forall_mem_cons.mp inside
    obtain ⟨here, others⟩ := List.forall_mem_cons.mp distinct
    have behind := ih others later
    by_cases isDocument : isDocumentName name = true
    · have known := isDocumentName_iff.mp isDocument
      cases here with
      | file content =>
        rw [met_file, if_pos isDocument]
        exact .document known behind
      | folder names _ =>
        rw [met_folder names, if_pos isDocument]
        exact .unreadable known behind
    · have unknown := mt isDocumentName_iff.mpr isDocument
      cases here with
      | file content =>
        rw [met_file, if_neg isDocument]
        exact .other unknown behind
      | folder names _ =>
        rw [met_folder names, if_neg isDocument]
        exact .folder unknown (inNameOrder_perm _) (inNameOrder_inByteOrder names) (first _ rfl) behind

/-- A folder can be gone through, and so can the folders inside it. -/
theorem Distinct.meets {e : Entry} (distinct : e.Distinct) :
    ∀ entries, e = .folder entries → Meets (inNameOrder entries) (met (inNameOrder entries)) := by
  induction distinct with
  | file content => exact nofun
  | @folder entries names inside ih =>
    intro other same
    rw [← folder.inj same]
    have members : ∀ p ∈ inNameOrder entries, p ∈ entries := fun p => (inNameOrder_perm entries).mem_iff.mp
    exact meets_met_of_inside (fun p member => inside p (members p member)) fun p member =>
      ih p (members p member)

theorem meets_iff (distinct : (folder entries).Distinct) :
    (∃ visit, visit.Perm entries ∧ InByteOrder visit ∧ Meets visit texts) ↔
      texts = met (inNameOrder entries) := by
  constructor
  · rintro ⟨visit, perm, ordered, meets⟩
    rw [meets.eq_met, eq_inNameOrder perm ordered]
  · rintro rfl
    have meets := distinct.meets entries rfl
    cases distinct with
    | folder names _ =>
      exact ⟨inNameOrder entries, inNameOrder_perm entries, inNameOrder_inByteOrder names, meets⟩

/-! ### Other orders -/

theorem Rearranged.names_perm (same : Rearranged l m) : (l.map Prod.fst).Perm (m.map Prod.fst) := by
  induction same with
  | done => exact .refl _
  | keep p _ ih => exact ih.cons _
  | swap p q l => exact .swap ..
  | inside name rest _ _ => exact .refl _
  | trans _ _ first second => exact first.trans second

theorem distinct_folder_cons {p : String × Entry} : (folder (p :: l)).Distinct ↔
    p.1 ∉ l.map Prod.fst ∧ p.2.Distinct ∧ (folder l).Distinct := by
  constructor
  · rintro (_ | ⟨names, inside⟩)
    obtain ⟨fresh, names⟩ := List.nodup_cons.mp names
    obtain ⟨first, later⟩ := List.forall_mem_cons.mp inside
    exact ⟨fresh, first, .folder names later⟩
  · rintro ⟨fresh, first, _ | ⟨names, inside⟩⟩
    exact .folder (List.nodup_cons.mpr ⟨fresh, names⟩) (List.forall_mem_cons.mpr ⟨first, inside⟩)

theorem Rearranged.distinct (same : Rearranged l m) (distinct : (folder l).Distinct) : (folder m).Distinct := by
  induction same with
  | done => exact distinct
  | keep p same ih =>
    obtain ⟨fresh, first, later⟩ := distinct_folder_cons.mp distinct
    exact distinct_folder_cons.mpr ⟨mt same.names_perm.mem_iff.mpr fresh, first, ih later⟩
  | swap p q l =>
    cases distinct with
    | folder names inside =>
      exact .folder ((List.Perm.swap _ _ _).nodup_iff.mp names) fun r member =>
        inside r ((List.Perm.swap _ _ _).mem_iff.mp member)
  | inside name rest _ ih =>
    obtain ⟨fresh, first, later⟩ := distinct_folder_cons.mp distinct
    exact distinct_folder_cons.mpr ⟨fresh, ih first, later⟩
  | trans _ _ first second => exact second (first distinct)

theorem Rearranged.sorted_perm (same : Rearranged l m) (distinct : (folder l).Distinct) :
    (sortedEntries l).Perm (sortedEntries m) := by
  rw [sortedEntries_eq, sortedEntries_eq]
  induction same with
  | done => exact .refl _
  | keep p _ ih =>
    obtain ⟨_, _, later⟩ := distinct_folder_cons.mp distinct
    exact (ih later).cons _
  | swap p q l => exact .swap ..
  | @inside inner other name rest _ ih =>
    obtain ⟨_, first, _⟩ := distinct_folder_cons.mp distinct
    have perm := ih first
    rw [← sortedEntries_eq, ← sortedEntries_eq] at perm
    cases first with
    | folder names _ =>
      have equal := inNameOrder_congr perm (by rwa [map_fst_sortedEntries])
      rw [List.map_cons, List.map_cons, sorted, sorted, equal]
  | trans before _ first second => exact (first distinct).trans (second (before.distinct distinct))

theorem Rearranged.visits_eq (same : Rearranged l m) (distinct : (folder l).Distinct) :
    (folder m).visits = (folder l).visits := by
  have perm := same.sorted_perm distinct
  cases distinct with
  | folder names _ =>
    have equal := inNameOrder_congr perm (by rwa [map_fst_sortedEntries])
    rw [visits, visits, sorted, sorted, equal]

end Entry

/-! ### Loading -/

namespace Catalogue

open Entry

/-- Entries are gone through in turn up to the first document that is refused, in this folder or in one inside
it. -/
inductive Loads : Catalogue → List (String × Entry) → Except CatalogueError Unit → Catalogue → Prop
  | done {c} : Loads c [] (.ok ()) c
  | document {c c' c'' name content rest reply} : IsDocument name → c.load content = .ok c' →
    Loads c' rest reply c'' → Loads c ((name, file content) :: rest) reply c''
  | refused {c name content rest e} : IsDocument name → c.load content = .error e →
    Loads c ((name, file content) :: rest) (.error e) c
  | unreadable {c name inner rest} : IsDocument name → Loads c ((name, folder inner) :: rest) (.error .unreadable) c
  | other {c c' name content rest reply} : ¬ IsDocument name → Loads c rest reply c' →
    Loads c ((name, file content) :: rest) reply c'
  | folder {c c' c'' name inner visit rest reply} : ¬ IsDocument name → visit.Perm inner → InByteOrder visit →
    Loads c visit (.ok ()) c' → Loads c' rest reply c'' → Loads c ((name, folder inner) :: rest) reply c''
  | stopped {c c' name inner visit rest e} : ¬ IsDocument name → visit.Perm inner → InByteOrder visit →
    Loads c visit (.error e) c' → Loads c ((name, folder inner) :: rest) (.error e) c'

variable {c c' : Catalogue} {entries visit : List (String × Entry)} {texts before : List (Option String)}
  {e : CatalogueError} {reply : Except CatalogueError Unit}

/-- Merges what was met under the name of a document. -/
def open? (c : Catalogue) : Option String → Except CatalogueError Catalogue
  | none => .error .unreadable
  | some text => c.load text

theorem loadAll_cons (c : Catalogue) (text? : Option String) (texts : List (Option String)) :
    c.loadAll (text? :: texts) =
      match c.open? text? with
      | .error e => (.error e, c)
      | .ok c' => c'.loadAll texts := by
  cases text? <;> rw [loadAll] <;> rfl

theorem loadAll_append (c : Catalogue) (texts more : List (Option String)) :
    c.loadAll (texts ++ more) =
      match c.loadAll texts with
      | (.error e, c') => (.error e, c')
      | (.ok (), c') => c'.loadAll more := by
  induction texts generalizing c with
  | nil => rw [List.nil_append, loadAll]
  | cons text? texts ih =>
    rw [List.cons_append, loadAll_cons, loadAll_cons]
    cases c.open? text? with
    | error e => rfl
    | ok c' => exact ih c'

theorem loadAll_ok_iff : c.loadAll texts = (.ok (), c') ↔ texts.foldlM open? c = .ok c' := by
  induction texts generalizing c with
  | nil => simp [loadAll, pure, Except.pure]
  | cons text? texts ih =>
    rw [loadAll_cons, List.foldlM_cons]
    cases c.open? text? with
    | error e => simp [bind, Except.bind]
    | ok middle => exact ih

/-- Loading stops at the first document that is refused, and keeps those before it. -/
theorem loadAll_error_iff : c.loadAll texts = (.error e, c') ↔
    ∃ before text? after, texts = before ++ text? :: after ∧ before.foldlM open? c = .ok c' ∧
      c'.open? text? = .error e := by
  constructor
  · intro refused
    induction texts generalizing c with
    | nil => cases refused
    | cons text? texts ih =>
      rw [loadAll_cons] at refused
      cases ran : c.open? text? with
      | error cause =>
        rw [ran] at refused
        cases refused
        exact ⟨[], text?, texts, rfl, rfl, ran⟩
      | ok middle =>
        rw [ran] at refused
        obtain ⟨before, last, after, rfl, merged, stop⟩ := ih refused
        refine ⟨text? :: before, last, after, rfl, ?_, stop⟩
        rw [List.foldlM_cons, ran]
        exact merged
  · rintro ⟨before, text?, after, rfl, merged, stop⟩
    rw [loadAll_append, loadAll_ok_iff.mpr merged]
    simp only [loadAll_cons, stop]

theorem Loads.loadAll_met (loads : Loads c visit reply c') : c.loadAll (met visit) = (reply, c') := by
  induction loads with
  | done => rw [met, sortedEntries, documentsOf, loadAll]
  | document isDocument ran _ ih =>
    rw [met_file, if_pos (isDocumentName_iff.mpr isDocument), loadAll_cons, open?, ran]
    exact ih
  | refused isDocument ran => rw [met_file, if_pos (isDocumentName_iff.mpr isDocument), loadAll_cons, open?, ran]
  | unreadable isDocument =>
    rw [met_cons, sorted, Entry.documents, if_pos (isDocumentName_iff.mpr isDocument)]
    rfl
  | other isOther _ ih => rw [met_file, if_neg (mt isDocumentName_iff.mp isOther), ih]
  | folder isOther perm ordered _ _ ih later =>
    rw [met_folder (nodup_of_inByteOrder perm ordered), if_neg (mt isDocumentName_iff.mp isOther), loadAll_append,
      ← eq_inNameOrder perm ordered, ih]
    exact later
  | stopped isOther perm ordered _ ih =>
    rw [met_folder (nodup_of_inByteOrder perm ordered), if_neg (mt isDocumentName_iff.mp isOther), loadAll_append,
      ← eq_inNameOrder perm ordered, ih]

/-- What is met is loaded in turn, folder after folder. -/
theorem loads_of_meets (meets : Meets visit texts) (c : Catalogue) :
    Loads c visit (c.loadAll texts).1 (c.loadAll texts).2 := by
  induction meets generalizing c with
  | done => exact .done
  | @document name content rest texts isDocument _ ih =>
    rw [loadAll_cons, open?]
    cases ran : c.load content with
    | error e => exact .refused isDocument ran
    | ok c' => exact .document isDocument ran (ih c')
  | unreadable isDocument _ _ => exact .unreadable isDocument
  | other isOther _ ih => exact .other isOther (ih c)
  | @folder name inner visit rest texts more isOther perm ordered _ _ ih later =>
    have first := ih c
    rw [loadAll_append]
    cases ran : c.loadAll texts with
    | mk reply c' =>
      rw [ran] at first
      cases reply with
      | error e => exact .stopped isOther perm ordered first
      | ok done => exact .folder isOther perm ordered first (later c')

theorem loadFolder_eq (distinct : (folder entries).Distinct) (c : Catalogue) :
    c.loadFolder (some (folder entries)) = c.loadAll (met (inNameOrder entries)) := by
  cases distinct with
  | folder names _ => rw [loadFolder, Option.bind_some, visits_folder names]

/-- Loading a folder goes through it, and through the folders inside it, in the order of their names. -/
theorem loadFolder_iff (distinct : (folder entries).Distinct) : c.loadFolder (some (folder entries)) = (reply, c') ↔
    ∃ visit, visit.Perm entries ∧ InByteOrder visit ∧ Loads c visit reply c' := by
  rw [loadFolder_eq distinct]
  constructor
  · intro ran
    obtain ⟨visit, perm, ordered, meets⟩ := (meets_iff distinct).mpr rfl
    have loads := loads_of_meets meets c
    rw [ran] at loads
    exact ⟨visit, perm, ordered, loads⟩
  · rintro ⟨visit, perm, ordered, loads⟩
    rw [← eq_inNameOrder perm ordered, loads.loadAll_met]

/-- The order in which folders list their entries does not matter. Whatever it is, a folder is gone through, and so
are the folders inside it, in the order of the bytes of the names, up to the first document that is refused. This
is what merging one list of texts in turn comes to, those met on the way: either all of them are merged, or one is
refused, and those before it stay. -/
theorem loads_folder_in_byte_order (distinct : (folder entries).Distinct) (c : Catalogue) :
    (∀ other, Rearranged entries other →
        c.loadFolder (some (folder other)) = c.loadFolder (some (folder entries))) ∧
      (∀ reply c', c.loadFolder (some (folder entries)) = (reply, c') ↔
        ∃ visit, visit.Perm entries ∧ InByteOrder visit ∧ Loads c visit reply c') ∧
      ∃ texts,
        (∀ found, (∃ visit, visit.Perm entries ∧ InByteOrder visit ∧ Meets visit found) ↔ found = texts) ∧
        (∀ c', c.loadFolder (some (folder entries)) = (.ok (), c') ↔ texts.foldlM open? c = .ok c') ∧
        ∀ e c', c.loadFolder (some (folder entries)) = (.error e, c') ↔
          ∃ before text? after, texts = before ++ text? :: after ∧ before.foldlM open? c = .ok c' ∧
            c'.open? text? = .error e := by
  refine ⟨fun other same => ?_, fun _ _ => loadFolder_iff distinct, met (inNameOrder entries),
    fun _ => meets_iff distinct, fun c' => ?_, fun e c' => ?_⟩
  · rw [loadFolder, loadFolder, Option.bind_some, Option.bind_some, same.visits_eq distinct]
  · rw [loadFolder_eq distinct]
    exact loadAll_ok_iff
  · rw [loadFolder_eq distinct]
    exact loadAll_error_iff

/-- What is in `m` comes before `n.ron`, and the names there are loaded from `a` to `b`. -/
theorem inner_folder_first :
    let inner := [("b.ron", file "(data: \x7b\"X\": 1\x7d)"), ("a.ron", file "(data: \x7b\"y\": 0\x7d)")]
    let entries := [("n.ron", file "(data: \x7b\"x\": 0\x7d)"), ("notes", file ""), ("m", folder inner)]
    (folder entries).Distinct ∧ ∀ other, Rearranged entries other →
      ∃ c', loadFolder {} (some (folder other)) = (.error (.duplicateDefinition "x"), c') ∧
        c'.config.data.entries = [("y", .number .zero), ("X", .number .one)] := by
  intro inner entries
  have distinct : (folder entries).Distinct := by
    refine .folder (by decide) ?_
    simp only [entries, List.forall_mem_cons]
    refine ⟨.file _, .file _, .folder (by decide) ?_, by simp⟩
    simp only [inner, List.forall_mem_cons]
    exact ⟨.file _, .file _, by simp⟩
  refine ⟨distinct, fun other same => ?_⟩
  obtain ⟨alike, _, texts, found, _, stops⟩ := loads_folder_in_byte_order distinct {}
  have inside : Meets [("a.ron", file "(data: \x7b\"y\": 0\x7d)"), ("b.ron", file "(data: \x7b\"X\": 1\x7d)")] _ :=
    .document ⟨"a", by decide, by decide⟩ (.document ⟨"b", by decide, by decide⟩ .done)
  have around : Meets [("m", folder inner), ("n.ron", file "(data: \x7b\"x\": 0\x7d)"), ("notes", file "")] _ :=
    .folder (mt isDocumentName_iff.mpr (by decide)) (.swap ..) (by decide) inside
      (.document ⟨"n", by decide, by decide⟩ (.other (mt isDocumentName_iff.mpr (by decide)) .done))
  have order : [("m", folder inner), ("n.ron", file "(data: \x7b\"x\": 0\x7d)"), ("notes", file "")].Perm entries :=
    (List.perm_append_singleton _ [_, _]).symm
  obtain rfl := (found _).mp ⟨_, order, by decide, around⟩
  rw [alike other same]
  refine ⟨⟨{ data := .ofList [("y", .number .zero), ("X", .number .one)] }, ["y", "x"]⟩,
    (stops _ _).mpr ?_, rfl⟩
  exact ⟨[some "(data: \x7b\"y\": 0\x7d)", some "(data: \x7b\"X\": 1\x7d)"], some "(data: \x7b\"x\": 0\x7d)", [],
    rfl, by decide +kernel, by decide +kernel⟩

end Catalogue

end Rulebook
