import Rulebook.History.Listing
import Rulebook.Proofs.Format.Csv
import Rulebook.Proofs.Store.Reachable

/-!
# Reading a sheet

What a reader of comma-separated values finds in the sheet of a history. It finds all versions and all columns, and
every text as it is but for those of the last column that end with a carriage return and have no quotes around them:
`sheet_reads_back_iff` says exactly when nothing is lost.
-/

namespace Rulebook

open Csv (BareReturn clipLast)

namespace History

/-- The records hold the history: first the names of the columns, then each version with the text of its values. -/
structure Tabulated (h : History) (records : List (List (List Char))) : Prop where
  count : records.length = 1 + h.length
  header : records[0]? = some ("version".toList :: h.columns.map String.toList)
  rows : ∀ version fields, h[version]? = some fields → ∃ cells,
    records[version + 1]? = some (Nat.toDigits 10 version :: cells) ∧
      List.Forall₂ (fun name cell => ∃ v, fields.get? name = some v ∧ cell = v.plain) h.columns cells

variable {h : History} {declared : List String}

/-! ### The rows that are written -/

theorem columns_perm (alike : ∀ fields ∈ h, fields.names.Perm declared) (kept : h ≠ []) :
    h.columns.Perm declared := by
  cases h with
  | nil => exact absurd rfl kept
  | cons first rest => exact alike first List.mem_cons_self

theorem rows_getElem? (h : History) (version : Nat) :
    h.rows[version + 1]? = h[version]?.map fun fields =>
      Nat.toDigits 10 version :: h.columns.map fun name => ((fields.get? name).map Value.plain).getD [] := by
  simp [rows, List.getElem?_zipIdx, Function.comp_def]

theorem length_rows (h : History) : h.rows.length = 1 + h.length := by
  simp [rows, Nat.add_comm]

theorem length_of_mem_rows {row : List (List Char)} (member : row ∈ h.rows) : row.length = 1 + h.columns.length := by
  rcases List.mem_cons.mp member with rfl | later
  · simp [Nat.add_comm]
  · obtain ⟨_, _, rfl⟩ := List.mem_map.mp later
    simp [Nat.add_comm]

theorem plain_cells_iff {fields : Fields} {names : List String} {cells : List (List Char)}
    (present : ∀ name ∈ names, name ∈ fields.names) :
    List.Forall₂ (fun name cell => ∃ v, fields.get? name = some v ∧ cell = v.plain) names cells ↔
      cells = names.map fun name => ((fields.get? name).map Value.plain).getD [] := by
  induction names generalizing cells with
  | nil => simp
  | cons name names ih =>
    obtain ⟨first, later⟩ := List.forall_mem_cons.mp present
    obtain ⟨v, value⟩ := Table.exists_get?_of_mem first
    cases cells with
    | nil => simp
    | cons cell cells => simp [value, ih later]

/-- Where no version lacks a column, the rows are what the records of the history are to be. -/
theorem tabulated_iff {records : List (List (List Char))}
    (whole : ∀ fields ∈ h, ∀ name ∈ h.columns, name ∈ fields.names) : h.Tabulated records ↔ records = h.rows := by
  constructor
  · rintro ⟨count, header, rows⟩
    apply List.ext_getElem?
    rintro (_ | version)
    · exact header
    · rw [rows_getElem?]
      cases stored : h[version]? with
      | none =>
        rw [List.getElem?_eq_none_iff] at stored
        exact List.getElem?_eq_none (by omega)
      | some fields =>
        obtain ⟨cells, read, plain⟩ := rows version fields stored
        rw [read, (plain_cells_iff (whole fields (List.mem_of_getElem? stored))).mp plain]
        rfl
  · rintro rfl
    refine ⟨length_rows h, rfl, ?_⟩
    intro version fields stored
    have plain := (plain_cells_iff (whole fields (List.mem_of_getElem? stored))).mpr rfl
    refine ⟨_, ?_, plain⟩
    rw [rows_getElem?, stored]
    rfl

/-! ### What is lost -/

theorem digits_not_bareReturn (n : Nat) : ¬ BareReturn (Nat.toDigits 10 n) := by
  rintro ⟨_, last⟩
  have digit := Nat.isDigit_of_mem_toDigits (by decide) (by decide) (List.mem_of_getLast? last)
  revert digit
  decide

/-- A row loses something exactly if a text of the last column does. -/
theorem rows_kept_iff :
    (∀ row ∈ h.rows, ∀ text, row.getLast? = some text → ¬ BareReturn text) ↔
      ∀ name, h.columns.getLast? = some name → ¬ BareReturn name.toList ∧
        ∀ fields ∈ h, ∀ v, fields.get? name = some v → ¬ BareReturn v.plain := by
  have header : ¬ BareReturn "version".toList := by decide
  have empty : ¬ BareReturn [] := by decide
  simp only [rows, List.forall_mem_cons, List.forall_mem_map, List.getLast?_cons, List.getLast?_map, Option.some.injEq,
    forall_eq']
  cases h.columns.getLast? with
  | none => exact ⟨fun _ _ last => (nomatch last), fun _ => ⟨header, fun p _ => digits_not_bareReturn p.2⟩⟩
  | some name =>
    simp only [Option.map_some, Option.getD_some, Option.some.injEq, forall_eq']
    apply and_congr_right
    intro _
    constructor
    · intro kept fields member v read
      obtain ⟨version, stored⟩ := List.mem_iff_getElem?.mp member
      have cell := kept (fields, version) (List.mk_mem_zipIdx_iff_getElem?.mpr stored)
      rwa [read] at cell
    · intro kept p member
      cases read : p.1.get? name with
      | none => exact empty
      | some v => exact kept p.1 (List.fst_mem_of_mem_zipIdx member) v read

end History

/-- A sheet is readable. Its records are as many as the versions and one more, with one cell more than there are fields,
and hold the history as it is, except that a text at the end of a record without quotes loses a carriage return that
ends it. So they hold the history exactly if there is no such text in the last column. -/
theorem App.Reachable.sheet_reads_back_iff {σ : Type} {c : Config} {app : App σ} (reachable : app.Reachable c) :
    let h := app.store.history
    ∃ written records, h.Tabulated written ∧ Csv.read h.sheet = some records ∧ records = written.map clipLast ∧
      records.length = 1 + h.length ∧ (∀ record ∈ records, record.length = 1 + c.data.names.length) ∧
      (h.Tabulated records ↔ ∀ name, h.columns.getLast? = some name → ¬ BareReturn name.toList ∧
        ∀ fields ∈ h, ∀ v, fields.get? name = some v → ¬ BareReturn v.plain) := by
  intro h
  have alike : ∀ fields ∈ h, fields.names.Perm c.data.names := reachable.consistent.history
  have columns : h.columns.Perm c.data.names := History.columns_perm alike reachable.consistent.kept
  have whole : ∀ fields ∈ h, ∀ name ∈ h.columns, name ∈ fields.names := fun fields member name column =>
    (alike fields member).mem_iff.mpr (columns.mem_iff.mp column)
  have kept : ∀ row ∈ h.rows, row ≠ [] := by
    intro row member
    apply List.ne_nil_of_length_pos
    rw [History.length_of_mem_rows member]
    omega
  refine ⟨h.rows, h.rows.map clipLast, (History.tabulated_iff whole).mpr rfl, Csv.read_records kept, rfl, ?_, ?_, ?_⟩
  · rw [List.length_map, History.length_rows]
  · intro record member
    obtain ⟨row, written, rfl⟩ := List.mem_map.mp member
    rw [Csv.length_clipLast, History.length_of_mem_rows written, columns.length_eq]
  · rw [History.tabulated_iff whole, ← History.rows_kept_iff]
    simp only [← Csv.clipLast_eq_iff]
    have same := @List.map_inj_left _ _ h.rows clipLast id
    rwa [List.map_id] at same

namespace Letter

/-- The second text ends with a carriage return. -/
def config : Config where
  data := .ofList [("to", .text "b"), ("body", .text "a\r")]

def state : State where
  live := config.data
  history := [config.data]
  vocabulary := { fields := .ofList [("to", "to"), ("body", "body")] }
  rules := []

def app : App Unit := ⟨{ toState := state }, ()⟩

theorem reachable : app.Reachable config := .built () (by decide)

/-- The letter with a body that needs quotes, and without one. -/
def quoted : App Unit :=
  (app.restore [.ofList [("to", .text "a\r"), ("body", .text "\"b\",\r")],
    .ofList [("body", .null), ("to", .text "a\nb\r")]]).2

end Letter

/-- The body keeps its carriage return between quotes. -/
theorem quoted_letter_reads_back :
    ∃ records, Csv.read Letter.quoted.store.history.sheet = some records ∧
      Letter.quoted.store.history.Tabulated records ∧ records.length = 3 := by
  have reachable : Letter.quoted.Reachable Letter.config := Letter.reachable.restore _
  have history : Letter.quoted.store.history = [.ofList [("to", .text "a\r"), ("body", .text "\"b\",\r")],
      .ofList [("body", .null), ("to", .text "a\nb\r")]] := by decide
  obtain ⟨_, records, _, read, _, count, _, kept⟩ := reachable.sheet_reads_back_iff
  have size : records.length = 3 := by
    rw [count, history]
    rfl
  refine ⟨records, read, kept.mpr ?_, size⟩
  intro name last
  rw [history] at last ⊢
  cases last
  refine ⟨by decide, ?_⟩
  intro fields member v value
  simp only [List.mem_cons, List.not_mem_nil, or_false] at member
  rcases member with rfl | rfl <;> cases value <;> decide

/-- The body, which ends its record without quotes, loses its carriage return. -/
theorem letter_loses_return :
    Letter.app.Reachable Letter.config ∧
      let records := [["version".toList, "to".toList, "body".toList], ["0".toList, "b".toList, "a".toList]]
      Csv.read Letter.app.store.history.sheet = some records ∧ ¬ Letter.app.store.history.Tabulated records := by
  refine ⟨Letter.reachable, by decide, fun tabulated => ?_⟩
  obtain ⟨cells, read, plain⟩ := tabulated.rows 0 Letter.config.data rfl
  cases read
  cases plain with
  | cons _ later =>
    cases later with
    | cons body _ =>
      obtain ⟨v, value, same⟩ := body
      cases value
      revert same
      decide

end Rulebook
