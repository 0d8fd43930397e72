import CatalogSync.Proofs.Schema.Comparing

/-!
# What passes is what was declared

A database that passes for a declared table has the columns that were declared, as far as it tells them, and indices of
the names that were (`Table.validate_sound`). It may differ in what is not asked for: the columns an index is over,
columns computed from others, and whether the columns are those of a table or of a view.
-/

namespace CatalogSync.Schema

open CatalogSync.Sql CatalogSync.Text

/-- Defaults are the same, perhaps but for one pair of parentheses around one of them. -/
inductive SameDefault : Option String → Option String → Prop where
  | same (d : Option String) : SameDefault d d
  | told (s : String) : SameDefault (some (enclosed s)) (some s)
  | declared (s : String) : SameDefault (some s) (some (enclosed s))

/-- A column of a database is as it is declared. -/
structure Column.Matches (c : Column) (info : ColumnInfo) : Prop where
  name : info.name = c.name
  type : info.type = c.type.sql
  notNull : info.notNull = c.notNull
  default : SameDefault info.default c.default
  key : c.isPrimaryKey = true → 0 < info.keyPlace

section Columns

variable {c : Column} {info : ColumnInfo} {d d' : Option String} {type : SqlType} {s : String}

theorem sameDefault_of_stripped (h : d.map stripParentheses = d'.map stripParentheses) : SameDefault d d' := by
  cases d with
  | none =>
    rw [Option.map_none, eq_comm, Option.map_eq_none_iff] at h
    exact h ▸ .same none
  | some s =>
    rw [Option.map_some, eq_comm, Option.map_eq_some_iff] at h
    obtain ⟨s', rfl, hstripped⟩ := h
    obtain rfl | rfl | rfl := eq_or_eq_enclosed hstripped
    · exact .same _
    · exact .declared s
    · exact .told s'

/-- A type is read as it is written. -/
theorem sql_of_parse (h : SqlType.parse s = some type) : s = type.sql := by
  have hsame := List.find?_some h
  exact (beq_iff_eq.1 hsame).symm

theorem Column.Fits.matches (h : c.Fits info) : c.Matches info where
  name := h.name
  type := sql_of_parse h.type
  notNull := h.notNull
  default := sameDefault_of_stripped h.default
  key hkey := by
    have hfirst := h.key.trans hkey
    rw [beq_iff_eq] at hfirst
    omega

/-- In a key of no second column the columns are those declared as key. -/
theorem Column.Fits.key_iff (h : c.Fits info) (hone : info.keyPlace ≤ 1) :
    c.isPrimaryKey = true ↔ 0 < info.keyPlace := by
  rw [← h.key, beq_iff_eq]
  omega

end Columns

section Tables

variable {t : Table} {db : Database} {columns : List ColumnInfo} {name : String}

/-- Columns are told of a table or a view that is there. -/
theorem there_of_tableInfo (h : db.tableInfo name = .ok columns) (hsome : columns ≠ []) :
    ∃ asked info, db.table? asked = some info ∧ info.columns = columns := by
  unfold Database.tableInfo at h
  obtain ⟨r₁, -, h⟩ := ok_of_bind h
  obtain ⟨r₂, -, h⟩ := ok_of_bind h
  obtain ⟨r₃, -, h⟩ := ok_of_bind h
  obtain ⟨⟨asked, r₄⟩, -, h⟩ := ok_of_bind h
  obtain ⟨r₅, -, h⟩ := ok_of_bind h
  split at h
  · exact absurd h (r₅.refuse_ne_ok _)
  · cases hthere : db.table? asked with
    | some info =>
      rw [hthere] at h
      exact ⟨asked, info, hthere, Except.ok.inj h⟩
    | none =>
      rw [hthere] at h
      exact absurd (Except.ok.inj h).symm hsome

theorem mem_of_table? {info : TableInfo} (h : db.table? name = some info) : info ∈ db.tables :=
  List.mem_of_find?_eq_some h

/-- **Validation is sound.** In a database that passes for a declared table, the columns that are told are those declared,
in order, with their types, flags and defaults; the columns declared as key are in the key, and are all of it where it
has no second column; they are the columns of a table or a view, if any was declared; and of every index declared there
is one of its name on the table. -/
theorem Table.validate_sound (hvalid : t.validate db = .ok ()) :
    ∃ columns, db.tableInfo t.name = .ok columns ∧ List.Forall₂ Column.Matches t.columns columns ∧
      ((∀ info ∈ columns, info.keyPlace ≤ 1) →
        List.Forall₂ (fun c info => c.isPrimaryKey = true ↔ 0 < info.keyPlace) t.columns columns) ∧
      (t.columns ≠ [] → ∃ info ∈ db.tables, info.columns = columns ∧
        (Reading.IsName t.name → db.table? t.name = some info)) ∧
      ∀ index ∈ t.indices, ∃ i ∈ db.indices, i.name = index.1 ∧ i.table = t.name := by
  obtain ⟨⟨columns, htold, hfits⟩, hindices⟩ := validate_iff.1 hvalid
  refine ⟨columns, htold, hfits.imp fun _ _ h => h.matches, fun hone => ?_, fun hsome => ?_, fun index hindex => ?_⟩
  · refine List.forall₂_iff_zip.2 ⟨hfits.length_eq, fun {c info} hmem => ?_⟩
    exact ((List.forall₂_iff_zip.1 hfits).2 hmem).key_iff (hone info (List.of_mem_zip hmem).2)
  · by_cases hname : Reading.IsName t.name
    · obtain ⟨info, hthere⟩ := there_of_validate hname hvalid hsome
      have hsame := (tableInfo_of_table? hname hthere).symm.trans htold
      exact ⟨info, mem_of_table? hthere, Except.ok.inj hsame, fun _ => hthere⟩
    · have hcolumns : columns ≠ [] := by
        rintro rfl
        exact hsome (List.forall₂_nil_right_iff.1 hfits)
      obtain ⟨asked, info, hthere, hsame⟩ := there_of_tableInfo htold hcolumns
      exact ⟨info, mem_of_table? hthere, hsame, fun h => absurd h hname⟩
  · obtain ⟨i, hi, hsame⟩ := List.any_eq_true.1 (hindices index hindex)
    rw [Bool.and_eq_true, beq_iff_eq, beq_iff_eq] at hsame
    exact ⟨i, hi, hsame⟩

end Tables

/-! ## What is not asked for -/

/-- Notes by title, with an index over it. -/
def titledNotes : Table where
  name := "notes"
  columns := [⟨"title", .text, true, false, some "'x'"⟩, ⟨"text", .text, false, false, none⟩]
  indices := [("idx_notes", "title")]

def titles : Table where
  name := "titles"
  columns := [⟨"title", .text, false, false, none⟩]
  indices := []

/-- Notes by title, with an index of the same name over the text and a column that is computed, and a view of their
titles. -/
def textNotes : Database where
  tables := [
    { name := "notes"
      columns := [⟨"title", "TEXT", false, some "('x')", 1⟩, ⟨"text", "TEXT", false, none, 0⟩]
      computed := ["size"] },
    { name := "titles"
      columns := [⟨"title", "TEXT", false, none, 0⟩]
      isView := true }]
  indices := [⟨"idx_notes", "notes", ["text"]⟩]

theorem titledNotes_matches :
    titledNotes.validate textNotes = .ok () ∧ ∃ columns, textNotes.tableInfo "notes" = .ok columns ∧
      List.Forall₂ Column.Matches titledNotes.columns columns ∧
      List.Forall₂ (fun c info => c.isPrimaryKey = true ↔ 0 < info.keyPlace) titledNotes.columns columns ∧
      ∃ i ∈ textNotes.indices, i.name = "idx_notes" ∧ i.table = "notes" := by
  have hvalid : titledNotes.validate textNotes = .ok () := by decide
  obtain ⟨columns, htold, hmatches, hkey, -, hindices⟩ := Table.validate_sound hvalid
  have htwo := htold.symm.trans (tableInfo_plain (by decide) textNotes)
  have hone : ∀ info ∈ columns, info.keyPlace ≤ 1 := by
    rw [Except.ok.inj htwo]
    decide
  exact ⟨hvalid, columns, htold, hmatches, hkey hone, hindices ("idx_notes", "title") List.mem_cons_self⟩

/-- Other notes pass for those declared: the index is over another column, the default is told in parentheses, and there
is a column that was not declared. A view passes for a table, and nothing at all for a table without columns. -/
theorem other_notes_pass :
    titledNotes.validate textNotes = .ok () ∧
      (¬ ∃ i ∈ textNotes.indices, i.name = "idx_notes" ∧ i.columns = ["title"]) ∧
      (∃ info, textNotes.table? "notes" = some info ∧
        info.columns.map (·.default) ≠ titledNotes.columns.map (·.default) ∧
        info.hasColumn "size" = true) ∧
      titles.validate textNotes = .ok () ∧
      (∃ info, textNotes.table? "titles" = some info ∧ info.isView = true) ∧
      (Table.mk "blank" [] []).validate textNotes = .ok () := by
  refine ⟨by decide, by decide, ⟨_, rfl, ?_⟩, by decide, ⟨_, rfl, rfl⟩, by decide⟩
  decide

end CatalogSync.Schema
