import CatalogSync.Proofs.Sql.Reading
import CatalogSync.Proofs.Store.Outcomes
import CatalogSync.Schema.Table

/-!
# What a comparison finds

A database is compared with a declared table column by column and index by index. `Table.validate_iff` says what it takes
to pass, and the rest is drawn from it.
-/

namespace CatalogSync.Sql

open CatalogSync.Text

/-! ## Asking for columns -/

section Asking

variable {r : Reading} {name : String} {ahead : List Char}

theorem pragmaName_plain (h : r.Before (name.toList ++ ahead)) (hname : Reading.IsName name)
    (hahead : endsWord ahead = true) : Database.pragmaName r = .ok (name, r.skip) := by
  obtain ⟨hword, -⟩ := h.word hname.1 hahead
  obtain ⟨⟨n, hpast⟩, -⟩ := h.name hname hahead
  obtain ⟨t, hhead, hkind, hcapitals⟩ := hword
  obtain ⟨rest, hrest⟩ := List.head?_eq_some_iff.1 hhead
  have hsymbol : ∀ s, t.isSymbol s = false := fun s => by
    unfold Token.isSymbol
    rw [hkind]
    rfl
  have hreserved : ∀ word ∈ ["ON", "DELETE", "DEFAULT"], reservedWords.contains word = true := by decide
  have hother : ["ON", "DELETE", "DEFAULT"].any t.isWord = false := by
    rw [List.any_eq_false]
    intro word hmem his
    unfold Token.isWord at his
    rw [hkind, hcapitals] at his
    have hsame : capitals name = word := by simpa using his
    rw [← hsame] at hmem
    exact Bool.false_ne_true (hname.2.symm.trans (hreserved _ hmem))
  unfold Database.pragmaName
  rw [hrest]
  dsimp only
  rw [hsymbol, hsymbol, hother, hkind, hpast]
  rfl

/-- Asked for the columns of a plain name, a database tells those of the table of that name. -/
theorem tableInfo_plain (hname : Reading.IsName name) (db : Database) :
    db.tableInfo name = .ok (((db.table? name).map (·.columns)).getD []) := by
  have hstart := Reading.before_start (Database.tableInfoSql name)
  have htext : (Database.tableInfoSql name).toList =
      "PRAGMA".toList ++ ' ' :: ("table_info".toList ++ '(' :: (name.toList ++ [')', ';'])) := by
    have hfront : "PRAGMA table_info(".toList = "PRAGMA".toList ++ ' ' :: ("table_info".toList ++ ['(']) := by
      decide
    unfold Database.tableInfoSql
    rw [String.toList_append, String.toList_append, hfront]
    simp only [List.append_assoc, List.cons_append, List.nil_append]
    rfl
  rw [htext] at hstart
  obtain ⟨hpragma, hskip⟩ := hstart.keyword (by decide) rfl
  obtain ⟨hasked, hskip⟩ := hskip.blank.word (by decide) rfl
  obtain ⟨hopen, hskip⟩ := hskip.sign (by decide)
  have hpast := pragmaName_plain hskip hname rfl
  obtain ⟨-, hskip⟩ := hskip.plain hname.1 rfl
  obtain ⟨hclose, hskip⟩ := hskip.sign (by decide)
  obtain ⟨hend, -⟩ := hskip.sign (by decide)
  have hcapitals : capitals "table_info" = "TABLE_INFO" := by decide
  rw [hcapitals] at hasked
  unfold Database.tableInfo
  rw [hpragma.word]
  dsimp only [bind, Except.bind]
  rw [hasked.word]
  dsimp only
  rw [show Reading.symbol _ "(" = _ from hopen.symbol]
  dsimp only
  rw [hpast]
  dsimp only
  rw [show Reading.symbol _ ")" = _ from hclose.symbol]
  dsimp only
  rw [show Reading.atSymbol _ ";" = _ from hend.atSymbol]
  rfl

end Asking

end CatalogSync.Sql

namespace CatalogSync.Schema

open CatalogSync.Sql CatalogSync.Text

/-! ## Defaults -/

def enclosed (s : String) : String := "(" ++ s ++ ")"

theorem toList_enclosed (s : String) : (enclosed s).toList = '(' :: (s.toList ++ [')']) := by
  unfold enclosed
  rw [String.toList_append, String.toList_append]
  rfl

theorem stripParentheses_enclosed (s : String) : stripParentheses (enclosed s) = s := by
  unfold stripParentheses
  simp only [toList_enclosed]
  rw [List.getLast?_concat, if_pos rfl, List.dropLast_concat, String.ofList_toList]

/-- A text is left alone, or it is what is left of it in parentheses. -/
theorem stripParentheses_cases (s : String) : stripParentheses s = s ∨ s = enclosed (stripParentheses s) := by
  unfold stripParentheses
  split
  · next r hs =>
    split
    · next hlast =>
      right
      obtain ⟨front, rfl⟩ := List.getLast?_eq_some_iff.1 hlast
      rw [← String.toList_inj, toList_enclosed, String.toList_ofList, hs, List.dropLast_concat]
    · exact .inl rfl
  · exact .inl rfl

/-- Texts that are the same without parentheses around them differ by one pair at most. -/
theorem eq_or_eq_enclosed {s s' : String} (h : stripParentheses s = stripParentheses s') :
    s = s' ∨ s = enclosed s' ∨ s' = enclosed s := by
  obtain hs | hs := stripParentheses_cases s <;> obtain hs' | hs' := stripParentheses_cases s'
  · exact .inl (hs.symm.trans (h.trans hs'))
  · right; right
    rw [hs', ← h, hs]
  · right; left
    rw [hs, h, hs']
  · left
    rw [hs, h, ← hs']

/-! ## Columns -/

/-- A column of a database passes for a declared one. -/
structure Column.Fits (c : Column) (info : ColumnInfo) : Prop where
  name : info.name = c.name
  type : SqlType.parse info.type = some c.type
  notNull : info.notNull = c.notNull
  key : (info.keyPlace == 1) = c.isPrimaryKey
  default : info.default.map stripParentheses = c.default.map stripParentheses

theorem ite_some_eq_none_iff {p : Prop} [Decidable p] {message : String} {rest : Option String} :
    (if p then some message else rest) = none ↔ ¬ p ∧ rest = none := by
  by_cases hp : p
  · rw [if_pos hp]
    exact ⟨nofun, fun h => absurd hp h.1⟩
  · rw [if_neg hp]
    exact ⟨fun h => ⟨hp, h⟩, fun h => h.2⟩

section Columns

variable {t : Table} {c : Column} {info : ColumnInfo} {type : SqlType} {db : Database}

/-- No difference is found in a column that passes, whose type has been read. -/
theorem difference_eq_none_iff (hread : SqlType.parse info.type = some type) (table : String) :
    c.difference table info type = none ↔ c.Fits info := by
  have hfits : c.Fits info ↔ info.name = c.name ∧ type = c.type ∧ info.notNull = c.notNull ∧
      (info.keyPlace == 1) = c.isPrimaryKey ∧ info.default.map stripParentheses = c.default.map stripParentheses := by
    refine ⟨fun h => ⟨h.name, Option.some.inj (hread.symm.trans h.type), h.notNull, h.key, h.default⟩, ?_⟩
    rintro ⟨hname, rfl, hnull, hkey, hdefault⟩
    exact ⟨hname, hread, hnull, hkey, hdefault⟩
  rw [hfits]
  unfold Column.difference
  dsimp only
  rw [ite_some_eq_none_iff, ite_some_eq_none_iff, ite_some_eq_none_iff, ite_some_eq_none_iff, ite_some_eq_none_iff]
  simp only [ne_eq, not_not, and_true]

theorem typedColumn_iff {p : ColumnInfo × SqlType} :
    typedColumn info = .ok p ↔ p.1 = info ∧ SqlType.parse info.type = some p.2 := by
  unfold typedColumn
  cases SqlType.parse info.type with
  | none => exact ⟨nofun, fun h => nomatch h.2⟩
  | some type =>
    rw [Except.ok.injEq, Option.some.injEq]
    exact ⟨fun h => h ▸ ⟨rfl, rfl⟩, fun h => Prod.ext h.1.symm h.2⟩

/-- What is read of a table: the columns that the database tells, and the type of each. -/
theorem readColumns_iff {read : List (ColumnInfo × SqlType)} :
    readColumns t db = .ok read ↔ ∃ columns, db.tableInfo t.name = .ok columns ∧
      List.Forall₂ (fun info p => p.1 = info ∧ SqlType.parse info.type = some p.2) columns read := by
  unfold readColumns
  rw [bind_eq_ok_iff]
  refine exists_congr fun columns => and_congr ?_ ?_
  · cases db.tableInfo t.name with
    | error fault => exact ⟨nofun, nofun⟩
    | ok told => exact ⟨fun h => by cases h; rfl, fun h => by cases h; rfl⟩
  · rw [← mapM_eq_ok_iff fun info _ p => typedColumn_iff]
    cases columns.mapM typedColumn with
    | error e => exact ⟨nofun, nofun⟩
    | ok read => exact Iff.rfl

/-- Columns that have been read pass if no difference is found in any of them. -/
theorem fits_of_read {columns : List ColumnInfo} {read : List (ColumnInfo × SqlType)} {declared : List Column}
    (hread : List.Forall₂ (fun info p => p.1 = info ∧ SqlType.parse info.type = some p.2) columns read)
    (table : String) :
    List.Forall₂ (fun p c => c.difference table p.1 p.2 = none) read declared ↔
      List.Forall₂ Column.Fits declared columns := by
  induction hread generalizing declared with
  | nil => cases declared <;> simp
  | @cons info p columns read hfirst _ ih =>
    obtain ⟨rfl, htype⟩ := hfirst
    cases declared with
    | nil => exact ⟨nofun, nofun⟩
    | cons c declared =>
      rw [List.forall₂_cons, List.forall₂_cons, ih, difference_eq_none_iff htype]

/-- The types of columns that pass can be read. -/
theorem read_of_fits {declared : List Column} {columns : List ColumnInfo} (h : List.Forall₂ Column.Fits declared columns) :
    ∃ read : List (ColumnInfo × SqlType),
      List.Forall₂ (fun info p => p.1 = info ∧ SqlType.parse info.type = some p.2) columns read := by
  induction h with
  | nil => exact ⟨[], .nil⟩
  | @cons c info declared columns hfirst _ ih =>
    obtain ⟨read, hread⟩ := ih
    exact ⟨(info, c.type) :: read, .cons ⟨rfl, hfirst.type⟩ hread⟩

end Columns

/-! ## Tables -/

section Tables

variable {t : Table} {db db' : Database}

theorem tableDifference_eq_none_iff {read : List (ColumnInfo × SqlType)} :
    t.difference db read = none ↔
      List.Forall₂ (fun p c => c.difference t.name p.1 p.2 = none) read t.columns ∧
        ∀ index ∈ t.indices, hasIndex db t.name index.1 = true := by
  unfold Table.difference
  rw [ite_some_eq_none_iff, not_not, Option.orElse_eq_orElse, Option.orElse_eq_or, Option.or_eq_none_iff,
    List.findSome?_eq_none_iff, List.findSome?_eq_none_iff, List.forall₂_iff_zip, and_assoc]
  refine and_congr_right fun _ => and_congr ⟨fun h a b hmem => h (a, b) hmem, fun h p hmem => h hmem⟩ ?_
  refine forall₂_congr fun index _ => ?_
  rw [ite_eq_left_iff]
  simp

/-- **What passes.** A database passes for a declared table if the columns that it tells are as they are declared, one by
one, and the indices are there by name. -/
theorem Table.validate_iff :
    t.validate db = .ok () ↔
      (∃ columns, db.tableInfo t.name = .ok columns ∧ List.Forall₂ Column.Fits t.columns columns) ∧
        ∀ index ∈ t.indices, hasIndex db t.name index.1 = true := by
  unfold validate
  rw [bind_eq_ok_iff]
  constructor
  · rintro ⟨read, hread, h⟩
    obtain ⟨columns, htold, htypes⟩ := readColumns_iff.1 hread
    split at h
    · cases h
    · next hnone =>
      obtain ⟨hcolumns, hindices⟩ := tableDifference_eq_none_iff.1 hnone
      exact ⟨⟨columns, htold, (fits_of_read htypes t.name).1 hcolumns⟩, hindices⟩
  · rintro ⟨⟨columns, htold, hfits⟩, hindices⟩
    obtain ⟨read, htypes⟩ := read_of_fits hfits
    have hnone := tableDifference_eq_none_iff.2 ⟨(fits_of_read htypes t.name).2 hfits, hindices⟩
    refine ⟨read, readColumns_iff.2 ⟨columns, htold, htypes⟩, ?_⟩
    rw [hnone]
    rfl

/-- What the database tells of a table of a plain name. -/
theorem tableInfo_of_table? (hname : Reading.IsName t.name) {info : TableInfo} (hthere : db.table? t.name = some info) :
    db.tableInfo t.name = .ok info.columns := by
  rw [tableInfo_plain hname, hthere]
  rfl

/-- A table with columns is valid only if it is there. -/
theorem Table.there_of_validate (hname : Reading.IsName t.name) (hvalid : t.validate db = .ok ())
    (hcolumns : t.columns ≠ []) : ∃ info, db.table? t.name = some info := by
  obtain ⟨⟨columns, htold, hfits⟩, -⟩ := validate_iff.1 hvalid
  rw [tableInfo_plain hname] at htold
  cases hthere : db.table? t.name with
  | some info => exact ⟨info, rfl⟩
  | none =>
    rw [hthere] at htold
    cases htold
    exact absurd (List.forall₂_nil_right_iff.1 hfits) hcolumns

/-- What is valid stays valid as long as its table stays and its indices do. -/
theorem Table.validate_mono (hname : Reading.IsName t.name) (hvalid : t.validate db = .ok ())
    (htable : db'.table? t.name = db.table? t.name)
    (hindices : ∀ index, hasIndex db t.name index = true → hasIndex db' t.name index = true) :
    t.validate db' = .ok () := by
  obtain ⟨⟨columns, htold, hfits⟩, hthere⟩ := validate_iff.1 hvalid
  rw [tableInfo_plain hname, ← htable, ← tableInfo_plain hname] at htold
  exact validate_iff.2 ⟨⟨columns, htold, hfits⟩, fun index hindex => hindices _ (hthere index hindex)⟩

end Tables

end CatalogSync.Schema
