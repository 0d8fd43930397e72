import CatalogSync.Proofs.Schema.Defaults
import CatalogSync.Proofs.Schema.Tables
import CatalogSync.Proofs.Schema.Upgrading

/-!
# Fresh databases

Where there is no file, the statements of the last version are carried out one after the other, and not as one
transaction. If all of them are, the database has the tables and indices that were declared, and is stamped. If one is
refused, what the ones before it laid out stays behind without a version, and is not opened any more (`opening_afresh`).
What has been laid out is valid unless the database tells a default in a way that does not pass (`fresh_valid_iff`).
-/

namespace CatalogSync.Schema

open CatalogSync.Sql CatalogSync.Text

/-! ## Statements of a version -/

def Version.statements (v : Version) : List String := v.tables.flatMap Table.statements

theorem createTables_nil (db : Database) : createTables [] db = (.ok (), db) := by
  rfl

theorem createTables_cons (t : Table) (rest : List Table) (db : Database) :
    createTables (t :: rest) db =
      match t.create db with
      | (.ok (), db) => createTables rest db
      | (.error e, db) => (.error e, db) := by
  rfl

theorem carried_tables (ts : List Table) (db : Database) :
    Carried db (ts.flatMap Table.statements) (createTables ts db) := by
  induction ts generalizing db with
  | nil =>
    rw [createTables_nil]
    exact .all rfl
  | cons t rest ih =>
    rw [createTables_cons, List.flatMap_cons]
    exact .then ih (fun _ => rfl) (t.carried db)

/-! ## What has been laid out -/

/-- Indices with the tables they are on. -/
def placed (indices : List IndexInfo) : List (String × String) := indices.map fun i => (i.name, i.table)

/-- A table and indices that a declared table was laid out as: as many indices as were declared, and all of it as it was
declared if that was done in plain names. -/
structure Table.LaidOut (t : Table) (info : TableInfo) (indices : List IndexInfo) : Prop where
  count : indices.length = t.indices.length
  told : t.Written → info = t.told ∧ placed indices = t.indices.map fun index => (index.1, t.name)

/-- A declared table is in a database as it is told, with its indices on it. -/
structure Table.IsThere (t : Table) (db : Database) : Prop where
  table : db.table? t.name = some t.told
  indices : ∀ index ∈ t.indices, hasIndex db t.name index.1 = true

section Laying

variable {t : Table} {ts : List Table} {db db' : Database} {info : TableInfo}

theorem Table.IsThere.beside (h : t.IsThere db) (d : Database) : t.IsThere (db.beside d) where
  table := Database.table?_beside_of_some h.table
  indices index hindex := by rw [hasIndex_beside, h.indices index hindex, Bool.true_or]

theorem table?_new (hfree : db.table? info.name = none) :
    Database.table? { db with tables := db.tables ++ [info] } info.name = some info := by
  unfold Database.table? at hfree ⊢
  rw [List.find?_append, hfree, Option.none_or]
  exact List.find?_cons_of_pos (sameName_iff.2 rfl)

theorem hasIndex_of_placed {index table : String} (h : (index, table) ∈ placed db.indices) :
    hasIndex db table index = true := by
  obtain ⟨i, hi, hsame⟩ := List.mem_map.1 h
  obtain ⟨rfl, rfl⟩ := Prod.mk.inj hsame
  refine List.any_eq_true.2 ⟨i, hi, ?_⟩
  rw [beq_self_eq_true, beq_self_eq_true]
  rfl

/-- The statement of a table that is carried out adds one table. -/
theorem execute_table (h : db.execute t.sql = .ok db') :
    ∃ info, db.Free info.name ∧ db' = { db with tables := db.tables ++ [info] } ∧ (t.Written → info = t.told) := by
  obtain ⟨r, -, hsame⟩ := execute_sql t db
  obtain ⟨info, hfree, rfl, -⟩ := Database.createTable_elsewhere (hsame.symm.trans h)
  refine ⟨info, hfree, rfl, fun ht => ?_⟩
  obtain ⟨-, htold⟩ := execute_told ht h
  have htables := congrArg Database.tables htold
  exact (List.cons.inj (List.append_cancel_left htables)).1

/-- The statements of indices that are carried out add an index each. -/
theorem carryOut_indices {indices : List (String × String)} {name : String}
    (h : carryOut db (indices.map fun index => createIndexSql name index.1 index.2) = .ok db') :
    ∃ is, db' = db.beside { indices := is } ∧ is.length = indices.length ∧
      (Reading.IsName name → (∀ index ∈ indices, Reading.IsName index.1) → ∀ info, db.table? name = some info →
        placed is = indices.map fun index => (index.1, info.name)) := by
  induction indices generalizing db with
  | nil =>
    obtain rfl : db = db' := Except.ok.inj h
    exact ⟨[], db.beside_nil.symm, rfl, fun _ _ _ _ => rfl⟩
  | cons index rest ih =>
    rw [List.map_cons, carryOut_cons] at h
    obtain ⟨db₁, hrun, h⟩ := ok_of_bind h
    obtain ⟨r, hbefore, hsame⟩ := execute_indexSql name index.1 index.2 db
    rw [hsame] at hrun
    obtain ⟨i, -, -, -, -, -, -, -, -, -, -, -, -, -, rfl, -⟩ := Database.createIndex_elsewhere hrun
    obtain ⟨is, rfl, hlength, hplaced⟩ := ih h
    refine ⟨i :: is, ?_, congrArg Nat.succ hlength, fun hname hnames info hthere => ?_⟩
    · unfold Database.beside
      rw [List.append_assoc]
      rfl
    · rw [List.forall_mem_cons] at hnames
      obtain ⟨info', i', hthere', hindex, hplace, hnew⟩ := createIndex_told hname hnames.1 hbefore hrun
      obtain rfl : info = info' := Option.some.inj (hthere.symm.trans hthere')
      have hindices := congrArg Database.indices hnew
      obtain rfl : i = i' := (List.cons.inj (List.append_cancel_left hindices)).1
      have hrest := hplaced hname hnames.2 info hthere
      unfold placed at hrest ⊢
      rw [List.map_cons, List.map_cons, hrest, hindex, hplace]

/-- The statements of a declared table that are carried out lay it out. -/
theorem Table.carryOut_statements (h : carryOut db t.statements = .ok db') :
    ∃ info is, db' = db.beside { tables := [info], indices := is } ∧ t.LaidOut info is ∧
      (t.Written → t.IsThere db') := by
  unfold statements at h
  rw [carryOut_cons] at h
  obtain ⟨db₁, hrun, h⟩ := ok_of_bind h
  obtain ⟨info, hfree, rfl, htold⟩ := execute_table hrun
  have hnew := table?_new hfree.table
  obtain ⟨is, rfl, hlength, hplaced⟩ := carryOut_indices h
  have hwritten : t.Written → info = t.told ∧ placed is = t.indices.map fun index => (index.1, t.name) := by
    intro ht
    obtain rfl := htold ht
    exact ⟨rfl, hplaced ht.name ht.indices _ hnew⟩
  refine ⟨info, is, ?_, ⟨hlength, hwritten⟩, fun ht => ?_⟩
  · unfold Database.beside
    rw [List.append_nil]
  · obtain ⟨rfl, hindices⟩ := hwritten ht
    refine ⟨Database.table?_beside_of_some hnew, fun index hindex => ?_⟩
    have hmem : (index.1, t.name) ∈ placed is := hindices ▸ List.mem_map_of_mem hindex
    have hhas : hasIndex { indices := is } t.name index.1 = true := hasIndex_of_placed hmem
    rw [hasIndex_beside, hhas, Bool.or_true]

/-- The statements of declared tables that are carried out lay them out one after the other. -/
theorem carryOut_tables (h : carryOut db (ts.flatMap Table.statements) = .ok db') :
    ∃ laid : List (TableInfo × List IndexInfo),
      db' = db.beside { tables := laid.map Prod.fst, indices := laid.flatMap Prod.snd } ∧
      List.Forall₂ (fun t p => t.LaidOut p.1 p.2) ts laid ∧ ∀ t ∈ ts, t.Written → t.IsThere db' := by
  induction ts generalizing db with
  | nil =>
    obtain rfl : db = db' := Except.ok.inj h
    exact ⟨[], db.beside_nil.symm, .nil, fun t ht => nomatch ht⟩
  | cons t ts ih =>
    rw [List.flatMap_cons, carryOut_append] at h
    obtain ⟨db₁, hfirst, h⟩ := ok_of_bind h
    obtain ⟨info, is, rfl, hlaid, hthere⟩ := Table.carryOut_statements hfirst
    obtain ⟨laid, rfl, hrest, hothers⟩ := ih h
    refine ⟨(info, is) :: laid, ?_, .cons hlaid hrest, fun t' ht' hwritten => ?_⟩
    · rw [Database.beside_assoc]
      rfl
    · obtain rfl | ht' := List.mem_cons.1 ht'
      · exact (hthere hwritten).beside _
      · exact hothers t' ht' hwritten

end Laying

/-! ## Opening where there is no file -/

/-- A version that has been laid out in an empty database by all of its statements, and stamped. -/
structure Version.LaidOut (v : Version) (db : Database) : Prop where
  carried : ∃ d, carryOut {} v.statements = .ok d ∧ db = d.setVersion (baseVersion + v.version)
  stamped : db.userVersion =
    if baseVersion + v.version ≤ Database.maxVersion then ((baseVersion + v.version : Nat) : Int) else 0
  tables : ∃ laid : List (TableInfo × List IndexInfo), db.tables = laid.map Prod.fst ∧ db.indices = laid.flatMap Prod.snd ∧
    List.Forall₂ (fun t p => t.LaidOut p.1 p.2) v.tables laid

/-- A version that has been laid out in an empty database up to a statement that was refused. -/
structure Version.BrokenOff (v : Version) (db : Database) (e : StoreError) : Prop where
  carried : ∃ done sql rest fault, v.statements = done ++ sql :: rest ∧ carryOut {} done = .ok db ∧
    db.execute sql = .error fault ∧ e.cause = .sql fault
  unstamped : db.userVersion = 0

section Opening

variable {v : Version} {db : Database} {versions : List Version}

theorem setVersion_version (db : Database) (n : Nat) :
    (db.setVersion n).userVersion = if n ≤ Database.maxVersion then (n : Int) else 0 := by
  unfold Database.setVersion
  split <;> rfl

theorem Version.laidOut_of_create (h : v.create {} = (.ok (), db)) :
    v.LaidOut db ∧ ∀ t ∈ v.tables, t.Written → t.IsThere db := by
  have hcarried := carried_tables v.tables {}
  unfold create at h
  split at h
  · next d hrun =>
    obtain rfl := (Prod.mk.inj h).2
    rw [hrun] at hcarried
    have hall := hcarried.carryOut_eq
    obtain ⟨laid, hd, htables, hthere⟩ := carryOut_tables hall
    refine ⟨⟨⟨d, hall, rfl⟩, setVersion_version d _, laid, ?_, ?_, htables⟩, fun t ht hwritten => ?_⟩
    · exact congrArg Database.tables hd
    · exact congrArg Database.indices hd
    · exact ⟨(hthere t ht hwritten).table, (hthere t ht hwritten).indices⟩
  · cases h

theorem Version.brokenOff_of_create {e : StoreError} (h : v.create {} = (.error e, db)) : v.BrokenOff db e := by
  have hcarried := carried_tables v.tables {}
  unfold create at h
  split at h
  · cases h
  · next e' d hrun =>
    rw [hrun, h] at hcarried
    obtain ⟨done, sql, rest, fault, hstatements, hdone, hrefused, hcause⟩ := hcarried.upTo_fault
    obtain ⟨⟨more, rfl⟩, -⟩ := carryOut_beside hdone
    exact ⟨⟨done, sql, rest, fault, hstatements, hdone, hrefused, hcause⟩, rfl⟩

theorem openVersioned_missing (hlast : versions.getLast? = some v) (label path : String) (r : Refusals) :
    openVersioned versions label path .missing r =
      match v.create {} with
      | (.ok (), db) => (.ok db, .database db)
      | (.error e, db) => (.error e, .database db) := by
  unfold openVersioned
  rw [hlast]
  dsimp only
  rw [Session.exec_change]
  change opened ((v.create {}).1, Connection.write (v.create {}).2 { file := {} }) = _
  rcases v.create {} with ⟨e | u, db⟩ <;> rfl

/-- A database without a version is not opened, and stays as it is. -/
theorem openVersioned_unstamped (h : db.userVersion = 0) (hsome : versions ≠ []) (label path : String) (r : Refusals) :
    openVersioned versions label path (.database db) r =
      (.error (.of (.text (label ++ " database version -99999 is invalid (expected >= 1)"))), .database db) := by
  have hnumber : db.userVersion - baseVersion = -99999 := by rw [h]; rfl
  have htext : Decimal.ofInt (-99999) = "-99999" := by decide +kernel
  unfold openVersioned
  rw [List.getLast?_eq_some_getLast hsome]
  dsimp only
  unfold openExisting
  rw [Session.exec_bind_ok (m := Session.view) rfl]
  dsimp only [Connection.view, Option.getD]
  rw [hnumber, if_pos (by decide), htext, String.append_assoc, String.append_assoc]
  rfl

/-- **Opening where there is no file.** If no version is declared there is no file still, nor without a directory. Else
either the last version is laid out and stamped, or it is broken off: then the file holds what the statements in front
of the refused one laid out, and no later opening, by whatever versions, opens it or changes it. -/
theorem opening_afresh (versions : List Version) (label path : String) (r : Refusals) :
    (∃ e, openVersioned versions label path .noDirectory r = (.error e, .noDirectory)) ∧
    ((versions = [] ∧ ∃ e, openVersioned versions label path .missing r = (.error e, .missing)) ∨
      ∃ latest, versions.getLast? = some latest ∧
        ((∃ db, openVersioned versions label path .missing r = (.ok db, .database db) ∧ latest.LaidOut db) ∨
          ∃ half e, openVersioned versions label path .missing r = (.error e, .database half) ∧
            latest.BrokenOff half e ∧ ∀ (later : List Version) (label' path' : String) (r' : Refusals),
              openVersioned later label' path' (.database half) r' =
                (.error (.of (.text (if later.isEmpty then "No schema declared for " ++ label' ++ " database"
                  else label' ++ " database version -99999 is invalid (expected >= 1)"))), .database half))) := by
  refine ⟨?_, ?_⟩
  · unfold openVersioned
    cases versions.getLast? with
    | none => exact ⟨_, rfl⟩
    | some latest => exact ⟨_, rfl⟩
  · cases hlast : versions.getLast? with
    | none =>
      obtain rfl := List.getLast?_eq_none_iff.1 hlast
      exact .inl ⟨rfl, _, rfl⟩
    | some latest =>
      refine .inr ⟨latest, rfl, ?_⟩
      rw [openVersioned_missing hlast]
      rcases hrun : latest.create {} with ⟨e | u, db⟩
      · have hbroken := Version.brokenOff_of_create hrun
        refine .inr ⟨db, e, rfl, hbroken, fun later label' path' r' => ?_⟩
        cases later with
        | nil => rfl
        | cons first later => exact openVersioned_unstamped hbroken.unstamped (List.cons_ne_nil _ _) label' path' r'
      · obtain ⟨hlaid, -⟩ := Version.laidOut_of_create hrun
        exact .inl ⟨db, rfl, hlaid⟩

def indexedNotes (column : String) : Version where
  version := 1
  tables := [{ name := "notes", columns := [⟨"text", .text, false, false, none⟩], indices := [("idx_notes", column)] }]

/-- Notes with an index over a column that they have are opened where there is no file. But where opening was tried first
with an index over a column that they have not, they are not any more. -/
theorem broken_off_notes_stay :
    (∃ db, openVersioned [indexedNotes "text"] "notes" "notes.db" .missing = (.ok db, .database db)) ∧
      ∃ half e e', openVersioned [indexedNotes "words"] "notes" "notes.db" .missing = (.error e, .database half) ∧
        half.tables.map (·.name) = ["notes"] ∧
        openVersioned [indexedNotes "text"] "notes" "notes.db" (.database half) = (.error e', .database half) := by
  have hlaid : (indexedNotes "text").create {} =
      (.ok (),
        { userVersion := 100000
          tables := [{ name := "notes", columns := [⟨"text", "TEXT", false, none, 0⟩] }]
          indices := [⟨"idx_notes", "notes", ["text"]⟩] }) := by
    decide
  have hbroken : (indexedNotes "words").create {} =
      (.error (.of (.sql (.statement "no such column: words" "CREATE INDEX idx_notes ON notes(words);" 32))),
        { tables := [{ name := "notes", columns := [⟨"text", "TEXT", false, none, 0⟩] }] }) := by
    decide
  have hopened := @openVersioned_missing (indexedNotes "text") [indexedNotes "text"] rfl "notes" "notes.db" {}
  have hrefused := @openVersioned_missing (indexedNotes "words") [indexedNotes "words"] rfl "notes" "notes.db" {}
  rw [hlaid] at hopened
  rw [hbroken] at hrefused
  exact ⟨⟨_, hopened⟩, _, _, _, hrefused, rfl, openVersioned_unstamped rfl (List.cons_ne_nil _ _) _ _ _⟩

end Opening

/-! ## Validating what has been laid out -/

section Validating

variable {t : Table} {c : Column} {v : Version} {db : Database}

/-- A column passes as it is told if its default does. -/
theorem fits_told_iff : c.Fits c.told ↔ ∀ s, c.default = some s → Survives s := by
  have hdefault : c.told.default.map stripParentheses = c.default.map stripParentheses ↔
      ∀ s, c.default = some s → Survives s := by
    unfold Column.told
    cases c.default with
    | none => exact ⟨nofun, fun _ => rfl⟩
    | some s =>
      rw [Option.map_some, Option.map_some, Option.map_some, Option.some.injEq]
      exact ⟨fun h s' hs' => Option.some.inj hs' ▸ h, fun h => h s rfl⟩
  rw [← hdefault]
  obtain ⟨hname, htype, hnull, hkey, -⟩ := fits_info c
  exact ⟨fun h => h.default, fun h => ⟨hname, htype, hnull, hkey, h⟩⟩

/-- A table that is there is valid if the defaults of its columns pass. -/
theorem Table.IsThere.validate_iff (hthere : t.IsThere db) (hname : Reading.IsName t.name) :
    t.validate db = .ok () ↔ ∀ c ∈ t.columns, ∀ s, c.default = some s → Survives s := by
  rw [Table.validate_iff, tableInfo_of_table? hname hthere.table, and_iff_left hthere.indices]
  have hfits : List.Forall₂ Column.Fits t.columns (t.columns.map Column.told) ↔
      ∀ c ∈ t.columns, ∀ s, c.default = some s → Survives s := by
    rw [List.forall₂_map_right_iff, List.forall₂_same]
    exact forall₂_congr fun c _ => fits_told_iff
  rw [← hfits]
  constructor
  · rintro ⟨columns, htold, h⟩
    obtain rfl : t.columns.map Column.told = columns := Except.ok.inj htold
    exact h
  · intro h
    exact ⟨_, rfl, h⟩

/-- A database of the last version that is not valid is not opened, and stays as it is. -/
theorem openVersioned_invalid {versions : List Version} (hrises : RisesTo versions v) (hone : 1 ≤ v.version)
    (hstamped : db.userVersion = (baseVersion + v.version : Nat)) {e : StoreError} (hinvalid : v.validate db = .error e)
    (label path : String) (r : Refusals) :
    openVersioned versions label path (.database db) r =
      (.error (e.within (label ++ " database schema validation failed for version " ++ Decimal.ofInt v.version)),
        .database db) := by
  have hcheck : ∀ doing, ((Session.check (v.validate db)).within doing).exec { file := db } =
      (.error (e.within doing), { file := db }) := by
    intro doing
    rw [Session.exec_within, Session.exec_check, hinvalid]
    rfl
  rw [openVersioned_stamped hrises (List.mem_of_getLast? hrises.last) hone hstamped,
    Session.exec_bind_error (hcheck _)]
  rfl

/-- **Validating what has been laid out.** A version of tables in plain names, the defaults of columns in texts of SQL, that
has been laid out is valid, unless a default in parentheses has blanks at the ends inside them, or begins and ends with
parentheses inside them. And the file that has been made is opened again, as it is, if and only if it is valid. -/
theorem fresh_valid_iff (hwritten : ∀ t ∈ v.tables, t.Written) (hcreate : v.create {} = (.ok (), db)) :
    (v.validate db = .ok () ↔ ∀ t ∈ v.tables, ∀ c ∈ t.columns, ∀ e, c.default = some (enclosed e) →
      trimmedText e = e ∧ stripParentheses e = e) ∧
    ∀ versions, RisesTo versions v → 1 ≤ v.version → ∀ label path,
      openVersioned versions label path .missing = (.ok db, .database db) ∧
      (openVersioned versions label path (.database db) = (.ok db, .database db) ↔ v.validate db = .ok ()) := by
  obtain ⟨hlaid, hthere⟩ := Version.laidOut_of_create hcreate
  refine ⟨?_, fun versions hrises hone label path => ⟨?_, ?_⟩⟩
  · rw [Version.validate_iff]
    refine forall₂_congr fun t ht => ?_
    rw [(hthere t ht (hwritten t ht)).validate_iff (hwritten t ht).name]
    refine forall₂_congr fun c _ => ?_
    constructor
    · intro h e hdefault
      exact survives_enclosed_iff.1 (h _ hdefault)
    · rintro h s hdefault
      refine survives_iff.2 ?_
      rintro e rfl
      exact h e hdefault
  · rw [openVersioned_missing hrises.last, hcreate]
  · have hstamped : db.userVersion = (baseVersion + v.version : Nat) := hlaid.stamped.trans (if_pos hrises.fits)
    constructor
    · intro hopen
      cases hvalid : v.validate db with
      | ok u => rfl
      | error e => cases (openVersioned_invalid hrises hone hstamped hvalid label path {}).symm.trans hopen
    · intro hvalid
      exact openVersioned_latest hrises hone ⟨hstamped, hvalid⟩ label path

/-- Notes with a rank, for which an expression stands in. -/
def rankedNotes (rank : String) : Version where
  version := 1
  tables := [{ name := "notes", columns := [⟨"rank", .integer, false, false, some (enclosed rank)⟩] }]

/-- Notes with a rank as the database tells them. -/
def toldNotes (rank : String) : Database where
  userVersion := 100000
  tables := [{ name := "notes", columns := [⟨"rank", "INTEGER", false, some rank, 0⟩] }]

theorem rankedNotes_written {rank : String} (hrank : IsDefault (enclosed rank)) :
    ∀ t ∈ (rankedNotes rank).tables, t.Written := by
  have hnames : Reading.IsName "notes" ∧ Reading.IsName "rank" := by decide
  refine List.forall_mem_singleton.2 ⟨hnames.1, ?_, ?_, List.forall_mem_nil _⟩
  · exact List.forall_mem_singleton.2 hnames.2
  · exact List.forall_mem_singleton.2 fun s hs => Option.some.inj hs ▸ hrank

theorem isDefault_one : IsDefault (enclosed "1") := by
  have hspells : Spells "1" [⟨.number, ['1'], 0⟩] := by decide
  exact .expression hspells (by decide)

theorem isDefault_enclosed_one : IsDefault (enclosed (enclosed "1")) := by
  have hspells : Spells (enclosed "1") [⟨.symbol, ['('], 0⟩, ⟨.number, ['1'], 1⟩, ⟨.symbol, [')'], 2⟩] := by decide
  exact .expression hspells (by decide)

theorem notes_of_rank_one_valid :
    (rankedNotes "1").create {} = (.ok (), toldNotes "1") ∧ (∀ t ∈ (rankedNotes "1").tables, t.Written) ∧
      (rankedNotes "1").validate (toldNotes "1") = .ok () ∧
      openVersioned [rankedNotes "1"] "notes" "notes.db" .missing = (.ok (toldNotes "1"), .database (toldNotes "1")) ∧
      openVersioned [rankedNotes "1"] "notes" "notes.db" (.database (toldNotes "1")) =
        (.ok (toldNotes "1"), .database (toldNotes "1")) := by
  have hcreate : (rankedNotes "1").create {} = (.ok (), toldNotes "1") := by decide
  have hwritten := rankedNotes_written isDefault_one
  have hdefaults : ∀ t ∈ (rankedNotes "1").tables, ∀ c ∈ t.columns, ∀ s ∈ c.default, Survives s := by decide
  have hrises : RisesTo [rankedNotes "1"] (rankedNotes "1") := ⟨List.pairwise_singleton _ _, rfl, by decide⟩
  obtain ⟨hvalid, hopen⟩ := fresh_valid_iff hwritten hcreate
  obtain ⟨hfirst, hagain⟩ := hopen _ hrises (Nat.le_refl 1) "notes" "notes.db"
  have hdone := hvalid.2 fun t ht c hc e he => survives_enclosed_iff.1 (hdefaults t ht c hc _ he)
  exact ⟨hcreate, hwritten, hdone, hfirst, hagain.2 hdone⟩

/-- With two pairs of parentheses around the rank, what has been laid out is not valid, and not opened again. -/
theorem notes_of_enclosed_rank_refused :
    (rankedNotes (enclosed "1")).create {} = (.ok (), toldNotes (enclosed "1")) ∧
      (∀ t ∈ (rankedNotes (enclosed "1")).tables, t.Written) ∧
      ∃ e, (rankedNotes (enclosed "1")).validate (toldNotes (enclosed "1")) = .error e ∧
        e.cause = .text "Table notes column rank default value mismatch: expected Some(\"((1))\"), got Some(\"(1)\")" ∧
        ∃ e', openVersioned [rankedNotes (enclosed "1")] "notes" "notes.db" (.database (toldNotes (enclosed "1"))) =
          (.error e', .database (toldNotes (enclosed "1"))) := by
  have hcreate : (rankedNotes (enclosed "1")).create {} = (.ok (), toldNotes (enclosed "1")) := by decide
  have hinvalid : (rankedNotes (enclosed "1")).validate (toldNotes (enclosed "1")) = .error (.of
      (.text "Table notes column rank default value mismatch: expected Some(\"((1))\"), got Some(\"(1)\")")) := by decide
  have hrises : RisesTo [rankedNotes (enclosed "1")] (rankedNotes (enclosed "1")) :=
    ⟨List.pairwise_singleton _ _, rfl, by decide⟩
  exact ⟨hcreate, rankedNotes_written isDefault_enclosed_one, _, hinvalid, rfl, _,
    openVersioned_invalid hrises (Nat.le_refl 1) rfl hinvalid _ _ _⟩

end Validating

end CatalogSync.Schema
