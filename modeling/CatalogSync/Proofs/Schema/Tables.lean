import CatalogSync.Proofs.Schema.Comparing
import CatalogSync.Proofs.Sql.Creation

/-!
# Declared tables

A declared table is laid out by its statements, one after the other and up to the first that is refused
(`Table.carried`). What can be laid out in an empty database can be laid out beside any other tables, if its names are
free there (`Table.create_beside`), and what is valid stays valid when tables and indices come beside it
(`Table.validate_before`, `Table.validate_after`).
-/

namespace CatalogSync.Schema

open CatalogSync.Sql CatalogSync.Text

/-! ## Statements one after the other -/

def Table.statements (t : Table) : List String :=
  t.sql :: t.indices.map fun index => createIndexSql t.name index.1 index.2

/-- What statements make of a database if all of them are carried out. -/
def carryOut (db : Database) (statements : List String) : Except SqlFault Database := statements.foldlM Database.execute db

/-- What came of statements: all of them were carried out, or those in front of one that was refused. -/
inductive Carried (db : Database) : List String → Except StoreError Unit × Database → Prop
  | all {statements : List String} {db' : Database} (h : carryOut db statements = .ok db') :
    Carried db statements (.ok (), db')
  | upTo {done rest : List String} {sql : String} {db' : Database} {fault : SqlFault} {e : StoreError}
      (h : carryOut db done = .ok db') (hrefused : db'.execute sql = .error fault) (hcause : e.cause = .sql fault) :
    Carried db (done ++ sql :: rest) (.error e, db')

section Carrying

variable {db db' : Database} {statements more : List String} {out : Except StoreError Unit × Database}

theorem carryOut_append (db : Database) (statements more : List String) :
    carryOut db (statements ++ more) = carryOut db statements >>= fun db => carryOut db more :=
  List.foldlM_append

theorem carryOut_cons (db : Database) (sql : String) (statements : List String) :
    carryOut db (sql :: statements) = db.execute sql >>= fun db => carryOut db statements :=
  List.foldlM_cons

/-- Further statements have their turn only where those in front of them have all been carried out. -/
theorem Carried.then {first : Except StoreError Unit × Database} {next : Database → Except StoreError Unit × Database}
    {told : StoreError → StoreError} (hnext : ∀ db, Carried db more (next db))
    (htold : ∀ e, (told e).cause = e.cause) :
    Carried db statements first → Carried db (statements ++ more)
      (match first with
        | (.ok (), db) => next db
        | (.error e, db) => (.error (told e), db)) := by
  intro h
  cases h with
  | @all _ db₁ h =>
    have hout := hnext db₁
    dsimp only
    generalize next db₁ = out at hout ⊢
    cases hout with
    | all hmore =>
      refine .all ?_
      rw [carryOut_append, h]
      exact hmore
    | upTo hdone hrefused hcause =>
      rw [← List.append_assoc]
      refine .upTo ?_ hrefused hcause
      rw [carryOut_append, h]
      exact hdone
  | upTo hdone hrefused hcause =>
    rw [List.append_assoc, List.cons_append]
    exact .upTo hdone hrefused ((htold _).trans hcause)

theorem Carried.carryOut_eq (h : Carried db statements (.ok (), db')) : carryOut db statements = .ok db' := by
  cases h with
  | all h => exact h

theorem Carried.upTo_fault {e : StoreError} (h : Carried db statements (.error e, db')) :
    ∃ done sql rest fault, statements = done ++ sql :: rest ∧ carryOut db done = .ok db' ∧
      db'.execute sql = .error fault ∧ e.cause = .sql fault := by
  cases h with
  | upTo h hrefused hcause => exact ⟨_, _, _, _, rfl, h, hrefused, hcause⟩

theorem carried_execute (sql : String) (db : Database) : Carried db [sql] (execute sql db) := by
  unfold execute
  cases hrun : db.execute sql with
  | ok db' =>
    refine .all ?_
    rw [carryOut_cons, hrun]
    rfl
  | error fault =>
    have hnone : carryOut db [] = .ok db := rfl
    exact .upTo hnone hrun rfl

theorem createIndices_cons (table index columns : String) (rest : List (String × String)) (db : Database) :
    createIndices table ((index, columns) :: rest) db =
      match execute (createIndexSql table index columns) db with
      | (.ok (), db) => createIndices table rest db
      | (.error e, db) => (.error e, db) := by
  rfl

theorem carried_indices (table : String) (indices : List (String × String)) (db : Database) :
    Carried db (indices.map fun index => createIndexSql table index.1 index.2) (createIndices table indices db) := by
  induction indices generalizing db with
  | nil => exact .all rfl
  | cons index rest ih =>
    rw [createIndices_cons, List.map_cons, ← List.singleton_append]
    exact .then ih (fun _ => rfl) (carried_execute _ db)

theorem Table.carried (t : Table) (db : Database) : Carried db t.statements (t.create db) := by
  unfold statements create
  rw [← List.singleton_append]
  exact .then (carried_indices t.name t.indices) (fun _ => rfl) (carried_execute t.sql db)

end Carrying

/-! ## Beside other tables -/

section Laying

variable {d d' : Database} {statements : List String} {out : Except StoreError Unit × Database}

/-- What can be carried out can be carried out beside other tables and indices, if these leave the names free. -/
theorem carryOut_beside (h : carryOut d statements = .ok d') :
    (∃ more, d' = d.beside more) ∧ ∀ db : Database, db.Apart d' →
      carryOut (db.beside d) statements = .ok (db.beside d') := by
  induction statements generalizing d with
  | nil =>
    obtain rfl : d = d' := Except.ok.inj h
    exact ⟨⟨{}, d.beside_nil.symm⟩, fun db _ => rfl⟩
  | cons sql statements ih =>
    rw [carryOut_cons] at h
    obtain ⟨d₁, hrun, h⟩ := ok_of_bind h
    obtain ⟨⟨first, rfl⟩, hfirst⟩ := Database.execute_beside hrun
    obtain ⟨⟨rest, rfl⟩, hrest⟩ := ih h
    refine ⟨⟨_, Database.beside_assoc d first rest⟩, fun db hapart => ?_⟩
    rw [carryOut_cons, hfirst db hapart.left]
    exact hrest db hapart

/-- Statements that can all be carried out are. -/
theorem Carried.eq_of_carryOut (h : Carried d statements out) (hall : carryOut d statements = .ok d') :
    out = (.ok (), d') := by
  cases h with
  | all h =>
    obtain rfl := Except.ok.inj (h.symm.trans hall)
    rfl
  | upTo h hrefused =>
    rw [carryOut_append, h] at hall
    obtain ⟨d₁, hrun, -⟩ := ok_of_bind ((carryOut_cons _ _ _).symm.trans hall)
    cases hrefused.symm.trans hrun

/-- **Beside other tables** a declared table is laid out as it is in an empty database. -/
theorem Table.create_beside {t : Table} (h : t.create {} = (.ok (), d)) {db : Database} (hapart : db.Apart d) :
    t.create db = (.ok (), db.beside d) := by
  have hcarried := t.carried {}
  rw [h] at hcarried
  have hall := (carryOut_beside hcarried.carryOut_eq).2 db hapart
  rw [Database.beside_nil] at hall
  exact (t.carried db).eq_of_carryOut hall

end Laying

/-! ## Comparing -/

theorem hasIndex_beside {db d : Database} {table index : String} :
    hasIndex (db.beside d) table index = (hasIndex db table index || hasIndex d table index) := by
  unfold hasIndex Database.beside
  rw [List.any_append]

/-- A table that is there is valid still with others beside it. -/
theorem Table.validate_before {t : Table} {db : Database} {info : TableInfo} (hname : Reading.IsName t.name)
    (hvalid : t.validate db = .ok ()) (hthere : db.table? t.name = some info) (d : Database) :
    t.validate (db.beside d) = .ok () := by
  refine validate_mono hname hvalid ((Database.table?_beside_of_some hthere).trans hthere.symm) fun index hhas => ?_
  rw [hasIndex_beside, hhas, Bool.true_or]

/-- A table that is laid out beside others is as valid as it is by itself. -/
theorem Table.validate_after {t : Table} {db d : Database} (hname : Reading.IsName t.name)
    (hvalid : t.validate d = .ok ()) (hfree : db.table? t.name = none) : t.validate (db.beside d) = .ok () := by
  refine validate_mono hname hvalid (Database.table?_beside hfree) fun index hhas => ?_
  rw [hasIndex_beside, hhas, Bool.or_true]

end CatalogSync.Schema
