import CatalogSync.Proofs.Store.Outcomes
import CatalogSync.Sql.Database

/-!
# Creating tables and indices

What a statement creates does not depend on what else is in the database: a table or an index that it lays out in one
database it lays out alike beside other tables, where the names are free (`execute_beside`).
-/

namespace CatalogSync.Sql

/-- No table and no index has a name. -/
structure Database.Free (db : Database) (name : String) : Prop where
  table : db.table? name = none
  index : db.index? name = none

theorem sameName_iff {a b : String} : sameName a b = true ↔ a.toList.map lower = b.toList.map lower := beq_iff_eq

namespace Database

/-- A statement that creates a table creates the same one wherever its name is free. -/
theorem createTable_elsewhere {d d' : Database} {r : Reading} (h : d.createTable r = .ok d') :
    ∃ t, d.Free t.name ∧ d' = { d with tables := d.tables ++ [t] } ∧
      ∀ db : Database, db.Free t.name → db.createTable r = .ok { db with tables := db.tables ++ [t] } := by
  unfold createTable at h
  obtain ⟨⟨name, offset, r₁⟩, hname, h⟩ := ok_of_bind h
  obtain ⟨⟨⟩, hallowed, h⟩ := ok_of_bind h
  obtain ⟨hnoTable, h⟩ := ok_of_check h
  obtain ⟨hnoIndex, h⟩ := ok_of_check h
  obtain ⟨r₂, hopen, h⟩ := ok_of_bind h
  obtain ⟨⟨declared, r₃⟩, hbody, h⟩ := ok_of_bind h
  obtain ⟨⟨⟩, hend, h⟩ := ok_of_bind h
  obtain ⟨hsome, h⟩ := ok_of_check h
  cases h
  have hnew : d.Free name :=
    ⟨Option.not_isSome_iff_eq_none.1 (Bool.eq_false_iff.1 hnoTable),
      Option.not_isSome_iff_eq_none.1 (Bool.eq_false_iff.1 hnoIndex)⟩
  refine ⟨_, ?_, rfl, fun db hfree => ?_⟩
  · exact hnew
  have htable : (db.table? name).isSome = false := by rw [hfree.table]; rfl
  have hindex : (db.index? name).isSome = false := by rw [hfree.index]; rfl
  unfold createTable
  rw [hname]
  dsimp only [bind, Except.bind]
  rw [hallowed, htable, hindex]
  dsimp only
  rw [if_neg Bool.false_ne_true, if_neg Bool.false_ne_true, hopen]
  dsimp only
  rw [hbody]
  dsimp only
  rw [hend]
  dsimp only
  rw [hsome]
  rfl

/-- A statement that creates an index creates the same one on the same table, wherever the name is free. -/
theorem createIndex_elsewhere {d d' : Database} {r : Reading} (h : d.createIndex r = .ok d') :
    ∃ i t name n m r₁ r₂ r₃, r.name = .ok (i.name, n, r₁) ∧ r₁.word "ON" = .ok r₂ ∧ r₂.name = .ok (name, m, r₃) ∧
      d.table? name = some t ∧ i.table = t.name ∧ d.Free i.name ∧ d' = { d with indices := d.indices ++ [i] } ∧
      ∀ db : Database, db.table? name = some t → db.Free i.name →
        db.createIndex r = .ok { db with indices := db.indices ++ [i] } := by
  unfold createIndex at h
  obtain ⟨⟨name, offset, r₁⟩, hname, h⟩ := ok_of_bind h
  obtain ⟨r₂, hon, h⟩ := ok_of_bind h
  obtain ⟨⟨table, offset', r₃⟩, htable, h⟩ := ok_of_bind h
  obtain ⟨r₄, hopen, h⟩ := ok_of_bind h
  obtain ⟨⟨parts, r₅⟩, hparts, h⟩ := ok_of_bind h
  obtain ⟨⟨⟩, hend, h⟩ := ok_of_bind h
  dsimp only at h
  cases hthere : d.table? table with
  | none =>
    rw [hthere] at h
    cases h
  | some t =>
    rw [hthere] at h
    obtain ⟨hview, h⟩ := ok_of_check h
    obtain ⟨⟨⟩, hallowed, h⟩ := ok_of_bind h
    obtain ⟨hnoTable, h⟩ := ok_of_check h
    obtain ⟨hnoIndex, h⟩ := ok_of_check h
    cases hunknown : t.unknown? (parts.flatMap (·.2)) with
    | some use =>
      rw [hunknown] at h
      cases h
    | none =>
      rw [hunknown] at h
      cases h
      have hnew : d.Free name :=
        ⟨Option.not_isSome_iff_eq_none.1 (Bool.eq_false_iff.1 hnoTable),
          Option.not_isSome_iff_eq_none.1 (Bool.eq_false_iff.1 hnoIndex)⟩
      refine ⟨⟨name, t.name, parts.map (·.1)⟩, t, table, offset, offset', r₁, r₂, r₃, hname, hon, htable, hthere, rfl,
        hnew, rfl, fun db hsame hfree => ?_⟩
      have hnotTable : (db.table? name).isSome = false := by rw [hfree.table]; rfl
      have hnotIndex : (db.index? name).isSome = false := by rw [hfree.index]; rfl
      unfold createIndex
      rw [hname]
      dsimp only [bind, Except.bind]
      rw [hon]
      dsimp only
      rw [htable]
      dsimp only
      rw [hopen]
      dsimp only
      rw [hparts]
      dsimp only
      rw [hend]
      dsimp only
      rw [hsame]
      dsimp only
      rw [hview, hallowed, hnotTable, hnotIndex]
      dsimp only
      rw [if_neg Bool.false_ne_true, if_neg Bool.false_ne_true, if_neg Bool.false_ne_true, hunknown]
      rfl

/-! ## Beside other tables -/

/-- A database with the tables and indices of another one after its own. -/
def beside (db d : Database) : Database :=
  { db with tables := db.tables ++ d.tables, indices := db.indices ++ d.indices }

/-- The names of the tables and indices of `d` are free in `db`. -/
structure Apart (db d : Database) : Prop where
  tables : ∀ t ∈ d.tables, db.Free t.name
  indices : ∀ i ∈ d.indices, db.Free i.name

section Beside

variable {db d d' : Database} {name : String}

theorem beside_assoc (db d d' : Database) : (db.beside d).beside d' = db.beside (d.beside d') := by
  unfold beside
  simp only [List.append_assoc]

theorem beside_nil (db : Database) : db.beside {} = db := by
  unfold beside
  rw [List.append_nil, List.append_nil]

theorem Apart.left (h : db.Apart (d.beside d')) : db.Apart d :=
  ⟨fun t ht => h.tables t (List.mem_append_left _ ht), fun i hi => h.indices i (List.mem_append_left _ hi)⟩

theorem table?_beside (h : db.table? name = none) : (db.beside d).table? name = d.table? name := by
  unfold table? beside at *
  rw [List.find?_append, h, Option.none_or]

theorem table?_beside_of_some {t : TableInfo} (h : db.table? name = some t) : (db.beside d).table? name = some t := by
  unfold table? beside at *
  rw [List.find?_append, h, Option.some_or]

theorem free_beside (h : db.Free name) (h' : d.Free name) : (db.beside d).Free name := by
  refine ⟨(table?_beside h.table).trans h'.table, ?_⟩
  have hindex := h.index
  have hindex' := h'.index
  unfold index? beside at *
  rw [List.find?_append, hindex, Option.none_or, hindex']

theorem table?_setVersion (n : Nat) : (db.setVersion n).table? name = db.table? name := rfl

/-- A name that is free is so in whatever letters. -/
theorem table?_of_sameName {other : String} (hsame : sameName name other = true) (h : db.table? name = none) :
    db.table? other = none := by
  unfold table? at h ⊢
  rw [List.find?_eq_none] at h ⊢
  intro t ht hname
  rw [sameName_iff] at hsame hname
  exact h t ht (sameName_iff.2 (hname.trans hsame.symm))

/-- **Beside other tables.** What a statement creates it creates alike beside other tables and indices, if these leave
the names free. -/
theorem execute_beside {sql : String} (h : d.execute sql = .ok d') :
    (∃ more, d' = d.beside more) ∧ ∀ db : Database, db.Apart d' → (db.beside d).execute sql = .ok (db.beside d') := by
  unfold execute at h
  obtain ⟨r, hcreate, h⟩ := ok_of_bind h
  by_cases hword : r.atWord "INDEX" = true
  · rw [if_pos hword] at h
    obtain ⟨i, t, name, -, -, -, -, -, -, -, -, hthere, -, hfree, rfl, helse⟩ := createIndex_elsewhere h
    have hmore : { d with indices := d.indices ++ [i] } = d.beside { indices := [i] } := by
      unfold beside
      rw [List.append_nil]
    refine ⟨⟨_, hmore⟩, fun db hapart => ?_⟩
    have hfree' := free_beside (hapart.indices i (List.mem_append_right _ List.mem_cons_self)) hfree
    have hfound := hthere
    unfold table? at hfound
    have hname := List.find?_some hfound
    have hthere' : (db.beside d).table? name = some t := by
      rw [table?_beside, hthere]
      exact table?_of_sameName hname (hapart.tables t (List.mem_of_find?_eq_some hthere)).table
    unfold execute
    rw [hcreate]
    dsimp only [bind, Except.bind]
    rw [if_pos hword, helse _ hthere' hfree', hmore, ← beside_assoc]
    unfold beside
    rw [List.append_nil]
  · rw [if_neg hword] at h
    obtain ⟨r', htable, h⟩ := ok_of_bind h
    obtain ⟨t, hfree, rfl, helse⟩ := createTable_elsewhere h
    have hmore : { d with tables := d.tables ++ [t] } = d.beside { tables := [t] } := by
      unfold beside
      rw [List.append_nil]
    refine ⟨⟨_, hmore⟩, fun db hapart => ?_⟩
    have hfree' := free_beside (hapart.tables t (List.mem_append_right _ List.mem_cons_self)) hfree
    unfold execute
    rw [hcreate]
    dsimp only [bind, Except.bind]
    rw [if_neg hword, htable]
    dsimp only
    rw [helse _ hfree', hmore, ← beside_assoc]
    unfold beside
    rw [List.append_nil]

end Beside

end Database

end CatalogSync.Sql
