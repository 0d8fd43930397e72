import CatalogSync.Proofs.Schema.Comparing
import CatalogSync.Proofs.Sql.Creation
import CatalogSync.Proofs.Sql.Spelling

/-!
# Plain tables

A table that is declared in plain names and without defaults is laid out as it is declared, wherever its name is free:
its statement is read column by column, and of each column the database notes what it was declared with
(`execute_plain`, `Table.create_plain`). What is laid out so is valid (`validate_info`).
-/

namespace CatalogSync.Sql

open CatalogSync.Text

/-! ## Clauses of a column -/

/-- The characters of a clause of two words. -/
def twoWords (a b : String) : List Char := ' ' :: (a.toList ++ ' ' :: b.toList)

namespace Reading

variable {r : Reading} {a b : String} {ahead : List Char}

theorem Before.twoKeywords (h : r.Before (twoWords a b ++ ahead)) (ha : IsKeyword a) (hb : IsKeyword b)
    (hahead : endsWord ahead = true) : r.AtKeyword a ∧ r.skip.AtKeyword b ∧ r.skip.skip.Before ahead := by
  unfold twoWords at h
  rw [List.cons_append, List.append_assoc, List.cons_append] at h
  obtain ⟨hfirst, hskip⟩ := h.blank.keyword ha rfl
  obtain ⟨hsecond, hskip⟩ := hskip.blank.keyword hb hahead
  exact ⟨hfirst, hsecond, hskip⟩

end Reading

section Clauses

variable {r : Reading} {d : Declared} {c : Char} {fuel : Nat}

theorem columnConstraints_end (h : r.AtSign c) : columnConstraints (fuel + 1) d r = .ok (d, r) := by
  rw [columnConstraints]
  simp only [h.atWord, Bool.false_and, Bool.or_self, Bool.false_eq_true, if_false]

theorem columnConstraints_key (hfirst : r.AtKeyword "PRIMARY") (hsecond : r.skip.AtKeyword "KEY")
    (hafter : ∀ word ∈ ["ASC", "DESC", "ON", "AUTOINCREMENT"], r.skip.skip.atWord word = false) :
    columnConstraints (fuel + 1) d r = d.withKey >>= fun d =>
      columnConstraints fuel (d.modifyLast fun c => { c with keyPlace := 1 }) r.skip.skip := by
  rw [columnConstraints]
  simp [hfirst.atWord, hsecond.word, Reading.pastAnyWord, Reading.atAnyWord, Reading.pastWord, onConflict, hafter,
    bind, Except.bind]

theorem columnConstraints_null (hfirst : r.AtKeyword "NOT") (hsecond : r.skip.AtKeyword "NULL")
    (hafter : r.skip.skip.atWord "ON" = false) :
    columnConstraints (fuel + 1) d r =
      columnConstraints fuel (d.modifyLast fun c => { c with notNull := true }) r.skip.skip := by
  rw [columnConstraints]
  simp [hfirst.atWord, hsecond.atWord, hsecond.word, onConflict, hafter, bind, Except.bind]

theorem columnConstraints_default (h : r.AtKeyword "DEFAULT") :
    columnConstraints (fuel + 1) d r = defaultText d.lastName r.skip >>= fun p =>
      columnConstraints fuel (d.modifyLast fun c => { c with default := some p.1 }) p.2 := by
  rw [columnConstraints]
  simp only [h.atWord]
  rfl

/-- A change of the column that was declared last leaves the others. -/
theorem Declared.modifyLast_concat (name : String) (columns : List (ColumnInfo × Bool)) (info : ColumnInfo)
    (computed hasKey : Bool) (f : ColumnInfo → ColumnInfo) :
    (Declared.mk name (columns ++ [(info, computed)]) hasKey).modifyLast f =
      ⟨name, columns ++ [(f info, computed)], hasKey⟩ := by
  have hlist : (columns ++ [(info, computed)]).modify columns.length (fun c => (f c.1, c.2)) =
      columns ++ [(f info, computed)] := by
    induction columns with
    | nil => rfl
    | cons first columns ih =>
      rw [List.cons_append, List.length_cons, List.modify_succ_cons, ih]
      rfl
  change Declared.mk name ((columns ++ [(info, computed)]).modify ((columns ++ [(info, computed)]).length - 1)
    fun c => (f c.1, c.2)) hasKey = _
  rw [List.length_append, List.length_singleton, Nat.add_sub_cancel, hlist]

/-- What is ahead belongs to no clause in front of it. -/
structure Onward (r : Reading) : Prop where
  noType : r.rest.head?.any isTypePart = false
  noSize : r.atSymbol "(" = false
  noWord : ∀ word ∈ ["ASC", "DESC", "ON", "AUTOINCREMENT"], r.atWord word = false

theorem onward_sign (h : r.AtSign c) (hc : c ≠ '(') : Onward r := by
  refine ⟨h.noType, ?_, fun word _ => h.atWord⟩
  have hopen : "(".toList = ['('] := by decide
  rw [h.atSymbol, beq_eq_false_iff_ne, ne_eq, ← String.toList_inj, hopen, String.toList_singleton]
  exact fun heq => hc (List.cons.inj heq).1

theorem onward_keyword {word : String} (h : r.AtKeyword word) (hreserved : reservedWords.contains word = true)
    (hother : word ∉ ["ASC", "DESC", "ON", "AUTOINCREMENT"]) : Onward r := by
  refine ⟨h.noType hreserved, h.atSymbol, fun other hmem => ?_⟩
  rw [h.atWord, beq_eq_false_iff_ne]
  rintro rfl
  exact hother hmem

end Clauses

end CatalogSync.Sql

namespace CatalogSync.Schema

open CatalogSync.Sql CatalogSync.Text

/-! ## Columns -/

def keyChars (isKey : Bool) : List Char := if isKey then twoWords "PRIMARY" "KEY" else []

def nullChars (notNull : Bool) : List Char := if notNull then twoWords "NOT" "NULL" else []

def defaultChars : Option String → List Char
  | none => []
  | some s => ' ' :: ("DEFAULT".toList ++ ' ' :: s.toList)

def columnChars (c : Column) : List Char :=
  c.name.toList ++ ' ' :: (c.type.sql.toList ++
    (keyChars c.isPrimaryKey ++ (nullChars c.notNull ++ defaultChars c.default)))

theorem toList_columnSql (c : Column) :
    (columnSql c.name c.type.sql c.isPrimaryKey c.notNull c.default).toList = columnChars c := by
  have hkey : (if c.isPrimaryKey then " PRIMARY KEY" else "").toList = keyChars c.isPrimaryKey := by
    cases c.isPrimaryKey <;> decide
  have hnull : (if c.notNull then " NOT NULL" else "").toList = nullChars c.notNull := by
    cases c.notNull <;> decide
  have hwords : " DEFAULT ".toList = ' ' :: ("DEFAULT".toList ++ [' ']) := by decide
  unfold columnSql columnChars defaultChars
  cases c.default with
  | none => simp [String.toList_append, hkey, hnull]
  | some s => simp [String.toList_append, hkey, hnull, hwords]

/-- What the database tells of a declared column. -/
def Column.info (c : Column) : ColumnInfo :=
  { name := c.name, type := c.type.sql, notNull := c.notNull, default := c.default
    keyPlace := if c.isPrimaryKey then 1 else 0 }

section Columns

variable {r : Reading} {x : Char} {ahead : List Char} {hasKey : Bool}

theorem mem_listSymbols (hx : EndsItem x) : x ∈ listSymbols := by
  obtain rfl | rfl := hx <;> decide

theorem endsWord_sign (hx : EndsItem x) : endsWord (x :: ahead) = true := by
  obtain rfl | rfl := hx <;> rfl

/-- What may follow a clause of a column: it ends a word in front of it, and belongs to no clause there. -/
structure Follows (ahead : List Char) : Prop where
  endsWord : endsWord ahead = true
  onward : ∀ r : Reading, r.Before ahead → Onward r

theorem follows_twoWords {a b : String} (ha : Reading.IsKeyword a) (hb : Reading.IsKeyword b)
    (hreserved : reservedWords.contains a = true) (hother : a ∉ ["ASC", "DESC", "ON", "AUTOINCREMENT"])
    (hahead : endsWord ahead = true) : Follows (twoWords a b ++ ahead) := by
  refine ⟨rfl, fun r h => ?_⟩
  obtain ⟨hfirst, -, -⟩ := h.twoKeywords ha hb hahead
  exact onward_keyword hfirst hreserved hother

theorem follows_key (isKey : Bool) (h : Follows ahead) : Follows (keyChars isKey ++ ahead) := by
  cases isKey with
  | false => exact h
  | true => exact follows_twoWords (by decide) (by decide) (by decide) (by decide) h.endsWord

theorem follows_null (notNull : Bool) (h : Follows ahead) : Follows (nullChars notNull ++ ahead) := by
  cases notNull with
  | false => exact h
  | true => exact follows_twoWords (by decide) (by decide) (by decide) (by decide) h.endsWord

theorem follows_default (d : Option String) (hx : EndsItem x) : Follows (defaultChars d ++ x :: ahead) := by
  cases d with
  | none =>
    refine ⟨endsWord_sign hx, fun r h => ?_⟩
    obtain ⟨hsign, -⟩ := h.sign (mem_listSymbols hx)
    exact onward_sign hsign (hx.ne (by decide) (by decide))
  | some s =>
    refine ⟨rfl, fun r h => ?_⟩
    change r.Before (' ' :: ("DEFAULT".toList ++ ' ' :: s.toList) ++ x :: ahead) at h
    rw [List.cons_append, List.append_assoc] at h
    obtain ⟨hword, -⟩ := h.blank.keyword (by decide) rfl
    exact onward_keyword hword (by decide) (by decide)

/-- The clause for a key is passed, if it is there. A second key is refused. -/
theorem key_passed {isKey : Bool} (h : r.Before (keyChars isKey ++ ahead)) (hahead : Follows ahead) :
    ∃ r', r'.Before ahead ∧ r'.rest.length ≤ r.rest.length ∧ ∀ fuel name columns info hasKey, ∃ fault,
      columnConstraints (fuel + isKey.toNat) ⟨name, columns ++ [(info, false)], hasKey⟩ r =
        if hasKey && isKey then .error fault
        else columnConstraints fuel ⟨name,
          columns ++ [({ info with keyPlace := if isKey then 1 else info.keyPlace }, false)], hasKey || isKey⟩ r' := by
  cases isKey with
  | false =>
    refine ⟨r, h, Nat.le_refl _, fun fuel name columns info hasKey => ⟨default, ?_⟩⟩
    rw [Bool.and_false, Bool.or_false]
    rfl
  | true =>
    obtain ⟨hprimary, hword, hskip⟩ := Reading.Before.twoKeywords h (by decide) (by decide)
      hahead.endsWord
    refine ⟨r.skip.skip, hskip, Nat.le_trans r.skip.length_skip_le r.length_skip_le,
      fun fuel name columns info hasKey => ?_⟩
    rw [Bool.toNat_true, columnConstraints_key hprimary hword (hahead.onward _ hskip).noWord, Bool.and_true,
      Bool.or_true]
    cases hasKey with
    | false =>
      refine ⟨default, ?_⟩
      change columnConstraints fuel (Declared.modifyLast ⟨name, columns ++ [(info, false)], true⟩ _) _ = _
      rw [Declared.modifyLast_concat]
      rfl
    | true => exact ⟨_, rfl⟩

/-- The clause against nulls is passed, if it is there. -/
theorem null_passed {notNull : Bool} (h : r.Before (nullChars notNull ++ ahead)) (hahead : Follows ahead) :
    ∃ r', r'.Before ahead ∧ r'.rest.length ≤ r.rest.length ∧ ∀ fuel name columns info hasKey,
      columnConstraints (fuel + notNull.toNat) ⟨name, columns ++ [(info, false)], hasKey⟩ r =
        columnConstraints fuel ⟨name, columns ++ [({ info with notNull := info.notNull || notNull }, false)], hasKey⟩
          r' := by
  cases notNull with
  | false =>
    refine ⟨r, h, Nat.le_refl _, fun fuel name columns info hasKey => ?_⟩
    rw [Bool.or_false]
    rfl
  | true =>
    obtain ⟨hnot, hnull, hskip⟩ := Reading.Before.twoKeywords h (by decide) (by decide) hahead.endsWord
    refine ⟨r.skip.skip, hskip, Nat.le_trans r.skip.length_skip_le r.length_skip_le,
      fun fuel name columns info hasKey => ?_⟩
    rw [Bool.toNat_true, columnConstraints_null hnot hnull ((hahead.onward _ hskip).noWord _ (by decide)),
      Declared.modifyLast_concat, Bool.or_true]

theorem isName_sql (type : SqlType) : Reading.IsName type.sql ∧ capitals type.sql = type.sql ∧
    typeText type.sql = type.sql ∧ type.sql ≠ "GENERATED" := by
  cases type <;> decide

/-- A column is passed up to the clause for its default. It is refused if its name is taken or it is a second key. -/
theorem column_passed {c : Column} (h : r.Before (columnChars c ++ x :: ahead)) (hx : EndsItem x)
    (hname : Reading.IsName c.name) :
    ∃ r', r'.Before (defaultChars c.default ++ x :: ahead) ∧ r'.rest.length < r.rest.length ∧
      ∀ name columns hasKey, ∃ fault fuel, column ⟨name, columns, hasKey⟩ r =
        if columns.any (fun (info, _) => sameName info.name c.name) || (hasKey && c.isPrimaryKey) then .error fault
        else columnConstraints (fuel + 2)
          ⟨name, columns ++ [({ c.info with default := none }, false)], hasKey || c.isPrimaryKey⟩ r' := by
  obtain ⟨htypeName, hcapitals, htext, hother⟩ := isName_sql c.type
  have hdefault : Follows (defaultChars c.default ++ x :: ahead) := follows_default c.default hx
  have hnull := follows_null c.notNull hdefault
  have hkey := follows_key c.isPrimaryKey hnull
  unfold columnChars at h
  rw [List.append_assoc, List.cons_append, List.append_assoc, List.append_assoc, List.append_assoc] at h
  obtain ⟨⟨n, hpast⟩, hskip⟩ := h.name hname rfl
  obtain ⟨-, hafter⟩ := hskip.blank.plain htypeName.1 hkey.endsWord
  obtain ⟨noType, noSize, -⟩ := hkey.onward _ hafter
  have hwritten := hskip.blank.type htypeName hkey.endsWord (by rw [hcapitals]; exact hother) noType noSize
  obtain ⟨r₁, hbefore, hshort, hkeyed⟩ := key_passed hafter hnull
  obtain ⟨r₂, hbefore', hshort', hnulled⟩ := null_passed hbefore hdefault
  refine ⟨r₂, hbefore', ?_, fun name columns hasKey => ?_⟩
  · have hpassed := Reading.length_of_name hpast
    exact Nat.lt_of_le_of_lt (Nat.le_trans hshort' (Nat.le_trans hshort r.skip.length_skip_le)) hpassed
  · unfold column
    rw [hpast]
    dsimp only [bind, Except.bind]
    rw [hwritten]
    dsimp only
    rw [htext]
    cases hnew : columns.any fun (info, _) => sameName info.name c.name with
    | true => exact ⟨_, 0, rfl⟩
    | false =>
      have hsteps : c.isPrimaryKey.toNat + c.notNull.toNat ≤ 2 := by
        cases c.isPrimaryKey <;> cases c.notNull <;> decide
      obtain ⟨fuel, hfuel⟩ : ∃ fuel, r.skip.skip.fuel = fuel + 2 + c.notNull.toNat + c.isPrimaryKey.toNat := by
        refine ⟨r.skip.skip.fuel - 2 - c.notNull.toNat - c.isPrimaryKey.toNat, ?_⟩
        unfold Reading.fuel
        omega
      obtain ⟨fault, hcolumn⟩ := hkeyed (fuel + 2 + c.notNull.toNat) name columns ⟨c.name, c.type.sql, false, none, 0⟩ hasKey
      refine ⟨fault, fuel, ?_⟩
      rw [if_neg Bool.false_ne_true, Bool.false_or, hfuel, hcolumn, hnulled]
      rfl

/-- A column without a default is noted as it is declared. -/
theorem column_plain (name : String) {c : Column} {columns : List (ColumnInfo × Bool)}
    (h : r.Before (columnChars c ++ x :: ahead)) (hx : EndsItem x) (hname : Reading.IsName c.name)
    (hdefault : c.default = none) (hnew : columns.any (fun (info, _) => sameName info.name c.name) = false)
    (hkey : (hasKey && c.isPrimaryKey) = false) :
    ∃ r', column ⟨name, columns, hasKey⟩ r =
        .ok (⟨name, columns ++ [(c.info, false)], hasKey || c.isPrimaryKey⟩, r') ∧
      r'.Before (x :: ahead) ∧ r'.rest.length < r.rest.length := by
  obtain ⟨r', hbefore, hshort, hpassed⟩ := column_passed h hx hname
  obtain ⟨fault, fuel, hcolumn⟩ := hpassed name columns hasKey
  rw [hdefault] at hbefore
  obtain ⟨hsign, -⟩ := Reading.Before.sign hbefore (mem_listSymbols hx)
  refine ⟨r', ?_, hbefore, hshort⟩
  rw [hcolumn, hnew, hkey, Bool.or_self, if_neg Bool.false_ne_true, columnConstraints_end hsign]
  unfold Column.info
  rw [hdefault]

end Columns

/-! ## Tables -/

/-- Two columns that can be of one table: their names differ, and at most one is the key. -/
def Column.Apart (a b : Column) : Prop :=
  sameName a.name b.name = false ∧ (a.isPrimaryKey && b.isPrimaryKey) = false

/-- A table that is declared in plain names and without defaults. -/
structure Table.Plain (t : Table) : Prop where
  name : Reading.IsName t.name
  allowed : checkName t.name = .ok ()
  some : t.columns ≠ []
  columns : ∀ c ∈ t.columns, Reading.IsName c.name ∧ c.default = none
  apart : t.columns.Pairwise Column.Apart

/-- What the database tells of a declared table without rows. -/
def Table.info (t : Table) : TableInfo := { name := t.name, columns := t.columns.map Column.info }

/-- The characters of the columns of a table. -/
def bodyChars (columns : List Column) : List Char := [',', ' '].intercalate (columns.map columnChars)

theorem bodyChars_singleton (c : Column) : bodyChars [c] = columnChars c := by
  unfold bodyChars
  rw [List.map_singleton, List.intercalate_singleton]

theorem bodyChars_cons_cons (c c' : Column) (columns : List Column) :
    bodyChars (c :: c' :: columns) = columnChars c ++ ',' :: ' ' :: bodyChars (c' :: columns) := by
  unfold bodyChars
  rw [List.map_cons, List.map_cons, List.intercalate_cons_cons, List.append_assoc]
  rfl

theorem bodyChars_cons (c : Column) (columns : List Column) :
    ∃ more, bodyChars (c :: columns) = c.name.toList ++ ' ' :: more := by
  cases columns with
  | nil =>
    rw [bodyChars_singleton]
    exact ⟨_, rfl⟩
  | cons c' columns =>
    rw [bodyChars_cons_cons]
    unfold columnChars
    rw [List.append_assoc]
    exact ⟨_, rfl⟩

section Body

variable {r r' : Reading} {ahead : List Char} {hasKey : Bool} {d d' : Declared} {fuel : Nat}

/-- No constraint on a whole table begins with a name. -/
theorem not_constraint (s : String) (h : r.Before (s.toList ++ ahead)) (hs : Reading.IsName s)
    (hahead : endsWord ahead = true) : r.atAnyWord constraintWords = false := by
  obtain ⟨⟨n, hrest, -⟩, -⟩ := h.plain hs.1 hahead
  have hreserved : ∀ word ∈ constraintWords, reservedWords.contains word = true := by decide
  unfold Reading.atAnyWord
  rw [List.any_eq_false]
  intro word hword hat
  unfold Reading.atWord Token.isWord Token.toText at hat
  rw [hrest] at hat
  have hsame : capitals s = word := by simpa using hat
  rw [← hsame] at hword
  exact Bool.false_ne_true (hs.2.symm.trans (hreserved _ hword))

/-- The last column is followed by the closing parenthesis. -/
theorem tableBody_last (fuel : Nat) (hcolumn : column d r = .ok (d', r')) (h : r'.Before (')' :: ahead)) :
    tableBody (fuel + 1) d r = .ok (d', r'.skip) ∧ r'.skip.Before ahead := by
  obtain ⟨hsign, hskip⟩ := h.sign (by decide)
  have hcomma : r'.atSymbol "," = false := hsign.atSymbol.trans (by decide)
  have hclose : r'.symbol ")" = .ok r'.skip := hsign.symbol
  refine ⟨?_, hskip⟩
  rw [tableBody, hcolumn]
  dsimp only [bind, Except.bind]
  rw [hcomma, Bool.false_and, if_neg Bool.false_ne_true, if_neg Bool.false_ne_true]
  dsimp only [pure, Except.pure]
  rw [hclose]

/-- A column is followed by the next one. -/
theorem tableBody_next (fuel : Nat) {c : Column} {columns : List Column} (hcolumn : column d r = .ok (d', r'))
    (h : r'.Before (',' :: ' ' :: (bodyChars (c :: columns) ++ ahead))) (hname : Reading.IsName c.name) :
    tableBody (fuel + 1) d r = tableBody fuel d' r'.skip ∧ r'.skip.Before (bodyChars (c :: columns) ++ ahead) := by
  obtain ⟨more, hmore⟩ := bodyChars_cons c columns
  obtain ⟨hsign, hskip⟩ := h.sign (by decide)
  have hcomma : r'.atSymbol "," = true := hsign.atSymbol.trans (by decide)
  have hnext := hskip.blank
  have hgoes : r'.skip.atAnyWord constraintWords = false := by
    rw [hmore, List.append_assoc] at hnext
    exact not_constraint c.name hnext hname rfl
  refine ⟨?_, hnext⟩
  rw [tableBody, hcolumn]
  dsimp only [bind, Except.bind]
  rw [hcomma, hgoes]
  rfl

/-- The columns of a table are noted in order, up to the closing parenthesis. -/
theorem tableBody_plain (name : String) {columns : List Column} {declared : List (ColumnInfo × Bool)}
    (hsome : columns ≠ []) (h : r.Before (bodyChars columns ++ ')' :: ahead)) (hfuel : r.rest.length < fuel)
    (hplain : ∀ c ∈ columns, Reading.IsName c.name ∧ c.default = none) (hapart : columns.Pairwise Column.Apart)
    (hnew : ∀ c ∈ columns, declared.any (fun (info, _) => sameName info.name c.name) = false ∧
      (hasKey && c.isPrimaryKey) = false) :
    ∃ r' hasKey', tableBody fuel ⟨name, declared, hasKey⟩ r =
        .ok (⟨name, declared ++ columns.map fun c => (c.info, false), hasKey'⟩, r') ∧ r'.Before ahead := by
  induction columns generalizing r declared hasKey fuel with
  | nil => exact absurd rfl hsome
  | cons c columns ih =>
    obtain ⟨fuel, rfl⟩ : ∃ m, fuel = m + 1 := ⟨fuel - 1, by omega⟩
    obtain ⟨hname, hdefault⟩ := hplain c List.mem_cons_self
    obtain ⟨hfresh, hkey⟩ := hnew c List.mem_cons_self
    obtain ⟨hfirst, hrest⟩ := List.pairwise_cons.1 hapart
    cases columns with
    | nil =>
      rw [bodyChars_singleton] at h
      obtain ⟨r', hcolumn, hbefore, -⟩ := column_plain name h (.inr rfl) hname hdefault hfresh hkey
      exact ⟨r'.skip, hasKey || c.isPrimaryKey, tableBody_last fuel hcolumn hbefore⟩
    | cons c' columns =>
      rw [bodyChars_cons_cons, List.append_assoc, List.cons_append, List.cons_append] at h
      obtain ⟨r', hcolumn, hbefore, hshort⟩ := column_plain name h (.inl rfl) hname hdefault hfresh hkey
      obtain ⟨hname', -⟩ := hplain c' (List.mem_cons_of_mem _ List.mem_cons_self)
      obtain ⟨hgoes, hnext⟩ := tableBody_next fuel hcolumn hbefore hname'
      have hlength := Nat.lt_of_le_of_lt r'.length_skip_le hshort
      have hfuel' : r'.skip.rest.length < fuel := by omega
      -- The column that has just been noted differs from those that come.
      have hnew' : ∀ a ∈ c' :: columns,
          (declared ++ [(c.info, false)]).any (fun (info, _) => sameName info.name a.name) = false ∧
            ((hasKey || c.isPrimaryKey) && a.isPrimaryKey) = false := by
        intro a ha
        obtain ⟨hold, hold'⟩ := hnew a (List.mem_cons_of_mem _ ha)
        obtain ⟨hother, hother'⟩ := hfirst a ha
        refine ⟨?_, ?_⟩
        · rw [List.any_append, hold]
          exact (Bool.or_false _).trans hother
        · rw [Bool.and_or_distrib_right, hold', hother', Bool.or_self]
      obtain ⟨r'', hasKey', hbody, hend⟩ := ih (List.cons_ne_nil _ _) hnext hfuel'
        (fun a ha => hplain a (List.mem_cons_of_mem _ ha)) hrest hnew'
      refine ⟨r'', hasKey', ?_, hend⟩
      rw [hgoes, hbody, List.append_assoc]
      rfl

end Body

/-! ## Statements -/

section Statements

variable {r : Reading} {t : Table} {db : Database}

theorem endStatement_plain (h : r.Before [';']) : endStatement r = .ok () := by
  obtain ⟨⟨token, hnext, hkind, hchars⟩, hskip⟩ := h.sign (by decide)
  obtain ⟨rest, hrest⟩ := List.head?_eq_some_iff.1 hnext
  have hover : rest = [] := by
    have hnone := hskip.over
    unfold Reading.skip at hnone
    rwa [hrest] at hnone
  have hsemicolon : token.isSymbol ";" = true := by
    unfold Token.isSymbol Token.toText
    rw [hkind, hchars]
    decide
  unfold endStatement
  rw [hrest, hover]
  dsimp only
  rw [hsemicolon]
  rfl

/-- None of the columns is computed from others. -/
theorem partition_stored {α : Type} (f : α → ColumnInfo) (l : List α) :
    (l.map fun a => (f a, false)).partition (·.2) = ([], l.map fun a => (f a, false)) := by
  have hstored : ∀ p ∈ l.map fun a => (f a, false), p.2 = false := by
    intro p hp
    obtain ⟨a, -, rfl⟩ := List.mem_map.1 hp
    rfl
  have hself : (l.map fun a => (f a, false)).filter (not ∘ (·.2)) = l.map fun a => (f a, false) :=
    List.filter_eq_self.2 fun p hp => congrArg not (hstored p hp)
  rw [List.partition_eq_filter_filter, hself, List.filter_eq_nil_iff.2 fun p hp => Bool.eq_false_iff.1 (hstored p hp)]

theorem createTable_plain (ht : t.Plain) (hfree : db.Free t.name)
    (h : r.Before (t.name.toList ++ ' ' :: '(' :: (bodyChars t.columns ++ [')', ';']))) :
    db.createTable r = .ok { db with tables := db.tables ++ [t.info] } := by
  obtain ⟨⟨n, hname⟩, hskip⟩ := h.name ht.name rfl
  obtain ⟨hsign, hopen⟩ := hskip.blank.sign (by decide)
  have hpast : r.skip.symbol "(" = .ok r.skip.skip := hsign.symbol
  have hfuel : r.skip.skip.rest.length < r.skip.skip.fuel := by
    unfold Reading.fuel
    omega
  have hnew : ∀ c ∈ t.columns,
      ([] : List (ColumnInfo × Bool)).any (fun (info, _) => sameName info.name c.name) = false ∧
        (false && c.isPrimaryKey) = false := fun _ _ => ⟨rfl, rfl⟩
  obtain ⟨r', hasKey, hbody, hend⟩ := tableBody_plain t.name ht.some hopen hfuel ht.columns ht.apart hnew
  have htable : (db.table? t.name).isSome = false := by rw [hfree.table]; rfl
  have hindex : (db.index? t.name).isSome = false := by rw [hfree.index]; rfl
  have hall : (t.columns.map fun c => (c.info, false)).all (·.2) = false := by
    cases hcolumns : t.columns with
    | nil => exact absurd hcolumns ht.some
    | cons c columns => rfl
  unfold Database.createTable
  rw [hname]
  dsimp only [bind, Except.bind]
  rw [ht.allowed, htable, hindex]
  dsimp only
  rw [if_neg Bool.false_ne_true, if_neg Bool.false_ne_true, hpast]
  dsimp only
  rw [hbody, List.nil_append]
  dsimp only
  rw [endStatement_plain hend]
  dsimp only
  rw [hall, if_neg Bool.false_ne_true, partition_stored]
  dsimp only
  rw [List.map_map]
  rfl

theorem toList_sql (t : Table) :
    t.sql.toList = "CREATE".toList ++ ' ' :: ("TABLE".toList ++ ' ' :: (t.name.toList ++ ' ' :: '(' ::
      (bodyChars t.columns ++ [')', ';']))) := by
  have hcolumns : (t.columns.map fun c => columnSql c.name c.type.sql c.isPrimaryKey c.notNull c.default).map
      String.toList = t.columns.map columnChars := by
    rw [List.map_map]
    exact List.map_congr_left fun c _ => toList_columnSql c
  have hcreate : "CREATE TABLE ".toList = "CREATE".toList ++ ' ' :: ("TABLE".toList ++ [' ']) := by decide
  unfold Table.sql createTableSql bodyChars
  simp only [String.toList_append, String.toList_intercalate, hcolumns, hcreate, List.append_assoc, List.cons_append,
    List.nil_append]
  rfl

/-- The statement of a declared table is carried out as one that creates a table, from the name on. -/
theorem execute_sql (t : Table) (db : Database) :
    ∃ r : Reading, r.Before (t.name.toList ++ ' ' :: '(' :: (bodyChars t.columns ++ [')', ';'])) ∧
      db.execute t.sql = db.createTable r := by
  have hstart := Reading.before_start t.sql
  rw [toList_sql] at hstart
  obtain ⟨hcreate, hskip⟩ := hstart.keyword (by decide) rfl
  obtain ⟨htable, hskip⟩ := hskip.blank.keyword (by decide) rfl
  have hindex : (Reading.mk t.sql (tokens t.sql)).skip.atWord "INDEX" = false := htable.atWord.trans (by decide)
  refine ⟨_, hskip.blank, ?_⟩
  unfold Database.execute
  rw [hcreate.word]
  dsimp only [bind, Except.bind]
  rw [hindex, if_neg Bool.false_ne_true, htable.word]

/-- **Plain tables.** The statement of a plain table lays it out as it is declared, if its name is free. -/
theorem execute_plain (ht : t.Plain) (hfree : db.Free t.name) :
    execute t.sql db = (.ok (), { db with tables := db.tables ++ [t.info] }) := by
  obtain ⟨r, hbefore, hsame⟩ := execute_sql t db
  unfold execute
  rw [hsame, createTable_plain ht hfree hbefore]

/-- A plain table is laid out, and then its indices are. -/
theorem Table.create_plain (ht : t.Plain) (hfree : db.Free t.name) :
    t.create db = createIndices t.name t.indices { db with tables := db.tables ++ [t.info] } := by
  unfold create
  rw [execute_plain ht hfree]

end Statements

/-! ## Comparing -/

section Comparing

variable {t : Table} {db : Database}

theorem parse_sql (type : SqlType) : SqlType.parse type.sql = some type := by
  cases type <;> decide

theorem fits_info (c : Column) : c.Fits c.info where
  name := rfl
  type := parse_sql c.type
  notNull := rfl
  key := by
    unfold Column.info
    cases c.isPrimaryKey <;> rfl
  default := rfl

/-- A table of the columns that were declared, with the indices that were, is valid. -/
theorem validate_info (hname : Reading.IsName t.name) (hthere : db.table? t.name = some t.info)
    (hindices : ∀ index ∈ t.indices, hasIndex db t.name index.1 = true) : t.validate db = .ok () := by
  have hfits : List.Forall₂ Column.Fits t.columns (t.columns.map Column.info) :=
    List.forall₂_map_right_iff.2 (List.forall₂_same.2 fun c _ => fits_info c)
  exact Table.validate_iff.2 ⟨⟨_, tableInfo_of_table? hname hthere, hfits⟩, hindices⟩

end Comparing

end CatalogSync.Schema
