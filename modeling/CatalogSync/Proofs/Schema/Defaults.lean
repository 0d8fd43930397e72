import CatalogSync.Proofs.Schema.Plain
import CatalogSync.Proofs.Sql.Passing

/-!
# Defaults

The default of a column is a value, a value with a sign, or an expression in parentheses (`IsDefault`). A database tells it
as it is written, an expression without its parentheses and without the blanks at its ends (`toldDefault`). So what has
been laid out by the statement of a table in plain names is known (`execute_told`).
-/

namespace CatalogSync.Schema

open CatalogSync.Sql CatalogSync.Text

/-! ## Texts of defaults -/

/-- A text of SQL for a default: a literal or a name, a literal with a sign in front, or an expression in parentheses, the
last of which closes the first. -/
inductive IsDefault : String → Prop where
  | value {s : String} {t : Token} (spells : Spells s [t]) (chars : t.chars = s.toList)
    (isValue : isLiteral t = true ∨ t.name?.isSome = true) : IsDefault s
  | signed {s : String} {sign t : Token} (spells : Spells s [sign, t]) (start : sign.offset = 0)
    (stop : t.stop = byteLength s.toList) (isSign : sign.isSymbol "+" = true ∨ sign.isSymbol "-" = true)
    (literal : isLiteral t = true) : IsDefault s
  | expression {e : String} {ts : List Token} (spells : Spells e ts)
    (closed : pastQuery 0 (ts ++ [⟨.symbol, [')'], byteLength e.toList⟩]) = some []) : IsDefault (enclosed e)

def toldDefault (s : String) : String :=
  if s = enclosed (stripParentheses s) then trimmedText (stripParentheses s) else s

/-- A default passes for itself once the database has told it. -/
def Survives (s : String) : Prop := stripParentheses (toldDefault s) = stripParentheses s

instance (s : String) : Decidable (Survives s) := inferInstanceAs (Decidable (_ = _))

theorem toldDefault_enclosed (e : String) : toldDefault (enclosed e) = trimmedText e := by
  unfold toldDefault
  rw [stripParentheses_enclosed, if_pos rfl]

theorem toldDefault_plain {s : String} (h : s.toList.head? ≠ some '(') : toldDefault s = s := by
  refine if_neg fun heq => h ?_
  rw [heq, toList_enclosed]
  rfl

section Texts

variable {s e : String} {t : Token} {ts : List Token}

/-- The first token of a text that begins with a parenthesis is the parenthesis. -/
theorem isSymbol_of_spells (h : Spells s (t :: ts)) (hs : s.toList.head? = some '(') : t.isSymbol "(" = true := by
  obtain ⟨cs, hcs⟩ := List.head?_eq_some_iff.1 hs
  have htokens := h.tokens
  unfold tokens at htokens
  rw [String.toList_append, hcs, List.cons_append, tokensFrom_symbol (by decide)] at htokens
  rw [← (List.cons.inj htokens).1, Token.isSymbol_iff]
  exact ⟨rfl, by decide⟩

theorem trimmedText_infix (s : String) : (trimmedText s).toList <:+: s.toList := by
  unfold trimmedText
  rw [String.toList_ofList]
  have hback : ((s.toList.dropWhile Sql.isBlank).reverse.dropWhile Sql.isBlank).reverse <+:
      s.toList.dropWhile Sql.isBlank := by
    rw [← List.reverse_suffix, List.reverse_reverse]
    exact List.dropWhile_suffix _
  exact hback.isInfix.trans (List.dropWhile_suffix _).isInfix

theorem stripParentheses_length_le (s : String) : (stripParentheses s).toList.length ≤ s.toList.length := by
  obtain hs | hs := stripParentheses_cases s
  · rw [hs]
  · have hlength : s.toList.length = (enclosed (stripParentheses s)).toList.length :=
      congrArg (fun s : String => s.toList.length) hs
    rw [toList_enclosed, List.length_cons, List.length_append] at hlength
    omega

/-- An expression survives unless it has blanks at its ends, or begins and ends with parentheses of its own. -/
theorem survives_enclosed_iff : Survives (enclosed e) ↔ trimmedText e = e ∧ stripParentheses e = e := by
  unfold Survives
  rw [toldDefault_enclosed, stripParentheses_enclosed]
  constructor
  · intro h
    have hstripped := stripParentheses_length_le (trimmedText e)
    rw [h] at hstripped
    have htrimmed : trimmedText e = e := by
      have hwithin := trimmedText_infix e
      exact String.toList_inj.1 (hwithin.eq_of_length (Nat.le_antisymm hwithin.length_le hstripped))
    rw [htrimmed] at h
    exact ⟨htrimmed, h⟩
  · rintro ⟨htrimmed, hstripped⟩
    rw [htrimmed, hstripped]

theorem survives_iff : Survives s ↔ ∀ e, s = enclosed e → trimmedText e = e ∧ stripParentheses e = e := by
  constructor
  · rintro h e rfl
    exact survives_enclosed_iff.1 h
  · intro h
    obtain hs | hs := eq_or_ne s (enclosed (stripParentheses s))
    · rw [hs]
      exact survives_enclosed_iff.2 (h _ hs)
    · exact congrArg stripParentheses (if_neg hs)

end Texts

/-! ## Reading a default -/

section Reading

variable {r closed : Reading} {x : Char} {ahead : List Char} {column s text : String}

/-- Where the tokens of a text close one parenthesis more than they open, they do so further on in a statement as well. -/
theorem pastQuery_shift {depth n : Nat} {ts rest : List Token} {c c' : Token} (hc : c.isSymbol ")" = true)
    (hc' : c'.isSymbol ")" = true) (h : pastQuery depth (ts ++ [c]) = some []) :
    pastQuery depth (ts.map (Token.shift n) ++ c' :: rest) = some rest := by
  induction ts generalizing depth with
  | nil =>
    rw [List.nil_append, pastQuery, if_neg (not_open_of_close hc), if_pos hc] at h
    split at h
    · next hzero => rw [List.map_nil, List.nil_append, pastQuery, if_neg (not_open_of_close hc'), if_pos hc', if_pos hzero]
    · cases h
  | cons t ts ih =>
    rw [List.cons_append, pastQuery] at h
    rw [List.map_cons, List.cons_append, pastQuery]
    change (if t.isSymbol "(" = true then _ else if t.isSymbol ")" = true then _ else _) = _
    split at h
    · next hopen => rw [if_pos hopen, ih h]
    · next hopen =>
      rw [if_neg hopen]
      split at h
      · next hclose =>
        rw [if_pos hclose]
        split at h
        · simp at h
        · next hpos => rw [if_neg hpos, ih h]
      · next hclose => rw [if_neg hclose, ih h]

/-- An expression that is passed ends where the parenthesis in front of it is closed. -/
theorem closed_by {ts rest : List Token} {n : Nat} {after : Reading} {c c' : Token} (hc : c.isSymbol ")" = true)
    (hbalanced : pastQuery 0 (ts ++ [c]) = some []) (hrest : r.rest = ts.map (Token.shift n) ++ c' :: rest)
    (hc' : c'.isSymbol ")" = true) (hpasses : Passes 0 0 r after) (hclosed : after.symbol ")" = .ok closed) :
    after.rest = c' :: rest ∧ closed = after.skip := by
  obtain ⟨hat, rfl⟩ := Reading.symbol_eq_ok_iff.1 hclosed
  obtain ⟨t, rest', hafter, ht⟩ := Reading.head_of_atSymbol hat
  have hquery := hpasses.query 0
  rw [hrest, pastQuery_shift hc hc' hbalanced, hafter, pastQuery, if_neg (not_open_of_close ht), if_pos ht, if_pos rfl]
    at hquery
  have hsame : rest' = rest := (Option.some.inj hquery).symm
  refine ⟨?_, rfl⟩
  -- Both are the end of the tokens ahead, and equally long.
  have hsuffix := hpasses.suffix
  rw [hafter, hsame, hrest] at hsuffix
  rw [hafter, hsame]
  exact (List.suffix_of_suffix_length_le hsuffix (List.suffix_append _ _) (Nat.le_refl _)).eq_of_length rfl

theorem skip_eq {t : Token} {rest : List Token} (h : r.rest = t :: rest) : r.skip = ⟨r.sql, rest⟩ := by
  unfold Reading.skip
  rw [h]
  rfl

/-- A text that does not begin with a parenthesis is told as it is written. -/
theorem toldDefault_of_spells {t : Token} {ts : List Token} (hs : Spells s (t :: ts)) (ht : t.isSymbol "(" = false) :
    toldDefault s = s :=
  toldDefault_plain fun hopen => Bool.false_ne_true (ht.symm.trans (isSymbol_of_spells hs hopen))

theorem defaultText_value {t : Token} (hs : Spells s [t]) (hchars : t.chars = s.toList)
    (hvalue : isLiteral t = true ∨ t.name?.isSome = true) (hx : EndsItem x) (h : r.Before (s.toList ++ x :: ahead))
    (hread : Sql.defaultText column r = .ok (text, closed)) : text = toldDefault s ∧ closed.Before (x :: ahead) := by
  obtain ⟨n, ⟨sql, rest⟩, hsql, hrest, hbefore, -⟩ := hs.before hx h
  obtain rfl : sql = r.sql := hsql
  have hkind : t.kind ≠ .symbol := by
    obtain hliteral | hname := hvalue
    · exact kind_of_isLiteral hliteral
    · obtain ⟨name, hname⟩ := Option.isSome_iff_exists.1 hname
      exact kind_of_name? hname
  have hsymbol : ∀ word, (Token.shift n t).isSymbol word = false := isSymbol_of_kind hkind
  have hpassed : (isLiteral (Token.shift n t) || (Token.shift n t).name?.isSome) = true := (Bool.or_eq_true _ _).mpr hvalue
  unfold Sql.defaultText at hread
  rw [List.map_singleton, List.singleton_append] at hrest
  rw [hrest] at hread
  dsimp only at hread
  rw [hsymbol, hsymbol, hsymbol, if_neg Bool.false_ne_true, Bool.or_self, if_neg Bool.false_ne_true, if_pos hpassed,
    skip_eq hrest] at hread
  cases hread
  refine ⟨?_, hbefore⟩
  rw [toldDefault_of_spells hs (isSymbol_of_kind hkind "(")]
  unfold Token.toText
  change String.ofList t.chars = s
  rw [hchars, String.ofList_toList]

theorem defaultText_signed {sign t : Token} (hs : Spells s [sign, t]) (hstart : sign.offset = 0)
    (hstop : t.stop = byteLength s.toList) (hsign : sign.isSymbol "+" = true ∨ sign.isSymbol "-" = true)
    (hliteral : isLiteral t = true) (hx : EndsItem x) (h : r.Before (s.toList ++ x :: ahead))
    (hread : Sql.defaultText column r = .ok (text, closed)) : text = toldDefault s ∧ closed.Before (x :: ahead) := by
  obtain ⟨n, ⟨sql, rest⟩, hsql, hrest, hbefore, -, -, hbetween⟩ := hs.before hx h
  obtain rfl : sql = r.sql := hsql
  have hflat : sign.IsFlat := by
    obtain hplus | hminus := hsign
    · exact isFlat_of_isSymbol hplus (by decide)
    · exact isFlat_of_isSymbol hminus (by decide)
  have hopen : (Token.shift n sign).isSymbol "(" = false := hflat.1
  have hsigned : ((Token.shift n sign).isSymbol "+" || (Token.shift n sign).isSymbol "-") = true :=
    (Bool.or_eq_true _ _).mpr hsign
  have hpassed : isLiteral (Token.shift n t) = true := hliteral
  unfold Sql.defaultText at hread
  rw [List.map_cons, List.map_singleton, List.cons_append, List.singleton_append] at hrest
  have hskip := skip_eq hrest
  rw [hrest] at hread
  dsimp only at hread
  rw [hopen, if_neg Bool.false_ne_true, hsigned, if_pos rfl, hskip] at hread
  dsimp only at hread
  rw [hpassed, if_pos rfl] at hread
  cases hread
  refine ⟨?_, hbefore⟩
  have hfirst : (Token.shift n sign).offset = n := congrArg (n + ·) hstart
  have hlast : (Token.shift n t).stop = n + byteLength s.toList := by
    rw [← hstop]
    exact Nat.add_assoc _ _ _
  rw [toldDefault_of_spells hs hflat.1, hfirst, hlast, hbetween]

theorem defaultText_enclosed {e : String} {ts : List Token} (hs : Spells e ts)
    (hbalanced : pastQuery 0 (ts ++ [⟨.symbol, [')'], byteLength e.toList⟩]) = some [])
    (h : r.Before ((enclosed e).toList ++ x :: ahead)) (hread : Sql.defaultText column r = .ok (text, closed)) :
    text = trimmedText e ∧ closed.Before (x :: ahead) := by
  rw [toList_enclosed, List.cons_append, List.append_assoc, List.singleton_append] at h
  obtain ⟨m, hrest, hplace⟩ := h.signAt (by decide)
  obtain ⟨-, hinside⟩ := h.sign (by decide)
  obtain ⟨n, r', hsql, htokens, hbefore, hplace', hoffset, hbetween⟩ := hs.before (.inr rfl) hinside
  obtain ⟨⟨c', hclose, hkind, hchars⟩, hend⟩ := hbefore.sign (by decide)
  obtain ⟨rest', hrest'⟩ := List.head?_eq_some_iff.1 hclose
  have hsigns : ['('] = "(".toList ∧ [')'] = ")".toList := by decide
  have hopen : (Token.mk .symbol ['('] m).isSymbol "(" = true := Token.isSymbol_iff.2 ⟨rfl, hsigns.1⟩
  have hc : (Token.mk .symbol [')'] (byteLength e.toList)).isSymbol ")" = true := Token.isSymbol_iff.2 ⟨rfl, hsigns.2⟩
  have hc' : c'.isSymbol ")" = true := Token.isSymbol_iff.2 ⟨hkind, hchars.trans hsigns.2⟩
  unfold Sql.defaultText at hread
  rw [hrest] at hread
  dsimp only at hread
  rw [hopen, if_pos rfl] at hread
  obtain ⟨⟨uses, after⟩, hexpression, hread⟩ := ok_of_bind hread
  obtain ⟨r₁, hclosed, hread⟩ := ok_of_bind hread
  obtain ⟨-, hread⟩ := ok_of_check hread
  obtain ⟨htext, rfl⟩ := Prod.mk.inj (Except.ok.inj hread)
  have hpasses := expression_passes hexpression
  rw [hrest'] at htokens
  obtain ⟨hafter, rfl⟩ := closed_by hc hbalanced htokens hc' hpasses hclosed
  -- The expression that was read is the one that was written: both end at the parenthesis.
  have hsame : after = r' := by
    obtain ⟨sql, rest⟩ := r'
    obtain ⟨sql', rest''⟩ := after
    obtain rfl : rest = c' :: rest' := hrest'
    obtain rfl : rest'' = c' :: rest' := hafter
    obtain rfl : sql' = sql := hpasses.sql.trans hsql.symm
    rfl
  subst hsame
  have hstop : (Token.mk .symbol ['('] m).stop = n := by
    have hone : (Token.mk .symbol ['('] m).stop = m + ('('.utf8Size + 0) := rfl
    rw [byteLength_cons] at hplace
    have hsame : r.skip.sql = r.sql := rfl
    rw [hsame] at hplace'
    omega
  have hbetween' : between r.sql n (n + byteLength e.toList) = e := hbetween
  rw [hstop, hoffset, hbetween'] at htext
  exact ⟨htext.symm, hend⟩

/-- A default is told as it is said to be, and what follows it is ahead then. -/
theorem defaultText_told (hs : IsDefault s) (hx : EndsItem x) (h : r.Before (s.toList ++ x :: ahead))
    (hread : Sql.defaultText column r = .ok (text, closed)) : text = toldDefault s ∧ closed.Before (x :: ahead) := by
  cases hs with
  | value hspells hchars hvalue => exact defaultText_value hspells hchars hvalue hx h hread
  | signed hspells hstart hstop hsign hliteral =>
    exact defaultText_signed hspells hstart hstop hsign hliteral hx h hread
  | expression hspells hbalanced =>
    rw [toldDefault_enclosed]
    exact defaultText_enclosed hspells hbalanced h hread

end Reading

/-! ## Tables -/

def Column.told (c : Column) : ColumnInfo := { c.info with default := c.default.map toldDefault }

/-- A table as the database tells it, without rows. -/
def Table.told (t : Table) : TableInfo := { name := t.name, columns := t.columns.map Column.told }

/-- A table that is declared in plain names, its defaults in texts of SQL. -/
structure Table.Written (t : Table) : Prop where
  name : Reading.IsName t.name
  columns : ∀ c ∈ t.columns, Reading.IsName c.name
  defaults : ∀ c ∈ t.columns, ∀ s, c.default = some s → IsDefault s
  indices : ∀ index ∈ t.indices, Reading.IsName index.1

section Columns

variable {r r' : Reading} {x : Char} {ahead : List Char} {name : String} {declared : List (ColumnInfo × Bool)}
  {hasKey : Bool} {d : Declared} {c : Column} {columns : List Column} {fuel : Nat}

/-- A column that is passed is noted as it is told. -/
theorem column_told (h : r.Before (columnChars c ++ x :: ahead)) (hx : EndsItem x) (hname : Reading.IsName c.name)
    (hdefault : ∀ s, c.default = some s → IsDefault s) (hread : column ⟨name, declared, hasKey⟩ r = .ok (d, r')) :
    d = ⟨name, declared ++ [(c.told, false)], hasKey || c.isPrimaryKey⟩ ∧ r'.Before (x :: ahead) := by
  obtain ⟨r₁, hbefore, -, hpassed⟩ := column_passed h hx hname
  obtain ⟨fault, fuel, hcolumn⟩ := hpassed name declared hasKey
  rw [hcolumn] at hread
  split at hread
  · cases hread
  unfold Column.told
  cases hd : c.default with
  | none =>
    rw [hd] at hbefore
    obtain ⟨hsign, -⟩ := Reading.Before.sign hbefore (mem_listSymbols hx)
    rw [columnConstraints_end hsign] at hread
    obtain ⟨rfl, rfl⟩ := Prod.mk.inj (Except.ok.inj hread)
    exact ⟨rfl, hbefore⟩
  | some s =>
    rw [hd] at hbefore
    change r₁.Before (' ' :: ("DEFAULT".toList ++ ' ' :: s.toList) ++ x :: ahead) at hbefore
    rw [List.cons_append, List.append_assoc] at hbefore
    obtain ⟨hword, hskip⟩ := hbefore.blank.keyword (by decide) rfl
    rw [columnConstraints_default hword] at hread
    obtain ⟨⟨text, r₂⟩, htext, hread⟩ := ok_of_bind hread
    obtain ⟨rfl, hend⟩ := defaultText_told (hdefault s hd) hx hskip.blank htext
    obtain ⟨hsign, -⟩ := hend.sign (mem_listSymbols hx)
    rw [Declared.modifyLast_concat, columnConstraints_end hsign] at hread
    obtain ⟨rfl, rfl⟩ := Prod.mk.inj (Except.ok.inj hread)
    exact ⟨rfl, hend⟩

theorem column_of_tableBody {p : Declared × Reading} (h : tableBody (fuel + 1) d r = .ok p) :
    ∃ d₁ r₁, column d r = .ok (d₁, r₁) := by
  rw [tableBody] at h
  obtain ⟨⟨d₁, r₁⟩, hcolumn, -⟩ := ok_of_bind h
  exact ⟨d₁, r₁, hcolumn⟩

/-- A table without columns is refused. -/
theorem column_refused (h : r.Before (')' :: ahead)) (hread : column d r = .ok (d', r')) : False := by
  unfold column at hread
  obtain ⟨⟨name, n, r₁⟩, hname, -⟩ := ok_of_bind hread
  obtain ⟨t, rest, hrest, hname, -⟩ := Reading.name_eq_ok_iff.1 hname
  obtain ⟨⟨t', hhead, hkind, -⟩, -⟩ := h.sign (by decide)
  rw [hrest] at hhead
  cases hhead
  exact kind_of_name? hname hkind

/-- The columns of a table that are passed are noted as they are told, up to the closing parenthesis. -/
theorem tableBody_told (h : r.Before (bodyChars columns ++ ')' :: ahead)) (hnames : ∀ c ∈ columns, Reading.IsName c.name)
    (hdefaults : ∀ c ∈ columns, ∀ s, c.default = some s → IsDefault s)
    (hread : tableBody fuel ⟨name, declared, hasKey⟩ r = .ok (d, r')) :
    d.columns = declared ++ columns.map (fun c => (c.told, false)) ∧ columns ≠ [] ∧ r'.Before ahead := by
  induction columns generalizing r declared hasKey fuel with
  | nil =>
    cases fuel with
    | zero => exact absurd hread (r.refuse_ne_ok _)
    | succ fuel =>
      obtain ⟨d₁, r₁, hcolumn⟩ := column_of_tableBody hread
      exact (column_refused h hcolumn).elim
  | cons c columns ih =>
    cases fuel with
    | zero => exact absurd hread (r.refuse_ne_ok _)
    | succ fuel =>
      obtain ⟨d₁, r₁, hcolumn⟩ := column_of_tableBody hread
      rw [List.forall_mem_cons] at hnames hdefaults
      cases columns with
      | nil =>
        rw [bodyChars_singleton] at h
        obtain ⟨rfl, hbefore⟩ := column_told h (.inr rfl) hnames.1 hdefaults.1 hcolumn
        obtain ⟨hlast, hend⟩ := tableBody_last fuel hcolumn hbefore
        rw [hlast] at hread
        obtain ⟨rfl, rfl⟩ := Prod.mk.inj (Except.ok.inj hread)
        exact ⟨rfl, List.cons_ne_nil _ _, hend⟩
      | cons c' columns =>
        rw [bodyChars_cons_cons, List.append_assoc, List.cons_append, List.cons_append] at h
        obtain ⟨rfl, hbefore⟩ := column_told h (.inl rfl) hnames.1 hdefaults.1 hcolumn
        obtain ⟨hnext, hafter⟩ := tableBody_next fuel hcolumn hbefore (hnames.2 c' List.mem_cons_self)
        rw [hnext] at hread
        obtain ⟨hcolumns, -, hend⟩ := ih hafter hnames.2 hdefaults.2 hread
        refine ⟨?_, List.cons_ne_nil _ _, hend⟩
        rw [hcolumns, List.append_assoc]
        rfl

end Columns

/-! ## Statements -/

section Statements

variable {r : Reading} {t : Table} {db db' : Database}

theorem createTable_told (ht : t.Written)
    (h : r.Before (t.name.toList ++ ' ' :: '(' :: (bodyChars t.columns ++ [')', ';'])))
    (hread : db.createTable r = .ok db') : db.Free t.name ∧ db' = { db with tables := db.tables ++ [t.told] } := by
  obtain ⟨⟨n, hname⟩, hskip⟩ := h.name ht.name rfl
  obtain ⟨hsign, hopen⟩ := hskip.blank.sign (by decide)
  unfold Database.createTable at hread
  obtain ⟨⟨name, offset, r₁⟩, hpast, hread⟩ := ok_of_bind hread
  cases hname.symm.trans hpast
  obtain ⟨⟨⟩, -, hread⟩ := ok_of_bind hread
  obtain ⟨hnoTable, hread⟩ := ok_of_check hread
  obtain ⟨hnoIndex, hread⟩ := ok_of_check hread
  obtain ⟨r₂, hsymbol, hread⟩ := ok_of_bind hread
  obtain ⟨-, rfl⟩ := Reading.symbol_eq_ok_iff.1 hsymbol
  obtain ⟨⟨d, r₃⟩, hbody, hread⟩ := ok_of_bind hread
  obtain ⟨⟨⟩, -, hread⟩ := ok_of_bind hread
  obtain ⟨-, hread⟩ := ok_of_check hread
  obtain ⟨hcolumns, -⟩ := tableBody_told hopen ht.columns ht.defaults hbody
  refine ⟨⟨Option.not_isSome_iff_eq_none.1 (Bool.eq_false_iff.1 hnoTable),
    Option.not_isSome_iff_eq_none.1 (Bool.eq_false_iff.1 hnoIndex)⟩, ?_⟩
  rw [List.nil_append] at hcolumns
  dsimp only at hread
  rw [hcolumns, partition_stored] at hread
  dsimp only at hread
  rw [List.map_map] at hread
  exact (Except.ok.inj hread).symm

/-- The statement of a table that is carried out lays it out as it is told, where its name was free. -/
theorem execute_told (ht : t.Written) (hread : db.execute t.sql = .ok db') :
    db.Free t.name ∧ db' = { db with tables := db.tables ++ [t.told] } := by
  obtain ⟨r, hbefore, hsame⟩ := execute_sql t db
  exact createTable_told ht hbefore (hsame.symm.trans hread)

theorem toList_createIndexSql (table index columns : String) :
    (createIndexSql table index columns).toList = "CREATE".toList ++ ' ' :: ("INDEX".toList ++ ' ' :: (index.toList ++
      ' ' :: ("ON".toList ++ ' ' :: (table.toList ++ '(' :: (columns.toList ++ [')', ';']))))) := by
  have hcreate : "CREATE INDEX ".toList = "CREATE".toList ++ ' ' :: ("INDEX".toList ++ [' ']) := by decide
  have hon : " ON ".toList = ' ' :: ("ON".toList ++ [' ']) := by decide
  have hsigns : "(".toList = ['('] ∧ ");".toList = [')', ';'] := by decide
  unfold createIndexSql
  simp only [String.toList_append, hcreate, hon, hsigns, List.append_assoc, List.cons_append, List.nil_append]

/-- The statement of an index is carried out as one that creates an index, from the name on. -/
theorem execute_indexSql (table index columns : String) (db : Database) :
    ∃ r : Reading, r.Before (index.toList ++ ' ' :: ("ON".toList ++ ' ' :: (table.toList ++ '(' ::
        (columns.toList ++ [')', ';'])))) ∧
      db.execute (createIndexSql table index columns) = db.createIndex r := by
  have hstart := Reading.before_start (createIndexSql table index columns)
  rw [toList_createIndexSql] at hstart
  obtain ⟨hcreate, hskip⟩ := hstart.keyword (by decide) rfl
  obtain ⟨hindex, hskip⟩ := hskip.blank.keyword (by decide) rfl
  have hat : Reading.atWord _ "INDEX" = true := hindex.atWord.trans (beq_self_eq_true "INDEX")
  refine ⟨_, hskip.blank, ?_⟩
  unfold Database.execute
  rw [hcreate.word]
  dsimp only [bind, Except.bind]
  rw [hat, if_pos rfl]

/-- An index that is created has the name that is ahead, and is on the table that there is. -/
theorem createIndex_told {table index : String} (htable : Reading.IsName table) (hindex : Reading.IsName index)
    {ahead : List Char} (h : r.Before (index.toList ++ ' ' :: ("ON".toList ++ ' ' :: (table.toList ++ '(' :: ahead))))
    (hread : db.createIndex r = .ok db') :
    ∃ info i, db.table? table = some info ∧ i.name = index ∧ i.table = info.name ∧
      db' = { db with indices := db.indices ++ [i] } := by
  obtain ⟨⟨n, hname⟩, hskip⟩ := h.name hindex rfl
  obtain ⟨hon, hskip⟩ := hskip.blank.keyword (by decide) rfl
  obtain ⟨⟨m, hname'⟩, -⟩ := hskip.blank.name htable rfl
  obtain ⟨i, info, name, n', m', r₁, r₂, r₃, hpast, hword, hpast', hthere, hplace, -, rfl, -⟩ :=
    Database.createIndex_elsewhere hread
  obtain ⟨rfl, hpast⟩ := Prod.mk.inj (Except.ok.inj (hname.symm.trans hpast))
  obtain ⟨-, rfl⟩ := Prod.mk.inj hpast
  obtain rfl := Except.ok.inj (hon.word.symm.trans hword)
  obtain ⟨rfl, -⟩ := Prod.mk.inj (Except.ok.inj (hname'.symm.trans hpast'))
  exact ⟨info, i, hthere, rfl, hplace, rfl⟩

end Statements

end CatalogSync.Schema
