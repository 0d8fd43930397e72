import CatalogSync.Proofs.Text.Dict
import CatalogSync.Toml.Reader

/-!
# Tables without double keys

In a `Proper` value no table has a key twice. A document is read into a tree of tables that grows statement by statement,
and each way of adding to it keeps the tree proper (`Tree.changeAt?_proper`).

Main statement: `proper_of_read`.
-/

namespace CatalogSync.Toml

/-- No table in a value has a key twice. -/
inductive Value.Proper : Value → Prop
  | string (s : String) : Proper (.string s)
  | integer (n : Int64) : Proper (.integer n)
  | float (x : Binary64) : Proper (.float x)
  | boolean (b : Bool) : Proper (.boolean b)
  | moment (m : Moment) : Proper (.moment m)
  | array {elements : List Value} (elements_proper : ∀ v ∈ elements, Proper v) : Proper (.array elements)
  | table {entries : Entries} (keys : (entries.map Prod.fst).Nodup) (entries_proper : ∀ p ∈ entries, Proper p.2) :
    Proper (.table entries)

/-- No table under construction has a key twice, nor does a value in it. -/
inductive Node.Proper : Node → Prop
  | value {v : Value} (h : v.Proper) : Proper (.value v)
  | table {origin : Origin} {entries : Tree} (keys : (entries.map Prod.fst).Nodup)
    (entries_proper : ∀ p ∈ entries, Proper p.2) : Proper (.table origin entries)
  | rows {tables : List Tree} (keys : ∀ row ∈ tables, (row.map Prod.fst).Nodup)
    (rows_proper : ∀ row ∈ tables, ∀ p ∈ row, Proper p.2) : Proper (.rows tables)

/-- The same of the entries of a table under construction. -/
structure Tree.Proper (tree : Tree) : Prop where
  keys : (tree.map Prod.fst).Nodup
  nodes : ∀ p ∈ tree, p.2.Proper

/-! ## What a tree comes to -/

theorem treeEntries_eq (tree : Tree) : treeEntries tree = tree.map fun p => (p.1, p.2.toValue) := by
  induction tree with
  | nil => rfl
  | cons p rest ih => rw [treeEntries, ih, List.map_cons]

theorem rowValues_eq (tables : List Tree) : rowValues tables = tables.map fun row => .table (treeEntries row) := by
  induction tables with
  | nil => rfl
  | cons row rest ih => rw [rowValues, ih, List.map_cons]

theorem proper_treeEntries {tree : Tree} (hkeys : (tree.map Prod.fst).Nodup) (h : ∀ p ∈ tree, p.2.toValue.Proper) :
    ((treeEntries tree).map Prod.fst).Nodup ∧ ∀ p ∈ treeEntries tree, p.2.Proper := by
  rw [treeEntries_eq, List.map_map]
  refine ⟨hkeys, fun p hp => ?_⟩
  obtain ⟨q, hq, rfl⟩ := List.mem_map.1 hp
  exact h q hq

theorem Node.Proper.toValue {n : Node} (h : n.Proper) : n.toValue.Proper := by
  induction h with
  | value h => rwa [Node.toValue]
  | table hkeys _ ih =>
    rw [Node.toValue]
    obtain ⟨hkeys', hvalues⟩ := proper_treeEntries hkeys ih
    exact .table hkeys' hvalues
  | @rows tables hkeys _ ih =>
    rw [Node.toValue, rowValues_eq]
    refine .array fun v hv => ?_
    obtain ⟨row, hrow, rfl⟩ := List.mem_map.1 hv
    obtain ⟨hkeys', hvalues⟩ := proper_treeEntries (hkeys row hrow) (ih row hrow)
    exact .table hkeys' hvalues

theorem Tree.Proper.table {tree : Tree} (h : tree.Proper) (origin : Origin) : (Node.table origin tree).Proper :=
  .table h.keys h.nodes

theorem Tree.Proper.rows {tables : List Tree} (h : ∀ row ∈ tables, row.Proper) : (Node.rows tables).Proper :=
  .rows (fun row hrow => (h row hrow).keys) fun row hrow => (h row hrow).nodes

/-! ## Adding to a tree -/

namespace Tree

variable {tree tree' : Tree} {key : String} {node : Node}

theorem proper_nil : Proper [] := ⟨List.nodup_nil, fun _ h => nomatch h⟩

theorem Proper.lookup (h : tree.Proper) (hfound : tree.lookup key = some node) : node.Proper :=
  h.nodes _ ((Text.Dict.lookup_eq_some_iff h.keys).1 hfound)

/-- A new key. -/
theorem Proper.append (h : tree.Proper) (hnew : tree.lookup key = none) (hnode : node.Proper) :
    (tree ++ [(key, node)]).Proper where
  keys := by
    have hmissing : key ∉ tree.map Prod.fst := by
      intro hmem
      obtain ⟨p, hp, hkey⟩ := List.mem_map.1 hmem
      have hne := List.lookup_eq_none_iff.1 hnew p hp
      simp [hkey] at hne
    rw [List.map_append, List.nodup_append]
    refine ⟨h.keys, List.nodup_singleton _, fun a ha b hb hab => hmissing ?_⟩
    have hb : b = key := List.mem_singleton.1 hb
    rwa [hab, hb] at ha
  nodes := by
    rw [List.forall_mem_append, List.forall_mem_singleton]
    exact ⟨h.nodes, hnode⟩

theorem Proper.replace (h : tree.Proper) (key : String) (hnode : node.Proper) : (tree.replace key node).Proper where
  keys := by
    have hsame : (tree.replace key node).map Prod.fst = tree.map Prod.fst := by
      unfold Tree.replace
      rw [List.map_map]
      refine List.map_congr_left fun p _ => ?_
      simp only [Function.comp]
      split <;> rfl
    rw [hsame]
    exact h.keys
  nodes := by
    intro p hp
    obtain ⟨q, hq, rfl⟩ := List.mem_map.1 hp
    dsimp only
    split
    · exact hnode
    · exact h.nodes q hq

/-- A key that is put last. -/
theorem Proper.moved (h : tree.Proper) (key : String) (hnode : node.Proper) :
    Tree.Proper (tree.filter (·.1 ≠ key) ++ [(key, node)]) := by
  refine Proper.append ⟨?_, fun p hp => h.nodes p (List.mem_filter.1 hp).1⟩ ?_ hnode
  · exact h.keys.sublist (List.filter_sublist.map _)
  · refine List.lookup_eq_none_iff.2 fun p hp => bne_iff_ne.2 ?_
    exact Ne.symm (of_decide_eq_true (List.mem_filter.1 hp).2)

/-- By induction on the path: a table on the way is new, or it stands there and is given back changed. -/
theorem changeAt?_proper {added : Origin} {change : Origin → Tree → Option Tree}
    (hchange : ∀ {origin t t'}, Tree.Proper t → change origin t = some t' → Tree.Proper t') {path : List String} :
    ∀ {origin : Origin} {tree tree' : Tree}, tree.Proper → changeAt? added change path origin tree = some tree' →
      tree'.Proper := by
  induction path with
  | nil => exact fun htree h => hchange htree h
  | cons key path ih =>
    intro origin tree tree' htree h
    rw [changeAt?] at h
    cases hfound : tree.lookup key with
    | none =>
      rw [hfound] at h
      obtain ⟨inner, hinner, h⟩ := Option.bind_eq_some_iff.1 h
      cases h
      exact htree.append hfound ((ih proper_nil hinner).table _)
    | some node =>
      rw [hfound] at h
      cases htree.lookup hfound with
      | value => cases h
      | @table origin inner hkeys hnodes =>
        obtain ⟨-, h⟩ := Option.ite_none_left_eq_some.1 h
        obtain ⟨inner', hinner, rfl⟩ := Option.map_eq_some_iff.1 h
        exact htree.replace key ((ih ⟨hkeys, hnodes⟩ hinner).table _)
      | @rows tables hkeys hnodes =>
        obtain ⟨last, hlast, h⟩ := Option.bind_eq_some_iff.1 h
        obtain ⟨row, hrow, h⟩ := Option.bind_eq_some_iff.1 h
        cases h
        have htables : ∀ row ∈ tables, Tree.Proper row := fun row hrow => ⟨hkeys row hrow, hnodes row hrow⟩
        refine htree.replace key (Proper.rows ?_)
        rw [List.forall_mem_append, List.forall_mem_singleton]
        exact ⟨fun row hrow => htables row ((List.dropLast_sublist tables).subset hrow),
          ih (htables last (List.mem_of_getLast? hlast)) hrow⟩

theorem put?_proper {path : List String} {v : Value} (htree : tree.Proper) (hv : v.Proper)
    (h : tree.put? path key v = some tree') : tree'.Proper := by
  refine changeAt?_proper (fun ht hput => ?_) htree h
  obtain ⟨-, hput⟩ := Option.ite_none_left_eq_some.1 hput
  obtain ⟨hnew, hput⟩ := Option.ite_none_left_eq_some.1 hput
  cases hput
  exact ht.append (Option.not_isSome_iff_eq_none.1 hnew) (.value hv)

variable {pairs : List (List String × String × Value)}

theorem putAll?_proper (hpairs : ∀ p ∈ pairs, p.2.2.Proper) :
    ∀ {tree tree' : Tree}, tree.Proper → tree.putAll? pairs = some tree' → tree'.Proper := by
  induction pairs with
  | nil =>
    rintro tree tree' htree ⟨⟩
    exact htree
  | cons p pairs ih =>
    obtain ⟨hp, hpairs⟩ := List.forall_mem_cons.1 hpairs
    intro tree tree' htree h
    obtain ⟨next, hnext, h⟩ := Option.bind_eq_some_iff.1 h
    exact ih hpairs (put?_proper htree hp hnext) h

theorem openTable?_proper {path : List String} (htree : tree.Proper) (hpairs : ∀ p ∈ pairs, p.2.2.Proper)
    (h : tree.openTable? path key pairs = some tree') : tree'.Proper := by
  refine changeAt?_proper (fun {_ t _} ht hopen => ?_) htree h
  cases hfound : t.lookup key with
  | none =>
    rw [hfound] at hopen
    obtain ⟨inner, hinner, rfl⟩ := Option.map_eq_some_iff.1 hopen
    exact ht.append hfound ((putAll?_proper hpairs proper_nil hinner).table _)
  | some node =>
    rw [hfound] at hopen
    cases ht.lookup hfound with
    | value => cases hopen
    | rows => cases hopen
    | @table origin inner hkeys hnodes =>
      cases origin with
      | declared => cases hopen
      | dotted => cases hopen
      | implied =>
        obtain ⟨inner', hinner, rfl⟩ := Option.map_eq_some_iff.1 hopen
        exact ht.moved key ((putAll?_proper hpairs ⟨hkeys, hnodes⟩ hinner).table _)

theorem addRow?_proper {path : List String} (htree : tree.Proper) (hpairs : ∀ p ∈ pairs, p.2.2.Proper)
    (h : tree.addRow? path key pairs = some tree') : tree'.Proper := by
  refine changeAt?_proper (fun {_ t _} ht hadd => ?_) htree h
  cases hfound : t.lookup key with
  | none =>
    rw [hfound] at hadd
    obtain ⟨row, hrow, rfl⟩ := Option.map_eq_some_iff.1 hadd
    exact ht.append hfound (Proper.rows (List.forall_mem_singleton.2 (putAll?_proper hpairs proper_nil hrow)))
  | some node =>
    rw [hfound] at hadd
    cases ht.lookup hfound with
    | value => cases hadd
    | table => cases hadd
    | @rows tables hkeys hnodes =>
      obtain ⟨row, hrow, rfl⟩ := Option.map_eq_some_iff.1 hadd
      refine ht.replace key (Proper.rows ?_)
      rw [List.forall_mem_append, List.forall_mem_singleton]
      exact ⟨fun row hrow => ⟨hkeys row hrow, hnodes row hrow⟩, putAll?_proper hpairs proper_nil hrow⟩

end Tree

/-! ## Reading values -/

/-- What a reader reads has a property. -/
def Yields {α : Type} (scan : Scan α) (P : α → Prop) : Prop := ∀ {cs a rest}, scan cs = some (a, rest) → P a

section Values

variable {element : Scan Value}

theorem elements?_proper (helement : Yields element Value.Proper) (steps : Nat) :
    Yields (elements? element steps) fun vs => ∀ v ∈ vs, v.Proper := by
  induction steps with
  | zero => exact fun h => nomatch h
  | succ steps ih =>
    intro cs vs rest h
    unfold elements? at h
    split at h
    · cases h
      exact List.forall_mem_nil _
    · obtain ⟨⟨v, r⟩, hv, h⟩ := Option.bind_eq_some_iff.1 h
      dsimp only at h
      split at h
      · obtain ⟨⟨vs, r⟩, hvs, h⟩ := Option.bind_eq_some_iff.1 h
        cases h
        exact List.forall_mem_cons.2 ⟨helement hv, ih hvs⟩
      · cases h
        exact List.forall_mem_singleton.2 (helement hv)
      · cases h

theorem pair?_proper (helement : Yields element Value.Proper) : Yields (pair? element) fun p => p.2.2.Proper := by
  intro cs p rest h
  obtain ⟨⟨parts, r⟩, -, h⟩ := Option.bind_eq_some_iff.1 h
  obtain ⟨⟨path, key⟩, -, h⟩ := Option.bind_eq_some_iff.1 h
  dsimp only at h
  split at h
  · obtain ⟨⟨v, r⟩, hv, h⟩ := Option.bind_eq_some_iff.1 h
    cases h
    exact helement hv
  · cases h

theorem pairs?_proper (helement : Yields element Value.Proper) (steps : Nat) :
    Yields (pairs? element steps) fun ps => ∀ p ∈ ps, p.2.2.Proper := by
  induction steps with
  | zero => exact fun h => nomatch h
  | succ steps ih =>
    intro cs ps rest h
    obtain ⟨⟨p, r⟩, hp, h⟩ := Option.bind_eq_some_iff.1 h
    have hp : p.2.2.Proper := pair?_proper helement hp
    dsimp only at h
    split at h
    · obtain ⟨⟨ps, r⟩, hps, h⟩ := Option.bind_eq_some_iff.1 h
      cases h
      exact List.forall_mem_cons.2 ⟨hp, ih hps⟩
    · cases h
      exact List.forall_mem_singleton.2 hp
    · cases h

theorem Tree.Proper.value {tree : Tree} (h : tree.Proper) : (Value.table (treeEntries tree)).Proper := by
  have hvalue := (h.table .declared).toValue
  rwa [Node.toValue] at hvalue

theorem bracedTable?_proper (helement : Yields element Value.Proper) : Yields (bracedTable? element) Value.Proper := by
  intro cs v rest h
  unfold bracedTable? at h
  split at h
  · cases h
    exact .table List.nodup_nil (List.forall_mem_nil _)
  · obtain ⟨⟨pairs, r⟩, hpairs, h⟩ := Option.bind_eq_some_iff.1 h
    obtain ⟨tree, htree, h⟩ := Option.bind_eq_some_iff.1 h
    cases h
    exact (Tree.putAll?_proper (pairs?_proper helement _ hpairs) Tree.proper_nil htree).value

theorem unsigned?_proper {negative : Bool} : Yields (unsigned? negative) Value.Proper := by
  intro cs v rest h
  unfold unsigned? at h
  split at h <;> cases h
  · exact .float _
  · exact .float _
  · exact .integer _

theorem proper_of_map {α : Type} {read : Option (α × List Char)} {make : α → Value} {v : Value} {rest : List Char}
    (hmake : ∀ a, (make a).Proper) (h : read.map (fun (a, r) => (make a, r)) = some (v, rest)) : v.Proper := by
  obtain ⟨a, -, ha⟩ := Option.map_eq_some_iff.1 h
  cases ha
  exact hmake _

theorem number?_proper : Yields number? Value.Proper := by
  intro cs v rest h
  unfold number? at h
  split at h
  · exact proper_of_map .integer h
  · exact proper_of_map .integer h
  · exact proper_of_map .integer h
  · exact unsigned?_proper h
  · exact unsigned?_proper h
  · exact unsigned?_proper h

theorem momentOrNumber?_proper : Yields momentOrNumber? Value.Proper := by
  intro cs v rest h
  unfold momentOrNumber? at h
  split at h
  · cases h
    exact .moment _
  · exact number?_proper h

/-- By induction on the depth allowed, which arrays and tables in braces use up. -/
theorem value?_proper (depth : Nat) : Yields (value? depth) Value.Proper := by
  induction depth using Nat.strong_induction_on with
  | _ depth ih =>
    intro cs v rest h
    unfold value? at h
    split at h
    · cases h
    · cases depth with
      | zero => cases h
      | succ depth =>
        obtain ⟨vs, hvs, h⟩ := Option.map_eq_some_iff.1 h
        cases h
        exact .array (elements?_proper (ih depth depth.lt_succ_self) _ hvs)
    · cases depth with
      | zero => cases h
      | succ depth => exact bracedTable?_proper (ih depth depth.lt_succ_self) h
    · exact proper_of_map .string h
    · exact proper_of_map .string h
    · cases h
      exact .boolean _
    · cases h
      exact .boolean _
    · exact momentOrNumber?_proper h

end Values

/-! ## Reading a document -/

/-- The pairs among the statements have proper values. -/
def Sound (statements : List Statement) : Prop := ∀ p, .pair p ∈ statements → p.2.2.Proper

section Documents

variable {statements : List Statement}

theorem statements?_sound (steps : Nat) : ∀ {cs : List Char} {statements : List Statement},
    statements? steps cs = some statements → Sound statements := by
  induction steps with
  | zero => exact fun h => nomatch h
  | succ steps ih =>
    intro cs statements h
    unfold statements? at h
    split at h
    · cases h
      exact fun _ hp => nomatch hp
    · obtain ⟨⟨header, r⟩, -, h⟩ := Option.bind_eq_some_iff.1 h
      obtain ⟨r, -, h⟩ := Option.bind_eq_some_iff.1 h
      obtain ⟨later, hlater, h⟩ := Option.bind_eq_some_iff.1 h
      cases h
      intro p hp
      exact ih hlater p ((List.mem_cons.1 hp).resolve_left nofun)
    · obtain ⟨⟨first, r⟩, hfirst, h⟩ := Option.bind_eq_some_iff.1 h
      obtain ⟨r, -, h⟩ := Option.bind_eq_some_iff.1 h
      obtain ⟨later, hlater, h⟩ := Option.bind_eq_some_iff.1 h
      cases h
      intro p hp
      cases hp with
      | head => exact pair?_proper (value?_proper _) hfirst
      | tail _ hp => exact ih hlater p hp

theorem Sound.tail {statement : Statement} (h : Sound (statement :: statements)) : Sound statements :=
  fun p hp => h p (List.mem_cons_of_mem _ hp)

theorem Sound.leading (h : Sound statements) : ∀ p ∈ (leadingPairs statements).1, p.2.2.Proper := by
  induction statements with
  | nil => exact List.forall_mem_nil _
  | cons statement rest ih =>
    cases statement with
    | header _ => exact List.forall_mem_nil _
    | pair first => exact List.forall_mem_cons.2 ⟨h first List.mem_cons_self, ih h.tail⟩

theorem addSections?_proper (h : Sound statements) :
    ∀ {tree tree' : Tree}, tree.Proper → addSections? tree statements = some tree' → tree'.Proper := by
  induction statements with
  | nil =>
    rintro tree tree' htree ⟨⟩
    exact htree
  | cons statement rest ih =>
    intro tree tree' htree hadd
    cases statement with
    | pair _ => exact ih h.tail htree hadd
    | header header =>
      rw [addSections?] at hadd
      dsimp only at hadd
      split at hadd
      · obtain ⟨next, hnext, hadd⟩ := Option.bind_eq_some_iff.1 hadd
        exact ih h.tail (Tree.addRow?_proper htree h.tail.leading hnext) hadd
      · obtain ⟨next, hnext, hadd⟩ := Option.bind_eq_some_iff.1 hadd
        exact ih h.tail (Tree.openTable?_proper htree h.tail.leading hnext) hadd

/-- **A document that is read has every key of a table once**, at any depth: what repeats a key is refused. -/
theorem proper_of_read {document : String} {entries : Entries} (h : read? document = some entries) :
    (Value.table entries).Proper := by
  obtain ⟨statements, hstatements, h⟩ := Option.bind_eq_some_iff.1 h
  obtain ⟨first, hfirst, h⟩ := Option.bind_eq_some_iff.1 h
  obtain ⟨tree, htree, h⟩ := Option.bind_eq_some_iff.1 h
  cases h
  have hsound := statements?_sound _ hstatements
  exact (addSections?_proper hsound (Tree.putAll?_proper hsound.leading Tree.proper_nil hfirst) htree).value

end Documents

end CatalogSync.Toml
