import Mathlib.Data.Finset.Card
import Mathlib.Data.Finset.Dedup
import Mathlib.Data.List.Induction

/-!
# Tables of rows with keys

A table is a list of rows, each with a key. A `Writer` puts records into rows, where a record that is
written after another of the same key covers it. Writing a batch of records is then a matter of the last
record of each key: `row?_writeAll` says what row a key has afterwards, `keys_writeAll` which keys there
are, and `length_writeAll` how many rows.
-/

namespace CatalogSync.Store

variable {ρ β : Type}

def row? (key : ρ → String) (id : String) (rows : List ρ) : Option ρ := rows.find? fun r => key r == id

/-- Writes the row of a key in its place, or at the end if there is none. -/
def writeRow (key : ρ → String) (id : String) (f : Option ρ → ρ) : List ρ → List ρ
  | [] => [f none]
  | r :: rows => if key r = id then f (some r) :: rows else r :: writeRow key id f rows

/-- How records become rows: `put` is the row of a record, in place of a former row of its key. -/
structure Writer (key : ρ → String) (β : Type) where
  keyOf : β → String
  put : β → Option ρ → ρ
  key_put : ∀ b o, (∀ r ∈ o, key r = keyOf b) → key (put b o) = keyOf b
  /-- The later of two records of a key covers the former. -/
  put_put : ∀ b b' o, keyOf b' = keyOf b → (∀ r ∈ o, key r = keyOf b) →
    put b (some (put b' o)) = put b o

def lastOf (keyOf : β → String) (id : String) (batch : List β) : Option β :=
  batch.reverse.find? fun b => keyOf b == id

theorem lastOf_concat (keyOf : β → String) (id : String) (batch : List β) (b : β) :
    lastOf keyOf id (batch ++ [b]) = if keyOf b = id then some b else lastOf keyOf id batch := by
  unfold lastOf
  rw [List.reverse_concat, List.find?_cons]
  by_cases h : keyOf b = id
  · simp [h]
  · rw [beq_false_of_ne h, if_neg h]

theorem key_of_lastOf {keyOf : β → String} {id : String} {batch : List β} {b : β}
    (h : lastOf keyOf id batch = some b) : keyOf b = id := by
  have hfound := List.find?_some h
  exact eq_of_beq hfound

theorem lastOf_eq_none_iff {keyOf : β → String} {id : String} {batch : List β} :
    lastOf keyOf id batch = none ↔ id ∉ batch.map keyOf := by
  simp [lastOf, List.find?_eq_none]

theorem key_of_row? {key : ρ → String} {id : String} {rows : List ρ} {r : ρ}
    (h : row? key id rows = some r) : key r = id := by
  have hfound := List.find?_some h
  exact eq_of_beq hfound

/-! ## One row -/

section Row

variable {key : ρ → String} {id : String} {f : Option ρ → ρ}

theorem row?_writeRow_self (hf : ∀ o, (∀ r ∈ o, key r = id) → key (f o) = id) (rows : List ρ) :
    row? key id (writeRow key id f rows) = some (f (row? key id rows)) := by
  induction rows with
  | nil => simp [row?, writeRow, hf none nofun]
  | cons r rows ih =>
    by_cases h : key r = id
    · have hkey : key (f (some r)) = id := hf (some r) fun r' hr' => by cases hr'; exact h
      simp [row?, writeRow, h, hkey]
    · simpa [row?, writeRow, h] using ih

theorem row?_writeRow_of_ne (hf : ∀ o, (∀ r ∈ o, key r = id) → key (f o) = id) {other : String}
    (hne : other ≠ id) (rows : List ρ) : row? key other (writeRow key id f rows) = row? key other rows := by
  induction rows with
  | nil => simp [row?, writeRow, hf none nofun, Ne.symm hne]
  | cons r rows ih =>
    unfold row? at ih ⊢
    by_cases h : key r = id
    · have hkey : key (f (some r)) = id := hf (some r) fun r' hr' => by cases hr'; exact h
      simp [writeRow, h, hkey, Ne.symm hne]
    · rw [writeRow, if_neg h, List.find?_cons, List.find?_cons, ih]

theorem map_key_writeRow (hf : ∀ o, (∀ r ∈ o, key r = id) → key (f o) = id) (rows : List ρ) :
    (writeRow key id f rows).map key = if id ∈ rows.map key then rows.map key else rows.map key ++ [id] := by
  induction rows with
  | nil => simp [writeRow, hf none nofun]
  | cons r rows ih =>
    by_cases h : key r = id
    · have hkey : key (f (some r)) = id := hf (some r) fun r' hr' => by cases hr'; exact h
      simp [writeRow, h, hkey]
    · have hhead : id ≠ key r := Ne.symm h
      simp only [writeRow, h, if_false, List.map_cons, ih, List.mem_cons, hhead, false_or]
      split <;> rfl

/-- Rows of which something is left out are written alike. -/
theorem map_writeRow {g : ρ → ρ} {f' : Option ρ → ρ} (hkey : ∀ r, key (g r) = key r) (hf : ∀ o, g (f o) = f' (o.map g))
    (rows : List ρ) : (writeRow key id f rows).map g = writeRow key id f' (rows.map g) := by
  induction rows with
  | nil => exact congrArg (fun r => [r]) (hf none)
  | cons r rows ih =>
    rw [List.map_cons, writeRow, writeRow, hkey]
    split
    · rw [List.map_cons, hf (some r), Option.map_some]
    · rw [List.map_cons, ih]

end Row

/-! ## Keys -/

/-- A key is added at the end, unless it is there. -/
def addKey (keys : List String) (id : String) : List String := if id ∈ keys then keys else keys ++ [id]

theorem mem_foldl_addKey {ids keys : List String} {id : String} :
    id ∈ ids.foldl addKey keys ↔ id ∈ keys ∨ id ∈ ids := by
  induction ids generalizing keys with
  | nil => simp
  | cons a ids ih =>
    have hadd : id ∈ addKey keys a ↔ id ∈ keys ∨ id = a := by
      unfold addKey
      split
      · next hmem =>
        constructor
        · exact .inl
        · rintro (h | rfl)
          · exact h
          · exact hmem
      · simp
    rw [List.foldl_cons, ih, hadd, List.mem_cons, or_assoc]

theorem nodup_foldl_addKey {ids keys : List String} (h : keys.Nodup) : (ids.foldl addKey keys).Nodup := by
  induction ids generalizing keys with
  | nil => exact h
  | cons a ids ih =>
    apply ih
    unfold addKey
    split
    · exact h
    · next hnew =>
      refine List.nodup_append.2 ⟨h, List.nodup_singleton _, fun k hk k' hk' => ?_⟩
      rw [List.mem_singleton.1 hk']
      exact ne_of_mem_of_not_mem hk hnew

theorem foldl_addKey_of_mem {ids keys : List String} (h : ∀ id ∈ ids, id ∈ keys) : ids.foldl addKey keys = keys := by
  induction ids with
  | nil => rfl
  | cons a ids ih =>
    have ha : addKey keys a = keys := if_pos (h a List.mem_cons_self)
    rw [List.foldl_cons, ha]
    exact ih fun id hid => h id (List.mem_cons_of_mem _ hid)

/-! ## A batch -/

namespace Writer

variable {key : ρ → String} (w : Writer key β)

def write (b : β) (rows : List ρ) : List ρ := writeRow key (w.keyOf b) (w.put b) rows

def writeAll (batch : List β) (rows : List ρ) : List ρ := batch.foldl (fun rows b => w.write b rows) rows

theorem writeAll_concat (batch : List β) (b : β) (rows : List ρ) :
    w.writeAll (batch ++ [b]) rows = w.write b (w.writeAll batch rows) := by
  unfold writeAll
  rw [List.foldl_concat]

/-- **Last write.** A key of the batch has the row of its last record, put in place of the row that the key
had before the batch; every other key has the row it had. The induction is on the end of the batch. -/
theorem row?_writeAll (id : String) (batch : List β) (rows : List ρ) :
    row? key id (w.writeAll batch rows) =
      (lastOf w.keyOf id batch).elim (row? key id rows) fun b => some (w.put b (row? key id rows)) := by
  induction batch using List.reverseRecOn with
  | nil => rfl
  | append_singleton batch b ih =>
    rw [writeAll_concat, lastOf_concat]
    by_cases h : w.keyOf b = id
    · subst h
      have hself := row?_writeRow_self (w.key_put b) (w.writeAll batch rows)
      rw [if_pos rfl, write, hself, ih]
      cases hlast : lastOf w.keyOf (w.keyOf b) batch with
      | none => rfl
      | some b' =>
        have hformer : ∀ r ∈ row? key (w.keyOf b) rows, key r = w.keyOf b := fun r hr => key_of_row? hr
        -- an earlier record of the key in the batch is covered, so that the row before the batch counts
        have hcovers := w.put_put b b' (row? key (w.keyOf b) rows) (key_of_lastOf hlast) hformer
        exact congrArg some hcovers
    · rw [if_neg h, write, row?_writeRow_of_ne (w.key_put b) (Ne.symm h), ih]

theorem map_writeAll {w' : Writer key β} {g : ρ → ρ} (hkey : ∀ r, key (g r) = key r) (hkeyOf : w'.keyOf = w.keyOf)
    (hput : ∀ b o, g (w.put b o) = w'.put b (o.map g)) (batch : List β) (rows : List ρ) :
    (w.writeAll batch rows).map g = w'.writeAll batch (rows.map g) := by
  induction batch using List.reverseRecOn with
  | nil => rfl
  | append_singleton batch b ih =>
    rw [writeAll_concat, writeAll_concat, write, write, map_writeRow hkey (hput b), ih, hkeyOf]

theorem map_key_writeAll (batch : List β) (rows : List ρ) :
    (w.writeAll batch rows).map key = (batch.map w.keyOf).foldl addKey (rows.map key) := by
  induction batch using List.reverseRecOn with
  | nil => rfl
  | append_singleton batch b ih =>
    have hone : (w.write b (w.writeAll batch rows)).map key = addKey ((w.writeAll batch rows).map key) (w.keyOf b) :=
      map_key_writeRow (w.key_put b) _
    rw [writeAll_concat, hone, ih, List.map_append, List.foldl_append]
    rfl

theorem nodup_writeAll (batch : List β) {rows : List ρ} (h : (rows.map key).Nodup) :
    ((w.writeAll batch rows).map key).Nodup := by
  rw [map_key_writeAll]
  exact nodup_foldl_addKey h

theorem keys_writeAll (batch : List β) (rows : List ρ) :
    ((w.writeAll batch rows).map key).toFinset = (rows.map key).toFinset ∪ (batch.map w.keyOf).toFinset := by
  ext id
  rw [map_key_writeAll, List.mem_toFinset, mem_foldl_addKey, Finset.mem_union, List.mem_toFinset, List.mem_toFinset]

/-- **Growth.** There are as many more rows as there are new keys in the batch. -/
theorem length_writeAll (batch : List β) {rows : List ρ} (h : (rows.map key).Nodup) :
    (w.writeAll batch rows).length =
      rows.length + ((batch.map w.keyOf).toFinset \ (rows.map key).toFinset).card := by
  have hafter := List.toFinset_card_of_nodup (w.nodup_writeAll batch h)
  have hbefore := List.toFinset_card_of_nodup h
  rw [List.length_map] at hafter hbefore
  rw [← hafter, ← hbefore, keys_writeAll, ← Finset.union_sdiff_self_eq_union]
  exact Finset.card_union_of_disjoint Finset.disjoint_sdiff

end Writer

end CatalogSync.Store
