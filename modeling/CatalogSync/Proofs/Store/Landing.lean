import CatalogSync.Proofs.Store.Keyed

/-!
# Records that have landed in a table

Records come to a table in batches, and each batch is written at a time of its own. `Landed` says what the
table is then, whatever the batches and the times were: which keys it has and in what order, what the rows
tell, and that no row forgets when it was first seen.

Two tables in which the same records have landed tell the same (`Landed.same`), and records that land a second
time change nothing (`Landed.again`).
-/

namespace CatalogSync.Store

variable {ρ β γ δ : Type}

/-- What there is to rows and records, apart from when they were written. -/
structure Shape (ρ β γ : Type) where
  key : ρ → String
  keyOf : β → String
  /-- What a row tells of its record. -/
  content : ρ → γ
  contentOf : β → γ
  /-- When a row was first seen. -/
  first : ρ → String

/-- Records have landed in a table and made another of it. -/
structure Landed (S : Shape ρ β γ) (rows : List ρ) (records : List β) (rows' : List ρ) : Prop where
  keys : rows'.map S.key = (records.map S.keyOf).foldl addKey (rows.map S.key)
  content : ∀ id, (row? S.key id rows').map S.content =
    ((lastOf S.keyOf id records).map S.contentOf).or ((row? S.key id rows).map S.content)
  first : ∀ id r, row? S.key id rows = some r → ∃ r', row? S.key id rows' = some r' ∧ S.first r' = S.first r

/-! ## Keys -/

theorem mem_keys_iff {key : ρ → String} {id : String} {rows : List ρ} :
    id ∈ rows.map key ↔ ∃ r, row? key id rows = some r := by
  unfold row?
  rw [← Option.isSome_iff_exists, List.find?_isSome]
  simp

/-- Tables with the same keys are told apart by what is found under them. -/
theorem map_eq_of_row? {key : ρ → String} {f : ρ → δ} {a b : List ρ} (hkeys : a.map key = b.map key)
    (hnodup : (a.map key).Nodup) (h : ∀ id, (row? key id a).map f = (row? key id b).map f) : a.map f = b.map f := by
  induction a generalizing b with
  | nil =>
    cases b with
    | nil => rfl
    | cons y b => cases hkeys
  | cons x a ih =>
    cases b with
    | nil => cases hkeys
    | cons y b =>
      rw [List.map_cons, List.map_cons, List.cons.injEq] at hkeys
      obtain ⟨hkey, hrest⟩ := hkeys
      rw [List.map_cons, List.nodup_cons] at hnodup
      have hhead := h (key x)
      unfold row? at hhead h
      rw [List.find?_cons_of_pos (by simp), List.find?_cons_of_pos (by simp [hkey])] at hhead
      rw [List.map_cons, List.map_cons, Option.some.inj hhead, ih hrest hnodup.2]
      intro id
      by_cases hid : key x = id
      · have hgone : ∀ rows : List ρ, id ∉ rows.map key → row? key id rows = none := by
          intro rows hno
          rw [← Option.not_isSome_iff_eq_none, Option.isSome_iff_exists, ← mem_keys_iff]
          exact hno
        subst hid
        rw [hgone a hnodup.1, hgone b (hrest ▸ hnodup.1)]
      · have hnext := h id
        rw [List.find?_cons_of_neg (by simpa using hid), List.find?_cons_of_neg (by simpa [← hkey] using hid)] at hnext
        exact hnext

theorem map_eq_map_cases {f : ρ → δ} {o o' : Option ρ} (h : o.map f = o'.map f) :
    (o = none ∧ o' = none) ∨ ∃ x y, o = some x ∧ o' = some y ∧ f x = f y := by
  cases o with
  | none =>
    cases o' with
    | none => exact .inl ⟨rfl, rfl⟩
    | some y => cases h
  | some x =>
    cases o' with
    | none => cases h
    | some y => exact .inr ⟨x, y, rfl, rfl, Option.some.inj h⟩

/-! ## How records land -/

section Landing

variable {S : Shape ρ β γ} {rows rows' rows'' : List ρ} {records records' : List β}

theorem lastOf_append (keyOf : β → String) (id : String) (records records' : List β) :
    lastOf keyOf id (records ++ records') = (lastOf keyOf id records').or (lastOf keyOf id records) := by
  unfold lastOf
  rw [List.reverse_append, List.find?_append]

theorem Landed.refl (S : Shape ρ β γ) (rows : List ρ) : Landed S rows [] rows :=
  ⟨rfl, fun _ => rfl, fun _ r hr => ⟨r, hr, rfl⟩⟩

/-- One batch after the other. -/
theorem Landed.append (h : Landed S rows records rows') (h' : Landed S rows' records' rows'') :
    Landed S rows (records ++ records') rows'' where
  keys := by rw [h'.keys, h.keys, List.map_append, List.foldl_append]
  content id := by
    rw [h'.content, h.content, lastOf_append]
    cases lastOf S.keyOf id records' <;> rfl
  first id r hr := by
    obtain ⟨r', hr', hfirst⟩ := h.first id r hr
    obtain ⟨r'', hr'', hfirst'⟩ := h'.first id r' hr'
    exact ⟨r'', hr'', hfirst'.trans hfirst⟩

/-- A writer that keeps to a shape. -/
structure Writer.Keeps (w : Writer S.key β) : Prop where
  keyOf : w.keyOf = S.keyOf
  content : ∀ b o, (∀ r ∈ o, S.key r = S.keyOf b) → S.content (w.put b o) = S.contentOf b
  first : ∀ b r, S.first (w.put b (some r)) = S.first r

/-- **One batch** lands. -/
theorem Writer.Keeps.landed {w : Writer S.key β} (hw : w.Keeps) (records : List β) (rows : List ρ) :
    Landed S rows records (w.writeAll records rows) where
  keys := by rw [w.map_key_writeAll, hw.keyOf]
  content id := by
    rw [w.row?_writeAll, hw.keyOf]
    cases hlast : lastOf S.keyOf id records with
    | none => rfl
    | some b =>
      have hformer : ∀ r ∈ row? S.key id rows, S.key r = S.keyOf b := by
        intro r hr
        rw [key_of_row? hr, key_of_lastOf hlast]
      exact congrArg some (hw.content b _ hformer)
  first id r hr := by
    rw [w.row?_writeAll, hr]
    cases lastOf w.keyOf id records with
    | none => exact ⟨r, rfl, rfl⟩
    | some b => exact ⟨_, rfl, hw.first b r⟩

/-- A change of rows that touches nothing of this. -/
theorem Landed.map {f : ρ → ρ} (h : Landed S rows records rows') (hkey : ∀ r, S.key (f r) = S.key r)
    (hcontent : ∀ r, S.content (f r) = S.content r) (hfirst : ∀ r, S.first (f r) = S.first r) :
    Landed S rows records (rows'.map f) := by
  have hrow : ∀ id, row? S.key id (rows'.map f) = (row? S.key id rows').map f := by
    intro id
    have hsame : (fun r => S.key r == id) ∘ f = fun r => S.key r == id := funext fun r => congrArg (· == id) (hkey r)
    unfold row?
    rw [List.find?_map, hsame]
  refine ⟨?_, fun id => ?_, fun id r hr => ?_⟩
  · rw [← h.keys, List.map_map]
    exact List.map_congr_left fun r _ => hkey r
  · rw [hrow, ← h.content, Option.map_map]
    exact congrArg (fun g => (row? S.key id rows').map g) (funext hcontent)
  · obtain ⟨r', hr', hold⟩ := h.first id r hr
    refine ⟨f r', ?_, (hfirst r').trans hold⟩
    rw [hrow, hr']
    rfl

theorem Landed.nodup (h : Landed S rows records rows') (hnodup : (rows.map S.key).Nodup) : (rows'.map S.key).Nodup := by
  rw [h.keys]
  exact nodup_foldl_addKey hnodup

/-! ## What follows -/

/-- What a row tells, and when it was first seen if it was in the table before. -/
def Shape.known (S : Shape ρ β γ) (rows : List ρ) (r : ρ) : γ × Option String :=
  (S.content r, if S.key r ∈ rows.map S.key then some (S.first r) else none)

/-- **Batches do not matter.** -/
theorem Landed.same {a b : List ρ} (ha : Landed S rows records a) (hb : Landed S rows records b)
    (hnodup : (rows.map S.key).Nodup) : a.map (S.known rows) = b.map (S.known rows) := by
  refine map_eq_of_row? (ha.keys.trans hb.keys.symm) (ha.nodup hnodup) fun id => ?_
  have hcontent := (ha.content id).trans (hb.content id).symm
  rcases map_eq_map_cases hcontent with ⟨hra, hrb⟩ | ⟨x, y, hra, hrb, hxy⟩
  · rw [hra, hrb]
  · have hx := key_of_row? hra
    have hy := key_of_row? hrb
    -- only of a row that was there before is it known when it was first seen
    have hfirst : id ∈ rows.map S.key → S.first x = S.first y := by
      intro hmem
      obtain ⟨r, hr⟩ := mem_keys_iff.1 hmem
      obtain ⟨x', hx', hxr⟩ := ha.first id r hr
      obtain ⟨y', hy', hyr⟩ := hb.first id r hr
      rw [hra] at hx'
      rw [hrb] at hy'
      cases hx'
      cases hy'
      exact hxr.trans hyr.symm
    rw [hra, hrb]
    show some (S.known rows x) = some (S.known rows y)
    unfold Shape.known
    rw [hx, hy, hxy]
    split
    · next hmem => rw [hfirst hmem]
    · rfl

/-- **A second time.** -/
theorem Landed.again {a b : List ρ} (ha : Landed S rows records a) (hb : Landed S a records b)
    (hnodup : (rows.map S.key).Nodup) :
    b.map (fun r => (S.content r, S.first r)) = a.map fun r => (S.content r, S.first r) := by
  have hthere : ∀ id ∈ records.map S.keyOf, id ∈ a.map S.key := by
    intro id hid
    rw [ha.keys, mem_foldl_addKey]
    exact .inr hid
  have hkeys : b.map S.key = a.map S.key := by rw [hb.keys, foldl_addKey_of_mem hthere]
  refine map_eq_of_row? hkeys (hkeys ▸ ha.nodup hnodup) fun id => ?_
  -- a record of the key has been written both times, or neither time
  have hcontent : (row? S.key id b).map S.content = (row? S.key id a).map S.content := by
    rw [hb.content, ha.content]
    cases lastOf S.keyOf id records <;> rfl
  rcases map_eq_map_cases hcontent with ⟨hrb, hra⟩ | ⟨y, x, hrb, hra, hyx⟩
  · rw [hrb, hra]
  · obtain ⟨y', hy', hfirst⟩ := hb.first id x hra
    rw [hrb] at hy'
    cases hy'
    rw [hrb, hra]
    show some (S.content y, S.first y) = some (S.content x, S.first x)
    rw [hyx, hfirst]

end Landing

end CatalogSync.Store
