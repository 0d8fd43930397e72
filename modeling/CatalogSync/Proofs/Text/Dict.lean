import CatalogSync.Text.Dict
import Mathlib.Data.List.Nodup
import Mathlib.Data.String.Basic

/-!
# Dictionaries as lists

The keys of a dictionary rise, whatever is put into it (`Rising.put`), so that what it has under a key is the only pair of
that key (`find?_of_mem`). Of pairs put in one after the other, the last one of a key is found (`find?_ofList`).
-/

namespace CatalogSync.Text.Dict

variable {α : Type} {d : Dict α} {key : String} {value : α}

/-! ## Pairs -/

theorem mem_of_find? (h : d.find? key = some value) : (key, value) ∈ d := by
  induction d with
  | nil => cases h
  | cons p r ih =>
    obtain ⟨k, v⟩ := p
    unfold find? at h
    split at h
    · next heq =>
      cases heq
      cases h
      exact List.mem_cons_self
    · exact List.mem_cons_of_mem _ (ih h)

theorem find?_of_mem (hkeys : (d.map Prod.fst).Nodup) (h : (key, value) ∈ d) : d.find? key = some value := by
  induction d with
  | nil => cases h
  | cons p r ih =>
    obtain ⟨k, v⟩ := p
    rw [List.map_cons, List.nodup_cons] at hkeys
    unfold find?
    rcases List.mem_cons.1 h with heq | hmem
    · cases heq
      exact if_pos rfl
    · have hne : k ≠ key := by
        rintro rfl
        exact hkeys.1 (List.mem_map.2 ⟨(k, value), hmem, rfl⟩)
      rw [if_neg hne]
      exact ih hkeys.2 hmem

/-! ## Keys in order -/

/-- The keys of a dictionary rise. -/
def Rising (d : Dict α) : Prop := d.Pairwise fun p q => p.1 < q.1

theorem Rising.nodup (h : Rising d) : (d.map Prod.fst).Nodup :=
  List.pairwise_map.2 (h.imp fun hlt => ne_of_lt hlt)

theorem mem_put {p : String × α} (h : p ∈ d.put key value) : p = (key, value) ∨ p ∈ d := by
  induction d with
  | nil => exact .inl (List.mem_singleton.1 h)
  | cons q r ih =>
    obtain ⟨k, v⟩ := q
    unfold put at h
    split at h
    · exact (List.mem_cons.1 h).imp_right (List.mem_cons_of_mem _)
    · split at h
      · exact List.mem_cons.1 h
      · rcases List.mem_cons.1 h with heq | hmem
        · exact .inr (heq ▸ List.mem_cons_self)
        · exact (ih hmem).imp_right (List.mem_cons_of_mem _)

theorem Rising.put (h : Rising d) : Rising (d.put key value) := by
  induction d with
  | nil => exact List.pairwise_singleton _ _
  | cons q r ih =>
    obtain ⟨k, v⟩ := q
    obtain ⟨hhead, hrest⟩ := List.pairwise_cons.1 h
    unfold Dict.put
    split
    · next heq =>
      subst heq
      exact List.pairwise_cons.2 ⟨hhead, hrest⟩
    · next hne =>
      split
      · next hlt =>
        refine List.pairwise_cons.2 ⟨?_, h⟩
        intro p hp
        rcases List.mem_cons.1 hp with rfl | hp
        · exact hlt
        · exact lt_trans hlt (hhead p hp)
      · next hge =>
        have hlt : k < key := lt_of_le_of_ne (not_lt.1 hge) hne
        refine List.pairwise_cons.2 ⟨?_, ih hrest⟩
        intro p hp
        rcases mem_put hp with rfl | hp
        · exact hlt
        · exact hhead p hp

/-- What comes after all keys is put at the end. -/
theorem put_of_forall_lt (h : ∀ p ∈ d, p.1 < key) : d.put key value = d ++ [(key, value)] := by
  induction d with
  | nil => rfl
  | cons p r ih =>
    obtain ⟨k, v⟩ := p
    obtain ⟨hk, hr⟩ := List.forall_mem_cons.1 h
    unfold put
    rw [if_neg (ne_of_lt hk), if_neg (lt_asymm hk), ih hr]
    rfl

/-! ## From pairs -/

variable {pairs : List (String × α)}

theorem find?_eq_lookup (d : Dict α) (key : String) : d.find? key = d.lookup key := by
  induction d with
  | nil => rfl
  | cons p r ih =>
    obtain ⟨k, v⟩ := p
    unfold find?
    rw [ih, List.lookup_cons]
    by_cases h : k = key
    · have hsame : (key == k) = true := beq_iff_eq.2 h.symm
      rw [if_pos h, hsame]
    · have hother : (key == k) = false := beq_eq_false_iff_ne.2 (Ne.symm h)
      rw [if_neg h, hother]

theorem lookup_eq_some_iff (hkeys : (d.map Prod.fst).Nodup) : d.lookup key = some value ↔ (key, value) ∈ d := by
  rw [← find?_eq_lookup]
  exact ⟨mem_of_find?, find?_of_mem hkeys⟩

/-- Of pairs with different keys the same is found in any order. -/
theorem lookup_perm {e : Dict α} (hkeys : (d.map Prod.fst).Nodup) (h : e.Perm d) (key : String) :
    e.lookup key = d.lookup key := by
  have hkeys' : (e.map Prod.fst).Nodup := (h.map Prod.fst).nodup_iff.2 hkeys
  ext value
  rw [lookup_eq_some_iff hkeys, lookup_eq_some_iff hkeys', h.mem_iff]

/-- The last pair of a key is found, or else what was there before. -/
theorem find?_foldl_put (pairs : List (String × α)) (d : Dict α) (key : String) :
    (pairs.foldl (fun d (k, v) => d.put k v) d).find? key = (pairs.reverse.lookup key).or (d.find? key) := by
  induction pairs generalizing d with
  | nil => rfl
  | cons p r ih =>
    obtain ⟨k, v⟩ := p
    rw [List.foldl_cons, ih, List.reverse_cons, List.lookup_append, Option.or_assoc]
    congr 1
    by_cases h : key = k
    · subst h
      rw [find?_put_self]
      simp
    · have hother : (key == k) = false := beq_eq_false_iff_ne.2 h
      rw [find?_put_of_ne d v h, List.lookup_cons, hother]
      rfl

theorem find?_ofList (pairs : List (String × α)) (key : String) :
    (ofList pairs).find? key = pairs.reverse.lookup key := by
  unfold ofList
  rw [find?_foldl_put, find?_nil, Option.or_none]

/-- Of pairs with different keys each one is found. -/
theorem find?_ofList_of_mem (hkeys : (pairs.map Prod.fst).Nodup) (h : (key, value) ∈ pairs) :
    (ofList pairs).find? key = some value := by
  rw [find?_ofList, ← find?_eq_lookup]
  apply find?_of_mem
  · rw [List.map_reverse]
    exact List.nodup_reverse.2 hkeys
  · exact List.mem_reverse.2 h

theorem rising_ofList (pairs : List (String × α)) : Rising (ofList pairs) := by
  have hfold : ∀ d : Dict α, Rising d → Rising (pairs.foldl (fun d (k, v) => d.put k v) d) := by
    induction pairs with
    | nil => exact fun d h => h
    | cons p r ih => exact fun d h => ih _ h.put
  exact hfold [] .nil

end CatalogSync.Text.Dict
