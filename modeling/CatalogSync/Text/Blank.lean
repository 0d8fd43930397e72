/-!
# Blank characters

White space as Unicode counts it (`isBlank`), and texts cut down at their blank ends (`trim`).
-/

namespace CatalogSync.Text

/-- The characters with the Unicode property `White_Space`. -/
def isBlank (c : Char) : Bool :=
  let n := c.toNat
  (0x09 ≤ n && n ≤ 0x0D) || n == 0x20 || n == 0x85 || n == 0xA0 || n == 0x1680 ||
    (0x2000 ≤ n && n ≤ 0x200A) || n == 0x2028 || n == 0x2029 || n == 0x202F || n == 0x205F ||
    n == 0x3000

def trimStart (cs : List Char) : List Char := cs.dropWhile isBlank

def trimEnd (cs : List Char) : List Char := (cs.reverse.dropWhile isBlank).reverse

def trimmed (cs : List Char) : List Char := trimEnd (trimStart cs)

def trim (s : String) : String := String.ofList (trimmed s.toList)

def isAllBlank (s : String) : Bool := s.toList.all isBlank

theorem trimmed_of_ends {c d : Char} (hc : isBlank c = false) (hd : isBlank d = false) (cs : List Char) :
    trimmed (c :: cs ++ [d]) = c :: cs ++ [d] := by
  have hstart : trimStart (c :: cs ++ [d]) = c :: cs ++ [d] := by
    unfold trimStart
    rw [List.cons_append, List.dropWhile_cons_of_neg (by simp [hc])]
  unfold trimmed trimEnd
  rw [hstart, List.reverse_append, List.reverse_singleton, List.singleton_append,
    List.dropWhile_cons_of_neg (by simp [hd]), List.reverse_cons, List.reverse_reverse]

theorem dropWhile_isBlank_of_none {cs : List Char} (h : ∀ c ∈ cs, isBlank c = false) : cs.dropWhile isBlank = cs := by
  cases cs with
  | nil => rfl
  | cons c cs => exact List.dropWhile_cons_of_neg (by simp [h c List.mem_cons_self])

theorem dropWhile_isBlank_of_all {cs : List Char} (h : cs.all isBlank = true) : cs.dropWhile isBlank = [] := by
  have hall : (cs ++ []).dropWhile isBlank = [] := List.dropWhile_append_of_pos (List.all_eq_true.1 h)
  rwa [List.append_nil] at hall

/-- A word without blanks is what is left when blanks around it are cut away. -/
theorem trimmed_of_around {before word after : List Char} (hbefore : before.all isBlank = true)
    (hafter : after.all isBlank = true) (hword : ∀ c ∈ word, isBlank c = false) :
    trimmed (before ++ word ++ after) = word := by
  have hstart : trimStart (before ++ word ++ after) = trimStart (word ++ after) := by
    unfold trimStart
    rw [List.append_assoc, List.dropWhile_append_of_pos (List.all_eq_true.1 hbefore)]
  have hafter' : after.reverse.all isBlank = true := by rwa [List.all_reverse]
  unfold trimmed
  rw [hstart]
  cases word with
  | nil =>
    unfold trimStart
    rw [List.nil_append, dropWhile_isBlank_of_all hafter]
    rfl
  | cons c word =>
    have hfirst : trimStart (c :: word ++ after) = c :: word ++ after :=
      List.dropWhile_cons_of_neg (by simp [hword c List.mem_cons_self])
    have hword' : ∀ d ∈ (c :: word).reverse, isBlank d = false := fun d hd => hword d (List.mem_reverse.1 hd)
    unfold trimEnd
    rw [hfirst, List.reverse_append, List.dropWhile_append_of_pos (List.all_eq_true.1 hafter'),
      dropWhile_isBlank_of_none hword', List.reverse_reverse]

/-- Only blanks are cut away. -/
theorem around_trimmed (cs : List Char) :
    ∃ before after, cs = before ++ trimmed cs ++ after ∧ before.all isBlank = true ∧ after.all isBlank = true := by
  refine ⟨cs.takeWhile isBlank, ((trimStart cs).reverse.takeWhile isBlank).reverse, ?_, List.all_takeWhile, ?_⟩
  · have hend : trimmed cs ++ ((trimStart cs).reverse.takeWhile isBlank).reverse = trimStart cs := by
      unfold trimmed trimEnd
      rw [← List.reverse_append, List.takeWhile_append_dropWhile, List.reverse_reverse]
    rw [List.append_assoc, hend]
    exact List.takeWhile_append_dropWhile.symm
  · rw [List.all_reverse]
    exact List.all_takeWhile

end CatalogSync.Text
