import CatalogSync.Sql.Connection

/-!
# All or nothing

What a session does to the file of a database. `KeepsFile` says that within a transaction it does
nothing to it, and is closed under sequencing; so a session that is carried out as a transaction
succeeds as a whole or leaves the connection as it was.

Main statements: `allOrNothing_transaction` and `transaction_ok`.
-/

namespace CatalogSync.Sql.Session

variable {α β : Type}

/-! ## What the parts of a session do -/

theorem exec_bind (m : Session α) (k : α → Session β) (c : Connection) :
    (m >>= k).exec c =
      match m.exec c with
      | (.ok a, c) => (k a).exec c
      | (.error e, c) => (.error e, c) := by
  unfold exec
  rw [ExceptT.run_bind, StateT.run_bind]
  rcases StateT.run (ExceptT.run m) c with ⟨_ | a, c'⟩ <;> rfl

theorem exec_bind_ok {m : Session α} {c c' : Connection} {a : α} (h : m.exec c = (.ok a, c'))
    (k : α → Session β) : (m >>= k).exec c = (k a).exec c' := by
  rw [exec_bind, h]

theorem exec_bind_error {m : Session α} {c c' : Connection} {e : StoreError} (h : m.exec c = (.error e, c'))
    (k : α → Session β) : (m >>= k).exec c = (.error e, c') := by
  rw [exec_bind, h]

theorem exec_tryCatch (m : Session α) (h : StoreError → Session α) (c : Connection) :
    (tryCatch m h).exec c =
      match m.exec c with
      | (.ok a, c) => (.ok a, c)
      | (.error e, c) => (h e).exec c := by
  unfold exec
  rw [ExceptT.run_tryCatch, StateT.run_bind]
  rcases StateT.run (ExceptT.run m) c with ⟨_ | a, c'⟩ <;> rfl

theorem exec_within (doing : String) (m : Session α) (c : Connection) :
    (within doing m).exec c = (CatalogSync.within doing (m.exec c).1, (m.exec c).2) := by
  unfold exec within ExceptT.adapt
  rw [ExceptT.run_mk, StateT.run_map]
  change _ <$> StateT.run (ExceptT.run m) c = _
  rcases StateT.run (ExceptT.run m) c with ⟨_ | a, c'⟩ <;> rfl

theorem exec_check (r : Except StoreError α) (c : Connection) : (check r).exec c = (r, c) := by
  cases r <;> rfl

theorem exec_change (f : Database → Except StoreError Unit × Database) (c : Connection) :
    (change f).exec c = ((f c.view).1, c.write (f c.view).2) := by
  unfold change
  rw [exec_bind]
  exact exec_check (f c.view).1 _

theorem exec_refuse (fault : Option SqlFault) (c : Connection) : ((refuse fault).exec c).2 = c := by
  cases fault <;> rfl

/-- A sequence that succeeds came through its first part. -/
theorem bind_ok {m : Session α} {k : α → Session β} {c : Connection} {b : β}
    (h : ((m >>= k).exec c).1 = .ok b) :
    ∃ a c', m.exec c = (.ok a, c') ∧ (m >>= k).exec c = (k a).exec c' := by
  rcases hrun : m.exec c with ⟨e | a, c'⟩
  · rw [exec_bind_error hrun] at h
    cases h
  · exact ⟨a, c', rfl, exec_bind_ok hrun k⟩

/-! ## Within a transaction -/

/-- While a transaction is open, a session leaves it open and the file as it is. -/
def KeepsFile (m : Session α) : Prop :=
  ∀ c : Connection, c.pending.isSome → (m.exec c).2.file = c.file ∧ (m.exec c).2.pending.isSome

theorem KeepsFile.of_same {m : Session α} (h : ∀ c, (m.exec c).2 = c) : KeepsFile m := by
  intro c hopen
  rw [h]
  exact ⟨rfl, hopen⟩

theorem keepsFile_pure (a : α) : KeepsFile (pure a) := .of_same fun _ => rfl

theorem keepsFile_refuse (fault : Option SqlFault) : KeepsFile (refuse fault) := .of_same (exec_refuse fault)

theorem KeepsFile.bind {m : Session α} {k : α → Session β} (hm : KeepsFile m) (hk : ∀ a, KeepsFile (k a)) :
    KeepsFile (m >>= k) := by
  intro c hopen
  obtain ⟨hfile, hstill⟩ := hm c hopen
  rcases hrun : m.exec c with ⟨e | a, c'⟩ <;> rw [hrun] at hfile hstill
  · rw [exec_bind_error hrun]
    exact ⟨hfile, hstill⟩
  · obtain ⟨hfile', hstill'⟩ := hk a c' hstill
    rw [exec_bind_ok hrun]
    exact ⟨hfile'.trans hfile, hstill'⟩

theorem KeepsFile.within {m : Session α} (h : KeepsFile m) (doing : String) : KeepsFile (m.within doing) := by
  intro c hopen
  rw [exec_within]
  exact h c hopen

theorem keepsFile_change (f : Database → Except StoreError Unit × Database) : KeepsFile (change f) := by
  intro c hopen
  obtain ⟨db, hdb⟩ := Option.isSome_iff_exists.1 hopen
  rw [exec_change]
  unfold Connection.write
  rw [hdb]
  exact ⟨rfl, rfl⟩

/-! ## A session as one transaction -/

/-- Outside a transaction, a session that fails leaves the connection as it was. -/
def AllOrNothing (m : Session α) : Prop :=
  ∀ c : Connection, c.pending = none → ∀ e, (m.exec c).1 = .error e → (m.exec c).2 = c

theorem AllOrNothing.of_same {m : Session α} (h : ∀ c, (m.exec c).2 = c) : AllOrNothing m := fun c _ _ _ => h c

theorem AllOrNothing.after {m : Session α} {k : α → Session β} (hm : ∀ c, (m.exec c).2 = c)
    (hk : ∀ a, AllOrNothing (k a)) : AllOrNothing (m >>= k) := by
  intro c hidle e h
  have hsame := hm c
  rcases hrun : m.exec c with ⟨e' | a, c'⟩ <;> rw [hrun] at hsame
  · rw [exec_bind_error hrun]
    exact hsame
  · subst hsame
    rw [exec_bind_ok hrun] at h ⊢
    exact hk a c' hidle e h

section Transaction

variable {r : Refusals} {m : Session Unit} {c : Connection}

theorem exec_begin (hidle : c.pending = none) (fault : Option SqlFault) :
    (begin fault).exec c =
      match fault with
      | none => (.ok (), { c with pending := some c.file })
      | some fault => (.error (.of (.sql fault)), c) := by
  obtain ⟨file, pending⟩ := c
  subst hidle
  cases fault <;> rfl

theorem exec_commit (fault : Option SqlFault) (c : Connection) :
    (commit fault).exec c =
      match fault with
      | none => (.ok (), { file := c.view })
      | some fault => (.error (.of (.sql fault)), c) := by
  cases fault <;> rfl

/-- A transaction that was begun ends with a commit or a rollback. -/
theorem exec_transaction (hidle : c.pending = none) (hbegin : r.begin = none) :
    (transaction r m).exec c =
      match (m >>= fun _ => commit r.commit).exec { c with pending := some c.file } with
      | (.ok (), c) => (.ok (), c)
      | (.error e, c) => (.error e, c.rollback) := by
  unfold transaction
  rw [exec_bind, exec_begin hidle, hbegin]
  change (tryCatch _ _ : Session Unit).exec _ = _
  rw [exec_tryCatch]
  rcases (m >>= fun _ => commit r.commit).exec { c with pending := some c.file } with ⟨e | u, c'⟩ <;> rfl

/-- A transaction that fails, wherever it does, leaves the connection as it was. -/
theorem allOrNothing_transaction (hm : KeepsFile m) : AllOrNothing (transaction r m) := by
  intro c hidle e h
  cases hbegin : r.begin with
  | some fault =>
    unfold transaction
    rw [exec_bind, exec_begin hidle, hbegin]
  | none =>
    have hopen : ({ c with pending := some c.file } : Connection).pending.isSome := rfl
    obtain ⟨hfile, -⟩ := hm _ hopen
    -- up to the commit the file is what it was, and nothing was open before
    have hback : ∀ c' : Connection, c'.file = c.file → c'.rollback = c := by
      intro c' hsame
      unfold Connection.rollback
      rw [hsame, ← hidle]
    rw [exec_transaction hidle hbegin] at h ⊢
    rcases hrun : m.exec { c with pending := some c.file } with ⟨e' | u, c'⟩ <;> rw [hrun] at hfile
    · rw [exec_bind_error hrun]
      exact hback c' hfile
    · rw [exec_bind_ok hrun, exec_commit] at h ⊢
      cases hcommit : r.commit with
      | none =>
        rw [hcommit] at h
        cases h
      | some fault => exact hback c' hfile

/-- A transaction that succeeds puts into the file what the session made of it. -/
theorem transaction_ok (hm : KeepsFile m) (hidle : c.pending = none)
    (h : ((transaction r m).exec c).1 = .ok ()) :
    ∃ db, m.exec { c with pending := some c.file } = (.ok (), { file := c.file, pending := some db }) ∧
      (transaction r m).exec c = (.ok (), { file := db }) := by
  cases hbegin : r.begin with
  | some fault =>
    unfold transaction at h
    rw [exec_bind, exec_begin hidle, hbegin] at h
    cases h
  | none =>
    have hopen : ({ c with pending := some c.file } : Connection).pending.isSome := rfl
    obtain ⟨hfile, hstill⟩ := hm _ hopen
    rw [exec_transaction hidle hbegin] at h ⊢
    rcases hrun : m.exec { c with pending := some c.file } with ⟨e' | u, c'⟩ <;> rw [hrun] at hfile hstill
    · rw [exec_bind_error hrun] at h
      cases h
    · obtain ⟨db, hdb⟩ := Option.isSome_iff_exists.1 hstill
      have hc' : c' = { file := c.file, pending := some db } := by
        rw [← hfile, ← hdb]
      rw [exec_bind_ok hrun, exec_commit] at h ⊢
      cases hcommit : r.commit with
      | some fault =>
        rw [hcommit] at h
        cases h
      | none =>
        rw [hc']
        exact ⟨db, rfl, rfl⟩

end Transaction

end CatalogSync.Sql.Session
