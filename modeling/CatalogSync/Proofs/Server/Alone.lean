import CatalogSync.Proofs.Program.Path
import CatalogSync.Proofs.Server.Working
import CatalogSync.Proofs.Server.World

/-!
# A server that programs have to themselves

In `Server.alone` nobody but the programs writes to settings, jobs, catalog or files. Meanwhile decoders work, time
passes, tokens are cancelled and faults come and go; a store or the file system may refuse a call at any time.

The `Notes` of a server are what programs note there, as against what they work on.

Main statements: `alone_withNotes`, no other question depends on the notes; `alone_note`, a question about the notes that
is not refused is answered from them alone.
-/

namespace CatalogSync.Server

open CatalogSync.Text CatalogSync.Time

/-! ## The world -/

/-- A store or the file system may refuse what it is asked. -/
def Refuses : (q : Ask) → q.Answer → Prop
  | .readSetting _, a => ∃ e, a = .error e
  | .writeSetting _ _, a => ∃ e, a = .error e
  | .createJob _ _, a => ∃ e, a = .error e
  | .startJob _, a => ∃ e, a = .error e
  | .completeJob _, a => ∃ e, a = .error e
  | .failJob _ _, a => ∃ e, a = .error e
  | .publish _ _, a => ∃ e, a = .error e
  | .cleanJobs _, a => ∃ e, a = .error e
  | .upsertCards _, a => ∃ e, a = .error e
  | .upsertSets _, a => ∃ e, a = .error e
  | .countRows _, a => ∃ e, a = .error e
  | .findSet _, a => ∃ e, a = .error e
  | .recordIcon _ _, a => ∃ e, a = .error e
  | .makeDirectory _, a => ∃ e, a = .error e
  | .createFile _, a => ∃ e, a = .error e
  | .appendFile _ _, a => ∃ e, a = .error e
  | .flushFile _, a => ∃ e, a = .error e
  | .moveFile _ _, a => ∃ e, a = .error e
  | _, _ => False

/-- What happens while nobody asks: a decoder takes a step, the feed of a cancelled import ends, or the surroundings
change. -/
inductive Meantime (s : Server) : Server → Prop
  | work {id : Nat} {d : Decoding} (h : s.decodings[id]? = some d) : Meantime s (s.workOnce id d)
  | cutOff {id : Nat} {d : Decoding} (h : s.decodings[id]? = some d) (hcancelled : s.isCancelled d.token = true) :
    Meantime s (s.modifyDecoding id fun _ => { d with exchange := d.exchange.cutOff })
  | change (clock : Instant) (web : Web.Network) (cancelled : List Token) (faults : Faults) :
      Meantime s { s with clock, web, cancelled, faults }

/-- A server on which nobody but the programs writes. -/
def alone : World Server where
  stirs := Meantime
  answers s q a s' := Answers s q a s' ∨ Refuses q a ∧ s' = s

/-! ## Notes -/

/-- What programs note on a server. -/
structure Notes where
  settings : Dict String
  ledger : Ledger
  registry : Metrics.Registry
  published : List Json

def notes (s : Server) : Notes := ⟨s.settings, s.ledger, s.registry, s.published⟩

def withNotes (s : Server) (n : Notes) : Server :=
  { s with settings := n.settings, ledger := n.ledger, registry := n.registry, published := n.published }

/-- Answers a question about notes. -/
def Notes.answer (now : Instant) (n : Notes) : (q : Ask) → Option (q.Answer × Notes)
  | .readSetting key => some (.ok (n.settings.find? key), n)
  | .writeSetting key value => some (.ok (), { n with settings := n.settings.put key value })
  | .createJob type metadata =>
    some ((n.ledger.create now type metadata).1, { n with ledger := (n.ledger.create now type metadata).2 })
  | .startJob id => some (.ok (), { n with ledger := n.ledger.start now id })
  | .completeJob id => some (.ok (), { n with ledger := n.ledger.complete now id })
  | .failJob id message => some (.ok (), { n with ledger := n.ledger.fail now id message })
  | .publish id metadata =>
    some (.ok (), { n with ledger := n.ledger.publish now id metadata, published := metadata :: n.published })
  | .cleanJobs days =>
    some (.ok (n.ledger.clean now days).1, { n with ledger := (n.ledger.clean now days).2 })
  | .record event => some ((), { n with registry := n.registry.record event })
  | _ => none

/-- A setting is read alike from notes that say the same of it. -/
theorem Notes.answer_readSetting {n m n' : Notes} {key : String} {now : Instant} {a : (Ask.readSetting key).Answer}
    (h : m.settings.find? key = n.settings.find? key) (hanswer : n.answer now (.readSetting key) = some (a, n')) :
    n' = n ∧ m.answer now (.readSetting key) = some (a, m) := by
  cases hanswer
  exact ⟨rfl, congrArg (fun found => some ((Except.ok found : Stored (Option String)), m)) h⟩

/-- The questions about notes. -/
def isNote : Ask → Bool
  | .readSetting _ => true
  | .writeSetting _ _ => true
  | .createJob _ _ => true
  | .startJob _ => true
  | .completeJob _ => true
  | .failJob _ _ => true
  | .publish _ _ => true
  | .cleanJobs _ => true
  | .record _ => true
  | _ => false

variable {s s' : Server} {q : Ask} {a : q.Answer}

/-- The questions that are answered as the decoders and the network please. -/
def isExchange : Ask → Bool
  | .request _ _ _ => true
  | .receive _ _ => true
  | .join _ => true
  | _ => false

/-- These change nothing but the decoders. -/
theorem answers_exchange (hq : isExchange q = true) (h : Answers s q a s') :
    ∃ decodings, s' = { s with decodings := decodings } := by
  cases q with
  | request =>
    obtain rfl : s' = s := h
    exact ⟨s'.decodings, rfl⟩
  | receive id token =>
    cases a with
    | cancelled =>
      obtain ⟨-, rfl⟩ := h
      exact ⟨s'.decodings, rfl⟩
    | batch items =>
      obtain ⟨d, e, -, -, rfl⟩ := h
      exact ⟨_, rfl⟩
    | closed =>
      obtain ⟨-, rfl⟩ := h
      exact ⟨s'.decodings, rfl⟩
  | join id =>
    obtain ⟨-, rfl⟩ := h
    exact ⟨s'.decodings, rfl⟩
  | _ => cases hq

/-- A guarded call is refused, or the guard lets it through. -/
theorem guarded_cases {α : Type} {call : Call} {f : Server → Stored α × Server} {p : Stored α × Server}
    (h : s.guarded call f = p) :
    (∃ e, p = (.error e, s)) ∨ (s.faults.refused.contains call = false ∧ f s = p) := by
  unfold guarded at h
  split at h
  · exact .inl ⟨_, h.symm⟩
  · next hopen => exact .inr ⟨Bool.not_eq_true _ ▸ hopen, h⟩

theorem guarded_of_open {α : Type} {call : Call} (h : s.faults.refused.contains call = false)
    (f : Server → Stored α × Server) : s.guarded call f = f s := by
  unfold guarded
  rw [h]
  rfl

/-- **Questions about notes.** One that is not refused is answered from the notes, and would be so with others. -/
theorem alone_note (hq : isNote q = true) (h : alone.answers s q a s') :
    (Refuses q a ∧ s' = s) ∨ ∃ n, s.notes.answer s.clock q = some (a, n) ∧ s' = s.withNotes n ∧
      ∀ m b m', m.answer s.clock q = some (b, m') → alone.answers (s.withNotes m) q b (s.withNotes m') := by
  rcases h with h | h
  · cases q with
    | readSetting | writeSetting | createJob | startJob | completeJob | failJob | publish | cleanJobs =>
      rcases guarded_cases (Option.some.inj h) with ⟨e, he⟩ | ⟨hopen, hf⟩
      · cases he
        exact .inl ⟨⟨e, rfl⟩, rfl⟩
      · cases hf
        refine .inr ⟨_, rfl, rfl, fun m b m' hb => .inl ?_⟩
        cases hb
        exact congrArg some (guarded_of_open (s := s.withNotes m) hopen _)
    | record event =>
      cases h
      refine .inr ⟨_, rfl, rfl, fun m b m' hb => .inl ?_⟩
      cases hb
      rfl
    | _ => cases hq
  · exact .inl h

/-! ## What does not depend on notes -/

section Frame

variable {n : Notes}

theorem Meantime.withNotes (h : Meantime s s') (n : Notes) : Meantime (s.withNotes n) (s'.withNotes n) := by
  cases h with
  | work h => exact .work h
  | cutOff h hcancelled => exact .cutOff h hcancelled
  | change => exact .change _ _ _ _

theorem Meantime.notes (h : Meantime s s') : s'.notes = s.notes := by
  cases h <;> rfl

/-- A change of a server that leaves the notes alone and does not depend on them. -/
structure Unnoted {α : Type} (f : Server → α × Server) : Prop where
  withNotes : ∀ s n, f (withNotes s n) = ((f s).1, (f s).2.withNotes n)
  notes : ∀ s, (f s).2.notes = s.notes

theorem guarded_unnoted {α : Type} (call : Call) {f : Server → Stored α × Server} (hf : Unnoted f) :
    Unnoted fun s => s.guarded call f := by
  constructor
  · intro s n
    by_cases hcall : s.faults.refused.contains call = true
    · have hguarded : ∀ r : Server, r.faults = s.faults → r.guarded call f = (.error (.of (.refused call)), r) := by
        intro r hr
        unfold guarded
        rw [hr, if_pos hcall]
      rw [hguarded s rfl, hguarded (s.withNotes n) rfl]
    · have hopen := Bool.eq_false_iff.2 hcall
      rw [guarded_of_open hopen, guarded_of_open (s := s.withNotes n) hopen]
      exact hf.withNotes s n
  · intro s
    rcases guarded_cases (Eq.refl (s.guarded call f)) with ⟨e, he⟩ | ⟨-, hf'⟩
    · rw [he]
    · rw [← hf']
      exact hf.notes s

theorem upsert_unnoted (f : Instant → Catalog → Nat × Catalog) : Unnoted (upsert f) := by
  constructor
  · intro s n
    unfold upsert withNotes
    dsimp only
    split
    · rfl
    · cases s.importToken with
      | none => rfl
      | some t =>
        dsimp only
        split <;> rfl
  · intro s
    unfold upsert
    dsimp only
    split
    · rfl
    · cases s.importToken with
      | none => rfl
      | some t =>
        dsimp only
        split <;> rfl

theorem filed_unnoted (path : String) {f : Server → Server} (hf : ∀ s n, f (withNotes s n) = (f s).withNotes n)
    (hnotes : ∀ s, (f s).notes = s.notes) : Unnoted fun s => s.filed path f := by
  constructor
  · intro s n
    have hblocked : (s.withNotes n).isBlocked path = s.isBlocked path := rfl
    unfold filed
    rw [hblocked, hf]
    split <;> rfl
  · intro s
    unfold filed
    split
    · rfl
    · exact hnotes s

theorem moveFile_unnoted (source target : String) : Unnoted (moveFile source target) := by
  constructor
  · intro s n
    have hfiles : (s.withNotes n).files = s.files := rfl
    unfold moveFile
    rw [hfiles]
    split <;> rfl
  · intro s
    unfold moveFile
    split <;> rfl

theorem Unnoted.answer {f : Server → q.Answer × Server} (hf : Unnoted f) (hanswer : ∀ s, answer q s = some (f s))
    (h : Server.answer q s = some (a, s')) (n : Notes) :
    Server.answer q (s.withNotes n) = some (a, s'.withNotes n) ∧ s'.notes = s.notes := by
  have hresult : f s = (a, s') := Option.some.inj ((hanswer s).symm.trans h)
  have hnotes := hf.notes s
  rw [hresult] at hnotes
  rw [hanswer, hf.withNotes, hresult]
  exact ⟨rfl, hnotes⟩

theorem answers_withNotes (hq : isNote q = false) (h : Answers s q a s') (n : Notes) :
    Answers (s.withNotes n) q a (s'.withNotes n) ∧ s'.notes = s.notes := by
  cases q with
  | now | isCancelled | startDecoder | abandon | fileExists | unlock =>
    cases h
    exact ⟨rfl, rfl⟩
  | upsertCards | upsertSets =>
    exact (guarded_unnoted .upsert (upsert_unnoted _)).answer (fun _ => rfl) h n
  | countRows dataset =>
    exact (guarded_unnoted .count ⟨fun _ _ => rfl, fun _ => rfl⟩).answer (fun _ => rfl) h n
  | findSet code =>
    exact (guarded_unnoted .findSet ⟨fun _ _ => rfl, fun _ => rfl⟩).answer (fun _ => rfl) h n
  | recordIcon code path =>
    exact (guarded_unnoted .recordIcon ⟨fun _ _ => rfl, fun _ => rfl⟩).answer (fun _ => rfl) h n
  | makeDirectory path | flushFile path =>
    exact (filed_unnoted path (f := id) (fun _ _ => rfl) fun _ => rfl).answer (fun _ => rfl) h n
  | createFile path =>
    exact (filed_unnoted path (f := fun s => { s with files := s.files.put path [] }) (fun _ _ => rfl)
      fun _ => rfl).answer (fun _ => rfl) h n
  | appendFile path bytes =>
    exact (filed_unnoted path
      (f := fun s => { s with files := s.files.put path ((s.files.find? path).getD [] ++ bytes) }) (fun _ _ => rfl)
      fun _ => rfl).answer (fun _ => rfl) h n
  | moveFile source target => exact (moveFile_unnoted source target).answer (fun _ => rfl) h n
  | lock dataset =>
    have hlock : Unnoted fun s : Server => if s.locked.contains dataset then (false, s)
        else (true, { s with locked := dataset :: s.locked }) := by
      constructor
      · intro s n
        have hlocked : (s.withNotes n).locked = s.locked := rfl
        rw [hlocked]
        split <;> rfl
      · intro s
        split <;> rfl
    refine hlock.answer (fun s => ?_) h n
    unfold answer
    dsimp only
    split <;> rfl
  | request =>
    obtain rfl : s' = s := h
    exact ⟨rfl, rfl⟩
  | receive id token =>
    cases a with
    | cancelled =>
      obtain ⟨hcancelled, rfl⟩ := h
      exact ⟨⟨hcancelled, rfl⟩, rfl⟩
    | batch items =>
      obtain ⟨d, e, hd, htake, rfl⟩ := h
      exact ⟨⟨d, e, hd, htake, rfl⟩, rfl⟩
    | closed =>
      obtain ⟨hspent, rfl⟩ := h
      exact ⟨⟨hspent, rfl⟩, rfl⟩
  | join id =>
    obtain ⟨hjoins, rfl⟩ := h
    exact ⟨⟨hjoins, rfl⟩, rfl⟩
  | _ => cases hq

/-- **Other questions.** Their answers do not depend on the notes and leave these as they are. -/
theorem alone_withNotes (hq : isNote q = false) (h : alone.answers s q a s') (n : Notes) :
    alone.answers (s.withNotes n) q a (s'.withNotes n) ∧ s'.notes = s.notes := by
  rcases h with h | ⟨hrefuses, rfl⟩
  · obtain ⟨hans, hnotes⟩ := answers_withNotes hq h n
    exact ⟨.inl hans, hnotes⟩
  · exact ⟨.inr ⟨hrefuses, rfl⟩, rfl⟩

/-- A question that is answered alike from related notes, which are related again then, is answered alike on servers with
such notes. -/
theorem alone_again {R : Notes → Notes → Prop}
    (hR : ∀ now n m n', R n m → n.answer now q = some (a, n') → ∃ m', m.answer now q = some (a, m') ∧ R n' m')
    (h : alone.answers s q a s') (hn : R s.notes n) :
    ∃ n', alone.answers (s.withNotes n) q a (s'.withNotes n') ∧ R s'.notes n' := by
  by_cases hnote : isNote q = true
  · rcases alone_note hnote h with ⟨hrefuses, rfl⟩ | ⟨k, hanswer, rfl, hothers⟩
    · exact ⟨n, .inr ⟨hrefuses, rfl⟩, hn⟩
    · obtain ⟨m, hm, hrelated⟩ := hR _ _ _ _ hn hanswer
      exact ⟨m, hothers n a m hm, hrelated⟩
  · obtain ⟨hans, hnotes⟩ := alone_withNotes (Bool.eq_false_iff.2 hnote) h n
    rw [← hnotes] at hn
    exact ⟨n, hans, hn⟩

end Frame

/-! ## Locks -/

section Locks

variable {dataset : Dataset} {t : List Event}

theorem Meantime.locked (h : Meantime s s') : s'.locked = s.locked := by
  cases h <;> rfl

/-- A lock that is taken stays so until it is given back. -/
theorem alone_locked (h : alone.answers s q a s') (hs : dataset ∈ s.locked) (hq : q ≠ .unlock dataset) :
    dataset ∈ s'.locked := by
  rcases h with h | ⟨-, rfl⟩
  · cases q with
    | lock d =>
      have hlock := answer_lock h
      split at hlock
      · obtain ⟨-, rfl⟩ := hlock
        exact List.mem_cons_of_mem d hs
      · obtain ⟨-, rfl⟩ := hlock
        exact hs
    | unlock d =>
      cases h
      have hne : dataset ≠ d := by
        rintro rfl
        exact hq rfl
      exact List.mem_filter.2 ⟨hs, by simpa using hne⟩
    | writeSetting key value =>
      rcases alone_note rfl (.inl h) with ⟨-, rfl⟩ | ⟨n, -, rfl, -⟩
      · exact hs
      · exact hs
    | request | receive | join =>
      obtain ⟨decodings, rfl⟩ := answers_exchange rfl h
      exact hs
    | _ =>
      have hkept : Kept s s' := answer_kept rfl h
      rw [hkept.locked]
      exact hs
  · exact hs

theorem takes_locked (h : alone.Takes s t s') (hs : dataset ∈ s.locked) (ht : ∀ e ∈ t, e.1 ≠ .unlock dataset) :
    dataset ∈ s'.locked := by
  induction h with
  | start => exact hs
  | stir hstir _ ih => exact ih (by rw [Meantime.locked hstir]; exact hs) ht
  | answer hans _ ih =>
    exact ih (alone_locked hans hs (ht _ List.mem_cons_self)) fun e he => ht e (List.mem_cons_of_mem _ he)

/-- A lock that has been given and has not been given back is taken. -/
theorem locked_of_granted (h : alone.Takes s t s') (hlock : ⟨.lock dataset, true⟩ ∈ t)
    (ht : ∀ e ∈ t, e.1 ≠ .unlock dataset) : dataset ∈ s'.locked := by
  induction h with
  | start => cases hlock
  | stir _ _ ih => exact ih hlock ht
  | @answer s m s' q a t hans hrest ih =>
    have hlater : ∀ e ∈ t, e.1 ≠ .unlock dataset := fun e he => ht e (List.mem_cons_of_mem _ he)
    rcases List.mem_cons.1 hlock with hfirst | hmem
    · cases hfirst
      rcases hans with hans | ⟨hrefuses, -⟩
      · obtain ⟨-, rfl⟩ := answer_lock hans
        exact takes_locked hrest List.mem_cons_self hlater
      · cases hrefuses
    · exact ih hmem hlater

/-- A lock that is taken is refused. -/
theorem refused_of_locked {free : Bool} (h : alone.Takes s (⟨.lock dataset, free⟩ :: t) s') (hs : dataset ∈ s.locked) :
    free = false := by
  generalize hu : (⟨.lock dataset, free⟩ :: t : List Event) = u at h
  induction h with
  | start => cases hu
  | stir hstir _ ih => exact ih (by rw [Meantime.locked hstir]; exact hs) hu
  | answer hans =>
    cases hu
    rcases hans with hans | ⟨hrefuses, -⟩
    · have hlock := answer_lock hans
      cases free with
      | false => rfl
      | true => exact absurd hs hlock.1
    · cases hrefuses

end Locks

end CatalogSync.Server
