import CatalogSync.Proofs.Feed.Undisturbed
import CatalogSync.Proofs.Program.Ending
import CatalogSync.Server.Basic

/-!
# A server while a feed is applied

In `Server.working` decoders take their steps beside the program that receives their batches, and others go
about their business, short of the catalog, the files and the tokens. Otherwise questions are answered
as by the server itself, except that the web may answer whatever it likes.

A server that is `Calm` towards a token lets an import go through to its end: upserts work and nobody cancels.
`Feeding` says how far such an import is, and `run_reaches` that the server's own runs are among those here.
-/

namespace CatalogSync.Server

open CatalogSync.Feed

/-! ## The world -/

/-- What others may do meanwhile. -/
structure Elsewhere (s s' : Server) : Prop where
  catalog : s'.catalog = s.catalog
  files : s'.files = s.files
  decodings : s'.decodings = s.decodings
  faults : s'.faults = s.faults
  cancelled : s'.cancelled = s.cancelled

/-- The server with a decoder one step on. -/
def workOnce (s : Server) (id : Nat) (d : Decoding) : Server :=
  s.modifyDecoding id fun _ =>
    { d with exchange := d.exchange.work (s.isCancelled d.token || !d.exchange.attended) }

/-- A decoder takes a step, the feed of a cancelled import ends, or something happens elsewhere. -/
inductive Stirs (s : Server) : Server → Prop
  | work {id : Nat} {d : Decoding} (h : s.decodings[id]? = some d) : Stirs s (s.workOnce id d)
  | cutOff {id : Nat} {d : Decoding} (h : s.decodings[id]? = some d) (hcancelled : s.isCancelled d.token = true) :
    Stirs s (s.modifyDecoding id fun _ => { d with exchange := d.exchange.cutOff })
  | elsewhere {s' : Server} (h : Elsewhere s s') : Stirs s s'

/-- What a receiver may find. A channel closes once its decoder is past the array. -/
def Arrives (s : Server) (id : Nat) (token : Token) (s' : Server) : Arrival → Prop
  | .cancelled => s.isCancelled token = true ∧ s' = s
  | .batch items => ∃ d e, s.decodings[id]? = some d ∧ d.exchange.take? = some (.batch items, e) ∧
      s' = s.modifyDecoding id fun _ => { d with exchange := e }
  | .closed => (∀ d, s.decodings[id]? = some d → d.exchange.Spent) ∧ s' = s

/-- How a decoder may end. -/
def Joins (s : Server) (id : Nat) (outcome : Outcome) : Prop :=
  match s.decodings[id]? with
  | none => outcome = .error .cancelled
  | some d => d.exchange.outcome? = some outcome

/-- What may answer a question. -/
def Answers (s : Server) : (q : Ask) → q.Answer → Server → Prop
  | .receive id token, arrival, s' => s.Arrives id token s' arrival
  | .join id, outcome, s' => s.Joins id outcome ∧ s' = s
  | .request _ _ _, _, s' => s' = s
  | q, a, s' => answer q s = some (a, s')

/-- A server at work. -/
def working : World Server := ⟨Stirs, Answers⟩

/-! ## Calm servers -/

/-- Upserts work, and nobody cancels the token. -/
structure Calm (token : Token) (s : Server) : Prop where
  upserts : Call.upsert ∉ s.faults.refused
  room : s.faults.failUpsert = none
  steady : s.faults.cancelUpsert = none
  uncancelled : token ∉ s.cancelled

variable {token : Token} {s s' : Server}

instance : Decidable (Calm token s) :=
  decidable_of_iff (Call.upsert ∉ s.faults.refused ∧ s.faults.failUpsert = none ∧ s.faults.cancelUpsert = none ∧
    token ∉ s.cancelled) ⟨fun ⟨h₁, h₂, h₃, h₄⟩ => ⟨h₁, h₂, h₃, h₄⟩, fun h => ⟨h.upserts, h.room, h.steady, h.uncancelled⟩⟩

theorem Calm.isCancelled (h : Calm token s) : s.isCancelled token = false := by
  have hno := h.uncancelled
  unfold Server.isCancelled
  simpa using hno

theorem Calm.stirs (h : Calm token s) (hstir : Stirs s s') : Calm token s' := by
  cases hstir with
  | work | cutOff => exact ⟨h.upserts, h.room, h.steady, h.uncancelled⟩
  | elsewhere helse =>
    constructor
    · rw [helse.faults]; exact h.upserts
    · rw [helse.faults]; exact h.room
    · rw [helse.faults]; exact h.steady
    · rw [helse.cancelled]; exact h.uncancelled

/-- What a calm server makes of an upsert. -/
theorem Calm.upsert (h : Calm token s) (f : Time.Instant → Catalog → Nat × Catalog) :
    s.guarded .upsert (Server.upsert f) =
      (.ok (f s.clock s.catalog).1, { s with
        catalog := (f s.clock s.catalog).2, faults := { s.faults with upserts := s.faults.upserts + 1 } }) := by
  have hcall : s.faults.refused.contains Call.upsert = false := by simpa using h.upserts
  unfold guarded Server.upsert
  rw [hcall]
  simp only [Bool.false_eq_true, if_false, h.room, h.steady, reduceCtorEq]
  cases s.importToken <;> rfl

/-! ## What questions leave alone -/

/-- The questions that are not about decoders. -/
def leavesDecoders : Ask → Bool
  | .startDecoder _ _ _ => false
  | .receive _ _ => false
  | .join _ => false
  | .abandon _ => false
  | _ => true

/-- The same decoders, and what else a calm server is calm by. -/
structure Spared (s s' : Server) : Prop where
  decodings : s'.decodings = s.decodings
  refused : s'.faults.refused = s.faults.refused
  room : s'.faults.failUpsert = s.faults.failUpsert
  steady : s'.faults.cancelUpsert = s.faults.cancelUpsert
  cancelled : s'.cancelled = s.cancelled

theorem Spared.refl (s : Server) : Spared s s := ⟨rfl, rfl, rfl, rfl, rfl⟩

theorem Spared.calm (h : Spared s s') (hs : Calm token s) : Calm token s' := by
  constructor
  · rw [h.refused]; exact hs.upserts
  · rw [h.room]; exact hs.room
  · rw [h.steady]; exact hs.steady
  · rw [h.cancelled]; exact hs.uncancelled

theorem guarded_spared {α : Type} (call : Call) {f : Server → Stored α × Server} (h : Spared s (f s).2) :
    Spared s (s.guarded call f).2 := by
  unfold guarded
  split
  · exact .refl s
  · exact h

theorem filed_spared (path : String) {f : Server → Server} (h : Spared s (f s)) : Spared s (s.filed path f).2 := by
  unfold filed
  split
  · exact .refl s
  · exact h

theorem moveFile_spared (source target : String) : Spared s (moveFile source target s).2 := by
  unfold moveFile
  split
  · exact .refl s
  · exact ⟨rfl, rfl, rfl, rfl, rfl⟩

/-- The questions that the server answers here as it always does, and that are not about decoders. -/
def isPlain : Ask → Bool
  | .request _ _ _ => false
  | q => leavesDecoders q

theorem answer_spared {q : Ask} {p : q.Answer × Server} (hq : isPlain q = true) (hs : Calm token s)
    (h : answer q s = some p) : Spared s p.2 := by
  cases q with
  | startDecoder | receive | join | abandon | request => cases hq
  | upsertCards | upsertSets =>
    change some (s.guarded .upsert (upsert _)) = some p at h
    rw [hs.upsert] at h
    cases h
    exact ⟨rfl, rfl, rfl, rfl, rfl⟩
  | lock dataset =>
    change (if s.locked.contains dataset then some (false, s)
      else some (true, { s with locked := dataset :: s.locked })) = some p at h
    split at h
    · cases h
      exact .refl s
    · cases h
      exact ⟨rfl, rfl, rfl, rfl, rfl⟩
  | makeDirectory | createFile | appendFile | flushFile =>
    cases h
    exact filed_spared _ ⟨rfl, rfl, rfl, rfl, rfl⟩
  | moveFile source target =>
    cases h
    exact moveFile_spared source target
  | now | isCancelled | fileExists | record | unlock =>
    cases h
    exact ⟨rfl, rfl, rfl, rfl, rfl⟩
  | _ =>
    cases h
    exact guarded_spared _ ⟨rfl, rfl, rfl, rfl, rfl⟩

theorem answers_spared {q : Ask} {a : q.Answer} (hq : leavesDecoders q = true) (hs : Calm token s)
    (h : Answers s q a s') : Spared s s' := by
  cases q with
  | startDecoder | receive | join | abandon => cases hq
  | request =>
    obtain rfl : s' = s := h
    exact .refl s'
  | _ => exact answer_spared rfl hs h

/-- Every question that is not about decoders is answered at once. -/
theorem answered {q : Ask} (hq : leavesDecoders q = true) (s : Server) : ∃ a s', Answers s q a s' := by
  cases q with
  | startDecoder | receive | join | abandon => cases hq
  | request => exact ⟨.none, s, rfl⟩
  | lock dataset =>
    by_cases hlocked : s.locked.contains dataset = true
    · exact ⟨false, s, if_pos hlocked⟩
    · exact ⟨true, _, if_neg hlocked⟩
  | _ => exact ⟨_, _, rfl⟩

/-! ## How far an import is -/

/-- A calm server whose decoder of a number has an exchange of some kind. -/
structure Hosts (P : Exchange → Prop) (token : Token) (id : Nat) (s : Server) : Prop where
  calm : Calm token s
  exchange : ∃ e, s.decodings[id]? = some ⟨token, e⟩ ∧ P e

/-- The decoder of a feed is undisturbed, and this much has been received from it. -/
abbrev Feeding (source : Source) (size : Nat) (received : List Batch) : Token → Nat → Server → Prop :=
  Hosts (Exchange.Undisturbed source size received)

/-- The same, and there is no more to come. -/
abbrev Drained (source : Source) (size : Nat) (received : List Batch) : Token → Nat → Server → Prop :=
  Hosts fun e => e.Undisturbed source size received ∧ e.Spent

section Hosts

variable {P : Exchange → Prop} {id : Nat} {source : Source} {size : Nat} {received : List Batch}

theorem modifyDecoding_same {d : Decoding} (h : s.decodings[id]? = some d) (f : Decoding → Decoding) :
    (s.modifyDecoding id f).decodings[id]? = some (f d) := by
  unfold modifyDecoding
  rw [List.getElem?_modify_eq, h]
  rfl

/-- What one step of an uncancelled decoder keeps is kept by whatever happens. -/
theorem Hosts.stirs (hP : ∀ e, P e → e.attended = true ∧ P (e.work false)) (h : Hosts P token id s)
    (hstir : Stirs s s') : Hosts P token id s' := by
  refine ⟨h.calm.stirs hstir, ?_⟩
  obtain ⟨e, he, hPe⟩ := h.exchange
  cases hstir with
  | @work j d hd =>
    by_cases hj : j = id
    · subst hj
      rw [he] at hd
      cases hd
      obtain ⟨hattended, hwork⟩ := hP e hPe
      have hflag : (s.isCancelled token || !e.attended) = false := by
        rw [h.calm.isCancelled, hattended]
        rfl
      refine ⟨e.work false, ?_, hwork⟩
      have hsame := modifyDecoding_same he fun _ =>
        (⟨token, e.work (s.isCancelled token || !e.attended)⟩ : Decoding)
      rw [hflag] at hsame
      unfold workOnce
      dsimp only
      rw [hflag]
      exact hsame
    · refine ⟨e, ?_, hPe⟩
      show (s.decodings.modify j _)[id]? = _
      rw [List.getElem?_modify_ne _ _ hj]
      exact he
  | @cutOff j d hd hcancelled =>
    -- a feed that is cut off is not this one, whose token is not cancelled
    have hj : j ≠ id := by
      rintro rfl
      rw [he] at hd
      cases hd
      exact absurd hcancelled (by rw [h.calm.isCancelled]; exact Bool.false_ne_true)
    refine ⟨e, ?_, hPe⟩
    show (s.decodings.modify j _)[id]? = _
    rw [List.getElem?_modify_ne _ _ hj]
    exact he
  | elsewhere helse => exact ⟨e, by rw [helse.decodings, he], hPe⟩

theorem feeding_works {e : Exchange} (h : e.Undisturbed source size received) :
    e.attended = true ∧ (e.work false).Undisturbed source size received := ⟨h.attended, h.work⟩

theorem drained_works {e : Exchange} (h : e.Undisturbed source size received ∧ e.Spent) :
    e.attended = true ∧ (e.work false).Undisturbed source size received ∧ (e.work false).Spent :=
  ⟨h.1.attended, h.1.work, h.2.work⟩

/-- A question that is not about decoders. -/
theorem Hosts.answers {q : Ask} {a : q.Answer} (h : Hosts P token id s) (hq : leavesDecoders q = true)
    (hans : Answers s q a s') : Hosts P token id s' := by
  have hspared := answers_spared hq h.calm hans
  refine ⟨hspared.calm h.calm, ?_⟩
  rw [hspared.decodings]
  exact h.exchange

/-- The decoder can take any number of steps before anything else happens. -/
theorem Hosts.passes (hP : ∀ e, P e → e.attended = true ∧ P (e.work false)) (n : Nat) {e : Exchange}
    (hs : Calm token s) (he : s.decodings[id]? = some ⟨token, e⟩) (hPe : P e) :
    ∃ m, working.Passes s m ∧ m.decodings[id]? = some ⟨token, e.workFor n⟩ ∧ P (e.workFor n) := by
  induction n generalizing s e with
  | zero => exact ⟨s, .refl s, he, hPe⟩
  | succ n ih =>
    obtain ⟨hattended, hwork⟩ := hP e hPe
    have hstir : Stirs s (s.workOnce id ⟨token, e⟩) := .work he
    have hflag : (s.isCancelled token || !e.attended) = false := by
      rw [hs.isCancelled, hattended]
      rfl
    have hnext : (s.workOnce id ⟨token, e⟩).decodings[id]? = some ⟨token, e.work false⟩ := by
      unfold workOnce
      dsimp only
      rw [modifyDecoding_same he, hflag]
    obtain ⟨m, hm, hdone⟩ := ih (hs.stirs hstir) hnext hwork
    exact ⟨m, .stir hstir hm, hdone⟩

/-- Unless its decoder waits, a receiver comes to find something. -/
theorem Hosts.arrives (h : Feeding source size received token id s) (hflows : Flows source size) :
    ∃ m a m', working.Passes s m ∧ Answers m (.receive id token) a m' := by
  obtain ⟨e, he, hundisturbed⟩ := h.exchange
  obtain ⟨n, hn⟩ := hundisturbed.comes hflows
  obtain ⟨m, hm, hd, -⟩ := Hosts.passes (fun _ => feeding_works) n h.calm he hundisturbed
  cases hqueue : (e.workFor n).queue with
  | cons items queue =>
    refine ⟨m, .batch items, _, hm, ⟨_, { e.workFor n with queue }, hd, ?_, rfl⟩⟩
    unfold Exchange.take?
    rw [hqueue]
  | nil =>
    rcases hn with hsome | ⟨outcome, hout⟩
    · exact absurd hqueue hsome
    · refine ⟨m, .closed, m, hm, fun d hd' => ?_, rfl⟩
      rw [hd] at hd'
      cases hd'
      refine ⟨hqueue, ?_⟩
      rw [Exchange.decoder_of_outcome hout]
      rfl

/-- Unless it waits, a decoder comes to finish. -/
theorem Hosts.joins (h : Drained source size received token id s) (hflows : Flows source size) :
    ∃ m a m', working.Passes s m ∧ Answers m (.join id) a m' := by
  obtain ⟨e, he, hundisturbed, hspent⟩ := h.exchange
  obtain ⟨n, hn⟩ := hundisturbed.comes hflows
  obtain ⟨m, hm, hd, -, hspent'⟩ := Hosts.passes (fun _ => drained_works) n h.calm he ⟨hundisturbed, hspent⟩
  rcases hn with hsome | ⟨outcome, hout⟩
  · exact absurd hspent'.1 hsome
  · refine ⟨m, outcome, m, hm, ?_, rfl⟩
    unfold Joins
    rw [hd]
    exact hout

/-- A receiver finds the next batch, or there is no more to come. -/
theorem Hosts.taken (h : Feeding source size received token id s) {arrival : Arrival}
    (hans : Answers s (.receive id token) arrival s') :
    (∃ items, arrival = .batch items ∧ Feeding source size (received ++ [items]) token id s' ∧
        s'.catalog = s.catalog ∧ s'.files = s.files) ∨
      (arrival = .closed ∧ Drained source size received token id s' ∧ s' = s) := by
  obtain ⟨e, he, hundisturbed⟩ := h.exchange
  cases arrival with
  | cancelled =>
    have hcancelled : s.isCancelled token = true := hans.1
    rw [h.calm.isCancelled] at hcancelled
    cases hcancelled
  | closed =>
    obtain ⟨hspent, rfl⟩ := hans
    exact .inr ⟨rfl, ⟨h.calm, e, he, hundisturbed, hspent _ he⟩, rfl⟩
  | batch items =>
    obtain ⟨d, e', hd, htake, rfl⟩ := hans
    rw [he] at hd
    cases hd
    refine .inl ⟨items, rfl, ⟨⟨h.calm.upserts, h.calm.room, h.calm.steady, h.calm.uncancelled⟩, e', ?_, ?_⟩, rfl, rfl⟩
    · exact modifyDecoding_same he _
    · exact hundisturbed.take htake

/-- What a decoder with no more to come ends with. -/
theorem Hosts.joined (h : Drained source size received token id s) {outcome : Outcome}
    (hans : Answers s (.join id) outcome s') : deliver source size false = (received, some outcome) ∧ s' = s := by
  obtain ⟨e, he, hundisturbed, hspent⟩ := h.exchange
  obtain ⟨hjoins, rfl⟩ := hans
  unfold Joins at hjoins
  rw [he] at hjoins
  exact ⟨hundisturbed.deliver_eq hspent.1 hjoins, rfl⟩

/-- A decoder is started. -/
theorem Calm.started (h : Calm token s) {id : Nat} (hans : Answers s (.startDecoder source size token) id s') :
    Feeding source size [] token id s' ∧ s'.catalog = s.catalog ∧ s'.files = s.files := by
  cases hans
  refine ⟨⟨⟨h.upserts, h.room, h.steady, h.uncancelled⟩, Exchange.start source size, ?_, ?_⟩, rfl, rfl⟩
  · exact List.getElem?_concat_length
  · exact Exchange.start_undisturbed source size

end Hosts

/-! ## The server's own runs -/

section Own

variable {id : Nat} {d : Decoding}

theorem modifyDecoding_congr (h : s.decodings[id]? = some d) {f g : Decoding → Decoding} (hfg : f d = g d) :
    s.modifyDecoding id f = s.modifyDecoding id g := by
  have hsame : s.decodings.modify id f = s.decodings.modify id g := by
    apply List.ext_getElem?
    intro j
    by_cases hj : id = j
    · subst hj
      rw [List.getElem?_modify_eq, List.getElem?_modify_eq, h]
      exact congrArg some hfg
    · rw [List.getElem?_modify_ne _ _ hj, List.getElem?_modify_ne _ _ hj]
  unfold modifyDecoding
  rw [hsame]

theorem modifyDecoding_modifyDecoding (s : Server) (id : Nat) (f g : Decoding → Decoding) :
    (s.modifyDecoding id f).modifyDecoding id g = s.modifyDecoding id (g ∘ f) := by
  unfold modifyDecoding
  rw [List.modify_modify_eq]

theorem modifyDecoding_self (h : s.decodings[id]? = some d) : (s.modifyDecoding id fun _ => d) = s := by
  have hid : (s.modifyDecoding id fun _ => d) = s.modifyDecoding id fun d => d := modifyDecoding_congr h rfl
  have hsame : (s.decodings.modify id fun d => d) = s.decodings := List.modify_id id s.decodings
  rw [hid]
  unfold modifyDecoding
  rw [hsame]

theorem attended_work (cancelled : Bool) (e : Exchange) : (e.work cancelled).attended = e.attended := by
  unfold Exchange.work
  split
  · split
    · rfl
    · split <;> rfl
  · rfl

theorem passes_workOn (steps : Nat) (h : s.decodings[id]? = some d) :
    working.Passes s (s.modifyDecoding id fun _ =>
      { d with exchange := d.exchange.workOn (s.isCancelled d.token || !d.exchange.attended) steps }) := by
  induction steps generalizing s d with
  | zero =>
    have hself := modifyDecoding_self h
    unfold Exchange.workOn
    rw [hself]
    exact .refl s
  | succ steps ih =>
    unfold Exchange.workOn
    split
    · -- a step changes neither the token nor whether anybody takes batches, so the next one is cancelled or not as this one
      have hnext : (s.workOnce id d).decodings[id]? = some _ := modifyDecoding_same h _
      have hrest := ih hnext
      dsimp only at hrest
      rw [attended_work] at hrest
      unfold workOnce at hrest
      rw [modifyDecoding_modifyDecoding] at hrest
      exact .stir (.work h) hrest
    · rw [modifyDecoding_self h]
      exact .refl s

/-- A server settles a decoder before it takes from it. -/
theorem passes_settled (h : s.decodings[id]? = some d) :
    working.Passes s (s.modifyDecoding id fun _ => { d with exchange := s.settled d }) := by
  unfold settled supplied
  split
  · next hcancelled =>
    have hcut := modifyDecoding_same h fun _ => ({ d with exchange := d.exchange.cutOff } : Decoding)
    have hwork := passes_workOn (2 * d.exchange.cutOff.source.steps) hcut
    rw [modifyDecoding_modifyDecoding] at hwork
    exact .stir (.cutOff h hcancelled) hwork
  · exact passes_workOn _ h

theorem reaches_receive {token : Token} {arrival : Arrival} (h : s.receive id token = some (arrival, s')) :
    ∃ m, working.Passes s m ∧ Answers m (.receive id token) arrival s' := by
  unfold receive at h
  split at h
  · next hcancelled =>
    cases h
    exact ⟨s, .refl s, hcancelled, rfl⟩
  · split at h
    · next hnone =>
      cases h
      exact ⟨s, .refl s, fun d hd => absurd (hnone.symm.trans hd) nofun, rfl⟩
    · next d hd =>
      obtain ⟨⟨arrival', e⟩, htake, hrest⟩ := Option.bind_eq_some_iff.1 h
      cases hrest
      have hsame := modifyDecoding_same hd fun _ => ({ d with exchange := s.settled d } : Decoding)
      refine ⟨_, passes_settled hd, ?_⟩
      cases arrival with
      | batch items =>
        refine ⟨_, e, hsame, htake, ?_⟩
        rw [modifyDecoding_modifyDecoding]
        exact modifyDecoding_congr hd rfl
      | closed =>
        unfold Exchange.take? at htake
        split at htake
        · cases htake
        · next hqueue =>
          split at htake
          · next hhung =>
            cases htake
            refine ⟨fun d' hd' => ?_, modifyDecoding_congr hd rfl⟩
            rw [hsame] at hd'
            cases hd'
            exact ⟨hqueue, hhung⟩
          · cases htake
      | cancelled =>
        unfold Exchange.take? at htake
        split at htake
        · cases htake
        · split at htake <;> cases htake

theorem reaches_join {outcome : Outcome} (h : s.join id = some (outcome, s')) :
    ∃ m, working.Passes s m ∧ Answers m (.join id) outcome s' := by
  unfold join at h
  split at h
  · next hnone =>
    cases h
    refine ⟨s, .refl s, ?_, rfl⟩
    unfold Joins
    rw [hnone]
  · next d hd =>
    obtain ⟨outcome', hout, hrest⟩ := Option.bind_eq_some_iff.1 h
    cases hrest
    have hsame := modifyDecoding_same hd fun _ => ({ d with exchange := s.settled d } : Decoding)
    refine ⟨_, passes_settled hd, ?_, modifyDecoding_congr hd rfl⟩
    unfold Joins
    rw [hsame]
    exact hout

theorem reaches_request {location : String} {patience : Web.Patience} {token : Option Token} {reply : Web.Reply}
    (h : s.request location patience token = some (reply, s')) :
    ∃ m, working.Passes s m ∧ Answers m (.request location patience token) reply s' := by
  unfold request at h
  split at h
  · cases h
    exact ⟨s, .refl s, rfl⟩
  · split at h
    · cases h
    · cases h
      refine ⟨{ s with web := _ }, .stir (.elsewhere ?_) (.refl _), rfl⟩
      exact ⟨rfl, rfl, rfl, rfl, rfl⟩

theorem reaches_answer {q : Ask} {a : q.Answer} (h : answer q s = some (a, s')) :
    ∃ m, working.Passes s m ∧ Answers m q a s' := by
  cases q with
  | receive => exact reaches_receive h
  | join => exact reaches_join h
  | request => exact reaches_request h
  | _ => exact ⟨s, .refl s, h⟩

end Own

/-- **The server's own runs** are among those of the world. -/
theorem run_reaches {α : Type} {p : Program α} {a : α} (h : run p s = .done a s') :
    ∃ t, Program.Reaches working p s t (.done a) s' := by
  unfold run at h
  induction p generalizing s with
  | done b =>
    cases h
    exact ⟨[], .start _ _⟩
  | ask q next ih =>
    unfold Program.run at h
    cases hans : answer q s with
    | none =>
      rw [hans] at h
      cases h
    | some r =>
      obtain ⟨b, m⟩ := r
      rw [hans] at h
      obtain ⟨t, hrun⟩ := ih b h
      obtain ⟨m', hpasses, hans'⟩ := reaches_answer hans
      exact ⟨_, .after hpasses (.answer hans' hrun)⟩

end CatalogSync.Server
