import CatalogSync.Proofs.Feed.Causes
import CatalogSync.Proofs.Import.Again

/-!
# How an import tells why its feed failed

As long as nobody cancels its token, the decoder of an import is `Serving` it: whatever else happens or fails, the
decoder is undisturbed. So the import ends as the store or the feed lets it, and what it tells of the feed is what the
end of an undisturbed decoder tells.

Main statement: `failures_told_by_cause`.
-/

namespace CatalogSync.Import

open CatalogSync.Feed CatalogSync.Feed.Floor CatalogSync.Json

section Serving

variable {source : Source} {size id : Nat} {token : Token} {t : List Event} {s s' : Floor}

theorem uncancelled_before (hstir : Stirs s s') (h : s'.cancelled token = false) : s.cancelled token = false := by
  cases hstir with
  | work => exact h
  | cancel other =>
    by_cases hother : token = other
    · subst hother
      simp at h
    · simpa [hother] using h

/-- What holds unless the token is cancelled holds from then on. -/
theorem uncancelled_lasts {P : Prop} (s s' : Floor) (h : s.cancelled token = false → P) (hstir : Stirs s s') :
    s'.cancelled token = false → P := fun huncancelled => h (uncancelled_before hstir huncancelled)

/-- As long as the token is not cancelled, the decoder is undisturbed. -/
def Serving (source : Source) (size id : Nat) (token : Token) (s : Floor) : Prop :=
  s.cancelled token = false → ∃ d received, s.decodings id = some d ∧ d.token = token ∧
    d.exchange.Undisturbed source size received

/-- **Whatever happens** by itself. -/
theorem Serving.stirs (h : Serving source size id token s) (hstir : Stirs s s') : Serving source size id token s' := by
  intro huncancelled
  have hbefore := uncancelled_before hstir huncancelled
  obtain ⟨d, received, hd, htoken, hundisturbed⟩ := h hbefore
  cases hstir with
  | @work j d' hd' =>
    by_cases hj : id = j
    · subst hj
      rw [hd] at hd'
      cases hd'
      refine ⟨_, received, put_same _ _ _, htoken, ?_⟩
      rw [htoken, hbefore, hundisturbed.attended]
      exact hundisturbed.work
    · exact ⟨d, received, by rw [put_other hj, hd], htoken, hundisturbed⟩
  | cancel other => exact ⟨d, received, hd, htoken, hundisturbed⟩

theorem Serving.taken {d : Decoding} {e : Exchange} {items : Batch} (h : Serving source size id token s)
    (hd : s.decodings id = some d) (htake : d.exchange.take? = some (.batch items, e)) :
    Serving source size id token (s.put id { d with exchange := e }) := by
  intro huncancelled
  obtain ⟨d', received, hd', htoken, hundisturbed⟩ := h huncancelled
  rw [hd] at hd'
  cases hd'
  exact ⟨_, _, put_same _ _ _, htoken, hundisturbed.take htake⟩

theorem answers_leaves {q : Ask} (hq : Server.leavesDecoders q = true) {a : q.Answer} (h : Answers s q a s') :
    s' = s := by
  cases q <;> first | exact h | exact h.2 | cases hq

/-- Programs that ask nothing of decoders. -/
theorem leaves_serving {α : Type} {gives : α → Prop} {p : Program α}
    (hp : p.All (fun q => Server.leavesDecoders q = true) gives) (h : Serving source size id token s) :
    p.Safe world (fun _ _ => True) (fun _ _ s => Serving source size id token s) t s := by
  refine (hp.safe (fun _ s => Serving source size id token s) (fun _ _ _ h hstir => h.stirs hstir) ?_
    (fun _ _ _ => trivial) h).mono fun _ _ _ h => h.2
  intro q hq t s a s' hserving hans
  rwa [answers_leaves hq hans]

/-- What the taking of batches comes to: it stops for the store, or its decoder has served it. -/
def Served (source : Source) (size id : Nat) (token : Token) (result : Staged Unit) (_ : List Event) (s : Floor) :
    Prop :=
  match result.1 with
  | .ok () => Serving source size id token s
  | .error e => s.cancelled token = false → ∃ error, e = .store error

/-- **Taking batches**, by induction on the rounds that are left. -/
theorem consume_serving (h : Serving source size id token s) (setup : Setup) (dataset : Dataset) (job : Int)
    (rounds : Nat) (p : Progress) :
    (consume setup dataset job token id rounds p).Safe world (fun _ _ => True) (Served source size id token) t s := by
  have hlasts : ∀ s s', Serving source size id token s → Stirs s s' → Serving source size id token s' :=
    fun _ _ h hstir => h.stirs hstir
  induction rounds generalizing p t s with
  | zero => exact Program.Safe.pure _ h hlasts fun _ h => ⟨trivial, h⟩
  | succ rounds ih =>
    refine Program.Safe.call _ h hlasts (fun _ _ => trivial) ?_
    intro m arrival m' hserving hans
    cases arrival with
    | cancelled =>
      obtain ⟨hcancelled, rfl⟩ := hans
      have hno : m'.cancelled token = false → False := fun huncancelled =>
        Bool.noConfusion (hcancelled.symm.trans huncancelled)
      exact Program.Safe.pure _ hno uncancelled_lasts fun _ h => ⟨trivial, fun huncancelled => (h huncancelled).elim⟩
    | closed =>
      obtain ⟨d, -, -, -, rfl⟩ := hans
      exact Program.Safe.pure _ hserving hlasts fun _ h => ⟨trivial, h⟩
    | batch items =>
      obtain ⟨d, e, hd, htake, rfl⟩ := hans
      refine (leaves_serving (applyBatch_leaves dataset setup.assets items token) (hserving.taken hd htake)).bind ?_
      intro outcome u n hserving
      cases outcome with
      | error e =>
        refine Program.Safe.pure (fun _ => True) trivial (fun _ _ _ _ => trivial) fun _ _ => ⟨trivial, fun _ => ?_⟩
        exact ⟨e, rfl⟩
      | ok result =>
        have hpublish : (publish job (p.absorb result)).All (fun q => Server.leavesDecoders q = true) fun _ => True :=
          .call rfl fun _ => .pure trivial
        exact (leaves_serving hpublish hserving).bind fun _ _ _ hserving => ih hserving _

end Serving

/-! ## The whole feed -/

/-- An import that nobody cancels ends as the store or its feed lets it. -/
def Explained (source : Source) (size : Nat) (outcome : Except Failure Unit) : Prop :=
  (∃ error, outcome = .error (.store error)) ∨
    ∃ batches found, deliver source size false = (batches, some found) ∧ outcome = concluded found

theorem applyFeed_explained (setup : Setup) (dataset : Dataset) (source : Source) (job : Int) (token : Token)
    (p : Progress) (s : Floor) :
    (applyFeed setup dataset source job token p).Safe world (fun _ _ => True)
      (fun result _ s => s.cancelled token = false → Explained source setup.batchSize result.1) [] s := by
  refine Program.Safe.call (fun _ => True) trivial (fun _ _ _ _ => trivial) (fun _ _ => trivial) ?_
  rintro s id s' - ⟨-, rfl⟩
  have hstart : Serving source setup.batchSize id token (s.put id ⟨token, Exchange.start source setup.batchSize⟩) :=
    fun _ => ⟨_, [], put_same _ _ _, rfl, Exchange.start_undisturbed _ _⟩
  refine (consume_serving hstart setup dataset job _ p).bind ?_
  rintro ⟨outcome, p'⟩ t m hserved
  cases outcome with
  | error e =>
    have hstore : m.cancelled token = false → ∃ error, e = .store error := hserved
    refine Program.Safe.call _ hstore uncancelled_lasts (fun _ _ => trivial) ?_
    rintro m answer m' hstore ⟨d, -, rfl⟩
    have hend : (m.put id { d with exchange := d.exchange.leave }).cancelled token = false →
        Explained source setup.batchSize (.error e) := fun huncancelled => by
      obtain ⟨error, rfl⟩ := hstore huncancelled
      exact .inl ⟨error, rfl⟩
    exact Program.Safe.pure _ hend uncancelled_lasts fun _ h => ⟨trivial, h⟩
  | ok u =>
    refine Program.Safe.call _ (show Serving source setup.batchSize id token m from hserved)
      (fun _ _ h hstir => h.stirs hstir) (fun _ _ => trivial) ?_
    rintro m outcome m' hserving ⟨⟨d, hd, hout⟩, rfl⟩
    have hdeliver : m'.cancelled token = false →
        ∃ batches, deliver source setup.batchSize false = (batches, some outcome) := fun huncancelled => by
      obtain ⟨d', received, hd', -, hundisturbed⟩ := hserving huncancelled
      rw [hd] at hd'
      cases hd'
      exact ⟨_, hundisturbed.deliver_of_outcome hout⟩
    cases outcome with
    | ok n =>
      refine Program.Safe.pure _ hdeliver uncancelled_lasts fun s h => ⟨trivial, fun huncancelled => ?_⟩
      obtain ⟨batches, hdeliver⟩ := h huncancelled
      exact .inr ⟨batches, _, hdeliver, rfl⟩
    | error fault =>
      refine Program.Safe.call _ hdeliver uncancelled_lasts (fun _ _ => trivial) ?_
      rintro m cancelled m' hdeliver ⟨rfl, rfl⟩
      have hend : m'.cancelled token = false →
          Explained source setup.batchSize (.error (decoderFailure (m'.cancelled token) fault)) := fun huncancelled => by
        obtain ⟨batches, hdeliver⟩ := hdeliver huncancelled
        rw [huncancelled]
        exact .inr ⟨batches, _, hdeliver, rfl⟩
      exact Program.Safe.pure _ hend uncancelled_lasts fun _ h => ⟨trivial, h⟩

/-- **Failures are told by their cause.** Take any feed, cut into any pieces, a decoder that nobody stops and batches of
any size. Unless the feed stalls, an end can be reached from every state, and every end tells bytes that no array begins
with, a read that failed and a feed that is cut short apart; but a failed read whose text has the mark of a decoder that
was told to stop is taken for one, and nothing else is; and a decoder without room for a batch panics, which is told as
such. An import whose token nobody cancels ends with what its decoder tells, unless the store refuses a batch; where
upserts work, its end can be reached as well. -/
theorem failures_told_by_cause (pieces : List (List UInt8)) (ending : Ending) :
    (∀ size d, Draining.Reaches (.start pieces ending size) d →
      (ending ≠ .stalled → ∃ e found, Draining.Reaches d e ∧ e.exchange.outcome? = some found) ∧
      ∀ found, d.exchange.outcome? = some found → ToldApart pieces.flatten ending size found) ∧
    ∀ setup dataset job token p,
      (∀ s t outcome p' s', Program.Reaches world (applyFeed setup dataset ⟨pieces.flatten, ending⟩ job token p) s t
          (.done (outcome, p')) s' → s'.cancelled token = false →
        (∃ error, outcome = .error (.store error)) ∨
          ∃ found, ToldApart pieces.flatten ending setup.batchSize found ∧ outcome = concluded found) ∧
      ∀ s, Server.Calm token s →
        (ending ≠ .stalled →
          (applyFeed setup dataset ⟨pieces.flatten, ending⟩ job token p).Completes Server.working s) ∧
        ∀ t result s', Program.Reaches Server.working (applyFeed setup dataset ⟨pieces.flatten, ending⟩ job token p) s t
            (.done result) s' →
          ∃ found, ToldApart pieces.flatten ending setup.batchSize found ∧ result.1 = concluded found := by
  refine ⟨fun size d hreach => ⟨fun hflows => ?_, fun found hend => toldApart_of_reaches hreach hend⟩,
    fun setup dataset job token p => ⟨fun s t outcome p' s' hrun huncancelled => ?_, fun s hcalm => ?_⟩⟩
  · obtain ⟨e, found, he, -, hend⟩ := Draining.can_end_of_flows (flows_of_ending hflows) hreach
    exact ⟨e, found, he, hend⟩
  · have hsafe := (applyFeed_explained setup dataset _ job token p s).reaches hrun
    rcases hsafe.done huncancelled with hstore | ⟨batches, found, hdeliver, hout⟩
    · exact .inl hstore
    · exact .inr ⟨found, toldApart_of_deliver hdeliver, hout⟩
  · have hlive : ending ≠ .stalled → (⟨pieces.flatten, ending⟩ : Source).ending ≠ .stalled := id
    have hends : (applyFeed setup dataset ⟨pieces.flatten, ending⟩ job token p).Ends Server.working (ending ≠ .stalled)
        (Concluded (FeedApplied dataset setup.assets p s.catalog s.files) ⟨pieces.flatten, ending⟩ setup.batchSize) [] s :=
      applyFeed_ends (feedApplied_carried dataset setup.assets p s.catalog s.files token) hlive hcalm
        (feedApplied_nothing dataset setup.assets p s.catalog s.files) job
    refine ⟨hends.always, fun t result s' hrun => ?_⟩
    obtain ⟨batches, found, hdeliver, hout, -⟩ := (hends.reaches hrun).done
    exact ⟨found, toldApart_of_deliver hdeliver, hout⟩

def interrupted (reason : String) : Source := ⟨[91, 32], .broken reason⟩

/-- The import of a feed of cards, one by one. -/
def importOf (source : Source) : Program (Staged Unit) :=
  applyFeed { batchSize := 1, assets := "" } .cards source 1 ⟨1⟩ (.start .cards)

/-- The failure of its decoder. -/
def readFailure (reason : String) : Json.Failure := ⟨.read reason, some ⟨1, 2⟩⟩

/-- The decoder opens the array and comes upon the failed read, the channel closes, and the decoder ends. -/
theorem interrupted_run (reason : String) :
    ∃ t p s, Program.Reaches world (importOf (interrupted reason)) bare t
      (.done (.error (decoderFailure false (DecodeFault.ofFailure false (readFailure reason))), p)) s ∧
      s.cancelled ⟨1⟩ = false :=
  ⟨_, _, _,
    .answer (q := .startDecoder (interrupted reason) 1 ⟨1⟩) (a := (0 : Nat)) ⟨rfl, rfl⟩ <|
    .stir (@Stirs.work _ 0 _ rfl) <| .stir (@Stirs.work _ 0 _ rfl) <| .stir (@Stirs.work _ 0 _ rfl) <|
    .answer (q := .receive 0 ⟨1⟩) (a := Arrival.closed) ⟨_, rfl, rfl, rfl, rfl⟩ <|
    .answer (q := .join 0) (a := (.error (DecodeFault.ofFailure false (readFailure reason)) : Outcome))
      ⟨⟨_, rfl, rfl⟩, rfl⟩ <|
    .answer (q := .isCancelled ⟨1⟩) (a := false) ⟨rfl, rfl⟩ <|
    .start _ _, rfl⟩

/-- A connection that is reset inside the array, as the decoder tells it, and as the import does. -/
theorem failed_read_told_as_transport :
    (∃ d place, Draining.Reaches (.start [[91], [32]] (.broken "connection reset") 1) d ∧
      d.exchange.outcome? = some (.error (.read (Json.Failure.message ⟨.read "connection reset", place⟩)))) ∧
    (∃ t p s place, Program.Reaches world (importOf (interrupted "connection reset")) bare t
        (.done (.error (.transport (Json.Failure.message ⟨.read "connection reset", place⟩)), p)) s ∧
      s.cancelled ⟨1⟩ = false) ∧
    ∃ t result s place, Program.Reaches Server.working (importOf (interrupted "connection reset"))
        { clock := default } t (.done result) s ∧
      result.1 = .error (.transport (Json.Failure.message ⟨.read "connection reset", place⟩)) := by
  have hread : ∀ {found}, ToldApart [91, 32] (.broken "connection reset") 1 found →
      ∃ place, found = .error (.read (Json.Failure.message ⟨.read "connection reset", place⟩)) := by
    intro found htold
    have hasks : AsksOn [91, 32] 1 := rfl
    obtain ⟨place, hfound⟩ := htold.read hasks _ rfl
    rw [if_neg (by decide)] at hfound
    exact ⟨place, hfound⟩
  obtain ⟨hdecoder, himport⟩ := failures_told_by_cause [[91], [32]] (.broken "connection reset")
  obtain ⟨hfloor, hserver⟩ := himport { batchSize := 1, assets := "" } .cards 1 ⟨1⟩ (.start .cards)
  refine ⟨?_, ?_, ?_⟩
  · obtain ⟨d, found, hreach, hend⟩ := (hdecoder 1 _ .start).1 Ending.noConfusion
    obtain ⟨place, rfl⟩ := hread ((hdecoder 1 d hreach).2 found hend)
    exact ⟨d, place, hreach, hend⟩
  · obtain ⟨t, p, s, hrun, huncancelled⟩ := interrupted_run "connection reset"
    rw [ofFailure_of_read rfl, if_neg (by decide)] at hrun
    rcases hfloor _ _ _ _ _ hrun huncancelled with ⟨error, hstore⟩ | ⟨found, htold, hout⟩
    · cases hstore
    · obtain ⟨place, rfl⟩ := hread htold
      rw [hout] at hrun
      exact ⟨t, p, s, place, hrun, huncancelled⟩
  · obtain ⟨hcompletes, hdone⟩ := hserver { clock := default } (by decide)
    obtain ⟨t, result, s, hrun⟩ := hcompletes Ending.noConfusion [] _ _ (.start _ _)
    obtain ⟨found, htold, hout⟩ := hdone t result s hrun
    obtain ⟨place, rfl⟩ := hread htold
    exact ⟨t, result, s, place, hrun, hout⟩

/-- A read that fails with a text like that of a decoder that was told to stop, while nobody cancels anything. -/
theorem marked_read_told_as_cancelled :
    (∃ d, Draining.Reaches (.start [[91], [32]] (.broken "decoding stopped early") 1) d ∧
      d.exchange.outcome? = some (.error .cancelled)) ∧
    ∃ t p s, Program.Reaches world (importOf (interrupted "decoding stopped early")) bare t
      (.done (.error .cancelled, p)) s ∧ s.cancelled ⟨1⟩ = false := by
  have hmarked : DecodeFault.ofFailure false (readFailure "decoding stopped early") = .cancelled := by
    rw [ofFailure_of_read rfl, if_pos (by decide)]
  constructor
  · refine ⟨_, .step (.step (.step (.step (.step (.step .start .arrive) .arrive) .finish) .work) .work) .work, ?_⟩
    exact congrArg (fun fault => some (Except.error fault)) hmarked
  · obtain ⟨t, p, s, hrun, huncancelled⟩ := interrupted_run "decoding stopped early"
    rw [hmarked] at hrun
    exact ⟨t, p, s, hrun, huncancelled⟩

end CatalogSync.Import
