import CatalogSync.Proofs.Program.World

/-!
# Programs that come to an end

`Program.Ends` is what has to be shown of a program, question by question, so that all of its runs that
end do so as they should (`Ends.reaches`). Where `live` holds it also says that no question waits for ever:
every run, wherever it stands, can be brought to its end (`Ends.completes`).
-/

namespace CatalogSync.Program

variable {α β σ : Type}

/-- Whatever happens from here on, `post` holds of the result, the events and the state at the end; and where
`live` holds, every question that is asked can come to be answered. -/
def Ends (w : World σ) (live : Prop) (post : α → List Event → σ → Prop) :
    Program α → List Event → σ → Prop
  | .done a, t, s => ∀ s', w.Passes s s' → post a t s'
  | .ask q next, t, s => ∀ s', w.Passes s s' →
      (live → ∃ m a m', w.Passes s' m ∧ w.answers m q a m') ∧
        ∀ a m, w.answers s' q a m → Ends w live post (next a) (t ++ [⟨q, a⟩]) m

variable {w : World σ} {live : Prop} {post : α → List Event → σ → Prop} {t : List Event} {s s' : σ}

theorem Ends.passes {p : Program α} (h : Ends w live post p t s) (hp : w.Passes s s') : Ends w live post p t s' := by
  cases p with
  | done a => exact fun m hm => h m (hp.trans hm)
  | ask q next => exact fun m hm => h m (hp.trans hm)

theorem Ends.done {a : α} (h : Ends w live post (.done a) t s) : post a t s := h s (.refl s)

/-- **Soundness.** A run goes on as it has begun. -/
theorem Ends.reaches {p r : Program α} {u : List Event} (h : Ends w live post p t s) (hrun : Reaches w p s u r s') :
    Ends w live post r (t ++ u) s' := by
  induction hrun generalizing t with
  | start p s => rwa [List.append_nil]
  | stir hstir _ ih => exact ih (h.passes (.stir hstir (.refl _)))
  | @answer q next a r s m s' u hans _ ih =>
    have hnext := ih ((h s (.refl s)).2 a m hans)
    rwa [List.append_assoc] at hnext

theorem Reaches.after {p r : Program α} {m : σ} {u : List Event} (h : w.Passes s m)
    (hrun : Reaches w p m u r s') : Reaches w p s u r s' := by
  induction h with
  | refl s => exact hrun
  | stir hstir _ ih => exact .stir hstir (ih hrun)

/-- **Liveness.** A run can be brought to its end. -/
theorem Ends.completes {p : Program α} (h : Ends w live post p t s) (hlive : live) :
    ∃ u a s', Reaches w p s u (.done a) s' := by
  induction p generalizing t s with
  | done a => exact ⟨[], a, s, .start _ s⟩
  | ask q next ih =>
    obtain ⟨m, a, m', hpasses, hans⟩ := (h s (.refl s)).1 hlive
    obtain ⟨u, b, s', hrun⟩ := ih a ((h m hpasses).2 a m' hans)
    exact ⟨⟨q, a⟩ :: u, b, s', .after hpasses (.answer hans hrun)⟩

/-- Every run of a program can be brought to its end, wherever it stands. -/
def Completes (w : World σ) (p : Program α) (s : σ) : Prop :=
  ∀ t q m, Reaches w p s t q m → ∃ u a s', Reaches w q m u (.done a) s'

theorem Ends.always {p : Program α} (h : Ends w live post p t s) (hlive : live) : Completes w p s :=
  fun _ _ _ hrun => (h.reaches hrun).completes hlive

theorem Ends.mono {p : Program α} {post' : α → List Event → σ → Prop} (h : Ends w live post p t s)
    (hpost : ∀ a t s, post a t s → post' a t s) : Ends w live post' p t s := by
  induction p generalizing t s with
  | done a => exact fun m hm => hpost a t m (h m hm)
  | ask q next ih => exact fun m hm => ⟨(h m hm).1, fun a m' hans => ih a ((h m hm).2 a m' hans)⟩

/-- Two things that a program comes to it comes to both. -/
theorem Ends.and {p : Program α} {post' : α → List Event → σ → Prop} (h : Ends w live post p t s)
    (h' : Ends w live post' p t s) : Ends w live (fun a t s => post a t s ∧ post' a t s) p t s := by
  induction p generalizing t s with
  | done a => exact fun m hm => ⟨h m hm, h' m hm⟩
  | ask q next ih =>
    exact fun m hm => ⟨(h m hm).1, fun a m' hans => ih a ((h m hm).2 a m' hans) ((h' m hm).2 a m' hans)⟩

/-- A program does not see what was before it. -/
theorem Ends.behind {p : Program α} {u : List Event} (h : Ends w live post p u s) (t : List Event) :
    Ends w live (fun a t' s => ∃ v, t' = t ++ v ∧ post a v s) p (t ++ u) s := by
  induction p generalizing u s with
  | done a => exact fun m hm => ⟨u, rfl, h m hm⟩
  | ask q next ih =>
    refine fun m hm => ⟨(h m hm).1, fun a m' hans => ?_⟩
    rw [List.append_assoc]
    exact ih a ((h m hm).2 a m' hans)

/-- One program after the other. -/
theorem Ends.bind {p : Program α} {f : α → Program β} {post' : β → List Event → σ → Prop}
    (h : Ends w live post p t s) (hf : ∀ a t s, post a t s → Ends w live post' (f a) t s) :
    Ends w live post' (p >>= f) t s := by
  change Ends w live post' (p.bind f) t s
  induction p generalizing t s with
  | done a => exact hf a t s h.done
  | ask q next ih => exact fun m hm => ⟨(h m hm).1, fun a m' hans => ih a ((h m hm).2 a m' hans)⟩

/-- The end of a program, where `A` holds and lasts. -/
theorem Ends.pure {a : α} (A : σ → Prop) (hA : A s) (hlasts : ∀ s s', A s → w.stirs s s' → A s')
    (h : ∀ s, A s → post a t s) : Ends w live post (pure a) t s :=
  fun _ hm => h _ (hm.keeps hlasts hA)

/-- A question, where `A` holds and lasts until it is answered. -/
theorem Ends.call {q : Ask} {f : q.Answer → Program α} (A : σ → Prop) (hA : A s)
    (hlasts : ∀ s s', A s → w.stirs s s' → A s')
    (hlive : live → ∀ s, A s → ∃ m a m', w.Passes s m ∧ w.answers m q a m')
    (h : ∀ s a m, A s → w.answers s q a m → Ends w live post (f a) (t ++ [⟨q, a⟩]) m) :
    Ends w live post (Program.call q >>= f) t s := by
  intro m hm
  have hAm := hm.keeps hlasts hA
  exact ⟨fun hl => hlive hl m hAm, fun a m' hans => h m a m' hAm hans⟩

/-- **Frame.** What the questions of a program leave alone holds at its end as well. -/
theorem Ends.frame {p : Program α} {asks : Ask → Prop} {gives : α → Prop} (h : Ends w live post p t s)
    (hall : p.All asks gives) (A : σ → Prop) (hlasts : ∀ s s', A s → w.stirs s s' → A s')
    (hasks : ∀ q, asks q → ∀ s a s', A s → w.answers s q a s' → A s') (hA : A s) :
    Ends w live (fun a t s => post a t s ∧ A s) p t s := by
  induction p generalizing t s with
  | done a => exact fun m hm => ⟨h m hm, hm.keeps hlasts hA⟩
  | ask q next ih =>
    intro m hm
    have hAm := hm.keeps hlasts hA
    exact ⟨(h m hm).1, fun a m' hans => ih a ((h m hm).2 a m' hans) (hall.2 a) (hasks q hall.1 m a m' hAm hans)⟩

/-- A program all of whose questions are answered at once and leave `A` as it is. -/
theorem All.ends {p : Program α} {asks : Ask → Prop} {gives : α → Prop} (h : p.All asks gives)
    (A : List Event → σ → Prop) (hlasts : ∀ t s s', A t s → w.stirs s s' → A t s')
    (hlive : ∀ q, asks q → ∀ s, ∃ a s', w.answers s q a s')
    (hasks : ∀ q, asks q → ∀ t s a s', A t s → w.answers s q a s' → A (t ++ [⟨q, a⟩]) s') (hA : A t s) :
    Ends w live (fun a t s => gives a ∧ A t s) p t s := by
  induction p generalizing t s with
  | done a => exact fun m hm => ⟨h, hm.keeps (hlasts t) hA⟩
  | ask q next ih =>
    intro m hm
    have hAm := hm.keeps (hlasts t) hA
    refine ⟨fun _ => ?_, fun a m' hans => ih a (h.2 a) (hasks q h.1 t m a m' hAm hans)⟩
    obtain ⟨a, m', hans⟩ := hlive q h.1 m
    exact ⟨m, a, m', .refl m, hans⟩

/-- A program all of whose questions are always answered can be brought to its end. -/
theorem All.finishes {p : Program α} {asks : Ask → Prop} {gives : α → Prop} (h : p.All asks gives)
    (hlive : ∀ q, asks q → ∀ s, ∃ a s', w.answers s q a s') (s : σ) :
    ∃ u a s', Reaches w p s u (.done a) s' ∧ gives a := by
  induction p generalizing s with
  | done a => exact ⟨[], a, s, .start _ s, h⟩
  | ask q next ih =>
    obtain ⟨a, m, hans⟩ := hlive q h.1 s
    obtain ⟨u, b, s', hrun, hgives⟩ := ih a (h.2 a) m
    exact ⟨⟨q, a⟩ :: u, b, s', .answer hans hrun, hgives⟩

end CatalogSync.Program
