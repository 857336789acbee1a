import Aetheris.Server.Twins

/-!
# Who is sent what

The messages of a tick are acknowledgements, pongs, reliable events and batches of deltas. None of
them goes to a client for which the state is `Silent`: the first two are listed in the state, a
reliable event without a target and the batches go to clients on record only, and a targeted event
goes to its target.
-/

namespace Aetheris

variable {W A R F : Type}

/-- The message goes to `u`, alone or with everybody else. -/
def OutboundMessage.Reaches (u : ClientId) : OutboundMessage → Prop
  | .unreliable c _ | .reliable c _ => c = u
  | .broadcastUnreliable _ => True

/-- None of the messages goes to `u`. -/
def Spared (u : ClientId) (messages : List OutboundMessage) : Prop :=
  ∀ m ∈ messages, ¬ m.Reaches u

section Spared

variable (env : ServerEnv A R F) {ws : WorldState W F} {u : ClientId} {J : W → Prop}
  {st : TickState W A R}

theorem Spared.append {l l' : List OutboundMessage} (h : Spared u l) (h' : Spared u l') :
    Spared u (l ++ l') := fun m hm => (List.mem_append.mp hm).elim (h m) (h' m)

theorem Spared.flatMap {α : Type} {l : List α} {f : α → List OutboundMessage}
    (h : ∀ x ∈ l, Spared u (f x)) : Spared u (l.flatMap f) := by
  intro m hm
  obtain ⟨x, hx, hmx⟩ := List.mem_flatMap.mp hm
  exact h x hx m hmx

theorem sendDirect_spared (event : NetworkEvent F) {wrap : Bytes → OutboundMessage}
    (h : ∀ data, ¬ (wrap data).Reaches u) : Spared u (sendDirect env event wrap) := by
  unfold sendDirect
  split
  · rintro m hm
    rw [List.mem_singleton.mp hm]
    exact h _
  · exact nofun

theorem directSends_spared (h : Silent u J st) : Spared u (directSends env st) := by
  refine Spared.append (.flatMap fun c hc => ?_) (.flatMap fun p hp => ?_)
  · exact sendDirect_spared env _ fun _ heq => h.acks (heq ▸ hc)
  · exact sendDirect_spared env _ fun _ heq => h.pongs p hp heq

variable {c : ClientId} {s : TickScheduler A R}

theorem ne_of_mem_clientOrder {records : Clients} (h : records.lookup u = none)
    (hc : c ∈ env.clientOrder records.keys) : c ≠ u := by
  rintro rfl
  exact AList.lookup_eq_none.mp h ((env.clientOrder_perm _).mem_iff.mp hc)

theorem sendReliable_spared (h : s.authenticatedClients.lookup u = none)
    {event : Option ClientId × WireEvent} (hevent : event.1 ≠ some u) :
    Spared u (sendReliable env s event) := by
  unfold sendReliable
  refine Spared.flatMap fun c hc => ?_
  have hne : c ≠ u := by
    split at hc
    · next c' htarget =>
      rw [List.mem_singleton.mp hc]
      rintro rfl
      exact hevent htarget
    · exact ne_of_mem_clientOrder env h hc
  split
  · split
    · rintro m hm
      rw [List.mem_singleton.mp hm]
      exact hne
    · exact nofun
  · exact nofun

theorem deltaRecipients_subset (w : W) (clients : List ClientId) (n : NetworkId) :
    deltaRecipients ws w clients n ⊆ clients := by
  unfold deltaRecipients getDeltaTargets
  split
  · exact List.Subset.refl _
  · next cs htargets =>
    split at htargets
    · split at htargets
      · cases htargets
      · next hfilter =>
        obtain rfl := DeltaTargets.recipients.inj htargets
        rw [← hfilter]
        exact List.filter_subset_self _
    · cases htargets
  · exact List.nil_subset _

theorem mem_addToBatches {delta : ReplicationEvent} {cs : List ClientId} {batches : Batches}
    (h : c ∈ cs.foldl (addToBatch delta) batches) : c ∈ cs ∨ c ∈ batches := by
  induction cs generalizing batches with
  | nil => exact .inr h
  | cons c' cs ih =>
    rcases ih h with hcs | hbatch
    · exact .inl (List.mem_cons_of_mem _ hcs)
    · rcases (AList.mem_insert _).mp hbatch with rfl | hold
      · exact .inl List.mem_cons_self
      · exact .inr hold

theorem mem_clientBatches {w : W} {clients : List ClientId} {deltas : List ReplicationEvent}
    (h : c ∈ clientBatches ws w clients deltas) : c ∈ clients := by
  have hfold : ∀ batches : Batches, (∀ c ∈ batches, c ∈ clients) →
      ∀ c ∈ deltas.foldl (fun batches delta =>
        (deltaRecipients ws w clients delta.networkId).foldl (addToBatch delta) batches) batches,
        c ∈ clients := by
    clear h
    induction deltas with
    | nil => exact fun _ hbatches => hbatches
    | cons delta deltas ih =>
      intro batches hbatches
      refine ih _ fun c hc => ?_
      rcases mem_addToBatches hc with hnew | hold
      · exact deltaRecipients_subset w clients _ hnew
      · exact hbatches c hold
  exact hfold ∅ (fun c hc => absurd hc (AList.notMem_empty c)) c h

theorem sendFragment_spared {messageId : UInt32} {total : Nat} (hc : c ≠ u)
    (chunk : Bytes × Nat) : Spared u (sendFragment env messageId total [c] chunk) := by
  unfold sendFragment
  dsimp only
  split
  · rintro m hm
    rw [List.map_singleton, List.mem_singleton] at hm
    rw [hm]
    exact hc
  · exact nofun

theorem fragmentAndSend_spared (s : TickScheduler A R) (data : Bytes)
    (hc : c ≠ u) : Spared u (fragmentAndSend env s data [c]).2 := by
  unfold fragmentAndSend
  split
  · dsimp only
    split
    · exact .flatMap fun chunk _ => sendFragment_spared env hc chunk
    · exact nofun
  · exact nofun

theorem sendBatch_spared (batches : Batches) {acc : TickScheduler A R × List OutboundMessage}
    (hacc : Spared u acc.2) (hc : c ≠ u) :
    Spared u (sendBatch env batches acc c).2 := by
  unfold sendBatch
  split
  · split
    · exact hacc.append (fragmentAndSend_spared env _ _ hc)
    · split
      · refine hacc.append fun m hm => ?_
        rw [List.mem_singleton.mp hm]
        exact hc
      · exact hacc
  · exact hacc

theorem sendDeltas_spared (h : s.authenticatedClients.lookup u = none)
    (w : W) (deltas : List ReplicationEvent) : Spared u (sendDeltas env ws w s deltas).2 := by
  unfold sendDeltas
  dsimp only
  have hbatches : ∀ c ∈ env.batchOrder
      (clientBatches ws w (env.clientOrder s.authenticatedClients.keys) deltas).keys, c ≠ u :=
    fun c hc => ne_of_mem_clientOrder env h
      (mem_clientBatches ((env.batchOrder_perm _).mem_iff.mp hc))
  generalize clientBatches ws w (env.clientOrder s.authenticatedClients.keys) deltas = batches
    at hbatches ⊢
  generalize env.batchOrder batches.keys = cs at hbatches ⊢
  have hfold : ∀ acc : TickScheduler A R × List OutboundMessage, Spared u acc.2 →
      Spared u (cs.foldl (sendBatch env batches) acc).2 := by
    induction cs with
    | nil => exact fun _ hacc => hacc
    | cons c cs ih =>
      intro acc hacc
      obtain ⟨hc, hcs⟩ := List.forall_mem_cons.mp hbatches
      exact ih hcs _ (sendBatch_spared env batches hacc hc)
  exact hfold _ nofun

/-- As long as the world gives out nothing addressed to `u`, a tick sends nothing to it. -/
theorem sendStage_spared (hJ : Spares ws u J)
    (hevents : ∀ w, J w → ∀ ev ∈ (ws.extractReliableEvents w).2, ev.1 ≠ some u)
    (h : Silent u J st) :
    Spared u ((sendStage env ws st).2.direct ++ (sendStage env ws st).2.outbound) := by
  refine (directSends_spared env h).append (Spared.append (.flatMap fun ev hev => ?_) ?_)
  · exact sendReliable_spared env h.unknown
      (hevents _ (hJ.extractDeltas _ (hJ.simulate _ h.world)) ev hev)
  · exact sendDeltas_spared env h.unknown _ _

end Spared

end Aetheris
