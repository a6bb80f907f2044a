import ClusterFence.Proofs.Domain.Turns
import ClusterFence.Proofs.Evolution

namespace ClusterFence

/-- The numbers of changes on record. -/
def NodeHistory.numbers (n : NodeHistory) : UInt32 × UInt32 × UInt32 :=
  (n.lastMatchSeq, n.failSeq, n.leftSeq)

/-- What a domain with the changes `q` can put on record of a node, if it gives out the number
    `seq` to a change that removes the node. -/
inductive NodeHistory.Noted (q : ChangeQueue) (seq : UInt32) : NodeHistory → NodeHistory → Prop
  | told {n n' : NodeHistory} (node : n'.node = n.node) (numbers : n'.numbers = n.numbers) :
      Noted q seq n n'
  | failed (n : NodeHistory) (now : Seconds) :
      Noted q seq n { n with failTime := now, failSeq := max n.failSeq seq }
  | departed (n : NodeHistory) (now : Seconds) :
      Noted q seq n { n with leftTime := now, leftSeq := max n.leftSeq seq }
  | matched (n : NodeHistory) {c : Change} (pending : c ∈ q.pending)
      (allowed : ReceivedStart.allowedBy n c = true) :
      Noted q seq n { n with lastMatchSeq := c.seq }

theorem NodeHistory.Noted.node_eq {q : ChangeQueue} {seq : UInt32} {n n' : NodeHistory}
    (h : n.Noted q seq n') : n'.node = n.node := by
  cases h with
  | told node _ => exact node
  | failed | departed | matched => rfl

/-- What a domain puts on record, each time of any one node. -/
def History.Notes (q : ChangeQueue) (seq : UInt32) : History → History → Prop :=
  Evolves fun _ => NodeHistory.Noted q seq

namespace History

variable {q : ChangeQueue} {seq : UInt32} {h : History}

theorem Notes.keyed {h' : History} (hnotes : h.Notes q seq h') (hk : h.Keyed) : h'.Keyed :=
  Evolves.keyed hnotes (fun _ _ _ hnoted => hnoted.node_eq) hk

/-- Most records touch no number. -/
theorem notes_update {f : NodeHistory → NodeHistory} (node : NodeId)
    (hnode : ∀ n, (f n).node = n.node) (hnumbers : ∀ n, (f n).numbers = n.numbers) :
    h.Notes q seq (h.update node f) :=
  .update (.told (hnode _) (hnumbers _))

theorem notes_recordRemovals (left : List GroupAddress) (now : Seconds) :
    h.Notes q seq (h.recordRemovals left seq now) :=
  .recordRemovals fun _ _ n => ⟨.failed n now, .departed n now⟩

theorem notes_updateHistory (v : ClusterView) (s : ClusterSnapshot) (now : Seconds) :
    h.Notes q seq (v.updateHistory s h now) :=
  .updateHistory fun _ _ _ => ⟨.told rfl rfl, .told rfl rfl⟩

theorem notes_merge (entries : List NodeEntry) : h.Notes q seq (h.merge entries) := by
  refine .merge fun e _ n => ?_
  unfold NodeHistory.adoptExternal NodeHistory.adoptFencing
  split <;> split <;> exact .told rfl rfl

end History

/-- The search for the change of a START notes matches that the sender's history allows. It may find
    one, note it, and end with another. -/
theorem ReceivedStart.notes_find (s : ReceivedStart) (us : NodeId) (q : ChangeQueue) (seq : UInt32)
    (h : History) : h.Notes q seq (s.find us q h).2 := by
  have hrecord {h : History} {c : Change} (hc : c ∈ q.pending)
      (hdescribes : s.describes us h c = true) :
      h.Notes q seq (h.recordMatch s.sender c.seq) := by
    simp only [describes, Bool.and_eq_true] at hdescribes
    obtain ⟨n, hn, hallowed⟩ := Option.any_eq_true _ _ |>.1 hdescribes.1.1.2
    exact .update (.matched _ hc (by rwa [History.lookup_of_get? hn]))
  have hfirst (l : List Change) (hl : ∀ c ∈ l, c ∈ q.pending) :
      h.Notes q seq (s.findFirst us l h).2 := by
    induction l with
    | nil => exact .refl h
    | cons c newer ih =>
      unfold findFirst
      split
      · rename_i hdescribes
        exact hrecord (hl c List.mem_cons_self) hdescribes
      · exact ih fun c' hc' => hl c' (List.mem_cons_of_mem _ hc')
  -- the second search begins without a match, and goes on with one once it has found the first
  have hsecond (l : List Change) (hl : ∀ c ∈ l, c ∈ q.pending) (first : Option UInt32)
      (h : History) : h.Notes q seq (s.findSecond us first l h).2 := by
    induction l generalizing first h with
    | nil => exact .refl h
    | cons c newer ih =>
      have hnewer (c' : Change) (hc' : c' ∈ newer) : c' ∈ q.pending :=
        hl c' (List.mem_cons_of_mem _ hc')
      unfold findSecond
      split
      · rename_i hdescribes
        have hnoted := hrecord (hl c List.mem_cons_self) hdescribes
        dsimp only
        split
        · exact hnoted
        · exact hnoted.trans (ih hnewer _ _)
      · exact ih hnewer _ _
  unfold find
  split
  · exact hsecond _ (fun c hc => List.mem_reverse.1 hc) none h
  · exact hfirst _ fun c hc => List.mem_reverse.1 hc

namespace Domain

variable (d : Domain)

theorem notes_receiveStart (s : ReceivedStart) (now : Seconds) (seq : UInt32) :
    d.history.Notes d.changes seq (d.receiveStart s now).1.history := by
  have hfound := s.notes_find d.us d.changes seq d.history
  obtain heq | heq := d.history_receiveStart s now
  · rwa [heq]
  · rw [heq]
    have hstarted : d.history.Notes d.changes seq
        ((s.find d.us d.changes d.history).2.recordStart s.sender now) :=
      hfound.trans (History.notes_update _ (fun _ => rfl) fun _ => rfl)
    exact hstarted.trans (History.notes_merge _)

theorem notes_accept (e : Envelope) (now : Seconds) (seq : UInt32) :
    d.history.Notes d.changes seq (d.accept e now).1.history := by
  unfold accept
  cases e.message with
  | protocol offer => exact .refl _
  | start report => exact d.notes_receiveStart _ now seq
  | victimDone reported entry =>
    have hnoted : d.history.Notes d.changes seq (d.history.recordFencedLocal entry.node now) :=
      History.notes_update _ (fun _ => rfl) fun _ => rfl
    dsimp only [receiveVictimDone]
    split
    · exact hnoted
    · exact hnoted.trans (History.notes_update _ (fun _ => rfl) fun _ => rfl)
  | complete report =>
    dsimp only [receiveComplete]
    split <;> exact .refl _
  | external victim => exact History.notes_update _ (fun _ => rfl) fun _ => rfl

/-- A membership change marks who failed and who left with the number that it uses up, and gives a
    history to who joined, unless it is the end of our own leave. -/
theorem history_changeMembers (m : Membership) (now : Seconds) :
    let after := (d.changeMembers m now).1.domain
    after.history = d.history ∨
      after.history =
        (d.history.recordRemovals m.left after.changes.changeSeq now).ensureJoined d.us m := by
  unfold changeMembers
  split
  · exact .inl rfl
  · refine .inr ?_
    unfold ChangeQueue.add
    cases m.stray? with
    | some node => rfl
    | none => simp [Reaction.after]

/-- A membership change marks histories with the number that it uses up, and a START with that of
    a pending change. Nothing else touches the numbers on record. -/
theorem notes_step (now : Seconds) (i : DomainInput) :
    let after := (d.step now i).1.domain
    d.history.Notes d.changes after.changes.changeSeq after.history := by
  intro after
  cases i with
  | membership m =>
    obtain heq | heq : after.history = _ ∨ after.history = _ := d.history_changeMembers m now
    · rw [heq]
      exact .refl _
    · rw [heq]
      exact (History.notes_recordRemovals m.left now).trans (.ensureJoined _ d.us m)
  | ring node seq => simpa [after, step, changeRing] using .refl d.history
  | cluster s =>
    simp only [after, step, updateCluster, Reaction.after, advance_history]
    exact History.notes_updateHistory _ s now
  | message e =>
    simp only [after, step, receive, Reaction.after, advance_history]
    exact d.notes_accept e now _
  | fencedOutside reporter victim => exact History.notes_update _ (fun _ => rfl) fun _ => rfl
  | tellExternal victim => exact .refl _
  | attempted victim => exact .refl _
  | resolved victim how reduced =>
    simp only [after, step, resolve_domain]
    exact History.notes_update _ (fun _ => rfl) fun _ => rfl
  | finished =>
    simp only [after, step, finishFencing]
    split <;> exact .refl _
  | nudged => simpa [after, step] using .refl d.history
  | leaving => exact .refl _

/-- To begin with, histories are only started. -/
theorem evolves_new (R : NodeId → NodeHistory → NodeHistory → Prop) (config : Config) :
    History.Evolves R {} (new config).history := by
  unfold new
  split
  · exact .refl _
  · exact .foldl fun h n _ => .ensure h n.id

/-- Nothing is remembered of any node before the first input. -/
theorem lookup_new (config : Config) (node : NodeId) :
    (new config).history.lookup node = { node } := by
  have hempty : ({} : History).lookup node = { node } := by simp [History.lookup, History.get?]
  exact (evolves_new (fun _ _ _ => False) config).keep (P := (· = { node }))
    (fun _ _ hnever => hnever.elim) hempty

theorem keyed_new (config : Config) : (new config).history.Keyed :=
  (evolves_new (fun _ _ _ => False) config).keyed (fun _ _ _ hnever => hnever.elim)
    History.keyed_empty

variable {d} {node : NodeId}

theorem keyed_step (hk : d.history.Keyed) (now : Seconds) (i : DomainInput) :
    (d.step now i).1.domain.history.Keyed :=
  (d.notes_step now i).keyed hk

/-- Every history of a domain is kept under its own node, whatever happens to the domain. -/
theorem keyed_play (config : Config) (inputs : List (Seconds × DomainInput)) :
    ((new config).play inputs).history.Keyed := by
  refine play_induction (P := fun d => d.history.Keyed) ?_ (keyed_new config) inputs
  intro d now i hk
  exact keyed_step hk now i

/-- No history is ever lost. -/
theorem contains_step (hknown : d.history.contains node = true) (now : Seconds) (i : DomainInput) :
    (d.step now i).1.domain.history.contains node = true :=
  (d.notes_step now i).contains node hknown

theorem contains_play (hknown : d.history.contains node = true)
    (inputs : List (Seconds × DomainInput)) : (d.play inputs).history.contains node = true :=
  play_induction (P := fun d => d.history.contains node = true)
    (fun _ now i h => contains_step h now i) hknown inputs

end Domain

end ClusterFence
