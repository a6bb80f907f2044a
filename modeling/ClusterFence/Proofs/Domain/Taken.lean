import ClusterFence.Proofs.Domain.Matching
import ClusterFence.Proofs.Evolution
import Mathlib.Data.List.Nodup

namespace ClusterFence

namespace ReceivedStart

/-- What a START makes of its sender's part in the change that it is for. -/
def takenBy (s : ReceivedStart) (disallowed : Bool) (m : Participant) : Participant :=
  if disallowed then { m with startFlags := s.flags, disallowed := true }
  else { m with startFlags := s.flags, started := true }

theorem takenBy_node (s : ReceivedStart) (disallowed : Bool) (m : Participant) :
    (s.takenBy disallowed m).node = m.node := by
  cases disallowed <;> rfl

end ReceivedStart

namespace Domain

/-- The number of the change that a START is for, as the domain sees it. -/
def finds (d : Domain) (s : ReceivedStart) : Option UInt32 :=
  (s.find d.us d.changes d.history).1

/-- The sender was added by a pending change, and both it and we have completed changes. -/
def disallows (d : Domain) (s : ReceivedStart) : Bool :=
  d.changes.isAdded s.sender && s.report.summary.startedCount != 0 && d.changes.startedCount != 0

/-- What the domain `d` takes down of a START, taken down in the changes `q`. -/
def takeDown (d : Domain) (q : ChangeQueue) (s : ReceivedStart) : ChangeQueue :=
  match d.finds s with
  | none => q
  | some seq => q.update seq (·.updateMember s.sender (s.takenBy (d.disallows s)))

/-- What the domain `d` takes down of a START in one change. -/
def takeDownIn (d : Domain) (c : Change) (s : ReceivedStart) : Change :=
  if d.finds s = some c.seq then c.updateMember s.sender (s.takenBy (d.disallows s)) else c

/-- The changes of a domain once it has taken down STARTs, each as it sees it now. -/
def taken (d : Domain) (starts : List ReceivedStart) : ChangeQueue :=
  starts.foldl d.takeDown d.changes

/-- A change that does not have the member stays as it is. -/
theorem update_updateMember_of_part?_eq_none {q : ChangeQueue} {seq : UInt32} {node : NodeId}
    (h : q.part? seq node = none) (f : Participant → Participant) :
    q.update seq (·.updateMember node f) = q := by
  have hpending : updateFirst (·.seq == seq) (·.updateMember node f) q.pending = q.pending := by
    refine updateFirst_eq_self fun c hc => ?_
    have hmember : c.member? node = none := by
      rw [ChangeQueue.part?, ChangeQueue.get?, hc] at h
      exact h
    rw [Change.updateMember, updateFirst_eq_self]
    intro m hm
    rw [Change.member?, hm] at hmember
    cases hmember
  rw [ChangeQueue.update, hpending]

/-- While the pending changes have numbers of their own, a START is only for a change that still
    waits for its sender. -/
theorem exists_part?_of_finds {d : Domain} {s : ReceivedStart} {seq : UInt32}
    (hnodup : (d.changes.pending.map (·.seq)).Nodup) (hfinds : d.finds s = some seq) :
    ∃ m, d.changes.part? seq s.sender = some m ∧ m.started = false := by
  obtain ⟨c, hc, rfl, hawaits⟩ := ReceivedStart.find_mem hfinds
  obtain ⟨m, hm, hunstarted⟩ := (Option.any_eq_true _ _).1 hawaits
  have hget : d.changes.get? c.seq = some c := find?_of_mem hnodup hc
  refine ⟨m, ?_, by simpa using hunstarted⟩
  rw [ChangeQueue.part?, hget, Option.bind_some]
  exact hm

theorem changes_receiveStart (d : Domain) (s : ReceivedStart) (now : Seconds) :
    (d.receiveStart s now).1.changes = d.takeDown d.changes s := by
  unfold receiveStart takeDown finds disallows ReceivedStart.takenBy
  split
  · rename_i history heq
    rw [heq]
  · rename_i seq history heq
    rw [heq]
    dsimp only
    split
    · exact (update_updateMember_of_part?_eq_none (Option.isNone_iff_eq_none.1 ‹_›) _).symm
    · split <;> rfl

/-- What is on record of a node once a START is taken down. A match is noted for its sender, and
    whoever is reported on has a history. -/
theorem holds_receiveStart {d : Domain} {s : ReceivedStart} {now : Seconds} {node : NodeId}
    {P Q : NodeHistory → Prop} (hh : d.history.Holds node P)
    (hkeep : s.sender ≠ node ∨ d.finds s = none → ∀ n, P n → Q n)
    (hmatch : s.sender = node → ∀ seq, d.finds s = some seq → ∀ n, P n →
      Q { n with lastMatchSeq := seq })
    (hstart : ∀ n, Q n → Q { n with addTime := now })
    (hadopt : ∀ n e, Q n → Q ((n.adoptFencing e).adoptExternal e)) :
    (d.receiveStart s now).1.history.Holds node Q := by
  have hfound : (s.find d.us d.changes d.history).2.Holds node Q := by
    obtain ⟨n, hn, hP⟩ := hh
    by_cases hsender : s.sender = node
    · have hget : (s.find d.us d.changes d.history).2.get? s.sender = _ :=
        s.find_get?_sender d.changes
      cases hfinds : (s.find d.us d.changes d.history).1 with
      | none =>
        rw [hfinds, hsender, hn] at hget
        exact ⟨n, hget, hkeep (.inr hfinds) n hP⟩
      | some seq =>
        rw [hfinds, hsender, hn] at hget
        exact ⟨_, hget, hmatch hsender seq hfinds n hP⟩
    · exact ⟨n, (s.find_get?_of_ne hsender _).trans hn, hkeep (.inl hsender) n hP⟩
  have hstarted : ((s.find d.us d.changes d.history).2.recordStart s.sender now).Holds node Q :=
    hfound.keep fun _ n hQ => hstart n hQ
  obtain heq | heq := d.history_receiveStart s now
  · rwa [heq]
  · rw [heq]
    exact hstarted.merge _ hadopt

section

variable {d d' : Domain} {s t : ReceivedStart} {q : ChangeQueue}

/-- A START is taken down alike by domains that look the same to it. -/
theorem takeDown_congr (hus : d'.us = d.us)
    (hcount : d'.changes.startedCount = d.changes.startedCount)
    (hpending : d'.changes.pending.map (·.seenBy s.sender) =
      d.changes.pending.map (·.seenBy s.sender))
    (hhistory : (∃ c ∈ d.changes.pending, c.awaits s.sender = true) →
      d'.history.stamps? s.sender = d.history.stamps? s.sender) (q : ChangeQueue) :
    d'.takeDown q s = d.takeDown q s := by
  have hfinds : d'.finds s = d.finds s := by
    unfold finds
    rw [hus]
    by_cases hawaited : ∃ c ∈ d.changes.pending, c.awaits s.sender = true
    · exact ReceivedStart.find_congr hpending (hhistory hawaited)
    · -- nobody waits for the sender, here or there
      have hnone {q : ChangeQueue} {h : History}
          (hq : q.pending.map (·.seenBy s.sender) = d.changes.pending.map (·.seenBy s.sender)) :
          (s.find d.us q h).1 = none := by
        rw [Option.eq_none_iff_forall_ne_some]
        intro seq hfind
        obtain ⟨c, hc, -, hawaits⟩ := ReceivedStart.find_mem hfind
        have hmem : c.seenBy s.sender ∈ d.changes.pending.map (·.seenBy s.sender) :=
          hq ▸ List.mem_map_of_mem hc
        obtain ⟨c', hc', hseen⟩ := List.mem_map.1 hmem
        exact hawaited ⟨c', hc', by rw [Change.awaits_of_seenBy hseen, hawaits]⟩
      rw [hnone hpending, hnone rfl]
  have hadded : d'.changes.isAdded s.sender = d.changes.isAdded s.sender := by
    have hany (q : ChangeQueue) : q.isAdded s.sender =
        (q.pending.map (·.seenBy s.sender)).any fun seen => seen.2.2.2.2.any (·.added) := by
      rw [List.any_map]
      rfl
    rw [hany, hany, hpending]
  unfold takeDown disallows
  rw [hfinds, hadded, hcount]

/-- A view of the changes that what is taken down of the START respects. -/
theorem map_takeDown_takenBy {α : Type} {g : Change → α}
    (hg : ∀ c, g (c.updateMember s.sender (s.takenBy (d.disallows s))) = g c) :
    (d.takeDown q s).pending.map g = q.pending.map g := by
  unfold takeDown
  split
  · rfl
  · exact map_updateFirst hg _

theorem map_takeDown {α : Type} {g : Change → α}
    (hg : ∀ c f, (∀ m : Participant, (f m).node = m.node) →
      g (c.updateMember s.sender f) = g c) :
    (d.takeDown q s).pending.map g = q.pending.map g :=
  map_takeDown_takenBy fun c => hg c _ (s.takenBy_node _)

theorem map_taken {α : Type} {g : Change → α} {starts : List ReceivedStart}
    (hg : ∀ s ∈ starts, ∀ c f, (∀ m : Participant, (f m).node = m.node) →
      g (c.updateMember s.sender f) = g c) :
    (d.taken starts).pending.map g = d.changes.pending.map g := by
  unfold taken
  generalize d.changes = q
  induction starts generalizing q with
  | nil => rfl
  | cons s rest ih =>
    rw [List.foldl_cons, ih, map_takeDown (hg s List.mem_cons_self)]
    intro s' hs'
    exact hg s' (List.mem_cons_of_mem _ hs')

/-- STARTs leave alone what those of other nodes are compared with. -/
theorem seenBy_taken {starts : List ReceivedStart} {node : NodeId}
    (hne : ∀ s ∈ starts, s.sender ≠ node) :
    (d.taken starts).pending.map (·.seenBy node) = d.changes.pending.map (·.seenBy node) := by
  apply map_taken
  intro s hs c f hf
  exact c.seenBy_updateMember_of_ne hf (hne s hs).symm

theorem startedCount_taken (d : Domain) (starts : List ReceivedStart) :
    (d.taken starts).startedCount = d.changes.startedCount := by
  unfold taken
  generalize d.changes = q
  induction starts generalizing q with
  | nil => rfl
  | cons s rest ih =>
    rw [List.foldl_cons, ih]
    unfold takeDown
    split <;> rfl

theorem nodesAdded_taken (d : Domain) (starts : List ReceivedStart) :
    (d.taken starts).nodesAdded = d.changes.nodesAdded := by
  have hany (q : ChangeQueue) : q.nodesAdded =
      (q.pending.map (·.counts)).any (·.joined > 0) := by
    rw [List.any_map]
    rfl
  rw [hany, hany, map_taken]
  intro s _ c f _
  rfl

theorem current?_takeDown (q : ChangeQueue) (s : ReceivedStart) :
    (d.takeDown q s).current? = q.current?.map (d.takeDownIn · s) := by
  unfold takeDown takeDownIn
  cases d.finds s with
  | none => cases q.current? <;> rfl
  | some seq =>
    unfold ChangeQueue.current? ChangeQueue.update
    cases q.pending with
    | nil => rfl
    | cons c older =>
      unfold updateFirst
      by_cases hseq : c.seq = seq
      · simp [hseq]
      · simp [hseq, Ne.symm hseq]

theorem current?_taken (d : Domain) (starts : List ReceivedStart) :
    (d.taken starts).current? = d.changes.current?.map (starts.foldl d.takeDownIn ·) := by
  unfold taken
  generalize d.changes = q
  induction starts generalizing q with
  | nil => simp
  | cons s rest ih =>
    rw [List.foldl_cons, ih, current?_takeDown, Option.map_map]
    rfl

theorem takeDownIn_eq (c : Change) (s : ReceivedStart) :
    (d.takeDownIn c s).seq = c.seq ∧ (d.takeDownIn c s).phase = c.phase ∧
      ∀ node, node ≠ s.sender → (d.takeDownIn c s).member? node = c.member? node := by
  unfold takeDownIn
  split
  · exact ⟨rfl, rfl, fun node hne => c.member?_updateMember_of_ne (s.takenBy_node _) hne⟩
  · exact ⟨rfl, rfl, fun _ _ => rfl⟩

/-- The current change with STARTs taken down in it is the same change in the same phase, and
    what it tells of other nodes is the same. -/
theorem foldl_takeDownIn_eq (c : Change) (starts : List ReceivedStart) :
    (starts.foldl d.takeDownIn c).seq = c.seq ∧ (starts.foldl d.takeDownIn c).phase = c.phase ∧
      ∀ node, (∀ s ∈ starts, s.sender ≠ node) →
        (starts.foldl d.takeDownIn c).member? node = c.member? node := by
  induction starts generalizing c with
  | nil => exact ⟨rfl, rfl, fun _ _ => rfl⟩
  | cons s rest ih =>
    obtain ⟨hseq, hphase, hmember⟩ := ih (d.takeDownIn c s)
    obtain ⟨hseq', hphase', hmember'⟩ := d.takeDownIn_eq c s
    rw [List.foldl_cons]
    refine ⟨hseq.trans hseq', hphase.trans hphase', fun node hne => ?_⟩
    have hrest : ∀ s' ∈ rest, s'.sender ≠ node := fun s' hs' =>
      hne s' (List.mem_cons_of_mem _ hs')
    rw [hmember node hrest, hmember' node (hne s List.mem_cons_self).symm]

/-- A START that is not for the current change goes down behind it. -/
theorem takeDown_of_finds_ne {c : Change} {older : List Change}
    (hpending : q.pending = c :: older) (hother : d.finds s ≠ some c.seq) :
    d.takeDown q s =
      { q with pending := c :: (d.takeDown { q with pending := older } s).pending } := by
  unfold takeDown
  cases hfinds : d.finds s with
  | none => simp [← hpending]
  | some seq =>
    have hne : (c.seq == seq) = false := by
      apply beq_false_of_ne
      intro heq
      exact hother (by rw [hfinds, heq])
    simp [ChangeQueue.update, hpending, updateFirst, hne]

end

end Domain

end ClusterFence
