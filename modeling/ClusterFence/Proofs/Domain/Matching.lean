import ClusterFence.Proofs.Changes
import ClusterFence.Proofs.Domain.Run
import ClusterFence.Proofs.Records
import ClusterFence.StartMatching

namespace ClusterFence

/-- What a START of the node is compared with in a change. -/
def Change.seenBy (c : Change) (node : NodeId) :
    UInt32 × ChangeCounts × Seconds × (NodeId → Bool) × Option Participant :=
  (c.seq, c.counts, c.createTime, c.isMember, c.member? node)

/-- The stamps in a history that the matching of a START of its node reads. -/
def NodeHistory.stamps (n : NodeHistory) : Seconds × UInt32 × UInt32 × UInt32 :=
  (n.clusterAddTime, n.failSeq, n.leftSeq, n.lastMatchSeq)

/-- The stamps of a node, if it has a history. -/
def History.stamps? (h : History) (node : NodeId) : Option (Seconds × UInt32 × UInt32 × UInt32) :=
  (h.get? node).map NodeHistory.stamps

/-- What becomes of a member is nothing to the STARTs of the others. -/
theorem Change.seenBy_updateMember_of_ne (c : Change) {node other : NodeId}
    {f : Participant → Participant} (hnode : ∀ m, (f m).node = m.node) (hne : other ≠ node) :
    (c.updateMember node f).seenBy other = c.seenBy other := by
  unfold seenBy
  rw [c.isMember_updateMember node hnode, c.member?_updateMember_of_ne hnode hne]
  rfl

/-- The part of a node is awaited in changes that look the same to its STARTs. -/
theorem Change.awaits_of_seenBy {c c' : Change} {node : NodeId}
    (h : c'.seenBy node = c.seenBy node) : c'.awaits node = c.awaits node := by
  simp only [seenBy, Prod.mk.injEq] at h
  unfold awaits
  rw [h.2.2.2.2]

namespace History

variable {h : History} {node other : NodeId}

theorem stamps?_isSome_iff : (h.stamps? node).isSome = true ↔ h.contains node = true := by
  simp [stamps?, contains, get?]

theorem stamps?_update_of_ne {f : NodeHistory → NodeHistory} (hne : node ≠ other) :
    (h.update node f).stamps? other = h.stamps? other := by
  unfold stamps?
  rw [get?_update_of_ne hne]

theorem stamps?_ensure (hknown : (h.stamps? other).isSome = true) :
    (h.ensure node).stamps? other = h.stamps? other := by
  unfold stamps? at hknown ⊢
  rw [get?_ensure]
  cases hget : h.get? other with
  | none => simp [hget] at hknown
  | some n => split <;> rfl

/-- What peers tell is not about the stamps. -/
theorem stamps?_merge (hknown : (h.stamps? node).isSome = true) (entries : List NodeEntry) :
    (h.merge entries).stamps? node = h.stamps? node := by
  unfold merge
  induction entries generalizing h with
  | nil => rfl
  | cons e rest ih =>
    have hmerge : (h.mergeEntry e).stamps? node = h.stamps? node := by
      have hensure : (h.ensure e.node).stamps? node = h.stamps? node := stamps?_ensure hknown
      refine Eq.trans ?_ hensure
      apply map_get?_update
      intro n
      unfold NodeHistory.adoptExternal NodeHistory.adoptFencing
      split <;> split <;> rfl
    rw [List.foldl_cons, ih (by rw [hmerge, hknown]), hmerge]

theorem stamps?_recordMatch (seq : UInt32) : (h.recordMatch node seq).stamps? node =
    (h.stamps? node).map fun stamps => (stamps.1, stamps.2.1, stamps.2.2.1, seq) := by
  unfold stamps? recordMatch
  rw [get?_update_self, Option.map_map, Option.map_map]
  rfl

end History

namespace ReceivedStart

variable {s : ReceivedStart} {us : NodeId} {h h' : History}

theorem describes_congr {c c' : Change} (hc : c'.seenBy s.sender = c.seenBy s.sender)
    (hh : h'.stamps? s.sender = h.stamps? s.sender) :
    s.describes us h' c' = s.describes us h c := by
  have hallowed (h : History) (c : Change) : (h.get? s.sender).any (allowedBy · c) =
      (h.stamps? s.sender).any fun stamps =>
        stamps.1 ≤ c.createTime && stamps.2.1 ≤ c.seq && stamps.2.2.1 ≤ c.seq &&
          stamps.2.2.2 ≤ c.seq := by
    unfold History.stamps?
    rw [Option.any_map]
    rfl
  have hawaits := Change.awaits_of_seenBy hc
  simp only [Change.seenBy, Prod.mk.injEq] at hc
  unfold describes
  rw [hallowed, hallowed, hh, hawaits, hc.1, hc.2.1, hc.2.2.1, hc.2.2.2.1]

theorem awaits_of_describes {c : Change} (hdescribes : s.describes us h c = true) :
    c.awaits s.sender = true := by
  unfold describes at hdescribes
  simp only [Bool.and_eq_true] at hdescribes
  exact hdescribes.1.1.1.2

theorem findFirst_congr {l l' : List Change}
    (hl : l'.map (·.seenBy s.sender) = l.map (·.seenBy s.sender))
    (hh : h'.stamps? s.sender = h.stamps? s.sender) :
    (s.findFirst us l' h').1 = (s.findFirst us l h).1 := by
  induction l generalizing l' with
  | nil =>
    rw [List.map_nil, List.map_eq_nil_iff] at hl
    rw [hl]
    rfl
  | cons c newer ih =>
    obtain ⟨c', newer', rfl, hc, hnewer⟩ := List.map_eq_cons_iff.1 hl
    unfold findFirst
    rw [describes_congr hc hh]
    split
    · exact congrArg some (congrArg (·.1) hc)
    · exact ih hnewer

theorem findSecond_congr {l l' : List Change}
    (hl : l'.map (·.seenBy s.sender) = l.map (·.seenBy s.sender))
    (hh : h'.stamps? s.sender = h.stamps? s.sender) (first : Option UInt32) :
    (s.findSecond us first l' h').1 = (s.findSecond us first l h).1 := by
  induction l generalizing l' h h' first with
  | nil =>
    rw [List.map_nil, List.map_eq_nil_iff] at hl
    rw [hl]
    rfl
  | cons c newer ih =>
    obtain ⟨c', newer', rfl, hc, hnewer⟩ := List.map_eq_cons_iff.1 hl
    have hseq : c'.seq = c.seq := congrArg (·.1) hc
    unfold findSecond
    rw [describes_congr hc hh, hseq]
    split
    · dsimp only
      split
      · rfl
      · apply ih hnewer
        rw [History.stamps?_recordMatch, History.stamps?_recordMatch, hh]
    · exact ih hnewer hh first

/-- A START finds the same change among changes that look the same to it. -/
theorem find_congr {q q' : ChangeQueue}
    (hq : q'.pending.map (·.seenBy s.sender) = q.pending.map (·.seenBy s.sender))
    (hh : h'.stamps? s.sender = h.stamps? s.sender) :
    (s.find us q' h').1 = (s.find us q h).1 := by
  have hreverse : q'.pending.reverse.map (·.seenBy s.sender) =
      q.pending.reverse.map (·.seenBy s.sender) := by
    rw [List.map_reverse, List.map_reverse, hq]
  unfold find
  split
  · exact findSecond_congr hreverse hh none
  · exact findFirst_congr hreverse hh

theorem findFirst_describes {l : List Change} {seq : UInt32}
    (hfind : (s.findFirst us l h).1 = some seq) :
    ∃ c ∈ l, c.seq = seq ∧ s.describes us h c = true := by
  induction l with
  | nil => cases hfind
  | cons c newer ih =>
    unfold findFirst at hfind
    split at hfind
    · rename_i hdescribes
      exact ⟨c, List.mem_cons_self, Option.some.inj hfind, hdescribes⟩
    · obtain ⟨c', hc', hspec⟩ := ih hfind
      exact ⟨c', List.mem_cons_of_mem _ hc', hspec⟩

/-- A search for the second match finds it, or is left with the first. -/
theorem findSecond_some_describes {l : List Change} {first seq : UInt32}
    (hfind : (s.findSecond us (some first) l h).1 = some seq) :
    first = seq ∨ ∃ c ∈ l, c.seq = seq ∧ s.describes us h c = true := by
  induction l with
  | nil => exact .inl (Option.some.inj hfind)
  | cons c newer ih =>
    unfold findSecond at hfind
    split at hfind
    · rename_i hdescribes
      exact .inr ⟨c, List.mem_cons_self, Option.some.inj hfind, hdescribes⟩
    · obtain heq | ⟨c', hc', hspec⟩ := ih hfind
      · exact .inl heq
      · exact .inr ⟨c', List.mem_cons_of_mem _ hc', hspec⟩

theorem findSecond_none_describes {l : List Change} {seq : UInt32}
    (hfind : (s.findSecond us none l h).1 = some seq) :
    ∃ c ∈ l, c.seq = seq ∧ (s.describes us h c = true ∨
      ∃ first, s.describes us (h.recordMatch s.sender first) c = true) := by
  induction l with
  | nil => cases hfind
  | cons c newer ih =>
    unfold findSecond at hfind
    split at hfind
    · rename_i hdescribes
      obtain heq | ⟨c', hc', hseq, hsecond⟩ := findSecond_some_describes hfind
      · exact ⟨c, List.mem_cons_self, heq, .inl hdescribes⟩
      · exact ⟨c', List.mem_cons_of_mem _ hc', hseq, .inr ⟨c.seq, hsecond⟩⟩
    · obtain ⟨c', hc', hspec⟩ := ih hfind
      exact ⟨c', List.mem_cons_of_mem _ hc', hspec⟩

/-- A START is for a pending change that it describes, at once or after a first match was noted. -/
theorem find_describes {q : ChangeQueue} {seq : UInt32}
    (hfind : (s.find us q h).1 = some seq) :
    ∃ c ∈ q.pending, c.seq = seq ∧ (s.describes us h c = true ∨
      ∃ first, s.describes us (h.recordMatch s.sender first) c = true) := by
  unfold find at hfind
  split at hfind
  · obtain ⟨c, hc, hspec⟩ := findSecond_none_describes hfind
    exact ⟨c, List.mem_reverse.1 hc, hspec⟩
  · obtain ⟨c, hc, hseq, hdescribes⟩ := findFirst_describes hfind
    exact ⟨c, List.mem_reverse.1 hc, hseq, .inl hdescribes⟩

/-- A START is for a pending change that awaits its sender. -/
theorem find_mem {q : ChangeQueue} {seq : UInt32} (hfind : (s.find us q h).1 = some seq) :
    ∃ c ∈ q.pending, c.seq = seq ∧ c.awaits s.sender = true := by
  obtain ⟨c, hc, hseq, hdescribes | ⟨_, hdescribes⟩⟩ := find_describes hfind
  · exact ⟨c, hc, hseq, awaits_of_describes hdescribes⟩
  · exact ⟨c, hc, hseq, awaits_of_describes hdescribes⟩

theorem findFirst_get?_of_ne {node : NodeId} (hne : s.sender ≠ node) (l : List Change) :
    (s.findFirst us l h).2.get? node = h.get? node := by
  induction l with
  | nil => rfl
  | cons c newer ih =>
    unfold findFirst
    split
    · exact History.get?_update_of_ne hne
    · exact ih

theorem findSecond_get?_of_ne {node : NodeId} (hne : s.sender ≠ node) (first : Option UInt32)
    (l : List Change) : (s.findSecond us first l h).2.get? node = h.get? node := by
  induction l generalizing h first with
  | nil => rfl
  | cons c newer ih =>
    have hmatch : (h.recordMatch s.sender c.seq).get? node = h.get? node :=
      History.get?_update_of_ne hne
    unfold findSecond
    split
    · dsimp only
      split
      · exact hmatch
      · rw [ih, hmatch]
    · exact ih first

/-- A START is matched in the history of its sender alone. -/
theorem find_get?_of_ne {node : NodeId} (hne : s.sender ≠ node) (q : ChangeQueue) :
    (s.find us q h).2.get? node = h.get? node := by
  unfold find
  split
  · exact findSecond_get?_of_ne hne none _
  · exact findFirst_get?_of_ne hne _

/-- What is remembered of a START is the change that it was found to be for. -/
theorem find_get?_sender (q : ChangeQueue) :
    (s.find us q h).2.get? s.sender =
      match (s.find us q h).1 with
      | none => h.get? s.sender
      | some seq => (h.get? s.sender).map ({ · with lastMatchSeq := seq }) := by
  have hrecord (h : History) (seq : UInt32) : (h.recordMatch s.sender seq).get? s.sender =
      (h.get? s.sender).map ({ · with lastMatchSeq := seq }) := History.get?_update_self _ _ _
  have hfirst (l : List Change) : (s.findFirst us l h).2.get? s.sender =
      match (s.findFirst us l h).1 with
      | none => h.get? s.sender
      | some seq => (h.get? s.sender).map ({ · with lastMatchSeq := seq }) := by
    induction l with
    | nil => rfl
    | cons c newer ih =>
      unfold findFirst
      cases s.describes us h c with
      | true => exact hrecord h c.seq
      | false => exact ih
  have hnext (l : List Change) (first : UInt32) :
      (s.findSecond us (some first) l (h.recordMatch s.sender first)).2.get? s.sender =
        match (s.findSecond us (some first) l (h.recordMatch s.sender first)).1 with
        | none => h.get? s.sender
        | some seq => (h.get? s.sender).map ({ · with lastMatchSeq := seq }) := by
    induction l with
    | nil => exact hrecord h first
    | cons c newer ih =>
      unfold findSecond
      cases s.describes us (h.recordMatch s.sender first) c with
      | true =>
        simp only [if_true, Option.isSome_some, hrecord, Option.map_map]
        rfl
      | false => exact ih
  have hsecond (l : List Change) : (s.findSecond us none l h).2.get? s.sender =
      match (s.findSecond us none l h).1 with
      | none => h.get? s.sender
      | some seq => (h.get? s.sender).map ({ · with lastMatchSeq := seq }) := by
    induction l with
    | nil => rfl
    | cons c newer ih =>
      unfold findSecond
      cases s.describes us h c with
      | true => exact hnext newer c.seq
      | false => exact ih
  unfold find
  split
  · exact hsecond _
  · exact hfirst _

end ReceivedStart

/-- Where nothing is pending, a START is for nothing. -/
theorem Domain.receiveStart_of_pending_nil {d : Domain} {s : ReceivedStart}
    (hpending : d.changes.pending = []) (now : Seconds) : (d.receiveStart s now).1 = d := by
  unfold receiveStart ReceivedStart.find
  rw [hpending]
  simp [ReceivedStart.findSecond, ReceivedStart.findFirst]

/-- A START that is taken down leaves the stamps of the other nodes alone. -/
theorem Domain.stamps?_receiveStart {d : Domain} {s : ReceivedStart} {node : NodeId}
    (hne : s.sender ≠ node) (hknown : (d.history.stamps? node).isSome = true) (now : Seconds) :
    (d.receiveStart s now).1.history.stamps? node = d.history.stamps? node := by
  have hfind : (s.find d.us d.changes d.history).2.stamps? node = d.history.stamps? node := by
    rw [History.stamps?, s.find_get?_of_ne hne, History.stamps?]
  unfold receiveStart
  split
  · rename_i history heq
    rw [heq] at hfind
    exact hfind
  · rename_i seq history heq
    rw [heq] at hfind
    dsimp only at hfind ⊢
    split
    · exact hfind
    · split
      · exact hfind
      · have hstart : (history.recordStart s.sender now).stamps? node = history.stamps? node :=
          History.stamps?_update_of_ne hne
        rw [History.stamps?_merge (by rw [hstart, hfind, hknown]), hstart, hfind]

end ClusterFence
