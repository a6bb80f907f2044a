import ClusterFence.Proofs.Domain.Forgetting
import ClusterFence.Proofs.Domain.Histories
import ClusterFence.Proofs.Wire.RoundTrip

namespace ClusterFence.Domain

/-- The domain `after` has taken down that the victim was dealt with: it is a victim no more, and
    its history is `n`. Nothing else is told of any victim, nor of any other node. -/
structure TakesDown (d after : Domain) (victim : NodeId) (n : NodeHistory) : Prop where
  gone : after.victims.contains victim = false
  others : after.victims.toList = d.victims.toList.filter (·.node != victim)
  noted : after.history.get? victim = some n
  kept : ∀ other, other ≠ victim → after.history.get? other = d.history.get? other

section

variable {d : Domain} {e : Envelope} {seq : UInt32} {entry : NodeEntry} {victim : NodeId}

/-- What is on record after a report about a victim, of which only a peer's tells how it was dealt
    with. -/
theorem history_receive_victimDone (he : e.message = .victimDone seq entry) (now : Seconds) :
    (d.receive e now).domain.history =
      if e.header.sender = d.us then d.history.recordFencedLocal entry.node now
      else (d.history.recordFencedLocal entry.node now).recordFenced entry.node entry.fenceMaster
        entry.fenceHow entry.fenceTime := by
  simp only [receive, Reaction.after, advance_history, accept, he, receiveVictimDone, beq_iff_eq]
  split <;> rfl

/-- A report takes out the victim that it names, and nothing but the history of that one can
    change by it. -/
theorem takesDown_receive (hnodup : d.victims.ids.Nodup) (he : e.message = .victimDone seq entry)
    {n : NodeHistory} (hn : d.history.get? entry.node = some n) (now : Seconds) :
    d.TakesDown (d.receive e now).domain entry.node
      (if e.header.sender = d.us then { n with fenceTimeLocal := now }
      else
        { n with
          fenceMaster := entry.fenceMaster
          fenceHow := entry.fenceHow
          fenceTime := entry.fenceTime
          fenceTimeLocal := now }) := by
  have hvictims : (d.receive e now).domain.victims = d.victims.erase entry.node := by
    rw [receive_victims, he]
  refine ⟨?_, ?_, ?_, fun other hother => ?_⟩
  · rw [hvictims, Victims.contains_eq_false_iff, Victims.ids_erase]
    exact hnodup.not_mem_erase
  · rw [hvictims, Victims.toList_erase hnodup]
  · rw [history_receive_victimDone he]
    split <;> simp [History.recordFencedLocal, History.recordFenced, hn]
  · have hne : entry.node ≠ other := hother.symm
    rw [history_receive_victimDone he]
    split <;> simp [History.recordFencedLocal, History.recordFenced, History.get?_update_of_ne hne]

/-- A victim with a history is reported, and the report says how it was dealt with. -/
theorem resolve_actions {n : NodeHistory} (hn : d.history.get? victim = some n) (how : Resolution)
    (reduced : Bool) (now : Seconds) :
    ∃ seq entry, (d.resolve victim how reduced now).actions =
        [.send d.completeFlag (.victimDone seq entry)] ∧
      entry.node = n.node ∧ entry.fenceMaster = d.us ∧ entry.fenceHow = how.code ∧
        entry.fenceTime = now := by
  unfold resolve victimDoneAction?
  simp only [History.recordFenced, History.get?_update_self, hn, Option.map_some]
  exact ⟨_, _, rfl, rfl, rfl, rfl, rfl⟩

end

end ClusterFence.Domain

namespace ClusterFence.Envelope

/-- A report about a victim is read as what it says of whoever sent it. -/
theorem decode_encode_victimDone {header : Header} {sender : NodeId} {running : Option Version}
    (hsender : header.sender = sender)
    (hrunning : ∀ v, running = some v → header.version.compatible v = true) (seq : UInt32)
    (entry : NodeEntry) :
    ∃ e, decode (encode ⟨header, .victimDone seq entry⟩) sender running = .ok e ∧
      e.header.sender = sender ∧ e.message = .victimDone seq entry := by
  -- the wire has no room for the flags of the version
  let plain : Header := { header with version := header.version.withoutFlags }
  have hplain :
      encode ⟨header, .victimDone seq entry⟩ = encode ⟨plain, .victimDone seq entry⟩ := rfl
  refine ⟨⟨plain, .victimDone seq entry⟩, ?_, hsender, rfl⟩
  rw [hplain, ← hsender]
  refine decode_encode rfl (Nat.two_pow_pos 32) (.inr fun v hv => ?_)
  have hsame := hrunning v hv
  rw [Version.compatible, Bool.and_eq_true, beq_iff_eq, beq_iff_eq] at hsame
  exact ⟨hsame.1.symm, hsame.2.symm⟩

end ClusterFence.Envelope

namespace ClusterFence.Domain

/-- The master that has dealt with a victim reports it once, and the report is read under every
    version that goes with that of its header. Any other member with a history of the victim then
    has the same on record of the fencing as the master, whatever it had before; the master has only
    the time added at which the report came back, however late that is. For both the victim is none
    any more, and nothing is told of any other. -/
theorem fencing_reaches_all (config : Config) (inputs : List (Seconds × DomainInput))
    {victim : NodeId} (hknown : ((new config).play inputs).history.contains victim = true)
    (how : Resolution) (reduced : Bool) (time : Seconds) :
    let master := (new config).play inputs
    let resolved := master.resolve victim how reduced time
    ∃ flags message, resolved.actions = [.send flags message] ∧
      (∃ n : NodeHistory, resolved.domain.history.get? victim =
        some { n with fenceMaster := master.us, fenceHow := how.code, fenceTime := time }) ∧
      ∀ (header : Header) (running : Option Version), header.sender = master.us →
        (∀ v, running = some v → header.version.compatible v = true) →
        ∃ e, Envelope.decode (Envelope.encode ⟨header, message⟩) master.us running = .ok e ∧
          (∀ (config' : Config) (inputs' : List (Seconds × DomainInput)) (now : Seconds),
            let d := (new config').play inputs'
            ∀ n, d.us ≠ master.us → d.history.get? victim = some n →
              d.TakesDown (d.step now (.message e)).1.domain victim
                { n with
                  fenceMaster := master.us
                  fenceHow := how.code
                  fenceTime := time
                  fenceTimeLocal := now }) ∧
          ∀ (later : List (Seconds × DomainInput)) (now : Seconds),
            let d := resolved.domain.play later
            ∃ n, d.history.get? victim = some n ∧
              d.TakesDown (d.step now (.message e)).1.domain victim
                { n with fenceTimeLocal := now } := by
  intro master resolved
  obtain ⟨known, hget, -⟩ : master.history.Holds victim fun _ => True :=
    History.contains_iff.1 hknown
  obtain ⟨seq, entry, hactions, hentry, hmaster, hhow, htime⟩ :=
    resolve_actions hget how reduced time
  have hnode : entry.node = victim := hentry.trans (keyed_play config inputs victim known hget)
  have hresolved : resolved.domain.history.get? victim =
      some { known with fenceMaster := master.us, fenceHow := how.code, fenceTime := time } := by
    simp [resolved, resolve_domain, History.recordFenced, hget]
  refine ⟨_, _, hactions, ⟨known, hresolved⟩, fun header running hsender hrunning => ?_⟩
  obtain ⟨e, hread, hfrom, he⟩ :=
    Envelope.decode_encode_victimDone hsender hrunning seq entry
  refine ⟨e, hread, ?_, ?_⟩
  · intro config' inputs' now d n hother hn
    have hnodup : d.victims.ids.Nodup := nodup_ids_play config' inputs'
    have htaken := takesDown_receive hnodup he (hnode.symm ▸ hn) now
    rwa [if_neg (hfrom.trans_ne hother.symm), hnode, hmaster, hhow, htime] at htaken
  · intro later now d
    have hnodup : d.victims.ids.Nodup := by
      refine play_induction (P := (·.victims.ids.Nodup)) ?_ ?_ later
      · exact fun _ now i h => nodup_ids_step h now i
      · exact nodup_ids_step (nodup_ids_play config inputs) time (.resolved victim how reduced)
    have hus : d.us = master.us := by
      refine play_induction (P := (·.us = master.us)) ?_ ?_ later
      · exact fun d now i h => (us_step d now i).trans h
      · exact us_step master time (.resolved victim how reduced)
    obtain ⟨n, hn, -⟩ : d.history.Holds victim fun _ => True :=
      History.contains_iff.1 (contains_play (History.contains_iff.2 ⟨_, hresolved, trivial⟩) later)
    refine ⟨n, hn, ?_⟩
    have htaken := takesDown_receive hnodup he (hnode.symm ▸ hn) now
    rwa [if_pos (hfrom.trans hus.symm), hnode] at htaken

/-- Three nodes have joined, and the third is lost. -/
def thirdLost : List (Seconds × DomainInput) :=
  let nodes := [⟨1, "node1", true, 1⟩, ⟨2, "node2", true, 1⟩, ⟨3, "node3", true, 1⟩]
  [(10, .cluster { quorate := true, ringSeq := 5, nodes }),
   (11, .membership { members := [⟨1, .join⟩, ⟨2, .join⟩, ⟨3, .join⟩], left := [],
                      joined := [⟨1, .join⟩, ⟨2, .join⟩, ⟨3, .join⟩] }),
   (20, .membership { members := [⟨1, .join⟩, ⟨2, .join⟩], left := [⟨3, .nodeDown⟩],
                      joined := [] })]

/-- The first node has fenced the third, and the second hears of it a second later. -/
theorem fencing_reaches_all_thirdLost :
    let master := (new (.forNode 1 "node1")).play thirdLost
    let d := (new (.forNode 2 "node2")).play thirdLost
    let header : Header := { version := ⟨1, 1, 1, 0⟩, sender := 1 }
    let running : Version := ⟨1, 1, 4, 0⟩
    master.history.contains 3 = true ∧ d.us ≠ master.us ∧ d.victims.contains 3 = true ∧
      ∃ flags message e, (master.resolve 3 .agent false 30).actions = [.send flags message] ∧
        Envelope.decode (Envelope.encode ⟨header, message⟩) 1 (some running) = .ok e ∧
        (d.step 31 (.message e)).1.domain.victims.contains 3 = false ∧
        (d.step 31 (.message e)).1.domain.history.Holds 3 fun n =>
          n.fenceMaster = 1 ∧ n.fenceHow = Resolution.agent.code ∧ n.fenceTime = 30 ∧
            n.fenceTimeLocal = 31 := by
  intro master d header running
  have hknown : master.history.contains 3 = true := by decide +kernel
  have hother : d.us ≠ master.us := by decide +kernel
  have hvictim : d.victims.contains 3 = true := by decide +kernel
  obtain ⟨n, hn, -⟩ : d.history.Holds 3 fun _ => True := by decide +kernel
  obtain ⟨flags, message, hactions, -, hreached⟩ :=
    fencing_reaches_all (.forNode 1 "node1") thirdLost hknown .agent false 30
  obtain ⟨e, hread, hpeers, -⟩ := hreached header (some running) (by decide +kernel)
    fun v hv => Option.some.inj hv ▸ rfl
  have htaken := hpeers (.forNode 2 "node2") thirdLost 31 n hother hn
  have hus : master.us = 1 := by decide +kernel
  refine ⟨hknown, hother, hvictim, flags, message, e, hactions, hus ▸ hread, htaken.gone, ?_⟩
  exact ⟨_, htaken.noted, hus, rfl, rfl, rfl⟩

end ClusterFence.Domain
