import ClusterFence.Proofs.Domain.Reports
import ClusterFence.Proofs.Peers.Roster

namespace ClusterFence

/-- The nodes that a report flags as members of its change. -/
def ChangeReport.flagged (r : ChangeReport) : List NodeId :=
  (r.entries.filter (·.isMember)).map (·.node)

/-- The report of a START or COMPLETE. -/
def Action.report? : Action → Option ChangeReport
  | .send _ (.start report) | .send _ (.complete report) => some report
  | _ => none

theorem Action.NoReport.report?_eq_none {a : Action} (h : a.NoReport) : a.report? = none := by
  unfold Action.report?
  split
  · cases h.1
  · cases h.2
  · rfl

/-- No two histories are about the same node. -/
theorem History.Keyed.nodup_nodes {h : History} (hk : h.Keyed) : (h.toList.map (·.node)).Nodup := by
  have hkeys : h.toList.map (·.node) = h.nodes.keys := by
    rw [toList, List.map_map, ← Std.ExtTreeMap.map_fst_toList_eq_keys]
    apply List.map_congr_left
    rintro ⟨node, n⟩ hn
    exact hk node n (Std.ExtTreeMap.mem_toList_iff_getElem?_eq_some.1 hn)
  rw [hkeys]
  exact Std.ExtTreeMap.nodup_keys

namespace Domain

variable {d p q : Domain} {c c' : Change}

/-- A report flags the members of its change that have a history. -/
theorem flagged_report (d : Domain) (c : Change) :
    (d.report c).flagged = (d.history.toList.map (·.node)).filter c.isMember := by
  have hnode (n : NodeHistory) (member : Bool) : (n.entry member).node = n.node := rfl
  unfold ChangeReport.flagged report History.entriesFor
  rw [List.filter_map, List.filter_map, List.map_map]
  simp only [Function.comp_def, NodeHistory.isMember_entry, hnode]

/-- Where all of them have one, it flags each member once. -/
theorem flagged_perm (hk : d.history.Keyed) (hc : c.Rostered d.history) :
    (d.report c).flagged.Perm (c.members.map (·.node)) := by
  rw [flagged_report, List.perm_ext_iff_of_nodup (hk.nodup_nodes.filter _) hc.nodup]
  intro node
  rw [List.mem_filter, ← Change.isMember_iff_mem, and_iff_right_iff_imp]
  intro hnode
  obtain ⟨n, hn, hown⟩ := hk.holds_of_contains (hc.known node hnode)
  exact List.mem_map.2 ⟨n, List.mem_map.2
    ⟨(node, n), Std.ExtTreeMap.mem_toList_iff_getElem?_eq_some.2 hn, rfl⟩, hown⟩

theorem report_of_advance {a : Action} {r : ChangeReport} (ha : a ∈ d.advance.actions)
    (hr : a.report? = some r) :
    ∃ c ∈ d.advance.domain.changes.pending, r = d.advance.domain.report c := by
  obtain h | ⟨c, -, -, -, h⟩ | ⟨c, -, hcurrent, -, -, h⟩ | ⟨c, -, -, -, -, h⟩ := d.advance_cases
  · simp [h] at ha
  · simp [h] at ha
  · rw [h] at ha ⊢
    rw [List.mem_singleton.1 ha] at hr
    refine ⟨{ c with sentStart := true, phase := .awaitingStarts }, ?_, ?_⟩
    · rw [show (d.sendStart c).domain.changes.pending = _ from
        ChangeQueue.pending_updateCurrent hcurrent _]
      exact List.mem_cons_self
    · have hcount : (d.sendStart c).domain.changes.startedCount = d.changes.startedCount :=
        startedCount_updateCurrent _ _
      rw [← Option.some.inj hr, report, report, hcount]
      rfl
  · rw [(noReport_settle (h ▸ ha)).report?_eq_none] at hr
    cases hr

/-- Every START and COMPLETE that goes out is the report on a pending change. -/
theorem report_of_sent {i : DomainInput} {now : Seconds} {a : Action} {r : ChangeReport}
    (ha : a ∈ (d.step now i).1.actions) (hr : a.report? = some r) :
    ∃ d' ∈ [d, (d.step now i).1.domain], ∃ c ∈ d'.changes.pending, r = d'.report c := by
  have hafter {d'' : Domain} (hdomain : (d.step now i).1.domain = d''.advance.domain)
      (ha : a ∈ d''.advance.actions) :
      ∃ d' ∈ [d, (d.step now i).1.domain], ∃ c ∈ d'.changes.pending, r = d'.report c := by
    refine ⟨_, List.mem_cons_of_mem _ (List.mem_singleton_self _), ?_⟩
    rw [hdomain]
    exact report_of_advance ha hr
  cases hturn : d.turn_step now i with
  | stays _ _ actions =>
    rw [(actions a ha).1.report?_eq_none] at hr
    cases hr
  | getsOn _ _ domain actions => exact hafter domain (actions ▸ ha)
  | refused _ _ actions =>
    rw [actions] at ha
    cases ha
  | queued _ _ _ domain actions =>
    rw [actions] at ha
    obtain ha | ha := List.mem_append.1 ha
    · rw [(Action.noReport_evict _ a ha).report?_eq_none] at hr
      cases hr
    · exact hafter domain ha
  | finished =>
    simp only [step, finishFencing] at ha
    split at ha
    · obtain ⟨c, hcurrent, rfl⟩ : ∃ c, d.changes.current? = some c ∧ d.completeAction c = a := by
        simpa using ha
      exact ⟨d, List.mem_cons_self, c, ChangeQueue.current?_mem hcurrent,
        (Option.some.inj hr).symm⟩
    · cases ha

/-- What the two nodes have in common when a START of `p` for its change `c` is taken for the change
    `c'` of `q`. -/
structure Agree (p q : Domain) (c c' : Change) : Prop where
  counts : c'.counts = c.counts
  members : ∀ node, c'.isMember node = c.isMember node
  sender : c'.isMember p.us = true
  receiver : c'.isMember q.us = true
  record : q.history.Holds p.us fun n =>
    n.clusterAddTime ≤ c'.createTime ∧ n.failSeq ≤ c'.seq ∧ n.leftSeq ≤ c'.seq

/-- The START of `p` for its change `c`. -/
def startOf (p : Domain) (c : Change) (flags : MessageFlags) : ReceivedStart :=
  { sender := p.us, flags, report := p.report c }

/-- The START flags us, and no node that is not a member of the change that it describes. -/
theorem flagged_of_describes {s : ReceivedStart} {us : NodeId} {h : History}
    (hdescribes : s.describes us h c = true) :
    us ∈ s.report.flagged ∧ ∀ node ∈ s.report.flagged, c.isMember node = true := by
  simp only [ReceivedStart.describes, ReceivedStart.flagsMember, Bool.and_eq_true] at hdescribes
  obtain ⟨⟨⟨⟨hours, -⟩, -⟩, -⟩, hwithin⟩ := hdescribes
  constructor
  · obtain ⟨e, he, hflagged⟩ := (Option.any_eq_true _ _).1 hours
    have hnode : e.node = us := by simpa using List.find?_some he
    exact List.mem_map.2 ⟨e, List.mem_filter.2 ⟨List.mem_of_find?_eq_some he, hflagged⟩, hnode⟩
  · intro node hnode
    obtain ⟨e, he, rfl⟩ := List.mem_map.1 hnode
    obtain ⟨he, hflagged⟩ := List.mem_filter.1 he
    simpa [hflagged] using List.all_eq_true.1 hwithin e he

/-- A START that describes a change is for one with the same members: it is for one with as many,
    and all of them are members there. -/
theorem agree_of_describes (hk : p.history.Keyed) (hc : c.Rostered p.history)
    (hc' : c'.Rostered q.history) {flags : MessageFlags}
    (hdescribes : (p.startOf c flags).describes q.us q.history c' = true) : Agree p q c c' := by
  obtain ⟨hours, hwithin⟩ := flagged_of_describes hdescribes
  simp only [ReceivedStart.describes, Bool.and_eq_true] at hdescribes
  obtain ⟨⟨⟨⟨-, hawaits⟩, hallowed⟩, hcounts⟩, -⟩ := hdescribes
  have hcounts : c.counts = c'.counts := eq_of_beq hcounts
  have hflagged : (p.startOf c flags).report.flagged.Perm (c.members.map (·.node)) :=
    flagged_perm hk hc
  have hperm : (c.members.map (·.node)).Perm (c'.members.map (·.node)) := by
    apply Change.nodes_perm hc.nodup hc'.nodup
    · rw [← hc.size, ← hc'.size, hcounts]
    · intro hnone
      rw [hflagged.mem_iff, hnone] at hours
      cases hours
    · intro node hnode
      exact Change.isMember_iff_mem.1 (hwithin node (hflagged.mem_iff.2 hnode))
  refine ⟨hcounts.symm, fun node => ?_, ?_, hwithin q.us hours, ?_⟩
  · rw [Bool.eq_iff_iff, Change.isMember_iff_mem, Change.isMember_iff_mem, hperm.mem_iff]
  · obtain ⟨m, hm, -⟩ := (Option.any_eq_true _ _).1 hawaits
    obtain ⟨hm, hnode⟩ := Change.mem_of_member? hm
    exact List.any_eq_true.2 ⟨m, hm, beq_iff_eq.2 hnode⟩
  · obtain ⟨n, hn, hrecord⟩ := (Option.any_eq_true _ _).1 hallowed
    simp only [ReceivedStart.allowedBy, Bool.and_eq_true, decide_eq_true_eq] at hrecord
    exact ⟨n, hn, hrecord.1.1.1, hrecord.1.1.2, hrecord.1.2⟩

/-- A match that was noted before makes no difference to what the nodes agree on. -/
theorem Agree.of_recordMatch {seq : UInt32}
    (h : Agree p { q with history := q.history.recordMatch p.us seq } c c') : Agree p q c c' := by
  obtain ⟨n, hn, hrecord⟩ := h.record
  have hget : (q.history.get? p.us).map ({ · with lastMatchSeq := seq }) = some n :=
    (History.get?_update_self _ _ _).symm.trans hn
  obtain ⟨before, hbefore, rfl⟩ := Option.map_eq_some_iff.1 hget
  exact ⟨h.counts, h.members, h.sender, h.receiver, before, hbefore, hrecord⟩

/-- Two nodes, each of which is told of membership changes that follow on one another. Every START
    and COMPLETE of the one is its report on a pending change, and what that flags are the members of
    the change, each of them once. If a START is matched with a change of the other, the two changes
    have the same sizes and members, both nodes are among them, and nothing on record of the sender
    is later than the change that was matched. -/
theorem matched_agree (configP configQ : Config) (inputsP inputsQ : List (Seconds × DomainInput))
    (hp : (new configP).consistent none inputsP = true)
    (hq : (new configQ).consistent none inputsQ = true) :
    let p := (new configP).play inputsP
    let q := (new configQ).play inputsQ
    (∀ now i, ∀ a ∈ (p.step now i).1.actions, ∀ r, a.report? = some r →
      ∃ d ∈ [p, (p.step now i).1.domain], ∃ c ∈ d.changes.pending, r = d.report c) ∧
    ∀ c ∈ p.changes.pending,
      (p.report c).flagged.Nodup ∧
      (∀ node, node ∈ (p.report c).flagged ↔ c.isMember node = true) ∧
      UInt32.ofNat (p.report c).flagged.length = c.counts.members ∧
      ((∃ node, c.isMember node = false) →
        (p.report c).flagged.length = c.counts.members.toNat) ∧
      ∀ flags,
        (∀ c' ∈ q.changes.pending,
          ((p.startOf c flags).compare q.us q.history c').1 = true → Agree p q c c') ∧
        ∀ seq, ((p.startOf c flags).find q.us q.changes q.history).1 = some seq →
          ∃ c' ∈ q.changes.pending, c'.seq = seq ∧ Agree p q c c' := by
  intro p q
  refine ⟨fun now i a ha r hr => report_of_sent ha hr, fun c hc => ?_⟩
  have hkeyed : p.history.Keyed := keyed_play configP inputsP
  have hrostered : c.Rostered p.history := (rostered_new configP).play hp c hc
  have hmembers (c' : Change) (hc' : c' ∈ q.changes.pending) : c'.Rostered q.history :=
    (rostered_new configQ).play hq c' hc'
  have hperm := flagged_perm hkeyed hrostered
  have hlength : (p.report c).flagged.length = c.members.length := by
    rw [hperm.length_eq, List.length_map]
  refine ⟨hperm.nodup_iff.2 hrostered.nodup, fun node => ?_, by rw [hlength, hrostered.size], ?_,
    fun flags => ⟨fun c' hc' haccepted => ?_, fun seq hfind => ?_⟩⟩
  · rw [hperm.mem_iff, Change.isMember_iff_mem]
  · rintro ⟨node, hnode⟩
    have hnew : node ∉ c.members.map (·.node) := by
      rwa [← Change.isMember_iff_mem, Bool.not_eq_true]
    have hroom := length_le_of_nodup (List.nodup_cons.2 ⟨hnew, hrostered.nodup⟩)
    rw [List.length_cons, List.length_map] at hroom
    rw [hlength, hrostered.size, UInt32.toNat_ofNat_of_lt' hroom]
  · have hdescribes : (p.startOf c flags).describes q.us q.history c' = true := by
      unfold ReceivedStart.compare at haccepted
      split at haccepted
      · assumption
      · cases haccepted
    exact agree_of_describes hkeyed hrostered (hmembers c' hc') hdescribes
  · obtain ⟨c', hc', hseq, hdescribes | ⟨first, hdescribes⟩⟩ :=
      ReceivedStart.find_describes hfind
    · exact ⟨c', hc', hseq, agree_of_describes hkeyed hrostered (hmembers c' hc') hdescribes⟩
    · have hmatched : c'.Rostered (q.history.recordMatch p.us first) := by
        refine (hmembers c' hc').of_roster_eq rfl fun node hknown => ?_
        rw [History.contains_iff] at hknown ⊢
        exact hknown.keep fun _ _ _ => trivial
      have hagree : Agree p { q with history := q.history.recordMatch p.us first } c c' :=
        agree_of_describes hkeyed hrostered hmatched hdescribes
      exact ⟨c', hc', hseq, hagree.of_recordMatch⟩

section

/-- Node 2 of the pair. -/
def peerConfig : Config :=
  { Config.forNode 2 "node2" with domain := { nodes := [], cleanStart := true } }

/-- Both nodes of the pair join. -/
def pairJoins : List (Seconds × DomainInput) :=
  [(11, .membership { members := [⟨1, .join⟩, ⟨2, .join⟩], left := [],
                      joined := [⟨1, .join⟩, ⟨2, .join⟩] })]

/-- The START of node 1 for the change in which both join is taken for that change at node 2. -/
theorem matched_agree_pairJoins :
    let p := (new pairConfig).play pairJoins
    let q := (new peerConfig).play pairJoins
    (new pairConfig).consistent none pairJoins = true ∧
      (new peerConfig).consistent none pairJoins = true ∧
      ∃ c ∈ p.changes.pending, ∃ c' ∈ q.changes.pending,
        ((p.startOf c {}).compare q.us q.history c').1 = true ∧ Agree p q c c' := by
  intro p q
  have hp : (new pairConfig).consistent none pairJoins = true := by decide +kernel
  have hq : (new peerConfig).consistent none pairJoins = true := by decide +kernel
  obtain ⟨-, hagree⟩ := matched_agree pairConfig peerConfig pairJoins pairJoins hp hq
  have hmatched : ∃ c ∈ p.changes.pending, ∃ c' ∈ q.changes.pending,
      ((p.startOf c {}).compare q.us q.history c').1 = true := by decide +kernel
  obtain ⟨c, hc, c', hc', haccepted⟩ := hmatched
  exact ⟨hp, hq, c, hc, c', hc', haccepted, ((hagree c hc).2.2.2.2 {}).1 c' hc' haccepted⟩

/-- The membership changes among the inputs follow on one another, with or without the node `us`. -/
def unbroken (us : NodeId) : Option (List NodeId) → List (Seconds × DomainInput) → Bool
  | _, [] => true
  | group, (_, .membership m) :: rest => m.consistent us group && unbroken us (some m.nodes) rest
  | group, _ :: rest => unbroken us group rest

/-- Node 1 leaves the pair as node 3 joins, and goes on to be told of the group. -/
def toldAfterLeave : List (Seconds × DomainInput) :=
  pairJoins ++
    [(12, .leaving),
     (13, .membership { members := [⟨2, .join⟩, ⟨3, .join⟩], left := [⟨1, .leave⟩],
                        joined := [⟨3, .join⟩] }),
     (14, .membership { members := [⟨2, .join⟩, ⟨3, .join⟩, ⟨4, .join⟩], left := [],
                        joined := [⟨4, .join⟩] })]

/-- A domain does not take up the end of its own leave. Of those who joined in it there is no
    history, and in a group that the domain is told of all the same they are not flagged. -/
theorem leave_unflags_member :
    ¬ ∀ (config : Config) (inputs : List (Seconds × DomainInput)),
        unbroken config.node.id none inputs = true →
        ∀ c ∈ ((new config).play inputs).changes.pending, ∀ m ∈ c.members,
          m.node ∈ (((new config).play inputs).report c).flagged := by
  intro hflags
  have h := hflags pairConfig toldAfterLeave (by decide +kernel)
  exact absurd h (by decide +kernel)

end

end Domain

end ClusterFence
