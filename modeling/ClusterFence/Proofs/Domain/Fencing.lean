import ClusterFence.Proofs.Domain.Turns
import ClusterFence.Proofs.Evolution
import ClusterFence.Proofs.Victims

namespace ClusterFence

/-- The report on a victim that an action sends, with the change that it is about. -/
def Action.victimDone? : Action → Option (UInt32 × NodeEntry)
  | .send _ (.victimDone seq entry) => some (seq, entry)
  | _ => none

/-- The reports on victims among some actions. -/
def Action.victimDones (actions : List Action) : List (UInt32 × NodeEntry) :=
  actions.filterMap victimDone?

@[simp] theorem Action.victimDones_append (first later : List Action) :
    victimDones (first ++ later) = victimDones first ++ victimDones later :=
  List.filterMap_append

namespace Victims

/-- The victims are those of `v`, apart from the given nodes. -/
def Apart (v' v : Victims) (nodes : List NodeId) : Prop :=
  v'.toList.filter (!nodes.contains ·.node) = v.toList.filter (!nodes.contains ·.node)

variable {v v' : Victims} {nodes more : List NodeId} {node : NodeId}

theorem Apart.mono (h : v'.Apart v nodes) (hsub : nodes ⊆ more) : v'.Apart v more := by
  have hfilter (l : List Victim) : l.filter (!more.contains ·.node) =
      (l.filter (!nodes.contains ·.node)).filter (!more.contains ·.node) := by
    rw [List.filter_filter]
    refine List.filter_congr fun victim _ => ?_
    by_cases hmore : victim.node ∈ more
    · simp [hmore]
    · simp [hmore, mt (hsub ·) hmore]
  unfold Apart at h ⊢
  rw [hfilter, hfilter v.toList, h]

theorem Apart.erase (h : v'.Apart v nodes) (hnode : node ∈ nodes) :
    (v'.erase node).Apart v nodes := by
  unfold Apart at h ⊢
  rw [← h]
  unfold Victims.erase
  induction v'.toList with
  | nil => rfl
  | cons victim rest ih =>
    rw [List.eraseP_cons]
    by_cases hvictim : victim.node = node
    · simp [hvictim, hnode]
    · rw [cond_eq_ite, if_neg (by simpa using hvictim), List.filter_cons, List.filter_cons, ih]

theorem Apart.markResolved (h : v'.Apart v nodes) (hnode : node ∈ nodes) :
    (v'.markResolved node).Apart v nodes := by
  unfold Apart at h ⊢
  rw [← h]
  unfold Victims.markResolved
  induction v'.toList with
  | nil => rfl
  | cons victim rest ih =>
    unfold updateFirst
    by_cases hvictim : victim.node = node
    · simp [hvictim, hnode]
    · rw [if_neg (by simpa using hvictim), List.filter_cons, List.filter_cons, ih]

end Victims

namespace Domain

variable {d d' : Domain}

/-- The domain `d'` is `d` some time later, with the same fencing outstanding: it is about the same
    change, and no history was lost. -/
structure Abides (d d' : Domain) : Prop where
  config : d'.config = d.config
  fencing : d'.fencing = true
  changes : d'.changes = d.changes
  known : ∀ node, d.history.contains node = true → d'.history.contains node = true

theorem Abides.us (h : Abides d d') : d'.us = d.us := congrArg (·.node.id) h.config

theorem abides_self (hfencing : d.fencing = true) : Abides d d :=
  ⟨rfl, hfencing, rfl, fun _ hknown => hknown⟩

theorem Abides.of_kept (h : Abides d d') {d'' : Domain}
    (hkept : d'' = d' ∨ d'' = d'.setLeaving) : Abides d d'' ∧ d''.victims = d'.victims := by
  obtain rfl | rfl := hkept
  · exact ⟨h, rfl⟩
  · exact ⟨⟨h.config, h.fencing, h.changes, h.known⟩, rfl⟩

theorem Abides.attempted (h : Abides d d') (victim : NodeId) : Abides d (d'.attempt victim) :=
  ⟨h.config, h.fencing, h.changes, h.known⟩

/-- A snapshot of the cluster asks for nothing as long as fencing is outstanding. -/
theorem updateCluster_of_fencing (hfencing : d.fencing = true) (s : ClusterSnapshot)
    (now : Seconds) : d.updateCluster s now =
      { domain :=
          { d with
            cluster := d.cluster.update s now
            history := d.cluster.updateHistory s d.history now }
        notices := d.cluster.updateNotices s d.history } := by
  simp [updateCluster, Reaction.after, advance_of_fencing, hfencing]

theorem Abides.updateCluster (h : Abides d d') (s : ClusterSnapshot) (now : Seconds) :
    Abides d (d'.updateCluster s now).domain := by
  rw [updateCluster_of_fencing h.fencing]
  refine ⟨h.config, h.fencing, h.changes, fun node hknown => ?_⟩
  exact History.contains_updateHistory (h.known node hknown) _ s now

theorem Abides.resolve (h : Abides d d') (victim : NodeId) (how : Resolution) (reduced : Bool)
    (now : Seconds) : Abides d (d'.resolve victim how reduced now).domain := by
  rw [resolve_domain]
  refine ⟨h.config, h.fencing, h.changes, fun node hknown => ?_⟩
  have hholds := History.contains_iff.1 (h.known node hknown)
  exact History.contains_iff.2 (hholds.keep fun _ _ _ => trivial)

/-- What a report on a victim says: the change, the victim, who dealt with it, and how. -/
def account (done : UInt32 × NodeEntry) : UInt32 × NodeId × NodeId × UInt32 :=
  (done.1, done.2.node, done.2.fenceMaster, done.2.fenceHow)

/-- What our report says on a victim that is resolved while the change numbered `seq` is fenced
    for. -/
def due (d : Domain) (seq : UInt32) (resolution : NodeId × Resolution) :
    UInt32 × NodeId × NodeId × UInt32 :=
  (seq, resolution.1, d.us, resolution.2.code)

/-- The victims of `d` were resolved as given, and that was reported by `dones`. -/
structure Dealt (d : Domain) (seq : UInt32) (resolutions : List (NodeId × Resolution))
    (dones : List (UInt32 × NodeEntry)) (d' : Domain) : Prop where
  victims : d'.victims.Apart d.victims (resolutions.map (·.1))
  accounts : (dones.map account).Sublist (resolutions.map (d.due seq))
  covers : ∀ resolution ∈ resolutions, d.history.contains resolution.1 = true →
    ∃ done ∈ dones, done.2.node = resolution.1

variable {seq : UInt32} {resolutions : List (NodeId × Resolution)}
  {dones : List (UInt32 × NodeEntry)}

theorem dealt_self (d : Domain) (seq : UInt32) : Dealt d seq [] [] d :=
  ⟨rfl, .slnil, List.forall_mem_nil _⟩

theorem Dealt.of_victims {d'' : Domain} (h : Dealt d seq resolutions dones d')
    (hvictims : d''.victims = d'.victims) : Dealt d seq resolutions dones d'' where
  victims := by
    rw [hvictims]
    exact h.victims
  accounts := h.accounts
  covers := h.covers

/-- What is sent on a resolution, if its victim has a history. -/
theorem actions_resolve (d : Domain) (victim : NodeId) (how : Resolution) (reduced : Bool)
    (now : Seconds) : (d.resolve victim how reduced now).actions =
      ((d.history.get? victim).map fun n => Action.send d.completeFlag
        (.victimDone ((d.changes.current?.map (·.seq)).getD 0)
          { n.entry false with fenceMaster := d.us, fenceTime := now, fenceHow := how.code })).toList := by
  have hget : (d.history.recordFenced victim d.us how.code now).get? victim =
      (d.history.get? victim).map
        ({ · with fenceMaster := d.us, fenceTime := now, fenceHow := how.code }) := by
    rw [History.recordFenced, History.get?_update_self]
  unfold Domain.resolve victimDoneAction?
  dsimp only
  rw [hget]
  cases d.history.get? victim <;> rfl

/-- A resolution is reported once, unless its victim has no history. -/
theorem victimDones_resolve (hk : d.history.Keyed) {c : Change}
    (hcurrent : d.changes.current? = some c) (victim : NodeId) (how : Resolution) (reduced : Bool)
    (now : Seconds) :
    let actions := (d.resolve victim how reduced now).actions
    (∃ flags entry, actions = [.send flags (.victimDone c.seq entry)] ∧
      account (c.seq, entry) = d.due c.seq (victim, how)) ∨
    d.history.contains victim = false ∧ actions = [] := by
  intro actions
  have hactions : actions = _ := d.actions_resolve victim how reduced now
  cases hn : d.history.get? victim with
  | none =>
    refine .inr ⟨?_, by rw [hactions, hn]; rfl⟩
    rw [← Bool.not_eq_true, History.contains_iff]
    rintro ⟨n, hn', -⟩
    rw [hn] at hn'
    cases hn'
  | some n =>
    refine .inl ⟨_, _, by rw [hactions, hn, hcurrent]; rfl, ?_⟩
    simp [account, due, NodeHistory.entry, hk victim n hn]

theorem Dealt.resolve {c : Change} (h : Dealt d c.seq resolutions dones d')
    (habides : Abides d d') (hk : d'.history.Keyed) (hcurrent : d.changes.current? = some c)
    (victim : NodeId) (how : Resolution) (reduced : Bool) (now : Seconds) :
    Dealt d c.seq (resolutions ++ [(victim, how)])
      (dones ++ Action.victimDones (d'.resolve victim how reduced now).actions)
      (d'.resolve victim how reduced now).domain := by
  rw [← habides.changes] at hcurrent
  have hdue : d'.due c.seq (victim, how) = d.due c.seq (victim, how) := by
    rw [due, due, habides.us]
  refine ⟨?_, ?_, ?_⟩
  · have happart := h.victims.mono (List.subset_append_left _ [victim])
    rw [resolve_domain, List.map_append]
    cases reduced with
    | true => exact happart.erase (by simp)
    | false => exact happart.markResolved (by simp)
  · rw [List.map_append, List.map_append]
    refine h.accounts.append ?_
    obtain ⟨flags, entry, hactions, haccount⟩ | ⟨-, hactions⟩ :=
      victimDones_resolve hk hcurrent victim how reduced now
    · rw [hactions]
      simp [Action.victimDones, Action.victimDone?, haccount, hdue]
    · simp [hactions, Action.victimDones]
  · intro resolution hresolution hknown
    obtain hresolution | hresolution := List.mem_append.1 hresolution
    · obtain ⟨done, hdone, hnode⟩ := h.covers resolution hresolution hknown
      exact ⟨done, List.mem_append_left _ hdone, hnode⟩
    · rw [List.mem_singleton] at hresolution
      subst hresolution
      obtain ⟨flags, entry, hactions, haccount⟩ | ⟨hunknown, -⟩ :=
        victimDones_resolve hk hcurrent victim how reduced now
      · refine ⟨(c.seq, entry), List.mem_append_right _ ?_, ?_⟩
        · simp [hactions, Action.victimDones, Action.victimDone?]
        · exact congrArg (·.2.1) haccount
      · rw [habides.known victim hknown] at hunknown
        cases hunknown

/-- A run is asked for when no fencing is outstanding. It is about the current change, and nothing
    is sent along with that. -/
structure Opens (d : Domain) (r : Reaction) : Prop where
  idle : d.fencing = false
  fencing : r.domain.fencing = true
  current : ∃ c, r.domain.changes.current? = some c
  silent : ∀ a ∈ r.actions, a.victimDone? = none ∧ a.completeSeq? = none

theorem opens_advance {nodesJoined : Bool} (h : .startFencing nodesJoined ∈ d.advance.actions) :
    Opens d d.advance := by
  obtain heq | ⟨c, -, -, -, heq⟩ | ⟨c, -, -, -, -, heq⟩ | ⟨c, hidle, hcurrent, -, -, heq⟩ :=
    d.advance_cases
  · simp [heq] at h
  · simp [heq] at h
  · simp [heq, sendStart, startAction] at h
  · rw [heq] at h ⊢
    unfold settle at h ⊢
    dsimp only at h ⊢
    split at h
    · rename_i hmaster
      rw [if_pos hmaster]
      refine ⟨hidle, rfl, ⟨{ c with phase := .awaitingFencing }, ?_⟩, ?_⟩
      · rw [ChangeQueue.current?, ChangeQueue.pending_updateCurrent hcurrent, List.head?_cons]
      · simp [Action.victimDone?, Action.completeSeq?]
    · simp at h

theorem opens_turn {i : DomainInput} {r : Reaction} (hturn : Turn d i r) {nodesJoined : Bool}
    (h : .startFencing nodesJoined ∈ r.actions) : Opens d r := by
  cases hturn with
  | stays _ _ actions => exact absurd (actions _ h).2 (by simp [Action.startsRun])
  | getsOn touched _ domain actions =>
    rw [actions] at h
    have hopens := opens_advance h
    exact ⟨touched.fencing ▸ hopens.idle, domain ▸ hopens.fencing, domain ▸ hopens.current,
      actions ▸ hopens.silent⟩
  | refused _ _ actions => simp [actions] at h
  | queued fencing _ _ domain actions =>
    rw [actions] at h
    have hopens := opens_advance ((List.mem_append.1 h).resolve_left (by simp))
    refine ⟨fencing ▸ hopens.idle, domain ▸ hopens.fencing, domain ▸ hopens.current, ?_⟩
    intro a ha
    rw [actions] at ha
    obtain ha | ha := List.mem_append.1 ha
    · obtain ⟨node, -, rfl⟩ := List.mem_map.1 ha
      exact ⟨rfl, rfl⟩
    · exact hopens.silent a ha
  | finished =>
    unfold finishFencing at h
    split at h
    · simp [completeAction] at h
    · simp at h

/-- Fencing stays outstanding until the end of the run. -/
theorem fencing_turn {i : DomainInput} {r : Reaction} (hturn : Turn d i r)
    (hfencing : d.fencing = true) (hi : i ≠ .finished) : r.domain.fencing = true := by
  cases hturn with
  | stays touched => rw [touched.fencing, hfencing]
  | getsOn touched _ domain =>
    have htouched := touched.fencing.trans hfencing
    rw [domain, advance_of_fencing htouched, htouched]
  | refused fencing => rw [fencing, hfencing]
  | queued fencing _ _ domain =>
    have hqueued := fencing.trans hfencing
    rw [domain, advance_of_fencing hqueued, hqueued]
  | finished => exact absurd rfl hi

/-- The end of a run completes the change that was fenced for. -/
theorem finishFencing_of_fencing (hfencing : d.fencing = true) {c : Change}
    (hcurrent : d.changes.current? = some c) :
    d.finishFencing.domain.fencing = false ∧ d.finishFencing.actions = [d.completeAction c] := by
  unfold finishFencing
  simp [hfencing, hcurrent]

end Domain

end ClusterFence
