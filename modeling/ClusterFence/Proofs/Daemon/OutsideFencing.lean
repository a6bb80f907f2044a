import ClusterFence.Proofs.Daemon.Outstanding
import ClusterFence.Proofs.Fencing.Checks
import ClusterFence.Proofs.History

namespace ClusterFence

/-- While fencing is outstanding, what is handed to a domain tells it of no fencing outside. -/
theorem Domain.fencedOutside_step_of_report {d : Domain} (report : FencingReport) (now : Seconds)
    (victim : NodeId) : (d.step now report.input).1.domain.history.fencedOutside victim =
      d.history.fencedOutside victim := by
  cases report with
  | attempt node => rfl
  | resolved node how reduced =>
    simp only [FencingReport.input, step, resolve_domain]
    exact History.fencedOutside_recordFenced _ _ _ _ _ _
  | finished =>
    simp only [FencingReport.input, step, finishFencing]
    split <;> rfl

theorem Domain.fencedOutside_step_cluster (d : Domain) (s : ClusterSnapshot) (now : Seconds)
    (victim : NodeId) : (d.step now (.cluster s)).1.domain.history.fencedOutside victim =
      d.history.fencedOutside victim := by
  simp only [step, updateCluster, Reaction.after, advance_history]
  exact History.fencedOutside_updateHistory _ _ _ _ _

/-- A notice that is taken up counts when it is later than the victim's last START. -/
theorem Domain.fencedOutside_step_message {d : Domain} {e : Envelope} {victim : NodeId}
    {n : NodeHistory} {now : Seconds} (he : e.message = .external victim)
    (hn : d.history.get? victim = some n) (hlater : n.addTime < now) :
    (d.step now (.message e)).1.domain.history.fencedOutside victim = true := by
  simp only [step, receive, Reaction.after, advance_history, accept, he, receiveExternal]
  exact History.fencedOutside_recordExternal hn hlater _

namespace Daemon

variable {d : Daemon} {now : Seconds} {input : DaemonInput}

/-- Fencing outstanding keeps the notices of the domain group away from the histories. -/
theorem fencedOutside_step (hfencing : d.domain.fencing = true) (victim : NodeId) :
    (d.step now input).1.domain.history.fencedOutside victim =
      d.domain.history.fencedOutside victim := by
  have hsteps := d.steps_step now input
  cases hhanded : d.handed? input with
  | none =>
    obtain hdomain | hdomain := (hsteps.kept hhanded).1 <;> rw [hdomain]
    rfl
  | some i =>
    rw [(hsteps.handed i hhanded).1]
    obtain ⟨report, -, rfl⟩ | ⟨s, rfl⟩ | ⟨hidle, -⟩ := handed?_cases hhanded
    · exact Domain.fencedOutside_step_of_report report now victim
    · exact d.domain.fencedOutside_step_cluster s now victim
    · simp [hfencing] at hidle

/-- An event of the domain group is put aside while fencing is outstanding. -/
theorem step_heldBack (hfencing : d.domain.fencing = true) (hagenda : d.agenda = [])
    (event : GroupEvent) : (d.step now (.event (.group d.config.domainGroup event))).1 =
      { d with backlog := d.backlog ++ [event] } := by
  have hname : (d.config.domainGroup == GroupName.daemon) = false := rfl
  simp [step, hagenda, receive, hname, hfencing]

end Daemon

namespace Station

/-- Each run knows of the fencing outside what was known when it was started. -/
def Informed (s : Station) : Prop :=
  ∀ m ∈ s.missions, ∀ victim,
    s.daemon.domain.history.fencedOutside victim = m.begun.fencedOutside victim

variable {s : Station}

theorem informed_feed (haccounted : s.Accounted) (h : s.Informed) (now : Seconds)
    (input : DaemonInput) : (s.feed now input).Informed := by
  intro m hm victim
  obtain hm | hm := List.mem_append.1 hm
  · have hfencing := haccounted.fencing_of_mission hm
    rw [daemon_feed, Daemon.fencedOutside_step hfencing]
    exact h m hm victim
  · obtain ⟨run, -, rfl⟩ := List.mem_map.1 hm
    rfl

theorem informed_conduct (h : s.Informed) (mission : Nat)
    (f : FencingRun → FencingRun × List RunEffect) : (s.conduct mission f).Informed := by
  unfold conduct
  split
  · exact h
  · rename_i m hm
    intro m' hm' victim
    dsimp only at hm'
    split at hm'
    · exact h m' (List.mem_of_mem_eraseIdx hm') victim
    · obtain hm' | rfl := List.mem_or_eq_of_mem_set hm'
      · exact h m' hm' victim
      · exact h m (List.mem_of_getElem? hm) victim

theorem informed_move (haccounted : s.Accounted) (h : s.Informed) (m : Move) :
    (s.move m).Informed := by
  cases m with
  | post e =>
    simp only [move]
    split <;> exact h
  | daemon now answer snapshot =>
    simp only [move]
    split
    · exact informed_feed haccounted h now _
    · exact h
  | turn mission _ _ | agent mission _ | override mission _ => exact informed_conduct h mission _

theorem informed_play (config : Config) (overridable : Bool) (moves : List Move) :
    ((new config overridable).play moves).Informed := by
  have hinitial : (new config overridable).Accounted ∧ (new config overridable).Informed :=
    ⟨accounted_new config overridable, by simp [Informed, new]⟩
  refine (play_induction (P := fun s => s.Accounted ∧ s.Informed) ?_ hinitial moves).2
  intro s m h
  exact ⟨accounted_move m h.1, informed_move h.1 h.2 m⟩

/-- How fencing outside the domain bears on a run under way. An event of the domain group is put
    aside and changes nothing else, so the run goes by what was known when it was started. It only
    resolves as fenced outside who was so then; when it looks at such a victim it resolves it
    without calling the agent, and for any other that is not back it calls the agent. -/
structure GoesBy (s : Station) (m : Mission) : Prop where
  heldBack : ∀ now event, s.daemon.agenda = [] →
    (s.daemon.step now (.event (.group s.daemon.config.domainGroup event))).1 =
      { s.daemon with backlog := s.daemon.backlog ++ [event] }
  known : ∀ victim,
    s.daemon.domain.history.fencedOutside victim = m.begun.fencedOutside victim
  external_turn : ∀ victim reduced clock cluster,
    .report (.resolved victim .external reduced) ∈
      (m.run.turn clock (s.surroundings cluster) s.isOpen).2 →
    m.begun.fencedOutside victim = true
  external_agent : ∀ victim reduced outcome,
    .report (.resolved victim .external reduced) ∉ (m.run.agentDone s.isOpen outcome).2
  external_override : ∀ victim reduced overridden,
    .report (.resolved victim .external reduced) ∉ (m.run.overrideDone s.isOpen overridden).2
  look : ∀ t rest clock cluster, m.run.stage = .trying t rest → s.isOpen = true →
    let effects := (m.run.turn clock (s.surroundings cluster) s.isOpen).2
    if m.begun.fencedOutside t.victim then
      .report (.resolved t.victim .external false) ∈ effects ∧
        ∀ victim name, .callAgent victim name ∉ effects
    else if (s.surroundings cluster).isBack t.victim then
      .report (.resolved t.victim .member false) ∈ effects ∧
        ∀ victim name, .callAgent victim name ∉ effects
    else .callAgent t.victim t.name ∈ effects

theorem goesBy_look {m : Mission} (hknown : ∀ victim,
      s.daemon.domain.history.fencedOutside victim = m.begun.fencedOutside victim)
    {t : Trial} {rest : List NodeId} (hstage : m.run.stage = .trying t rest)
    (hopen : s.isOpen = true) (clock : Nat) (cluster : Except Error ClusterSnapshot) :
    let effects := (m.run.turn clock (s.surroundings cluster) s.isOpen).2
    if m.begun.fencedOutside t.victim then
      .report (.resolved t.victim .external false) ∈ effects ∧
        ∀ victim name, .callAgent victim name ∉ effects
    else if (s.surroundings cluster).isBack t.victim then
      .report (.resolved t.victim .member false) ∈ effects ∧
        ∀ victim name, .callAgent victim name ∉ effects
    else .callAgent t.victim t.name ∈ effects := by
  have hturn : m.run.turn clock (s.surroundings cluster) s.isOpen =
      m.run.check (s.surroundings cluster) true t rest := by
    simp [FencingRun.turn, hstage, hopen]
  have hseen : (s.surroundings cluster).history.fencedOutside t.victim =
      m.begun.fencedOutside t.victim := hknown t.victim
  dsimp only
  rw [hturn]
  split
  · rename_i houtside
    exact FencingRun.check_averted (Surroundings.averted?_of_fencedOutside (hseen.trans houtside))
  · rename_i hinside
    rw [Bool.not_eq_true] at hinside
    have haverted := Surroundings.averted?_of_not_fencedOutside (hseen.trans hinside)
    split
    · rename_i hback
      rw [if_pos hback] at haverted
      exact FencingRun.check_averted haverted
    · rename_i hback
      rw [if_neg hback] at haverted
      exact FencingRun.check_not_averted haverted

/-- In every run of a station, every fencing run goes by the notices that were taken up before it
    was started. A notice counts from when it is taken up, if it is later than the victim's last
    START. -/
theorem goesBy_play (config : Config) (overridable : Bool) (moves : List Move) :
    let s := (new config overridable).play moves
    (∀ m ∈ s.missions, s.GoesBy m) ∧
      ∀ (d : Domain) (e : Envelope) (victim : NodeId) (n : NodeHistory) (now : Seconds),
        e.message = .external victim → d.history.get? victim = some n → n.addTime < now →
        (d.step now (.message e)).1.domain.history.fencedOutside victim = true := by
  intro s
  refine ⟨fun m hm => ?_, fun d e victim n now => Domain.fencedOutside_step_message⟩
  have hfencing := (accounted_play config overridable moves).fencing_of_mission hm
  have hknown := informed_play config overridable moves m hm
  refine ⟨fun now event hagenda => Daemon.step_heldBack hfencing hagenda event, hknown, ?_, ?_, ?_,
    ?_⟩
  · intro victim reduced clock cluster hresolved
    rw [← hknown victim]
    exact FencingRun.fencedOutside_of_turn hresolved
  · intro victim reduced outcome
    exact FencingRun.not_external_agentDone
  · intro victim reduced overridden
    exact FencingRun.not_external_overrideDone
  · intro t rest clock cluster hstage hopen
    exact goesBy_look hknown hstage hopen clock cluster

/-- Node 1 of two; node 2 is not there, and no administrator can help. -/
def absentConfig : Config :=
  { Config.forNode 1 "node1" with
    domain := { nodes := [⟨1, "node1"⟩, ⟨2, "node2"⟩] }
    fencing := { postJoinDelay := 0, postFailDelay := 0 } }

/-- The cluster as node 1 sees it when node 2 is not there. -/
def absentSnapshot : Except Error ClusterSnapshot :=
  .ok { quorate := true, ringSeq := 1, nodes := [⟨1, "node1", true, 1⟩, ⟨2, "node2", false, 1⟩] }

/-- The notice of node 3 that node 2 was fenced outside the domain. -/
def outsideNotice : GroupEvent := .deliver 3 (Envelope.encode ⟨{ sender := 3 }, .external 2⟩)

/-- Node 1 joins, and its run has tried in vain to fence node 2 when the notice is there. -/
def noticeWhileRetrying : List Move :=
  let next : Move := .daemon 1002 (.ok ()) absentSnapshot
  let turn : Move := .turn 0 0 absentSnapshot
  let event (e : GroupEvent) : Move := .post (.group absentConfig.domainGroup e)
  let joined : Membership :=
    { members := [⟨1, .join⟩], left := [], joined := [⟨1, .join⟩] }
  let report : ChangeReport :=
    { seq := 1
      summary := { counts := { members := 1, joined := 1 } }
      entries := [{ node := 1, flags := NodeEntry.memberFlag }, { node := 2 }] }
  let start : Envelope := ⟨{ sender := 1, flags := .joining }, .start report⟩
  [next, next, event (.ring 1 1), next, event (.membership joined), next, next, next,
   event (.deliver 1 start.encode), next, next, next, turn, turn, turn, turn, next, next,
   .agent 0 (.crashed "killed"), event outsideNotice]

/-- What a run does next that pauses between two tries to fence a victim. -/
def nextLook (s : Station) (cluster : Except Error ClusterSnapshot) (m : Mission) :
    List RunEffect :=
  let ready := (m.run.turn 0 (s.surroundings cluster) s.isOpen).1
  (ready.turn 0 (s.surroundings cluster) s.isOpen).2

/-- A run that is retrying does not hear of a notice that is taken up meanwhile: at its next look it
    calls the agent again. -/
theorem retry_misses_notice :
    ¬ ∀ (config : Config) (overridable : Bool) (moves : List Move) (sender : NodeId)
        (data : List UInt8) (e : Envelope) (victim : NodeId) (now : Seconds)
        (cluster : Except Error ClusterSnapshot),
        let s := (new config overridable).play moves
        let notice := DaemonEvent.group config.domainGroup (.deliver sender data)
        s.daemon.wants = .event → s.queue.head? = some notice →
        (Envelope.decode data sender s.daemon.daemons.running?).toOption = some e →
        e.message = .external victim →
        (s.daemon.domain.history.get? victim).any (·.addTime < now) = true →
        ∀ m ∈ s.missions, m.run.retrying? = some victim →
          ∀ name, .callAgent victim name ∉ (s.feed now (.event notice)).nextLook cluster m := by
  intro hclaim
  let s := (new absentConfig false).play noticeWhileRetrying
  have hcalls : ∃ m ∈ s.missions, m.run.retrying? = some 2 ∧
      .callAgent 2 "node2" ∈
        (s.feed 1005 (.event (.group absentConfig.domainGroup outsideNotice))).nextLook
          absentSnapshot m := by
    decide +kernel
  obtain ⟨m, hm, hretrying, hcall⟩ := hcalls
  exact hclaim absentConfig false noticeWhileRetrying 3 _ ⟨{ sender := 3 }, .external 2⟩ 2 1005
    absentSnapshot (by decide +kernel) (by decide +kernel) (by decide +kernel) rfl
    (by decide +kernel) m hm hretrying "node2" hcall

end Station

end ClusterFence
