import ClusterFence.Proofs.Daemon.Underway

namespace ClusterFence

namespace Station

/-- What the domain asks for in a move. -/
def asks (s : Station) : Move → List Action
  | .daemon now answer snapshot =>
    match s.input? answer snapshot with
    | some input => (s.requests now input).map (·.2)
    | none => []
  | _ => []

/-- What the daemon carries out for its domain in a move. -/
def carries (s : Station) : Move → List Action
  | .daemon _ answer snapshot =>
    match s.input? answer snapshot with
    | some _ => s.daemon.carried?.toList
    | none => []
  | _ => []

/-- What a fencing run reports when it goes on by `f`. -/
def reportsOf (s : Station) (mission : Nat) (f : FencingRun → FencingRun × List RunEffect) :
    List FencingReport :=
  match s.missions[mission]? with
  | some m => RunEffect.reports (f m.run).2
  | none => []

/-- What the fencing runs report in a move. -/
def reportsIn (s : Station) : Move → List FencingReport
  | .turn mission clock cluster =>
    s.reportsOf mission (·.turn clock (s.surroundings cluster) s.isOpen)
  | .agent mission answer => s.reportsOf mission (·.agentDone s.isOpen answer)
  | .override mission overridden => s.reportsOf mission (·.overrideDone s.isOpen overridden)
  | _ => []

/-- What the daemon carries out for its domain in some moves. -/
def carried (s : Station) : List Move → List Action
  | [] => []
  | m :: rest => s.carries m ++ (s.move m).carried rest

/-- What the fencing runs report in some moves. -/
def reported (s : Station) : List Move → List FencingReport
  | [] => []
  | m :: rest => s.reportsIn m ++ (s.move m).reported rest

variable {d : Domain} {c : Change} {actions : List Action} {reports : List FencingReport}
  {s : Station}

theorem awaited_post (h : Awaited d c actions reports s) {e : DaemonEvent}
    (hreport : e.isReport = false) :
    Awaited d c actions reports { s with queue := s.queue ++ [e] } := by
  have hunheard := unheard_post (s := s) hreport
  refine h.imp (fun h => ?_) id
  refine ⟨h.abides, ?_, h.incomplete, h.nodup, h.fair, h.missions, h.begins, ?_⟩
  · rw [hunheard]
    exact h.dealt
  · rw [hunheard]
    exact h.ended

theorem awaited_conduct (h : Awaited d c actions reports s) (hsound : s.Sound) (mission : Nat)
    {f : FencingRun → FencingRun × List RunEffect}
    (hcomes : Underway d c actions reports s → ∀ m ∈ s.missions,
      FencingRun.Comes m.run d.victims (f m.run)) :
    Awaited d c actions (reports ++ s.reportsOf mission f) (s.conduct mission f) := by
  unfold reportsOf
  cases hm : s.missions[mission]? with
  | none =>
    have hsame : s.conduct mission f = s := by
      unfold Station.conduct
      rw [hm]
    rw [hsame, List.append_nil]
    exact h
  | some m =>
    have hmem := List.mem_of_getElem? hm
    obtain h | h := h
    · exact .inl (underway_conduct h hsound hm (hcomes h m hmem))
    · -- no run is left
      have hfencing := hsound.accounted.fencing_of_mission hmem
      rw [h.1] at hfencing
      cases hfencing

/-- What stands so stays so in every move that does not carry out the COMPLETE. -/
theorem awaited_move (h : Awaited d c actions reports s) (hsound : s.Sound)
    (hnodup : d.victims.ids.Nodup) (hcurrent : d.changes.current? = some c) (m : Move)
    (hmore : ∀ a ∈ s.carries m, a.completeSeq? = none) :
    Awaited d c (actions ++ s.carries m) (reports ++ s.reportsIn m) (s.move m) := by
  cases m with
  | post e =>
    simp only [move, carries, reportsIn, List.append_nil]
    split
    · exact h
    · rename_i hopen
      simp only [Bool.or_eq_true, not_or, Bool.not_eq_true] at hopen
      exact awaited_post h hopen.1
  | daemon now answer snapshot =>
    simp only [move, carries, reportsIn, List.append_nil] at hmore ⊢
    cases hinput : s.input? answer snapshot with
    | none =>
      rw [List.append_nil]
      exact h
    | some input =>
      rw [hinput] at hmore
      have hfeeds := feeds_feed hsound.arranged hinput now
      obtain h | h := h
      · exact underway_feed h hsound hcurrent hfeeds
      · exact .inr (ending_feed h hfeeds hmore)
  | turn mission clock cluster =>
    simp only [move, carries, reportsIn, List.append_nil]
    refine awaited_conduct h hsound mission fun h m hm => ?_
    exact FencingRun.comes_turn hnodup (h.sees hm cluster) (h.missions m hm).1 clock _
  | agent mission outcome =>
    simp only [move, carries, reportsIn, List.append_nil]
    refine awaited_conduct h hsound mission fun h m hm => ?_
    exact FencingRun.comes_agentDone (h.missions m hm).1 _ outcome
  | override mission overridden =>
    simp only [move, carries, reportsIn, List.append_nil]
    refine awaited_conduct h hsound mission fun h m hm => ?_
    exact FencingRun.comes_overrideDone (h.missions m hm).1 _ overridden

theorem awaited_play (h : Awaited d c actions reports s) (hsound : s.Sound)
    (hnodup : d.victims.ids.Nodup) (hcurrent : d.changes.current? = some c) {moves : List Move}
    (hmore : ∀ a ∈ s.carried moves, a.completeSeq? = none) :
    Awaited d c (actions ++ s.carried moves) (reports ++ s.reported moves) (s.play moves) := by
  induction moves generalizing s actions reports with
  | nil => simpa [carried, reported, play] using h
  | cons m rest ih =>
    rw [carried] at hmore
    have hmove := awaited_move h hsound hnodup hcurrent m fun a ha =>
      hmore a (List.mem_append_left _ ha)
    have hrest := ih hmove (sound_move hsound m) fun a ha => hmore a (List.mem_append_right _ ha)
    rwa [List.append_assoc, List.append_assoc] at hrest

/-- A run is asked for when nothing is left of the one before. -/
theorem underway_opens (hsound : s.Sound) {opening : Move} {nodesJoined : Bool}
    (hopens : .startFencing nodesJoined ∈ s.asks opening) :
    let s' := s.move opening
    ∃ c, s'.daemon.domain.changes.current? = some c ∧ Underway s'.daemon.domain c [] [] s' := by
  cases opening with
  | daemon now answer snapshot =>
    simp only [asks, move] at hopens ⊢
    cases hinput : s.input? answer snapshot with
    | none => simp [hinput] at hopens
    | some input =>
      simp only [hinput, requests] at hopens ⊢
      cases hhanded : s.daemon.handed? input with
      | none => simp [hhanded] at hopens
      | some i =>
        have hasked : .startFencing nodesJoined ∈ (s.daemon.domain.step now i).1.actions := by
          simpa [hhanded] using hopens
        have hopens := Domain.opens_turn (s.daemon.domain.turn_step now i) hasked
        obtain ⟨hidle, hdue⟩ :=
          (Daemon.performs_step hsound.arranged now input).handed i hhanded
        have hdomain : (s.feed now input).daemon.domain = (s.daemon.domain.step now i).1.domain :=
          ((s.daemon.steps_step now input).handed i hhanded).1
        have hmissions : (s.feed now input).missions = [] := by
          rw [missions_feed_of_idle hsound.arranged (Daemon.carried?_of_toPerform_nil hidle)]
          refine List.eq_nil_iff_forall_not_mem.2 fun m hm => ?_
          have hfencing := hsound.accounted.fencing_of_mission hm
          rw [hopens.idle] at hfencing
          cases hfencing
        have hunheard : (s.feed now input).unheard = [] := by
          have hsilent := hsound.silent hopens.idle
          obtain ⟨r, -, hheard⟩ | ⟨-, hsame⟩ := unheard_feed hinput now
          · rw [hsilent] at hheard
            cases hheard
          · rw [hsame, hsilent]
        have hdones : Action.victimDones (s.feed now input).daemon.toPerform = [] :=
          List.filterMap_eq_nil_iff.2 fun a ha => (hopens.silent a (hdue ▸ ha)).1
        obtain ⟨c, hcurrent⟩ := hopens.current
        refine ⟨c, hdomain ▸ hcurrent, ?_⟩
        constructor
        case abides => exact Domain.abides_self (hdomain ▸ hopens.fencing)
        case dealt =>
          refine ⟨[], ?_, ?_⟩
          · rw [hunheard]
            rfl
          · rw [List.nil_append, hdones]
            exact Domain.dealt_self _ _
        case incomplete => exact fun a ha => (hopens.silent a (hdue ▸ ha)).2
        case nodup => exact .nil
        case fair => exact List.forall_mem_nil _
        case missions => simp [hmissions]
        case begins => exact fun _ => rfl
        case ended => simp [hunheard]
  | _ => simp [asks] at hopens

theorem due_of_mem_carries {m : Move} {a : Action} (h : a ∈ s.carries m) :
    ∃ rest, s.daemon.toPerform = a :: rest := by
  cases m with
  | daemon now answer snapshot =>
    simp only [carries] at h
    split at h
    · exact Daemon.toPerform_of_carried? (Option.mem_toList.1 h)
    · cases h
  | _ => cases h

/-- Between the action that asks for a fencing run and the COMPLETE that is carried out next, the
    reports on the victims are those that they should be, and so the COMPLETE comes after all of
    them. Once the run has ended there is nothing but that COMPLETE to carry out. -/
theorem accountsFor_play (config : Config) (overridable : Bool) (before : List Move)
    (opening : Move) (during : List Move) {nodesJoined : Bool}
    (hopens : .startFencing nodesJoined ∈ ((new config overridable).play before).asks opening) :
    let s := ((new config overridable).play before).move opening
    (∀ a ∈ s.carried during, a.completeSeq? = none) →
    ((s.play during).daemon.domain.fencing = false → ∃ flags report,
      (s.play during).daemon.toPerform = [.send flags (.complete report)] ∧
        AccountsFor s.daemon.domain (s.carried during) (s.reported during) report) ∧
    ∀ closing flags report, .send flags (.complete report) ∈ (s.play during).carries closing →
      AccountsFor s.daemon.domain (s.carried during) (s.reported during) report := by
  intro s hduring
  have hbefore := sound_play config overridable before
  have hsound : s.Sound := sound_move hbefore opening
  obtain ⟨c, hcurrent, hunderway⟩ := underway_opens hbefore hopens
  have hawaited := awaited_play (.inl hunderway) hsound hsound.nodup hcurrent hduring
  constructor
  · intro hover
    obtain hunderway | ⟨-, flags, report, hdue, haccounts⟩ := hawaited
    · rw [hunderway.abides.fencing] at hover
      cases hover
    · exact ⟨flags, report, hdue, haccounts⟩
  · intro closing flags report hcloses
    obtain ⟨rest, hdue⟩ := due_of_mem_carries hcloses
    obtain hunderway | ⟨-, flags', report', hlast, haccounts⟩ := hawaited
    · have hincomplete := hunderway.incomplete _ (hdue ▸ List.mem_cons_self)
      cases hincomplete
    · rw [hdue] at hlast
      simp only [List.cons.injEq, Action.send.injEq, Message.complete.injEq] at hlast
      rw [hlast.1.2]
      exact haccounts

/-- Node 1 of two, with time for the victims to come back. -/
def returnConfig : Config :=
  { Config.forNode 1 "node1" with
    domain := { nodes := [⟨1, "node1"⟩, ⟨2, "node2"⟩] }
    fencing := { postJoinDelay := 1 } }

/-- The cluster as node 1 sees it. -/
def returnSnapshot (nodes : List NodeId) : Except Error ClusterSnapshot :=
  .ok { quorate := true, ringSeq := 1, nodes := nodes.map (⟨·, "", true, 1⟩) }

/-- The START of a node that counts the given members. -/
def returnStart (sender : NodeId) (flags : MessageFlags) (seq : UInt32) (summary : ChangeSummary)
    (members : List NodeId) : Move :=
  let entries := members.map ({ node := ·, flags := NodeEntry.memberFlag })
  let start : Envelope := ⟨{ sender, flags }, .start { seq, summary, entries }⟩
  .post (.group returnConfig.domainGroup (.deliver sender start.encode))

/-- The daemon goes on for some steps. -/
def returnSteps (steps : Nat) (nodes : List NodeId) : List Move :=
  List.replicate steps (.daemon 1002 (.ok ()) (returnSnapshot nodes))

/-- The run goes on for some steps. -/
def returnTurns (turns clock : Nat) : List Move :=
  List.replicate turns (.turn 0 clock (returnSnapshot [1, 2]))

/-- Node 1 fences node 2, which is absent, and completes its change, but its report on node 2 does
    not come back to it. Then node 2 is back, and node 3 fails, of which nothing is known. -/
def returnBefore : List Move :=
  let domain (e : GroupEvent) : Move := .post (.group returnConfig.domainGroup e)
  let daemon (e : GroupEvent) : Move := .post (.group .daemon e)
  let offer : Envelope := ⟨{ sender := 2 }, .protocol { max := Version.highest }⟩
  [domain (.ring 1 1), domain (.membership ⟨[⟨1, .join⟩], [], [⟨1, .join⟩]⟩)] ++
  returnSteps 6 [1] ++
  [returnStart 1 .joining 1 { counts := { members := 1, joined := 1 } } [1]] ++
  returnSteps 3 [1] ++ returnTurns 1 0 ++ returnTurns 6 1000 ++
  [.agent 0 (.done {})] ++ returnTurns 1 1000 ++ returnSteps 9 [1] ++
  [daemon (.membership ⟨[⟨1, .join⟩, ⟨2, .join⟩], [], [⟨2, .join⟩]⟩),
   daemon (.deliver 2 offer.encode), .post .clusterChanged,
   domain (.membership ⟨[⟨1, .join⟩, ⟨2, .join⟩], [⟨3, .nodeDown⟩], [⟨2, .join⟩]⟩)] ++
  returnSteps 10 [1, 2] ++
  [returnStart 1 .complete 2 ⟨1, ⟨2, 1, 1, 1⟩⟩ [1, 2],
   returnStart 2 .joining 1 ⟨0, ⟨2, 1, 1, 1⟩⟩ [1, 2]] ++ returnSteps 2 [1, 2]

/-- Everybody has started, and node 1 is to fence. -/
def returnOpening : Move := .daemon 1002 (.ok ()) (returnSnapshot [1, 2])

/-- Node 2 is found to be back, and the cluster tells of node 3 while it is being fenced. -/
def returnDuring : List Move :=
  returnSteps 2 [1, 2] ++ returnTurns 1 0 ++ returnTurns 7 1000 ++ [.post .clusterChanged] ++
  returnSteps 8 [1, 2, 3] ++ [.agent 0 (.done {})] ++ returnTurns 1 1000 ++
  returnSteps 5 [1, 2]

/-- The second run accounts for its victims, node 2 and node 3. -/
theorem accountsFor_play_return :
    let s := ((new returnConfig false).play returnBefore).move returnOpening
    .startFencing true ∈ ((new returnConfig false).play returnBefore).asks returnOpening ∧
      (∀ a ∈ s.carried returnDuring, a.completeSeq? = none) ∧
      (s.play returnDuring).daemon.domain.fencing = false ∧
      ∃ flags report,
        .send flags (.complete report) ∈ (s.play returnDuring).carries returnOpening ∧
        AccountsFor s.daemon.domain (s.carried returnDuring) (s.reported returnDuring) report := by
  have hopens : .startFencing true ∈
      ((new returnConfig false).play returnBefore).asks returnOpening := by decide +kernel
  have hplay := accountsFor_play returnConfig false returnBefore returnOpening returnDuring hopens
  have hfacts :
      let s := ((new returnConfig false).play returnBefore).move returnOpening
      (∀ a ∈ s.carried returnDuring, a.completeSeq? = none) ∧
        (s.play returnDuring).daemon.domain.fencing = false ∧
        ((s.play returnDuring).carries returnOpening).head? =
          (s.play returnDuring).daemon.toPerform.head? := by
    decide +kernel
  -- the station is named once its facts are evaluated
  generalize ((new returnConfig false).play returnBefore).move returnOpening = s at hplay hfacts ⊢
  obtain ⟨hduring, hover, hcloses⟩ := hfacts
  obtain ⟨flags, report, hdue, -⟩ := (hplay hduring).1 hover
  rw [hdue] at hcloses
  have hmem := List.mem_of_head? hcloses
  exact ⟨hopens, hduring, hover, flags, report, hmem, (hplay hduring).2 _ flags report hmem⟩

/-- It reports on victims besides those that were still to be dealt with and had a history when it
    was asked for: node 2 was dealt with before, and node 3 had no history. -/
theorem return_reports_others :
    let s := ((new returnConfig false).play returnBefore).move returnOpening
    let dones := Action.victimDones (s.carried returnDuring)
    .startFencing true ∈ ((new returnConfig false).play returnBefore).asks returnOpening ∧
      (∀ a ∈ s.carried returnDuring, a.completeSeq? = none) ∧
      (∃ a ∈ (s.play returnDuring).carries returnOpening, a.completeSeq? ≠ none) ∧
      (∃ done ∈ dones, s.daemon.domain.victims.isOpen done.2.node = false) ∧
      ∃ done ∈ dones, s.daemon.domain.history.contains done.2.node = false := by
  decide +kernel

end Station

end ClusterFence
