import ClusterFence.Proofs.Daemon.Hearing

namespace ClusterFence

theorem FencingReport.resolutions_append (reports more : List FencingReport) :
    resolutions (reports ++ more) = resolutions reports ++ resolutions more :=
  List.filterMap_append

namespace Station

/-- What was carried out and what the run reported account for the victims of `d`, the domain that
    asked for the run, by the time of the COMPLETE that says `report`. Every victim that was still
    to be dealt with and had a history is reported on. No victim is reported on twice, and each as
    the run resolved it; one that was dealt with before, only because it is back. -/
structure AccountsFor (d : Domain) (actions : List Action) (reports : List FencingReport)
    (report : ChangeReport) : Prop where
  change : d.changes.current?.map (·.seq) = some report.seq
  every : ∀ node, d.victims.isOpen node = true → d.history.contains node = true →
    ∃ done ∈ Action.victimDones actions, done.2.node = node
  once : ((Action.victimDones actions).map (·.2.node)).Nodup
  resolvedOnce : ((FencingReport.resolutions reports).map (·.1)).Nodup
  faithful : ∀ done ∈ Action.victimDones actions,
    done.1 = report.seq ∧ done.2.fenceMaster = d.us ∧ done.2.node ∈ d.victims.ids ∧
      ∃ how, (done.2.node, how) ∈ FencingReport.resolutions reports ∧
        done.2.fenceHow = how.code ∧ (d.victims.isOpen done.2.node = false → how = .member)

/-- Where things stand while the run that was asked for is outstanding. The domain was `d` then, and
    `c` is the change; `actions` were carried out and `reports` made since. -/
structure Underway (d : Domain) (c : Change) (actions : List Action)
    (reports : List FencingReport) (s : Station) : Prop where
  abides : d.Abides s.daemon.domain
  dealt : ∃ heard,
    FencingReport.resolutions reports = heard ++ FencingReport.resolutions s.unheard ∧
    d.Dealt c.seq heard (Action.victimDones (actions ++ s.daemon.toPerform)) s.daemon.domain
  incomplete : ∀ a ∈ s.daemon.toPerform, a.completeSeq? = none
  nodup : ((FencingReport.resolutions reports).map (·.1)).Nodup
  fair : ∀ resolution ∈ FencingReport.resolutions reports, resolution.1 ∈ d.victims.ids ∧
    (d.victims.isOpen resolution.1 = false → resolution.2 = .member)
  missions : ∀ m ∈ s.missions, m.run.OnCourse d.victims ∧
    m.run.resolved = ((FencingReport.resolutions reports).map (·.1)).reverse
  begins : 0 < s.daemon.runsDue → FencingReport.resolutions reports = []
  ended : .finished ∈ s.unheard → ∀ node, d.victims.isOpen node = true →
    node ∈ (FencingReport.resolutions reports).map (·.1)

/-- Where things stand when the run has ended, and the COMPLETE is what is left to be done. -/
def Ending (d : Domain) (actions : List Action) (reports : List FencingReport) (s : Station) :
    Prop :=
  s.daemon.domain.fencing = false ∧ ∃ flags report,
    s.daemon.toPerform = [.send flags (.complete report)] ∧ AccountsFor d actions reports report

/-- The run is outstanding, or has ended. -/
def Awaited (d : Domain) (c : Change) (actions : List Action) (reports : List FencingReport)
    (s : Station) : Prop :=
  Underway d c actions reports s ∨ Ending d actions reports s

variable {d : Domain} {c : Change} {actions : List Action} {reports : List FencingReport}
  {s : Station}

/-- Once all resolutions are heard of, and every victim that was open is resolved, the reports on
    the victims are all there. -/
theorem Underway.accountsFor (h : Underway d c actions reports s)
    (hcurrent : d.changes.current? = some c) (hheard : FencingReport.resolutions s.unheard = [])
    (hidle : s.daemon.toPerform = []) (hended : ∀ node, d.victims.isOpen node = true →
      node ∈ (FencingReport.resolutions reports).map (·.1))
    {report : ChangeReport} (hreport : report.seq = c.seq) :
    AccountsFor d actions reports report := by
  obtain ⟨heard, hresolutions, hdealt⟩ := h.dealt
  rw [hheard, List.append_nil] at hresolutions
  rw [hidle, List.append_nil, ← hresolutions] at hdealt
  refine ⟨?_, ?_, ?_, h.nodup, ?_⟩
  · rw [hcurrent, Option.map_some, hreport]
  · intro node hopen hknown
    obtain ⟨resolution, hresolution, rfl⟩ := List.mem_map.1 (hended node hopen)
    exact hdealt.covers resolution hresolution hknown
  · have hnodes := hdealt.accounts.map (·.2.1)
    rw [List.map_map, List.map_map] at hnodes
    exact h.nodup.sublist hnodes
  · intro done hdone
    obtain ⟨⟨node, how⟩, hresolution, hdue⟩ :=
      List.mem_map.1 (hdealt.accounts.subset (List.mem_map_of_mem hdone))
    simp only [Domain.due, Domain.account, Prod.mk.injEq] at hdue
    obtain ⟨hseq, rfl, hmaster, hhow⟩ := hdue
    obtain ⟨hvictim, hmember⟩ := h.fair _ hresolution
    exact ⟨hseq.symm.trans hreport.symm, hmaster.symm, hvictim, how, hresolution, hhow.symm,
      hmember⟩

/-- Nothing is resolved that was not before, and nothing is heard of it. -/
theorem Underway.of_same (h : Underway d c actions reports s) {actions' : List Action}
    {s' : Station} (habides : d.Abides s'.daemon.domain)
    (hvictims : s'.daemon.domain.victims = s.daemon.domain.victims)
    (hdones : Action.victimDones (actions' ++ s'.daemon.toPerform) =
      Action.victimDones (actions ++ s.daemon.toPerform))
    (hincomplete : ∀ a ∈ s'.daemon.toPerform, a.completeSeq? = none)
    (hruns : s'.daemon.runsDue ≤ s.daemon.runsDue)
    (hunheard : FencingReport.resolutions s'.unheard = FencingReport.resolutions s.unheard)
    (hfinished : .finished ∈ s'.unheard → .finished ∈ s.unheard)
    (hmissions : ∀ m ∈ s'.missions, m ∈ s.missions ∨
      0 < s.daemon.runsDue ∧ m.run.resolved = [] ∧ m.run.stage = .starting) :
    Underway d c actions' reports s' := by
  refine ⟨habides, ?_, hincomplete, h.nodup, h.fair, ?_, fun hdue => h.begins (by omega),
    fun hends => h.ended (hfinished hends)⟩
  · obtain ⟨heard, hresolutions, hdealt⟩ := h.dealt
    refine ⟨heard, hunheard ▸ hresolutions, ?_⟩
    rw [hdones]
    exact hdealt.of_victims hvictims
  · intro m hm
    obtain hm | ⟨hdue, hresolved, hstage⟩ := hmissions m hm
    · exact h.missions m hm
    · rw [h.begins hdue, hresolved]
      exact ⟨by simp [FencingRun.OnCourse, hstage], rfl⟩

/-- The domain is told something that asks for nothing, and nothing was to be carried out. -/
theorem Underway.of_idle (h : Underway d c actions reports s) {s' : Station}
    (hbefore : s.daemon.toPerform = []) (hafter : s'.daemon.toPerform = [])
    (habides : d.Abides s'.daemon.domain)
    (hvictims : s'.daemon.domain.victims = s.daemon.domain.victims)
    (hunheard : FencingReport.resolutions s'.unheard = FencingReport.resolutions s.unheard)
    (hfinished : .finished ∈ s'.unheard → .finished ∈ s.unheard)
    (hmissions : s'.missions = s.missions) : Underway d c actions reports s' := by
  refine h.of_same habides hvictims ?_ ?_ ?_ hunheard hfinished fun m hm => .inl (hmissions ▸ hm)
  · rw [hbefore, hafter]
  · rw [hafter]
    exact List.forall_mem_nil _
  · rw [Daemon.runsDue_eq_countP, hafter, List.countP_nil]
    exact Nat.zero_le _

/-- What is due next is carried out. It may be that the run starts. -/
theorem underway_carries (h : Underway d c actions reports s) {a : Action} {s' : Station}
    (hdue : s.daemon.toPerform = a :: s'.daemon.toPerform)
    (hdomain : s'.daemon.domain = s.daemon.domain ∨ s'.daemon.domain = s.daemon.domain.setLeaving)
    (hunheard : s'.unheard = s.unheard)
    (hmissions : ∀ m ∈ s'.missions, m ∈ s.missions ∨
      a.startsRun = true ∧ m.run.resolved = [] ∧ m.run.stage = .starting) :
    Underway d c (actions ++ [a]) reports s' := by
  obtain ⟨habides, hvictims⟩ := h.abides.of_kept hdomain
  have hruns : s.daemon.runsDue =
      s'.daemon.runsDue + if a.startsRun = true then 1 else 0 := by
    rw [Daemon.runsDue_eq_countP, Daemon.runsDue_eq_countP, hdue, List.countP_cons]
  refine h.of_same habides hvictims ?_ ?_ (by omega) (by rw [hunheard]) (by simp [hunheard]) ?_
  · rw [hdue, List.append_assoc, List.singleton_append]
  · intro a' ha'
    exact h.incomplete a' (hdue ▸ List.mem_cons_of_mem _ ha')
  · intro m hm
    refine (hmissions m hm).imp_right fun ⟨hstarts, hm⟩ => ⟨?_, hm⟩
    rw [if_pos hstarts] at hruns
    omega

/-- The daemon does something that is not about its domain, or tells it of a fencing outside. -/
theorem underway_rests (h : Underway d c actions reports s) {s' : Station}
    (hdue : s'.daemon.toPerform = s.daemon.toPerform ∨
      s.daemon.toPerform = [] ∧ ∃ v, s'.daemon.toPerform = [Domain.externalAction v])
    (hdomain : s'.daemon.domain = s.daemon.domain ∨ s'.daemon.domain = s.daemon.domain.setLeaving)
    (hunheard : s'.unheard = s.unheard) (hmissions : s'.missions = s.missions) :
    Underway d c actions reports s' := by
  obtain ⟨habides, hvictims⟩ := h.abides.of_kept hdomain
  have hnew : Action.victimDones s'.daemon.toPerform = Action.victimDones s.daemon.toPerform ∧
      (∀ a ∈ s'.daemon.toPerform, a.completeSeq? = none) ∧
      s'.daemon.runsDue ≤ s.daemon.runsDue := by
    rw [Daemon.runsDue_eq_countP, Daemon.runsDue_eq_countP]
    obtain hdue | ⟨hidle, v, hdue⟩ := hdue
    · rw [hdue]
      exact ⟨rfl, h.incomplete, Nat.le_refl _⟩
    · rw [hdue, hidle]
      exact ⟨rfl, by simp [Domain.externalAction, Action.completeSeq?], Nat.le_refl _⟩
  refine h.of_same habides hvictims ?_ hnew.2.1 hnew.2.2 (by rw [hunheard]) (by simp [hunheard])
    fun m hm => .inl (hmissions ▸ hm)
  rw [Action.victimDones_append, Action.victimDones_append, hnew.1]

/-- A snapshot of the cluster comes. -/
theorem underway_cluster (h : Underway d c actions reports s) {now : Seconds}
    {cluster : ClusterSnapshot} {s' : Station} (hidle : s.daemon.toPerform = [])
    (hdue : s'.daemon.toPerform = (s.daemon.domain.updateCluster cluster now).actions)
    (hdomain : s'.daemon.domain = (s.daemon.domain.updateCluster cluster now).domain)
    (hunheard : s'.unheard = s.unheard) (hmissions : s'.missions = s.missions) :
    Underway d c actions reports s' := by
  have hupdate := Domain.updateCluster_of_fencing h.abides.fencing cluster now
  refine h.of_idle hidle ?_ ?_ ?_ (by rw [hunheard]) (by simp [hunheard]) hmissions
  · rw [hdue, hupdate]
  · exact hdomain ▸ h.abides.updateCluster cluster now
  · rw [hdomain, hupdate]

/-- The run has turned to a victim. -/
theorem underway_attempted (h : Underway d c actions reports s) {victim : NodeId} {s' : Station}
    (hidle : s.daemon.toPerform = []) (hdue : s'.daemon.toPerform = [])
    (hdomain : s'.daemon.domain = s.daemon.domain.attempt victim)
    (hunheard : s.unheard = .attempt victim :: s'.unheard) (hmissions : s'.missions = s.missions) :
    Underway d c actions reports s' := by
  refine h.of_idle hidle hdue ?_ ?_ ?_ (fun hends => ?_) hmissions
  · exact hdomain ▸ h.abides.attempted victim
  · rw [hdomain]
    rfl
  · rw [hunheard]
    rfl
  · rw [hunheard]
    exact List.mem_cons_of_mem _ hends

/-- A resolution is heard of, and reported to the domain when its victim has a history. -/
theorem underway_resolved (h : Underway d c actions reports s)
    (hkeyed : s.daemon.domain.history.Keyed) (hcurrent : d.changes.current? = some c)
    {now : Seconds} {victim : NodeId} {how : Resolution} {reduced : Bool} {s' : Station}
    (hidle : s.daemon.toPerform = [])
    (hdue : s'.daemon.toPerform = (s.daemon.domain.resolve victim how reduced now).actions)
    (hdomain : s'.daemon.domain = (s.daemon.domain.resolve victim how reduced now).domain)
    (hunheard : s.unheard = .resolved victim how reduced :: s'.unheard)
    (hmissions : s'.missions = s.missions) : Underway d c actions reports s' := by
  obtain ⟨heard, hresolutions, hdealt⟩ := h.dealt
  have hsilent : ∀ a ∈ s'.daemon.toPerform, a.completeSeq? = none ∧ a.startsRun = false := by
    intro a ha
    rw [hdue] at ha
    obtain ⟨flags, entry, hactions, -⟩ | ⟨-, hactions⟩ :=
      Domain.victimDones_resolve hkeyed (h.abides.changes ▸ hcurrent) victim how reduced now
    · rw [hactions, List.mem_singleton] at ha
      rw [ha]
      exact ⟨rfl, rfl⟩
    · rw [hactions] at ha
      cases ha
  constructor
  case abides => exact hdomain ▸ h.abides.resolve victim how reduced now
  case incomplete => exact fun a ha => (hsilent a ha).1
  case nodup => exact h.nodup
  case fair => exact h.fair
  case missions => exact hmissions ▸ h.missions
  case dealt =>
    refine ⟨heard ++ [(victim, how)], ?_, ?_⟩
    · rw [hresolutions, hunheard, List.append_assoc]
      rfl
    · rw [hidle, List.append_nil] at hdealt
      rw [hdomain, hdue, Action.victimDones_append]
      exact hdealt.resolve h.abides hkeyed hcurrent victim how reduced now
  case begins =>
    intro hpos
    obtain ⟨a, ha, hstarts⟩ := List.countP_pos_iff.1 (s'.daemon.runsDue_eq_countP ▸ hpos)
    rw [(hsilent a ha).2] at hstarts
    cases hstarts
  case ended =>
    intro hends
    refine h.ended ?_
    rw [hunheard]
    exact List.mem_cons_of_mem _ hends

/-- The end of the run is heard of: what is left to be done is the COMPLETE. -/
theorem ending_finished (h : Underway d c actions reports s)
    (hlast : s.unheard.Pairwise fun r _ => r ≠ .finished)
    (hcurrent : d.changes.current? = some c) {s' : Station} (hidle : s.daemon.toPerform = [])
    (hdue : s'.daemon.toPerform = s.daemon.domain.finishFencing.actions)
    (hdomain : s'.daemon.domain = s.daemon.domain.finishFencing.domain)
    (hunheard : s.unheard = .finished :: s'.unheard) : Ending d actions reports s' := by
  have hended := h.ended (hunheard ▸ List.mem_cons_self)
  have hresolutions : FencingReport.resolutions s.unheard = [] := by
    rw [hunheard, List.pairwise_cons] at hlast
    rw [hunheard, List.eq_nil_iff_forall_not_mem.2 fun later hlater => hlast.1 later hlater rfl]
    rfl
  have hdone := h.abides.changes ▸ hcurrent
  obtain ⟨hover, hactions⟩ := Domain.finishFencing_of_fencing h.abides.fencing hdone
  refine ⟨hdomain ▸ hover, _, s.daemon.domain.report c, hdue.trans hactions, ?_⟩
  exact h.accountsFor hcurrent hresolutions hidle hended rfl

/-- Whatever the daemon goes on with, the run is outstanding still or has ended. -/
theorem underway_feed (h : Underway d c actions reports s) (hsound : s.Sound)
    (hcurrent : d.changes.current? = some c) {now : Seconds} {more : List Action} {s' : Station}
    (hfeeds : s.Feeds now more s') :
    Awaited d c (actions ++ more) reports s' := by
  cases hfeeds with
  | carries due domain unheard missions =>
    exact .inl (underway_carries h due domain unheard missions)
  | rests due domain unheard missions =>
    rw [List.append_nil]
    exact .inl (underway_rests h due domain unheard missions)
  | hands idle due domain other unheard missions =>
    rw [List.append_nil]
    obtain ⟨cluster, rfl⟩ | ⟨hfencing, -⟩ := other
    · exact .inl (underway_cluster h idle due domain unheard missions)
    · rw [h.abides.fencing] at hfencing
      cases hfencing
  | @hears r _ idle due domain unheard missions =>
    rw [List.append_nil]
    cases r with
    | attempt victim => exact .inl (underway_attempted h idle due domain unheard missions)
    | resolved victim how reduced =>
      exact .inl (underway_resolved h hsound.keyed hcurrent idle due domain unheard missions)
    | finished => exact .inr (ending_finished h hsound.last hcurrent idle due domain unheard)

/-- The run sees the victims as they were when it was asked for, apart from those that it has
    resolved. -/
theorem Underway.sees (h : Underway d c actions reports s) {m : Mission} (hm : m ∈ s.missions)
    (cluster : Except Error ClusterSnapshot) :
    m.run.Sees d.victims (s.surroundings cluster) := by
  obtain ⟨heard, hresolutions, hdealt⟩ := h.dealt
  have happart : s.daemon.domain.victims.Apart d.victims m.run.resolved := by
    refine hdealt.victims.mono fun node hnode => ?_
    rw [(h.missions m hm).2, List.mem_reverse, hresolutions, List.map_append]
    exact List.mem_append_left _ hnode
  exact happart

/-- The run goes on. What it tells waits to be heard of. -/
theorem underway_conduct (h : Underway d c actions reports s) (hsound : s.Sound) {mission : Nat}
    {m : Mission} (hm : s.missions[mission]? = some m)
    {f : FencingRun → FencingRun × List RunEffect}
    (hcomes : FencingRun.Comes m.run d.victims (f m.run)) :
    Underway d c actions (reports ++ RunEffect.reports (f m.run).2) (s.conduct mission f) := by
  have hunheard := unheard_conduct hsound.accounted hm f
  have hconduct := hsound.accounted.conduct hm f
  have hmem := List.mem_of_getElem? hm
  have hresolved := (h.missions m hmem).2
  have htells := hcomes.tells
  obtain ⟨heard, hresolutions, hdealt⟩ := h.dealt
  constructor
  case abides => exact hconduct ▸ h.abides
  case incomplete => exact hconduct ▸ h.incomplete
  case dealt =>
    refine ⟨heard, ?_, hconduct ▸ hdealt⟩
    rw [hunheard, FencingReport.resolutions_append, FencingReport.resolutions_append,
      hresolutions, List.append_assoc]
  case nodup =>
    rw [FencingReport.resolutions_append, List.map_append]
    refine h.nodup.append htells.nodup ?_
    intro node hbefore hnode
    obtain ⟨resolution, hresolution, rfl⟩ := List.mem_map.1 hnode
    refine htells.fresh resolution hresolution ?_
    rw [hresolved]
    exact List.mem_reverse.2 hbefore
  case fair =>
    intro resolution hresolution
    rw [FencingReport.resolutions_append, List.mem_append] at hresolution
    exact hresolution.elim (h.fair resolution) (htells.fair resolution)
  case missions =>
    intro m' hm'
    rw [hconduct] at hm'
    dsimp only at hm'
    split at hm'
    · cases hm'
    · rename_i hgoes
      obtain ⟨hcourse, hremembered⟩ := htells.remembered hgoes
      rw [List.mem_singleton.1 hm', FencingReport.resolutions_append, List.map_append,
        List.reverse_append, ← hresolved]
      exact ⟨hcourse, hremembered⟩
  case begins =>
    intro hdue
    have hnone := (hsound.accounted.sole hmem).2.1
    rw [hconduct] at hdue
    exact absurd hnone (Nat.ne_of_gt hdue)
  case ended =>
    intro hends node hopen
    rw [FencingReport.resolutions_append, List.map_append]
    refine List.mem_append_left _ ?_
    rw [hunheard, List.mem_append] at hends
    obtain hends | hends := hends
    · exact h.ended hends node hopen
    · have hnode := htells.ended hends node hopen
      rw [hresolved, List.mem_reverse] at hnode
      exact hnode

/-- Nothing but the COMPLETE is left to be done. -/
theorem ending_feed (h : Ending d actions reports s) {now : Seconds} {more : List Action}
    {s' : Station} (hfeeds : s.Feeds now more s') (hmore : ∀ a ∈ more, a.completeSeq? = none) :
    Ending d (actions ++ more) reports s' := by
  obtain ⟨hfencing, flags, report, hdue, haccounts⟩ := h
  cases hfeeds with
  | @carries a _ due =>
    have ha := hmore a List.mem_cons_self
    rw [hdue, List.cons.injEq] at due
    rw [← due.1] at ha
    cases ha
  | hears idle => exact absurd idle (by simp [hdue])
  | hands idle => exact absurd idle (by simp [hdue])
  | rests due domain unheard missions =>
    rw [List.append_nil]
    refine ⟨?_, flags, report, ?_, haccounts⟩
    · obtain heq | heq := domain <;> rw [heq]
      · exact hfencing
      · exact hfencing
    · obtain due | ⟨idle, -⟩ := due
      · rw [due, hdue]
      · exact absurd idle (by simp [hdue])

end Station

end ClusterFence
