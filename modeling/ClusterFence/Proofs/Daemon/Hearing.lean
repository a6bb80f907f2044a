import ClusterFence.Proofs.Daemon.Agenda
import ClusterFence.Proofs.Daemon.Outstanding
import ClusterFence.Proofs.Domain.Fencing
import ClusterFence.Proofs.Domain.Forgetting
import ClusterFence.Proofs.Domain.Histories
import ClusterFence.Proofs.Fencing.Resolving

namespace ClusterFence

/-- The report of a fencing run that an event brings. -/
def DaemonEvent.report? : DaemonEvent → Option FencingReport
  | .fencing r => some r
  | _ => none

theorem Daemon.agenda_of_wants_event {d : Daemon} (h : d.wants = .event) : d.agenda = [] := by
  unfold wants at h
  split at h
  · cases h
  · split at h <;> first | assumption | cases h

namespace Station

/-- The reports that the daemon has not heard of yet, oldest first. -/
def unheard (s : Station) : List FencingReport := s.queue.filterMap DaemonEvent.report?

section

variable {s : Station} {answer : Answer} {snapshot : Except Error ClusterSnapshot}
  {input : DaemonInput}

theorem mem_queue_of_mem_unheard {r : FencingReport} (h : r ∈ s.unheard) :
    .fencing r ∈ s.queue := by
  obtain ⟨e, he, hr⟩ := List.mem_filterMap.1 h
  cases e with
  | fencing r' =>
    rw [DaemonEvent.report?, Option.some.injEq] at hr
    exact hr ▸ he
  | _ => cases hr

/-- An event is taken up when there is nothing else to do. -/
theorem agenda_of_event {e : DaemonEvent} (h : s.input? answer snapshot = some (.event e)) :
    s.daemon.agenda = [] := by
  apply Daemon.agenda_of_wants_event
  unfold input? at h
  split at h
  · assumption
  all_goals cases h

theorem unheard_feed (hinput : s.input? answer snapshot = some input) (now : Seconds) :
    (∃ r, input = .event (.fencing r) ∧ s.unheard = r :: (s.feed now input).unheard) ∨
      (∀ r, input ≠ .event (.fencing r)) ∧ (s.feed now input).unheard = s.unheard := by
  unfold unheard
  rw [queue_feed]
  obtain ⟨e, rfl, hqueue⟩ | ⟨hother, hqueue⟩ := queue_of_input? hinput
  · rw [hqueue]
    cases e with
    | fencing r => exact .inl ⟨r, rfl, rfl⟩
    | _ => exact .inr ⟨by simp, rfl⟩
  · exact .inr ⟨fun r => hother _, by rw [hqueue]⟩

end

/-- What becomes of a station when its daemon goes on: it carries out what is due next, or hears of
    its run, or hands its domain something else, or does something that is not about its domain. -/
inductive Feeds (s : Station) (now : Seconds) : List Action → Station → Prop
  | carries {a s'} (due : s.daemon.toPerform = a :: s'.daemon.toPerform)
      (domain : s'.daemon.domain = s.daemon.domain ∨ s'.daemon.domain = s.daemon.domain.setLeaving)
      (unheard : s'.unheard = s.unheard)
      (missions : ∀ m ∈ s'.missions, m ∈ s.missions ∨
        a.startsRun = true ∧ m.run.resolved = [] ∧ m.run.stage = .starting) : Feeds s now [a] s'
  | hears {r s'} (idle : s.daemon.toPerform = [])
      (due : s'.daemon.toPerform = (s.daemon.domain.step now r.input).1.actions)
      (domain : s'.daemon.domain = (s.daemon.domain.step now r.input).1.domain)
      (unheard : s.unheard = r :: s'.unheard) (missions : s'.missions = s.missions) :
      Feeds s now [] s'
  | hands {i s'} (idle : s.daemon.toPerform = [])
      (due : s'.daemon.toPerform = (s.daemon.domain.step now i).1.actions)
      (domain : s'.daemon.domain = (s.daemon.domain.step now i).1.domain)
      (input : (∃ c, i = .cluster c) ∨ s.daemon.domain.fencing = false ∧ i ≠ .finished)
      (unheard : s'.unheard = s.unheard) (missions : s'.missions = s.missions) : Feeds s now [] s'
  | rests {s'} (due : s'.daemon.toPerform = s.daemon.toPerform ∨
        s.daemon.toPerform = [] ∧ ∃ v, s'.daemon.toPerform = [Domain.externalAction v])
      (domain : s'.daemon.domain = s.daemon.domain ∨ s'.daemon.domain = s.daemon.domain.setLeaving)
      (unheard : s'.unheard = s.unheard) (missions : s'.missions = s.missions) : Feeds s now [] s'

variable {s : Station} {answer : Answer} {snapshot : Except Error ClusterSnapshot}
  {input : DaemonInput}

theorem mem_missions_feed {now : Seconds} {m : Mission} (hm : m ∈ (s.feed now input).missions) :
    m ∈ s.missions ∨ m.run ∈ (s.daemon.step now input).2.filterMap DaemonEffect.run? := by
  unfold feed at hm
  obtain hm | hm := List.mem_append.1 hm
  · exact .inl hm
  · obtain ⟨run, hrun, rfl⟩ := List.mem_map.1 hm
    exact .inr hrun

/-- A step that carries out nothing starts no run. -/
theorem missions_feed_of_idle (h : s.daemon.Arranged) (hcarried : s.daemon.carried? = none)
    (now : Seconds) (input : DaemonInput) : (s.feed now input).missions = s.missions := by
  have hruns := Daemon.runs_step h now input
  rw [hcarried] at hruns
  simp [feed, hruns]

theorem feeds_feed (h : s.daemon.Arranged) (hinput : s.input? answer snapshot = some input)
    (now : Seconds) : s.Feeds now s.daemon.carried?.toList (s.feed now input) := by
  have hperforms := Daemon.performs_step h now input
  have hsteps := s.daemon.steps_step now input
  cases hcarried : s.daemon.carried? with
  | some a =>
    have hdue := hperforms.carried a hcarried
    have hhanded : s.daemon.handed? input = none := by
      rw [Option.eq_none_iff_forall_ne_some]
      intro i hi
      rw [(hperforms.handed i hi).1] at hdue
      cases hdue
    refine .carries hdue (hsteps.kept hhanded).1 ?_ ?_
    · obtain ⟨r, rfl, -⟩ | ⟨-, hunheard⟩ := unheard_feed hinput now
      · rw [Daemon.toPerform, agenda_of_event hinput] at hdue
        cases hdue
      · exact hunheard
    · have hruns := Daemon.runs_step h now input
      rw [hcarried] at hruns
      intro m hm
      refine (mem_missions_feed hm).imp_right fun hm => ?_
      rw [hruns] at hm
      cases a with
      | startFencing nodesJoined =>
        rw [List.mem_singleton.1 hm]
        exact ⟨rfl, rfl, rfl⟩
      | _ => cases hm
  | none =>
    have hmissions := missions_feed_of_idle h hcarried now input
    cases hhanded : s.daemon.handed? input with
    | none =>
      refine .rests (hperforms.kept hcarried hhanded) (hsteps.kept hhanded).1 ?_ hmissions
      obtain ⟨r, rfl, -⟩ | ⟨-, hunheard⟩ := unheard_feed hinput now
      · simp [Daemon.handed?, agenda_of_event hinput] at hhanded
      · exact hunheard
    | some i =>
      obtain ⟨hidle, hdue⟩ := hperforms.handed i hhanded
      have hdomain := (hsteps.handed i hhanded).1
      obtain ⟨r, rfl, hunheard⟩ | ⟨hother, hunheard⟩ := unheard_feed hinput now
      · simp only [Daemon.handed?, agenda_of_event hinput, Option.some.injEq] at hhanded
        subst hhanded
        exact .hears hidle hdue hdomain hunheard hmissions
      · refine .hands hidle hdue hdomain ?_ hunheard hmissions
        obtain ⟨r, hr, -⟩ | hcluster | ⟨hfencing, _, _, hi⟩ := Daemon.handed?_cases hhanded
        · exact absurd hr (hother r)
        · exact .inl hcluster
        · exact .inr ⟨hfencing, Daemon.input?_ne_finished hi⟩

/-- What holds of a station at any time. -/
structure Sound (s : Station) : Prop where
  accounted : s.Accounted
  arranged : s.daemon.Arranged
  keyed : s.daemon.domain.history.Keyed
  nodup : s.daemon.domain.victims.ids.Nodup
  last : s.unheard.Pairwise fun r _ => r ≠ .finished
  silent : s.daemon.domain.fencing = false → s.unheard = []

theorem sound_new (config : Config) (overridable : Bool) : (new config overridable).Sound where
  accounted := accounted_new config overridable
  arranged := Daemon.arranged_of_toPerform_nil rfl
  keyed := Domain.keyed_new config
  nodup := by simp [new, Daemon.new, Domain.new_victims]
  last := .nil
  silent _ := rfl

theorem unheard_post {e : DaemonEvent} (hreport : e.isReport = false) :
    unheard { s with queue := s.queue ++ [e] } = s.unheard := by
  have hnone : e.report? = none := by cases e <;> first | rfl | cases hreport
  simp [unheard, hnone]

/-- The domain that a station keeps is as sound as it was. -/
theorem Sound.of_kept (h : s.Sound) {s' : Station} (haccounted : s'.Accounted)
    (harranged : s'.daemon.Arranged)
    (hdomain : s'.daemon.domain = s.daemon.domain ∨ s'.daemon.domain = s.daemon.domain.setLeaving)
    (hunheard : s'.unheard = s.unheard) : s'.Sound := by
  refine ⟨haccounted, harranged, ?_, ?_, hunheard ▸ h.last, ?_⟩
  · obtain heq | heq := hdomain <;> exact heq ▸ h.keyed
  · obtain heq | heq := hdomain <;> exact heq ▸ h.nodup
  · rw [hunheard]
    obtain heq | heq := hdomain <;> rw [heq] <;> exact h.silent

theorem sound_feed (h : s.Sound) (hinput : s.input? answer snapshot = some input) (now : Seconds) :
    (s.feed now input).Sound := by
  have haccounted := accounted_feed hinput now h.accounted
  have harranged : (s.feed now input).daemon.Arranged :=
    (Daemon.performs_step h.arranged now input).arranged
  have hfeeds := feeds_feed h.arranged hinput now
  generalize s.daemon.carried?.toList = carried at hfeeds
  generalize s.feed now input = s' at hfeeds haccounted harranged ⊢
  cases hfeeds with
  | carries _ domain unheard => exact h.of_kept haccounted harranged domain unheard
  | rests _ domain unheard => exact h.of_kept haccounted harranged domain unheard
  | @hears r _ _ _ domain unheard =>
    have hlast := h.last
    rw [unheard, List.pairwise_cons] at hlast
    refine ⟨haccounted, harranged, ?_, ?_, hlast.2, fun hover => ?_⟩
    · exact domain ▸ Domain.keyed_step h.keyed now _
    · exact domain ▸ Domain.nodup_ids_step h.nodup now _
    have hfencing : s.daemon.domain.fencing = true := by
      by_contra hnot
      rw [Bool.not_eq_true] at hnot
      rw [h.silent hnot] at unheard
      cases unheard
    have hr : r = .finished := by
      by_contra hnot
      have hinput : r.input ≠ .finished := by
        cases r with
        | finished => exact absurd rfl hnot
        | _ => simp [FencingReport.input]
      rw [domain, Domain.fencing_turn (Domain.turn_step _ now _) hfencing hinput] at hover
      cases hover
    -- nothing is reported after the end
    exact List.eq_nil_iff_forall_not_mem.2 fun later hlater => hlast.1 later hlater hr
  | hands _ _ domain other unheard =>
    refine ⟨haccounted, harranged, ?_, ?_, unheard ▸ h.last, fun hover => ?_⟩
    · exact domain ▸ Domain.keyed_step h.keyed now _
    · exact domain ▸ Domain.nodup_ids_step h.nodup now _
    rw [unheard]
    obtain ⟨c, rfl⟩ | ⟨hfencing, -⟩ := other
    · apply h.silent
      by_contra hnot
      rw [Bool.not_eq_false] at hnot
      rw [domain, Domain.fencing_turn (Domain.turn_step _ now _) hnot (by simp)] at hover
      cases hover
    · exact h.silent hfencing

/-- The run that goes on is the only one of the station. -/
theorem Accounted.conduct (h : s.Accounted) {mission : Nat} {m : Mission}
    (hm : s.missions[mission]? = some m) (f : FencingRun → FencingRun × List RunEffect) :
    s.conduct mission f =
      { s with
        queue := s.queue ++ (RunEffect.reports (f m.run).2).map .fencing
        missions :=
          if (f m.run).1.wants = .nothing then [] else [{ m with run := (f m.run).1 }] } := by
  have hsole := (h.sole (List.mem_of_getElem? hm)).1
  have hlt := (List.getElem?_eq_some_iff.1 hm).1
  rw [hsole, List.length_singleton] at hlt
  obtain rfl : mission = 0 := by omega
  unfold Station.conduct
  rw [hm, hsole]
  rfl

theorem unheard_conduct (h : s.Accounted) {mission : Nat} {m : Mission}
    (hm : s.missions[mission]? = some m) (f : FencingRun → FencingRun × List RunEffect) :
    (s.conduct mission f).unheard = s.unheard ++ RunEffect.reports (f m.run).2 := by
  have hmap (reports : List FencingReport) :
      (reports.map DaemonEvent.fencing).filterMap DaemonEvent.report? = reports := by
    rw [List.filterMap_map]
    exact List.filterMap_some
  rw [h.conduct hm f, unheard, List.filterMap_append, hmap]
  rfl

theorem sound_conduct (h : s.Sound) (mission : Nat) {f : FencingRun → FencingRun × List RunEffect}
    (hends : ∀ r, FencingRun.Ends (f r))
    (halone : ∀ r, .report .finished ∈ (f r).2 → (f r).2 = [.report .finished]) :
    (s.conduct mission f).Sound := by
  have haccounted := accounted_conduct mission hends h.accounted
  cases hm : s.missions[mission]? with
  | none =>
    have hsame : s.conduct mission f = s := by
      unfold Station.conduct
      rw [hm]
    rw [hsame]
    exact h
  | some m =>
    have hconduct := h.accounted.conduct hm f
    have hunheard := unheard_conduct h.accounted hm f
    have hfencing := h.accounted.fencing_of_mission (List.mem_of_getElem? hm)
    have hnone : .finished ∉ s.unheard :=
      mt mem_queue_of_mem_unheard (h.accounted.sole (List.mem_of_getElem? hm)).2.2
    refine ⟨haccounted, hconduct ▸ h.arranged, hconduct ▸ h.keyed, hconduct ▸ h.nodup, ?_, ?_⟩
    · rw [hunheard, List.pairwise_append]
      refine ⟨h.last, ?_, ?_⟩
      · by_cases hlast : .finished ∈ RunEffect.reports (f m.run).2
        · rw [RunEffect.reports, halone m.run (RunEffect.mem_reports.1 hlast)]
          exact List.pairwise_singleton _ _
        · exact List.pairwise_of_forall_mem_list fun r hr _ _ heq => hlast (heq ▸ hr)
      · intro r hr _ _ heq
        exact hnone (heq ▸ hr)
    · intro hover
      rw [hconduct, hfencing] at hover
      cases hover

theorem sound_move (h : s.Sound) (m : Move) : (s.move m).Sound := by
  cases m with
  | post e =>
    simp only [move]
    split
    · exact h
    · rename_i hopen
      simp only [Bool.or_eq_true, not_or, Bool.not_eq_true] at hopen
      exact h.of_kept (accounted_post e hopen.1 h.accounted) h.arranged (.inl rfl)
        (unheard_post hopen.1)
  | daemon now answer snapshot =>
    simp only [move]
    split
    · exact sound_feed h ‹_› now
    · exact h
  | turn mission clock cluster =>
    exact sound_conduct h mission (fun r => r.ends_turn _ _ _)
      fun r hr => congrArg (·.2) (FencingRun.turn_of_finished hr)
  | agent mission outcome =>
    exact sound_conduct h mission (fun r => r.ends_agentDone _ _)
      fun r hr => absurd hr (r.not_finished_agentDone s.isOpen outcome)
  | override mission overridden =>
    exact sound_conduct h mission (fun r => r.ends_overrideDone _ _)
      fun r hr => absurd hr (r.not_finished_overrideDone s.isOpen overridden)

theorem sound_play (config : Config) (overridable : Bool) (moves : List Move) :
    ((new config overridable).play moves).Sound := by
  refine play_induction ?_ (sound_new config overridable) moves
  intro s m h
  exact sound_move h m

end Station

end ClusterFence
