import ClusterFence.Daemon.Basic
import ClusterFence.Proofs.Domain.Reports

namespace ClusterFence

/-- The next thing to do is to start a fencing run. -/
def Task.startsRun : Task → Bool
  | .perform a => a.startsRun
  | _ => false

/-- The fencing run that an effect starts. -/
def DaemonEffect.run? : DaemonEffect → Option FencingRun
  | .startRun run => some run
  | .notice _ => none

/-- What the log is told of an answer. -/
def Verdict.notices {σ : Type} : Verdict σ → List Notice
  | .over _ notices | .again _ notices _ => notices

theorem not_outOfTurn_everyTime {period retries : Nat} {told n : Notice}
    (hn : n ∈ everyTime period retries told) (h : ¬ told.OutOfTurn) : ¬ n.OutOfTurn := by
  unfold everyTime at hn
  split at hn
  · rw [List.mem_singleton] at hn
    exact hn ▸ h
  · simp at hn

theorem Sending.not_outOfTurn_answered (s : Sending) (a : Answer) :
    ∀ n ∈ (s.answered a).notices, ¬ n.OutOfTurn := by
  unfold answered
  cases a with
  | ok => simp [Verdict.notices]
  | error e =>
    dsimp only
    split
    · exact fun n hn => not_outOfTurn_everyTime hn id
    · simp [Verdict.notices, Notice.OutOfTurn]

theorem Joining.not_outOfTurn_answered (j : Joining) (a : Answer) :
    ∀ n ∈ (j.answered a).notices, ¬ n.OutOfTurn := by
  unfold answered
  cases a with
  | ok => simp [Verdict.notices]
  | error e =>
    dsimp only
    split
    · exact fun n hn => not_outOfTurn_everyTime hn id
    · simp [Verdict.notices]

namespace Daemon

/-- The fencing runs that are still to be started. -/
def runsDue (d : Daemon) : Nat := d.agenda.countP Task.startsRun

/-- A step that leaves the changes of the domain alone. The daemon may have started to leave, and
    then it starts no run that is still due. -/
structure Quiet (d : Daemon) (s : DaemonStep) : Prop where
  domain : s.1.domain = d.domain ∨ s.1.domain = d.domain.setLeaving
  config : s.1.config = d.config
  backlog : s.1.backlog = d.backlog
  runs : s.1.runsDue + (s.2.filterMap DaemonEffect.run?).length ≤ d.runsDue
  notices : ∀ n, .notice n ∈ s.2 → ¬ n.OutOfTurn

section

variable {d d' : Daemon}

theorem filterMap_run?_notice (notices : List Notice) :
    (notices.map DaemonEffect.notice).filterMap DaemonEffect.run? = [] := by
  simp [List.filterMap_map, Function.comp_def, DaemonEffect.run?]

/-- The daemon has only something more to do, or to tell. -/
theorem Quiet.of_tell {notices : List Notice}
    (hdomain : d'.domain = d.domain ∨ d'.domain = d.domain.setLeaving)
    (hconfig : d'.config = d.config) (hbacklog : d'.backlog = d.backlog)
    (hruns : d'.runsDue ≤ d.runsDue) (hnotices : ∀ n ∈ notices, ¬ n.OutOfTurn) :
    d.Quiet (d'.tell notices) where
  domain := hdomain
  config := hconfig
  backlog := hbacklog
  runs := by
    simp only [tell, filterMap_run?_notice, List.length_nil]
    exact hruns
  notices := by simpa [tell] using hnotices

theorem Quiet.of_eq (hdomain : d'.domain = d.domain ∨ d'.domain = d.domain.setLeaving)
    (hconfig : d'.config = d.config) (hbacklog : d'.backlog = d.backlog)
    (hruns : d'.runsDue ≤ d.runsDue) : d.Quiet (d', []) := by
  have htell : d.Quiet (d'.tell []) := .of_tell hdomain hconfig hbacklog hruns (by simp)
  exact htell

/-- The log was told something before. -/
theorem Quiet.told {s : DaemonStep} (h : d.Quiet s) {notices : List Notice}
    (hnotices : ∀ n ∈ notices, ¬ n.OutOfTurn) :
    d.Quiet (s.1, notices.map .notice ++ s.2) where
  domain := h.domain
  config := h.config
  backlog := h.backlog
  runs := by
    rw [List.filterMap_append, filterMap_run?_notice, List.nil_append]
    exact h.runs
  notices n hn := by
    obtain hn | hn := List.mem_append.1 hn
    · obtain ⟨told, htold, hn⟩ := List.mem_map.1 hn
      rw [← DaemonEffect.notice.inj hn]
      exact hnotices told htold
    · exact h.notices n hn

theorem runsDue_first {tasks : List Task} (h : tasks.countP Task.startsRun = 0) :
    (d.first tasks).runsDue = d.runsDue := by
  simp [runsDue, first, h]

theorem quiet_depart (d : Daemon) (result : Answer) : d.Quiet (d.depart result, []) := by
  unfold depart
  split
  · exact .of_eq (.inr rfl) rfl rfl (Nat.zero_le _)
  · exact .of_eq (.inl rfl) rfl rfl (Nat.zero_le _)

theorem quiet_fail (d : Daemon) (e : Error) : d.Quiet (d.fail e) := by
  unfold fail
  split
  · have h := d.quiet_depart (.error e)
    exact .of_tell h.domain h.config h.backlog (Nat.le_trans (Nat.le_add_right _ _) h.runs)
      (by simp [Notice.OutOfTurn])
  · exact .of_tell (.inl rfl) rfl rfl (Nat.le_refl _) (by simp [Notice.OutOfTurn])

theorem quiet_receiveOffer (d : Daemon) (sender : NodeId) (o : Offer) :
    d.Quiet (d.receiveOffer sender o) := by
  unfold receiveOffer
  dsimp only
  split
  · exact .of_tell (.inl rfl) rfl rfl (Nat.le_refl _) (by simp [Notice.OutOfTurn])
  · exact .of_eq (.inl rfl) rfl rfl (Nat.le_of_eq (runsDue_first rfl))
  · exact .of_eq (.inl rfl) rfl rfl (Nat.le_of_eq (runsDue_first rfl))

theorem quiet_daemonEvent (d : Daemon) (now : Seconds) (event : GroupEvent) :
    d.Quiet (d.daemonEvent now event) := by
  unfold daemonEvent
  cases event with
  | membership m =>
    simp only [daemonMembership]
    split
    · exact .of_eq (.inl rfl) rfl rfl (Nat.le_of_eq (runsDue_first rfl))
    · exact .of_eq (.inl rfl) rfl rfl (Nat.le_refl _)
  | deliver sender data =>
    simp only [receiveDaemonMessage]
    split
    · exact .of_tell (.inl rfl) rfl rfl (Nat.le_refl _) (by simp [Notice.OutOfTurn])
    · split
      · exact d.quiet_receiveOffer sender _
      · exact .of_tell (.inl rfl) rfl rfl (Nat.le_refl _) (by simp [Notice.OutOfTurn])
  | ring node seq => exact .of_eq (.inl rfl) rfl rfl (Nat.le_refl _)

theorem quiet_propose (d : Daemon) : d.Quiet d.propose := by
  unfold propose
  split
  · exact .of_eq (.inl rfl) rfl rfl (Nat.le_refl _)
  · exact .of_eq (.inl rfl) rfl rfl (Nat.le_of_eq (runsDue_first rfl))
  · exact .of_tell (.inl rfl) rfl rfl (Nat.le_refl _) (by simp [Notice.OutOfTurn])

theorem quiet_enter (d : Daemon) : d.Quiet d.enter := by
  unfold enter
  split
  · split
    · exact d.quiet_fail _
    · exact .of_tell (.inl rfl) rfl rfl (Nat.le_of_eq (runsDue_first rfl))
        (by simp [Notice.OutOfTurn])
  · exact .of_eq (.inl rfl) rfl rfl (Nat.le_refl _)

theorem quiet_sendAnswered (d : Daemon) (s : Sending) (purpose : Purpose) (a : Answer) :
    d.Quiet (d.sendAnswered s purpose a) := by
  have htold := s.not_outOfTurn_answered a
  unfold sendAnswered
  split <;> rename_i hanswered <;> simp only [hanswered, Verdict.notices] at htold
  · exact .of_tell (.inl rfl) rfl rfl (Nat.le_of_eq (runsDue_first rfl)) htold
  · exact .of_tell (.inl rfl) rfl rfl (Nat.le_refl _) htold
  · refine .of_tell (.inl rfl) rfl rfl (Nat.le_refl _) fun n hn => ?_
    obtain hn | hn := List.mem_append.1 hn
    · exact htold n hn
    · rw [List.mem_singleton.1 hn]
      cases purpose <;> exact id

theorem quiet_joinAnswered (d : Daemon) (j : Joining) (a : Answer) :
    d.Quiet (d.joinAnswered j a) := by
  have htold := j.not_outOfTurn_answered a
  unfold joinAnswered
  split <;> rename_i hanswered <;> simp only [hanswered, Verdict.notices] at htold
  · exact .of_tell (.inl rfl) rfl rfl (Nat.le_of_eq (runsDue_first rfl)) htold
  · exact .of_tell (.inl rfl) rfl rfl (Nat.le_refl _) htold
  split
  · exact .of_tell (.inl rfl) rfl rfl (Nat.le_refl _) htold
  · exact (d.quiet_fail _).told htold

end

end Daemon

end ClusterFence
