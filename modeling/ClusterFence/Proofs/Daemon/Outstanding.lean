import ClusterFence.Proofs.Daemon.Station

namespace ClusterFence

namespace Daemon

variable {d : Daemon} {input : DaemonInput} {i : DomainInput}

/-- An input of the domain is a report, or a snapshot, or an event of its group that comes while no
    fencing is outstanding. -/
theorem handed?_cases (h : d.handed? input = some i) :
    (∃ report, input = .event (.fencing report) ∧ i = report.input) ∨
    (∃ s, i = .cluster s) ∨
    d.domain.fencing = false ∧ ∃ running event, GroupEvent.input? running event = some i := by
  unfold handed? at h
  split at h
  · split at h
    · simp at h
    · rename_i hnot
      have hfencing : d.domain.fencing = false := by
        cases hf : d.domain.fencing <;> simp_all
      exact .inr (.inr ⟨hfencing, _, _, h⟩)
  · exact .inl ⟨_, rfl, (Option.some.inj h).symm⟩
  · exact .inr (.inl ⟨_, (Option.some.inj h).symm⟩)
  · split at h
    · split at h
      · simp at h
      · rename_i hfencing
        exact .inr (.inr ⟨by simpa using hfencing, _, _, h⟩)
    · simp at h
  · simp at h

/-- No event of the group is a report. -/
theorem input?_ne_finished {running : Option Version} {event : GroupEvent}
    (h : event.input? running = some i) : i ≠ .finished := by
  rintro rfl
  cases event with
  | membership m => simp [GroupEvent.input?] at h
  | ring node seq => simp [GroupEvent.input?] at h
  | deliver sender data =>
    simp only [GroupEvent.input?] at h
    split at h <;> simp at h

theorem eq_finished_of_handed? (h : d.handed? input = some .finished) :
    input = .event (.fencing .finished) := by
  obtain ⟨report, hinput, hi⟩ | ⟨s, hi⟩ | ⟨-, _, _, hi⟩ := handed?_cases h
  · cases report <;> simp [FencingReport.input] at hi
    exact hinput
  · simp at hi
  · exact absurd rfl (input?_ne_finished hi)

/-- What the daemon hands to the domain comes in turn, if the end of a run does. -/
theorem inTurn_of_handed? (h : d.handed? input = some i)
    (hfinished : i = .finished → d.domain.fencing = true) : d.domain.InTurn i := by
  obtain ⟨report, -, rfl⟩ | ⟨s, rfl⟩ | ⟨hfencing, _, event, hi⟩ := handed?_cases h
  · cases report with
    | finished => exact hfinished rfl
    | _ => exact trivial
  · exact trivial
  · cases i with
    | membership m => exact hfencing
    | finished => exact hfinished rfl
    | _ => exact trivial

end Daemon

/-- The daemon is told that a fencing run is over. -/
def DaemonInput.endsRun : DaemonInput → Bool
  | .event (.fencing .finished) => true
  | _ => false

namespace Station

/-- The ends of fencing that may still come: runs that are due, under way, or over without the
    daemon having heard of it. -/
def outstanding (s : Station) : Nat :=
  s.queue.count (.fencing .finished) + s.missions.length + s.daemon.runsDue

/-- At most one end of fencing may still come, and only while fencing is outstanding. -/
def Accounted (s : Station) : Prop := s.outstanding ≤ s.daemon.domain.fencing.toNat

variable {s : Station}

theorem accounted_new (config : Config) (overridable : Bool) :
    (new config overridable).Accounted := by
  simp [Accounted, outstanding, new, Daemon.new, Daemon.runsDue, Task.startsRun]

theorem count_waiting {answer : Answer} {snapshot : Except Error ClusterSnapshot}
    {input : DaemonInput} (h : s.input? answer snapshot = some input) :
    (s.waiting input).count (.fencing .finished) +
        input.endsRun.toNat =
      s.queue.count (.fencing .finished) := by
  obtain ⟨e, rfl, hqueue⟩ | ⟨hother, hqueue⟩ := queue_of_input? h
  · rw [hqueue, List.count_cons]
    by_cases he : e = .fencing .finished
    · simp [he, DaemonInput.endsRun]
    · have hends : (DaemonInput.event e).endsRun = false := by
        unfold DaemonInput.endsRun
        split
        · simp_all
        · rfl
      simp [he, hends]
  · rw [hqueue]
    cases input with
    | event e => exact absurd rfl (hother e)
    | _ => rfl

theorem outstanding_feed {answer : Answer} {snapshot : Except Error ClusterSnapshot}
    {input : DaemonInput} (hinput : s.input? answer snapshot = some input) (now : Seconds) :
    (s.feed now input).outstanding + s.daemon.runsDue + input.endsRun.toNat =
      s.outstanding + (s.daemon.step now input).1.runsDue +
        ((s.daemon.step now input).2.filterMap DaemonEffect.run?).length := by
  have hcount := count_waiting hinput
  rw [outstanding, outstanding, queue_feed, missions_feed, daemon_feed]
  omega

theorem Accounted.fencing_of_pos (h : s.Accounted) (hpos : 0 < s.outstanding) :
    s.daemon.domain.fencing = true := by
  unfold Accounted at h
  cases hfencing : s.daemon.domain.fencing with
  | true => rfl
  | false =>
    rw [hfencing, Bool.toNat_false] at h
    omega

theorem Accounted.fencing_of_mission (h : s.Accounted) {m : Mission} (hm : m ∈ s.missions) :
    s.daemon.domain.fencing = true := by
  have hlength := List.length_pos_of_mem hm
  refine h.fencing_of_pos ?_
  unfold outstanding
  omega

/-- While a run is under way it is the only one, none is due, and no end of one waits to be heard
    of. -/
theorem Accounted.sole (h : s.Accounted) {m : Mission} (hm : m ∈ s.missions) :
    s.missions = [m] ∧ s.daemon.runsDue = 0 ∧ .fencing .finished ∉ s.queue := by
  have hpos := List.length_pos_of_mem hm
  have hle : s.outstanding ≤ 1 := Nat.le_trans h (Bool.toNat_le _)
  unfold outstanding at hle
  refine ⟨?_, by omega, fun hqueue => ?_⟩
  · obtain ⟨m', hsole⟩ := List.length_eq_one_iff.1 (show s.missions.length = 1 by omega)
    rw [hsole, List.mem_singleton] at hm
    rw [hsole, hm]
  · have hcount := List.count_pos_iff.2 hqueue
    omega

/-- What a station hands to its domain comes in turn. -/
theorem Accounted.inTurn (h : s.Accounted) {answer : Answer}
    {snapshot : Except Error ClusterSnapshot} {input : DaemonInput}
    (hinput : s.input? answer snapshot = some input) {i : DomainInput}
    (hhanded : s.daemon.handed? input = some i) : s.daemon.domain.InTurn i := by
  refine Daemon.inTurn_of_handed? hhanded fun hi => h.fencing_of_pos ?_
  subst hi
  have hend := Daemon.eq_finished_of_handed? hhanded
  have hcount := count_waiting hinput
  rw [hend] at hcount
  simp only [DaemonInput.endsRun, Bool.toNat_true] at hcount
  unfold outstanding
  omega

theorem accounted_post (e : DaemonEvent) (hreport : e.isReport = false) (h : s.Accounted) :
    Accounted { s with queue := s.queue ++ [e] } := by
  have hcount : [e].count (.fencing .finished) = 0 := by
    rw [List.count_eq_zero]
    intro hmem
    rw [← List.mem_singleton.1 hmem] at hreport
    simp [DaemonEvent.isReport] at hreport
  simp only [Accounted, outstanding, List.count_append, hcount] at h ⊢
  omega

theorem accounted_feed {answer : Answer} {snapshot : Except Error ClusterSnapshot}
    {input : DaemonInput} (hinput : s.input? answer snapshot = some input) (now : Seconds)
    (h : s.Accounted) : (s.feed now input).Accounted := by
  have hsteps := s.daemon.steps_step now input
  have hfeed := outstanding_feed hinput now
  have hleft : s.outstanding ≤ s.daemon.domain.fencing.toNat := h
  cases hhanded : s.daemon.handed? input with
  | none =>
    obtain ⟨hdomain, hruns, -, -⟩ := hsteps.kept hhanded
    have hfencing : (s.daemon.step now input).1.domain.fencing = s.daemon.domain.fencing := by
      obtain hd | hd := hdomain <;> rw [hd]
      rfl
    rw [Accounted, daemon_feed, hfencing]
    omega
  | some i =>
    obtain ⟨hdomain, hruns, -, -⟩ := hsteps.handed i hhanded
    have hturns := Domain.runs_turn (h.inTurn hinput hhanded) (s.daemon.domain.turn_step now i)
    rw [Accounted, daemon_feed, hdomain]
    by_cases hi : i = .finished
    · subst hi
      have hend : input.endsRun = true := by
        rw [Daemon.eq_finished_of_handed? hhanded]
        rfl
      rw [if_pos rfl] at hturns
      rw [hend, Bool.toNat_true] at hfeed
      omega
    · rw [if_neg hi] at hturns
      omega

theorem count_map_fencing (reports : List FencingReport) (r : FencingReport) :
    (reports.map DaemonEvent.fencing).count (.fencing r) = reports.count r := by
  rw [List.count, List.countP_map, List.count]
  refine List.countP_congr fun report _ => ?_
  simp

/-- A fencing run is one of those outstanding until its end is reported. -/
theorem accounted_conduct (mission : Nat) {f : FencingRun → FencingRun × List RunEffect}
    (hf : ∀ r, FencingRun.Ends (f r)) (h : s.Accounted) : (s.conduct mission f).Accounted := by
  unfold conduct
  split
  · exact h
  · rename_i m hm
    have hlt : mission < s.missions.length := (List.getElem?_eq_some_iff.1 hm).1
    have hends := hf m.run
    simp only [FencingRun.Ends] at hends
    simp only [Accounted, outstanding, List.count_append, count_map_fencing] at h ⊢
    split
    · rename_i hover
      rw [if_pos hover] at hends
      rw [List.length_eraseIdx_of_lt hlt]
      omega
    · rename_i hgoes
      rw [if_neg hgoes] at hends
      rw [List.length_set]
      omega

theorem accounted_move (m : Move) (h : s.Accounted) : (s.move m).Accounted := by
  cases m with
  | post e =>
    simp only [move]
    split
    · exact h
    · rename_i hopen
      simp only [Bool.or_eq_true, not_or, Bool.not_eq_true] at hopen
      exact accounted_post e hopen.1 h
  | daemon now answer snapshot =>
    simp only [move]
    split
    · exact accounted_feed ‹_› now h
    · exact h
  | turn mission clock cluster => exact accounted_conduct mission (fun r => r.ends_turn _ _ _) h
  | agent mission outcome => exact accounted_conduct mission (fun r => r.ends_agentDone _ _) h
  | override mission overridden =>
    exact accounted_conduct mission (fun r => r.ends_overrideDone _ _) h

/-- What every move preserves holds after a run when it held before. -/
theorem play_induction {P : Station → Prop} (hmove : ∀ s m, P s → P (s.move m)) (h : P s)
    (moves : List Move) : P (s.play moves) := by
  induction moves generalizing s with
  | nil => exact h
  | cons m rest ih => exact ih (hmove s m h)

theorem accounted_play (config : Config) (overridable : Bool) (moves : List Move) :
    ((new config overridable).play moves).Accounted :=
  play_induction (fun _ m h => accounted_move m h) (accounted_new config overridable) moves

end Station

end ClusterFence
