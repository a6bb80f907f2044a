import ClusterFence.Proofs.Daemon.Outstanding

namespace ClusterFence

namespace Station

/-- What holds at a station between any two moves, when `left` membership changes may still come. -/
structure Orderly (config : Config) (left : Nat) (s : Station) : Prop where
  config_eq : s.daemon.config = config
  accounted : s.Accounted
  lifecycle : s.daemon.domain.Lifecycle
  booked : s.daemon.domain.changes.Booked s.starts s.completes
  asked : ∀ p ∈ s.asked, p.1.Warrants p.2
  told : ∀ n ∈ s.told, ¬ n.OutOfTurn
  room :
    s.daemon.domain.changes.changeSeq.toNat + s.daemon.changesHeld +
      s.queue.countP (·.changes config.domainGroup) + left < UInt32.size

variable {config : Config} {left : Nat} {s : Station}

theorem orderly_new (config : Config) (overridable : Bool) (hleft : left < UInt32.size) :
    Orderly config left (new config overridable) := by
  have hchanges := Domain.new_changes config
  refine ⟨rfl, accounted_new config overridable, Domain.lifecycle_new config, ?_, ?_, ?_, ?_⟩
  · simp only [new, Daemon.new, hchanges]
    exact .empty
  · simp [new]
  · simp [new]
  · simp only [new, Daemon.new, hchanges]
    simpa [Daemon.changesHeld] using hleft

theorem orderly_post (e : DaemonEvent) (hreport : e.isReport = false)
    (h : Orderly config (left + (e.changes config.domainGroup).toNat) s) :
    Orderly config left { s with queue := s.queue ++ [e] } := by
  refine { h with accounted := accounted_post e hreport h.accounted, room := ?_ }
  have hroom := h.room
  simp only [List.countP_append, List.countP_singleton] at hroom ⊢
  cases hc : e.changes config.domainGroup <;> simp [hc] at hroom ⊢ <;> omega

/-- The daemon goes on with something that is nothing to the domain. -/
theorem orderly_feed_none {answer : Answer} {snapshot : Except Error ClusterSnapshot}
    {input : DaemonInput} (hinput : s.input? answer snapshot = some input)
    (hhanded : s.daemon.handed? input = none) (now : Seconds) (h : Orderly config left s) :
    Orderly config left (s.feed now input) := by
  have hsteps := s.daemon.steps_step now input
  obtain ⟨hdomain, -, hnotices, hheld⟩ := hsteps.kept hhanded
  have hasked := s.asked_feed_none now input hhanded
  have hchanges : (s.daemon.step now input).1.domain.changes = s.daemon.domain.changes := by
    obtain hd | hd := hdomain <;> rw [hd]
    rfl
  have hfencing : (s.daemon.step now input).1.domain.fencing = s.daemon.domain.fencing := by
    obtain hd | hd := hdomain <;> rw [hd]
    rfl
  refine ⟨hsteps.config.trans h.config_eq, accounted_feed hinput now h.accounted, ?_, ?_, ?_, ?_,
    ?_⟩
  · rw [daemon_feed]
    exact h.lifecycle.of_pending_eq hfencing (by rw [hchanges])
  · rw [daemon_feed, hchanges, starts, completes, hasked]
    exact h.booked
  · rw [hasked]
    exact h.asked
  · intro n hn
    exact (s.mem_told_feed now input hn).elim (h.told n) (hnotices n)
  · have hroom := h.room
    have hwaiting := countP_waiting hinput config.domainGroup
    rw [h.config_eq] at hheld
    rw [daemon_feed, queue_feed, hchanges]
    omega

/-- The daemon hands something to the domain. -/
theorem orderly_feed_some {answer : Answer} {snapshot : Except Error ClusterSnapshot}
    {input : DaemonInput} (hinput : s.input? answer snapshot = some input) {i : DomainInput}
    (hhanded : s.daemon.handed? input = some i) (now : Seconds) (h : Orderly config left s) :
    Orderly config left (s.feed now input) := by
  have hsteps := s.daemon.steps_step now input
  obtain ⟨hdomain, -, hnotices, hheld⟩ := hsteps.handed i hhanded
  have hasked := s.asked_feed_some now input hhanded
  have hturn := s.daemon.domain.turn_step now i
  have hinTurn := h.accounted.inTurn hinput hhanded
  have hroom := h.room
  have hwaiting := countP_waiting hinput config.domainGroup
  have hnumbers := Domain.changeSeq_le_of_turn hturn
  rw [h.config_eq] at hheld
  have hfits : ∀ m, i = .membership m →
      s.daemon.domain.changes.changeSeq.toNat + 1 < UInt32.size := by
    rintro m rfl
    simp only [DomainInput.isMembership, Bool.toNat_true] at hheld
    omega
  refine ⟨hsteps.config.trans h.config_eq, accounted_feed hinput now h.accounted, ?_, ?_, ?_, ?_,
    ?_⟩
  · rw [daemon_feed, hdomain]
    exact h.lifecycle.turn hinTurn hturn
  · rw [daemon_feed, hdomain, starts, completes, hasked]
    simp only [List.map_append, List.map_map, Function.comp_def, List.map_id',
      Action.startSeqs_append, Action.completeSeqs_append]
    exact Domain.booked_turn h.lifecycle h.booked hinTurn hfits hturn
  · intro p hp
    rw [hasked] at hp
    obtain hp | hp := List.mem_append.1 hp
    · exact h.asked p hp
    · obtain ⟨a, ha, rfl⟩ := List.mem_map.1 hp
      exact Domain.warrants_turn h.lifecycle hinTurn hturn ha
  · intro n hn
    obtain hn | hn := s.mem_told_feed now input hn
    · exact h.told n hn
    · exact (hnotices n hn).elim (h.lifecycle.not_outOfTurn hinTurn hturn n) id
  · rw [daemon_feed, queue_feed, hdomain]
    omega

/-- What a fencing run reports is no membership change. -/
theorem orderly_conduct (mission : Nat) {f : FencingRun → FencingRun × List RunEffect}
    (hf : ∀ r, FencingRun.Ends (f r)) (h : Orderly config left s) :
    Orderly config left (s.conduct mission f) := by
  have haccounted := accounted_conduct mission hf h.accounted
  unfold conduct at haccounted ⊢
  split
  · exact h
  · rename_i m hm
    rw [hm] at haccounted
    have hreports : (((f m.run).2.filterMap RunEffect.report?).map DaemonEvent.fencing).countP
        (·.changes config.domainGroup) = 0 := by
      rw [List.countP_map]
      exact List.countP_eq_zero.2 fun _ _ => Bool.false_ne_true
    refine { h with accounted := haccounted, room := ?_ }
    rw [List.countP_append, hreports]
    exact h.room

theorem orderly_move (m : Move)
    (h : Orderly config (left + (m.changes config.domainGroup).toNat) s) :
    Orderly config left (s.move m) := by
  cases m with
  | post e =>
    simp only [move]
    split
    · exact { h with room := Nat.lt_of_le_of_lt (by omega) h.room }
    · rename_i hopen
      simp only [Bool.or_eq_true, not_or, Bool.not_eq_true] at hopen
      exact orderly_post e hopen.1 h
  | daemon now answer snapshot =>
    simp only [move]
    split
    · rename_i input hinput
      cases hhanded : s.daemon.handed? input with
      | none => exact orderly_feed_none hinput hhanded now h
      | some i => exact orderly_feed_some hinput hhanded now h
    · exact h
  | turn mission clock cluster => exact orderly_conduct mission (fun r => r.ends_turn _ _ _) h
  | agent mission outcome => exact orderly_conduct mission (fun r => r.ends_agentDone _ _) h
  | override mission overridden =>
    exact orderly_conduct mission (fun r => r.ends_overrideDone _ _) h

theorem orderly_play (moves : List Move)
    (h : Orderly config (moves.countP (·.changes config.domainGroup)) s) :
    Orderly config 0 (s.play moves) := by
  induction moves generalizing s with
  | nil => exact h
  | cons m rest ih =>
    refine ih (orderly_move m ?_)
    rw [List.countP_cons] at h
    cases hm : m.changes config.domainGroup <;> simpa [hm] using h

/-- In every run of a station with fewer than 2^32 membership changes of the domain group, and
    between any two moves, fencing is outstanding just when the current change is fenced for, no
    older change is, everybody has started that change, and the START of a change was sent just when
    it waits for more than the conditions. So the log is never told of a change that is stuck or of
    an end of fencing that was not outstanding. The numbers of the changes that are started go up,
    so each is started at most once, while the conditions are met; and so do those of the changes
    that are completed, each after it was started and fenced for. -/
theorem lifecycle_play (config : Config) (overridable : Bool) (moves : List Move)
    (hfew : moves.countP (·.changes config.domainGroup) < UInt32.size) :
    let s := (new config overridable).play moves
    s.daemon.domain.Lifecycle ∧
      (∀ n ∈ s.told, ¬ n.OutOfTurn) ∧
      s.starts.Pairwise (· < ·) ∧
      s.completes.Pairwise (· < ·) ∧
      (∀ d a, (d, a) ∈ s.asked → d.Warrants a) ∧
      ∀ seq ∈ s.completes, seq ∈ s.starts := by
  intro s
  have h : Orderly config 0 s := orderly_play moves (orderly_new config overridable hfew)
  exact ⟨h.lifecycle, h.told, h.booked.starts_increasing, h.booked.completes_increasing,
    fun d a => h.asked (d, a), h.booked.completes_started⟩

/-- A node that is alone and starts clean. -/
def soleConfig : Config :=
  { Config.forNode 1 "node1" with domain := { nodes := [], cleanStart := true } }

/-- The node joins its domain, hears its own START, and fences nobody. -/
def soleFencing : List Move :=
  let snapshot := .ok { quorate := true, ringSeq := 1, nodes := [⟨1, "node1", true, 1⟩] }
  let next : Move := .daemon 10 (.ok ()) snapshot
  let event (e : GroupEvent) : Move := .post (.group soleConfig.domainGroup e)
  let joined : Membership :=
    { members := [⟨1, .join⟩], left := [], joined := [⟨1, .join⟩] }
  let report : ChangeReport :=
    { seq := 1
      summary := { counts := { members := 1, joined := 1 } }
      entries := [{ node := 1, flags := NodeEntry.memberFlag }] }
  let start : Envelope := ⟨{ sender := 1, flags := .joining }, .start report⟩
  [next, next, event (.ring 1 1), next, event (.membership joined), next, next, next,
   event (.deliver 1 start.encode), next, next, next, .turn 0 0 snapshot, .turn 0 0 snapshot,
   .turn 0 0 snapshot, next]

/-- The one change of a lone node is started, fenced for and completed. -/
theorem lifecycle_play_soleFencing :
    soleFencing.countP (·.changes soleConfig.domainGroup) < UInt32.size ∧
      ((new soleConfig false).play soleFencing).starts = [1] ∧
      ((new soleConfig false).play soleFencing).completes = [1] ∧
      ((new soleConfig false).play soleFencing).daemon.domain.Lifecycle := by
  have hfew : soleFencing.countP (·.changes soleConfig.domainGroup) < UInt32.size := by
    decide +kernel
  have hlife := (lifecycle_play soleConfig false soleFencing hfew).1
  exact ⟨hfew, by decide +kernel, by decide +kernel, hlife⟩

end Station

end ClusterFence
