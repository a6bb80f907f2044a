import ClusterFence.Fencing.Run

namespace ClusterFence

/-- What the daemon is told by an effect of a run. -/
def RunEffect.report? : RunEffect → Option FencingReport
  | .report r => some r
  | _ => none

/-- The effects of a step with the run after it: unless the run is over the daemon is not told that
    it is, and even then only once. -/
def FencingRun.Ends (step : FencingRun × List RunEffect) : Prop :=
  (step.2.filterMap RunEffect.report?).count .finished +
    (if step.1.wants = .nothing then 0 else 1) ≤ 1

namespace FencingRun

theorem ends_of_not_finished {step : FencingRun × List RunEffect}
    (h : .report .finished ∉ step.2) : Ends step := by
  have hcount : (step.2.filterMap RunEffect.report?).count .finished = 0 := by
    rw [List.count_eq_zero]
    intro hmem
    obtain ⟨effect, heffect, hreport⟩ := List.mem_filterMap.1 hmem
    cases effect <;> simp [RunEffect.report?] at hreport
    exact h (hreport ▸ heffect)
  unfold Ends
  rw [hcount]
  split <;> omega

theorem not_finished_resolve (r : FencingRun) (listening : Bool) (victim : NodeId)
    (how : Resolution) (reduced : Bool) (next : Stage) :
    .report .finished ∉ (r.resolve listening victim how reduced next).2 := by
  unfold resolve report
  split <;> simp

theorem not_finished_check (r : FencingRun) (s : Surroundings) (listening : Bool) (t : Trial)
    (rest : List NodeId) : .report .finished ∉ (r.check s listening t rest).2 := by
  have hresolve how := r.not_finished_resolve listening t.victim how false (.choosing rest)
  unfold check
  dsimp only
  split
  · simp
  split
  · simp [hresolve]
  · cases t.isQuiet <;> simp

theorem not_finished_reduceOne (r : FencingRun) (s : Surroundings) (listening : Bool) (d : Delay)
    (v : Victim) (rest : List Victim) (remaining : Nat) :
    .report .finished ∉ (r.reduceOne s listening d v rest remaining).2 := by
  have hresolve := r.not_finished_resolve listening v.node .member true
    (.reducing d rest (remaining - 1))
  unfold reduceOne
  split <;> simp [hresolve]

theorem not_finished_choose (r : FencingRun) (s : Surroundings) (victim : NodeId)
    (rest : List NodeId) : .report .finished ∉ (r.choose s victim rest).2 := by
  unfold choose
  split
  · simp
  · split <;> simp

/-- The end of a run is reported when there is no victim to turn to, and by itself. -/
theorem turn_of_finished {r : FencingRun} {now : Nat} {s : Surroundings} {listening : Bool}
    (h : .report .finished ∈ (r.turn now s listening).2) :
    r.turn now s listening = (r.goTo (.over (.ok ())), [.report .finished]) := by
  unfold turn at h ⊢
  cases hstage : r.stage with
  | reducing d victims remaining =>
    rw [hstage] at h
    cases victims with
    | nil => simp at h
    | cons v rest => exact absurd h (r.not_finished_reduceOne s listening d v rest remaining)
  | choosing victims =>
    rw [hstage] at h
    cases victims with
    | nil =>
      simp only [report] at h ⊢
      split
      · rfl
      · simp [*] at h
    | cons victim rest => exact absurd h (r.not_finished_choose s victim rest)
  | trying t rest =>
    rw [hstage] at h
    exact absurd h (r.not_finished_check s listening t rest)
  | _ => simp [hstage] at h

theorem not_finished_agentDone (r : FencingRun) (listening : Bool) (a : AgentAnswer) :
    .report .finished ∉ (r.agentDone listening a).2 := by
  unfold agentDone
  split
  · rename_i t rest _
    have hresolve (t : Trial) :=
      r.not_finished_resolve listening t.victim .agent false (.choosing rest)
    dsimp only
    split
    · simp [hresolve]
    · split <;> simp
  · simp

theorem not_finished_overrideDone (r : FencingRun) (listening overridden : Bool) :
    .report .finished ∉ (r.overrideDone listening overridden).2 := by
  unfold overrideDone
  split
  · rename_i t rest _
    have hresolve := r.not_finished_resolve listening t.victim .override false (.choosing rest)
    split <;> simp [hresolve]
  · simp

theorem ends_turn (r : FencingRun) (now : Nat) (s : Surroundings) (listening : Bool) :
    Ends (r.turn now s listening) := by
  by_cases h : .report .finished ∈ (r.turn now s listening).2
  · -- the one report of the end leaves the run with nothing to do
    rw [turn_of_finished h]
    exact Nat.le_refl _
  · exact ends_of_not_finished h

theorem ends_agentDone (r : FencingRun) (listening : Bool) (a : AgentAnswer) :
    Ends (r.agentDone listening a) :=
  ends_of_not_finished (r.not_finished_agentDone listening a)

theorem ends_overrideDone (r : FencingRun) (listening overridden : Bool) :
    Ends (r.overrideDone listening overridden) :=
  ends_of_not_finished (r.not_finished_overrideDone listening overridden)

end FencingRun

end ClusterFence
