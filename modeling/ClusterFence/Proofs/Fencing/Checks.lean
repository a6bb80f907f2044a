import ClusterFence.Fencing.Run

namespace ClusterFence

theorem Surroundings.averted?_of_fencedOutside {s : Surroundings} {node : NodeId}
    (h : s.history.fencedOutside node = true) : s.averted? node = some .external := by
  unfold averted?
  rw [if_pos h]

theorem Surroundings.averted?_of_not_fencedOutside {s : Surroundings} {node : NodeId}
    (h : s.history.fencedOutside node = false) :
    s.averted? node = if s.isBack node then some .member else none := by
  unfold averted?
  rw [h]
  simp

namespace FencingRun

/-- The victim that the run has tried in vain to fence, while it pauses before it tries again. -/
def retrying? (r : FencingRun) : Option NodeId :=
  match r.stage with
  | .resting t _ => some t.victim
  | _ => none

variable {r : FencingRun} {s : Surroundings} {t : Trial} {rest : List NodeId}

theorem mem_resolve {listening : Bool} {victim : NodeId} {how : Resolution} {reduced : Bool}
    {next : Stage} {effect : RunEffect}
    (h : effect ∈ (r.resolve listening victim how reduced next).2) :
    effect = .report (.resolved victim how reduced) := by
  unfold resolve report at h
  split at h
  · exact List.mem_singleton.1 h
  · simp at h

/-- A victim that need not be fenced is resolved for that reason, and the agent is not called. -/
theorem check_averted {how : Resolution} (h : s.averted? t.victim = some how) :
    .report (.resolved t.victim how false) ∈ (r.check s true t rest).2 ∧
      ∀ victim name, .callAgent victim name ∉ (r.check s true t rest).2 := by
  unfold check
  simp [h, resolve, report]

theorem check_not_averted (h : s.averted? t.victim = none) :
    .callAgent t.victim t.name ∈ (r.check s true t rest).2 := by
  unfold check
  simp [h]

/-- A look resolves nobody but its own victim, and only for a reason that there is. -/
theorem averted_of_check {listening : Bool} {victim : NodeId} {how : Resolution} {reduced : Bool}
    (h : .report (.resolved victim how reduced) ∈ (r.check s listening t rest).2) :
    s.averted? victim = some how := by
  unfold check at h
  cases listening with
  | false => simp at h
  | true =>
    cases haverted : s.averted? t.victim with
    | none => simp [haverted] at h
    | some reason =>
      simp only [haverted, Bool.not_true, Bool.false_eq_true, if_false, List.mem_append,
        List.mem_map, List.mem_singleton, reduceCtorEq, and_false, exists_false, or_false,
        false_or, RunEffect.report.injEq] at h
      have hresolved := RunEffect.report.inj (mem_resolve h)
      simp only [FencingReport.resolved.injEq] at hresolved
      rw [hresolved.1, hresolved.2.1]
      exact haverted

/-- Whoever is resolved as fenced outside is so by the histories. -/
theorem fencedOutside_of_turn {now : Nat} {listening : Bool} {victim : NodeId} {reduced : Bool}
    (h : .report (.resolved victim .external reduced) ∈ (r.turn now s listening).2) :
    s.history.fencedOutside victim = true := by
  unfold turn at h
  cases hstage : r.stage with
  | trying t rest =>
    simp only [hstage] at h
    have haverted := averted_of_check h
    cases houtside : s.history.fencedOutside victim with
    | true => rfl
    | false =>
      rw [Surroundings.averted?_of_not_fencedOutside houtside] at haverted
      split at haverted <;> simp at haverted
  | reducing d victims remaining =>
    cases victims with
    | nil => simp [hstage] at h
    | cons v rest =>
      simp only [hstage, reduceOne] at h
      split at h
      · obtain h | h := List.mem_append.1 h
        · simp at h
        · simpa using mem_resolve h
      · simp at h
  | choosing victims =>
    cases victims with
    | nil =>
      simp only [hstage, report] at h
      split at h <;> simp at h
    | cons v rest =>
      simp only [hstage, choose] at h
      split at h
      · simp at h
      · split at h <;> simp at h
  | _ => simp [hstage] at h

theorem not_external_agentDone {listening : Bool} {a : AgentAnswer} {victim : NodeId}
    {reduced : Bool} :
    .report (.resolved victim .external reduced) ∉ (r.agentDone listening a).2 := by
  intro h
  unfold agentDone at h
  split at h
  · dsimp only at h
    split at h
    · obtain h | h := List.mem_append.1 h
      · split at h <;> simp at h
      · simpa using mem_resolve h
    · split at h
      · obtain h | h := List.mem_append.1 h
        · split at h <;> simp at h
        · simp at h
      · split at h <;> simp at h
  · simp at h

theorem not_external_overrideDone {listening overridden : Bool} {victim : NodeId}
    {reduced : Bool} :
    .report (.resolved victim .external reduced) ∉ (r.overrideDone listening overridden).2 := by
  intro h
  unfold overrideDone at h
  split at h
  · split at h
    · obtain h | h := List.mem_cons.1 h
      · simp at h
      · simpa using mem_resolve h
    · simp at h
  · simp at h

end FencingRun

end ClusterFence
