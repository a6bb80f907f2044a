import ClusterFence.Proofs.Fencing.Deeds

namespace ClusterFence

namespace Deed

/-- The outcome that is heard of. -/
def outcome? : Deed → Option AgentOutcome
  | .hears o => some o
  | _ => none

def isCheck : Deed → Bool
  | .checks _ _ => true
  | _ => false

def isCall : Deed → Bool
  | .calls _ _ => true
  | _ => false

end Deed

namespace Trial

/-- The trial of a victim after these outcomes. -/
def after (victim : NodeId) (name : String) (heard : List AgentOutcome) : Trial where
  victim := victim
  name := name
  retries := heard.length
  lastLog := heard.getLast?.map (·.log)

section

variable {victim : NodeId} {name : String} {heard : List AgentOutcome} {o : AgentOutcome}

theorem isQuiet_after : (after victim name heard).isQuiet = true ↔ ¬ heard.length ≤ 2 := by
  rw [isQuiet, decide_eq_true_iff, Nat.not_le]
  rfl

theorem reminder_after :
    (after victim name heard).reminder =
      if 0 < heard.length ∧ 600 ∣ heard.length then [.stillFencing name] else [] := by
  have hdue : (after victim name heard).isQuiet = true ∧ heard.length % 600 = 0 ↔
      0 < heard.length ∧ 600 ∣ heard.length := by
    rw [isQuiet_after]
    omega
  unfold reminder
  refine if_congr ?_ rfl rfl
  rw [Bool.and_eq_true, beq_iff_eq]
  exact hdue

/-- An outcome is passed over only if nothing about it is new. -/
theorem isRepeated_after :
    (after victim name heard).isRepeated o = true ↔
      ¬ (heard.length ≤ 2 ∨ o.success = true ∨ heard.getLast?.map (·.log) ≠ some o.log) := by
  rw [isRepeated, Bool.and_eq_true, Bool.and_eq_true, isQuiet_after, beq_iff_eq, not_or, not_or,
    not_not, Bool.not_eq_true', Bool.not_eq_true, and_assoc]
  rfl

/-- One more outcome has been heard. -/
theorem again_after :
    ({ after victim name heard with lastLog := some o.log } : Trial).again =
      after victim name (heard ++ [o]) := by
  simp [after, again]

/-- A trial that passes an outcome over remembers its log all the same. -/
theorem lastLog_of_isRepeated {t : Trial} (h : t.isRepeated o = true) :
    { t with lastLog := some o.log } = t := by
  simp only [isRepeated, Bool.and_eq_true, beq_iff_eq] at h
  rw [← h.2]

end

end Trial

def RunEffect.isNotice : RunEffect → Bool
  | .notice _ => true
  | _ => false

/-- All effects but what the log is told. -/
def RunEffect.acts (effects : List RunEffect) : List RunEffect := effects.filter (!·.isNotice)

@[simp] theorem RunEffect.acts_append (effects more : List RunEffect) :
    acts (effects ++ more) = acts effects ++ acts more :=
  List.filter_append ..

@[simp] theorem RunEffect.acts_notice (notices : List Notice) :
    acts (notices.map .notice) = [] := by
  rw [acts, List.filter_eq_nil_iff]
  simp [isNotice]

@[simp] theorem RunEffect.acts_nil : acts [] = [] := rfl

@[simp] theorem RunEffect.acts_cons (e : RunEffect) (effects : List RunEffect) :
    acts (e :: effects) = if e.isNotice then acts effects else e :: acts effects := by
  cases h : e.isNotice <;> simp [acts, h]

/-- The trial without what it remembers for the log. -/
def Trial.unlogged (t : Trial) : Trial := { t with retries := 0, lastLog := none }

def Stage.unlogged : Stage → Stage
  | .trying t rest => .trying t.unlogged rest
  | .calling t rest => .calling t.unlogged rest
  | .overriding t rest => .overriding t.unlogged rest
  | .resting t rest => .resting t.unlogged rest
  | stage => stage

/-- The input without what the log may be told of it. -/
def RunInput.unlogged : RunInput → RunInput
  | .agent a listening => .agent (.done { a.outcome with log := [] }) listening
  | i => i

/-- The trial that is under way. -/
def Stage.trial? : Stage → Option Trial
  | .trying t _ | .calling t _ | .overriding t _ | .resting t _ => some t
  | _ => none

namespace FencingRun

/-- The run is at one victim from the first input to the last, and still is. -/
def StaysAtTrial (r : FencingRun) (inputs : List RunInput) : Prop :=
  ∀ begun, begun <+: inputs → (r.play begun).stage.trial?.isSome = true

theorem staysAtTrial_nil {r : FencingRun} :
    r.StaysAtTrial [] ↔ r.stage.trial?.isSome = true := by
  simp [StaysAtTrial, play]

theorem staysAtTrial_cons {r : FencingRun} {i : RunInput} {inputs : List RunInput} :
    r.StaysAtTrial (i :: inputs) ↔
      r.stage.trial?.isSome = true ∧ (r.step i).1.StaysAtTrial inputs := by
  constructor
  · intro h
    exact ⟨h [] List.nil_prefix, fun begun hbegun =>
      h (i :: begun) (List.cons_prefix_cons.2 ⟨rfl, hbegun⟩)⟩
  · rintro ⟨hhere, hrest⟩ begun hbegun
    cases begun with
    | nil => exact hhere
    | cons j begun =>
      obtain ⟨rfl, hrestOf⟩ := List.cons_prefix_cons.1 hbegun
      exact hrest begun hrestOf

theorem StaysAtTrial.here {r : FencingRun} {inputs : List RunInput} (h : r.StaysAtTrial inputs) :
    r.stage.trial?.isSome = true :=
  h [] List.nil_prefix

instance decidableStaysAtTrial :
    (r : FencingRun) → (inputs : List RunInput) → Decidable (r.StaysAtTrial inputs)
  | _, [] => decidable_of_iff _ staysAtTrial_nil.symm
  | r, i :: inputs =>
    have := decidableStaysAtTrial (r.step i).1 inputs
    decidable_of_iff _ staysAtTrial_cons.symm

/-- A run that has begun so many checks and made so many calls for a victim, and has heard of these
    outcomes. An attempt is a check, a call and an outcome; the trial counts it when the next one
    begins. -/
def Recalls (victim : NodeId) (name : String) (r : FencingRun) (heard : List AgentOutcome)
    (checks calls : Nat) : Prop :=
  match r.stage with
  | .trying t _ => t = .after victim name heard ∧ checks = heard.length ∧ calls = heard.length
  | .calling t _ =>
    t = .after victim name heard ∧ checks = heard.length + 1 ∧ calls = heard.length + 1
  | .overriding t _ | .resting t _ =>
    t.again = .after victim name heard ∧ checks = heard.length ∧ calls = heard.length
  | _ => False

section

variable {r : FencingRun} {victim : NodeId} {name : String} {heard : List AgentOutcome}
  {checks calls : Nat} {t : Trial} {rest : List NodeId}

/-- What a check hands out. -/
theorem check_effects (r : FencingRun) (s : Surroundings) (listening : Bool) (t : Trial)
    (rest : List NodeId) :
    (r.check s listening t rest).2 =
      t.reminder.map .notice ++
        if listening then
          [.report (.attempt t.victim)] ++
            (s.clusterNotices ++ s.history.lookupNotices t.victim).map .notice ++
            match s.averted? t.victim with
            | some how => [.report (.resolved t.victim how false)]
            | none =>
              (if t.isQuiet then [] else [.notice (.fencingNode t.name)]) ++
                [.callAgent t.victim t.name]
        else [] := by
  unfold check
  cases listening with
  | false => simp
  | true =>
    cases s.averted? t.victim with
    | some how => simp [resolve, report]
    | none => simp

/-- What comes of an outcome. The trial always remembers the last log. -/
theorem agentDone_eq (hstage : r.stage = .calling t rest) (listening : Bool) (a : AgentAnswer) :
    let o := a.outcome
    let t' : Trial := { t with lastLog := some o.log }
    let told := (Trial.crashNotices t.name a ++
      if t.isRepeated o then [] else Trial.outcomeNotices t.name o).map RunEffect.notice
    r.agentDone listening a =
      if o.success then
        let step := r.resolve listening t.victim .agent false (.choosing rest)
        (step.1, told ++ step.2)
      else if r.overridable then
        (r.goTo (.overriding t' rest),
          told ++ [.awaitOverride t.victim t.name r.settings.overrideTime])
      else (r.goTo (.resting t' rest), told) := by
  unfold agentDone
  rw [hstage]
  by_cases hrepeated : t.isRepeated a.outcome = true
  · simp [hrepeated, Trial.lastLog_of_isRepeated hrepeated]
  · simp [hrepeated]

/-- An attempt was made in vain. -/
theorem step_failure {t' : Trial} {a : AgentAnswer} {listening : Bool}
    (hstage : r.stage = .calling t rest) (hfailure : a.outcome.success = false)
    (hnext : (r.step (.agent a listening)).1.stage = .overriding t' rest ∨
      (r.step (.agent a listening)).1.stage = .resting t' rest) :
    t' = { t with lastLog := some a.outcome.log } := by
  have hdone : (r.step (.agent a listening)).1 = (r.agentDone listening a).1 := rfl
  rw [hdone, agentDone_eq hstage] at hnext
  simp only [hfailure, Bool.false_eq_true, if_false] at hnext
  split at hnext
  · obtain h | h := hnext <;> cases h
    rfl
  · obtain h | h := hnext <;> cases h
    rfl

/-- The outcome completes the attempt. -/
theorem Recalls.hear (h : r.Recalls victim name heard checks calls)
    (hstage : r.stage = .calling t rest) (o : AgentOutcome) :
    ({ t with lastLog := some o.log } : Trial).again = .after victim name (heard ++ [o]) ∧
      checks = (heard ++ [o]).length ∧ calls = (heard ++ [o]).length := by
  unfold Recalls at h
  rw [hstage] at h
  obtain ⟨rfl, hchecks, hcalls⟩ := h
  rw [List.length_append]
  exact ⟨Trial.again_after, hchecks, hcalls⟩

theorem Recalls.step (h : r.Recalls victim name heard checks calls) (i : RunInput)
    (hstays : (r.step i).1.stage.trial?.isSome = true) :
    (r.step i).1.Recalls victim name (heard ++ (r.deedsIn i).filterMap Deed.outcome?)
      (checks + (r.deedsIn i).countP (·.isCheck)) (calls + (r.deedsIn i).countP (·.isCall)) := by
  have hgoes := r.goes_step i
  generalize hnext : (r.step i).1 = r' at hgoes hstays
  generalize r.deedsIn i = deeds at hgoes
  have hrecalls := h
  unfold Recalls at h
  cases hgoes with
  | ignores =>
    simp only [List.filterMap_nil, List.append_nil, List.countP_nil, Nat.add_zero]
    exact hrecalls
  | stops _ ended =>
    rw [ended] at hstays
    cases hstays
  | chooses stage =>
    rw [stage] at h
    exact h.elim
  | calls stage =>
    rw [stage] at h
    obtain ⟨htrial, hchecks, hcalls⟩ := h
    simp only [List.filterMap_cons, List.filterMap_nil, Deed.outcome?, List.append_nil]
    exact ⟨htrial, congrArg (· + 1) hchecks, congrArg (· + 1) hcalls⟩
  | retries stage =>
    rw [stage] at h
    simp only [List.filterMap_nil, List.append_nil, List.countP_nil, Nat.add_zero]
    exact h
  | @rests a _ t t' _ stage failure =>
    obtain rfl : t' = { t with lastLog := some a.outcome.log } :=
      step_failure stage failure (.inr (by rw [hnext]; rfl))
    exact hrecalls.hear stage a.outcome
  | @asks a _ t t' _ stage failure =>
    obtain rfl : t' = { t with lastLog := some a.outcome.log } :=
      step_failure stage failure (.inl (by rw [hnext]; rfl))
    exact hrecalls.hear stage a.outcome
  | refuses stage =>
    rw [stage] at h
    simp only [List.filterMap_cons, List.filterMap_nil, Deed.outcome?, List.append_nil]
    exact h
  | waits _ _ waits =>
    obtain rfl | ⟨d, rfl⟩ := waits <;> cases hstays
  | _ => cases hstays

theorem Recalls.play {inputs : List RunInput} (h : r.Recalls victim name heard checks calls)
    (hstays : r.StaysAtTrial inputs) :
    (r.play inputs).Recalls victim name (heard ++ (r.deeds inputs).filterMap Deed.outcome?)
      (checks + (r.deeds inputs).countP (·.isCheck))
      (calls + (r.deeds inputs).countP (·.isCall)) := by
  induction inputs generalizing r heard checks calls with
  | nil => simpa [FencingRun.play, deeds] using h
  | cons i rest ih =>
    obtain ⟨-, hstays⟩ := staysAtTrial_cons.1 hstays
    have hrest := ih (h.step i hstays.here) hstays
    simp only [deeds, List.filterMap_append, List.countP_append, ← List.append_assoc,
      ← Nat.add_assoc]
    exact hrest

end

/-- The run without what it remembers for the log. -/
def unlogged (r : FencingRun) : FencingRun := r.goTo r.stage.unlogged

/-- What a run hands out with each input, but for what the log is told. -/
def acts (r : FencingRun) : List RunInput → List (List RunEffect)
  | [] => []
  | i :: rest => RunEffect.acts (r.step i).2 :: (r.step i).1.acts rest

section

variable {r r' : FencingRun} {t : Trial} {rest : List NodeId}

theorem wants_unlogged (r : FencingRun) : r.unlogged.wants = r.wants := by
  obtain ⟨settings, nodesJoined, overridable, resolved, stage⟩ := r
  cases stage <;> rfl

/-- What a check comes to does not depend on how often it was made. -/
theorem check_acts (r : FencingRun) (s : Surroundings) (listening : Bool) (t : Trial)
    (rest : List NodeId) :
    ((r.check s listening t rest).1, RunEffect.acts (r.check s listening t rest).2) =
      if listening then
        match s.averted? t.victim with
        | some how =>
          (r.settle t.victim (.choosing rest),
            [.report (.attempt t.victim), .report (.resolved t.victim how false)])
        | none =>
          (r.goTo (.calling t rest),
            [.report (.attempt t.victim), .callAgent t.victim t.name])
      else (r.goTo (.over (.error .shuttingDown)), []) := by
  rw [check_effects]
  unfold check
  cases listening with
  | false => simp
  | true =>
    cases s.averted? t.victim with
    | some how => simp [RunEffect.isNotice, resolve, report, settle, goTo]
    | none => cases t.isQuiet <;> simp [RunEffect.isNotice]

/-- What an outcome comes to does not depend on what it is compared with. -/
theorem agentDone_acts (hstage : r.stage = .calling t rest) (listening : Bool) (a : AgentAnswer) :
    ((r.agentDone listening a).1, RunEffect.acts (r.agentDone listening a).2) =
      if a.outcome.success then r.resolve listening t.victim .agent false (.choosing rest)
      else if r.overridable then
        (r.goTo (.overriding { t with lastLog := some a.outcome.log } rest),
          [.awaitOverride t.victim t.name r.settings.overrideTime])
      else (r.goTo (.resting { t with lastLog := some a.outcome.log } rest), []) := by
  rw [agentDone_eq hstage]
  dsimp only
  cases a.outcome.success with
  | true => cases listening <;> simp [resolve, report, RunEffect.isNotice]
  | false => cases r.overridable <;> simp [RunEffect.isNotice]

/-- What is remembered for the log makes no difference to a step but for what the log is told. -/
theorem step_unlogged (r : FencingRun) (i : RunInput) :
    ((r.unlogged.step i.unlogged).1.unlogged, RunEffect.acts (r.unlogged.step i.unlogged).2) =
      ((r.step i).1.unlogged, RunEffect.acts (r.step i).2) := by
  obtain ⟨settings, nodesJoined, overridable, resolved, stage⟩ := r
  cases i with
  | turn clock s listening =>
    cases stage with
    | trying t rest =>
      -- both checks come to the same, which is said of each
      refine (congrArg (Prod.map unlogged id) (check_acts _ s listening t.unlogged rest)).trans
        (.trans ?_ (congrArg (Prod.map unlogged id) (check_acts _ s listening t rest)).symm)
      change Prod.map unlogged id (if listening then match s.averted? t.victim with
        | some how => _ | none => _ else _) = _
      cases listening with
      | false => rfl
      | true => cases s.averted? t.victim <;> rfl
    | reducing d victims remaining => cases victims <;> rfl
    | choosing rest => cases rest <;> rfl
    | _ => rfl
  | agent a listening =>
    cases stage with
    | calling t rest =>
      refine (congrArg (Prod.map unlogged id) (agentDone_acts rfl listening _)).trans
        (.trans ?_ (congrArg (Prod.map unlogged id) (agentDone_acts rfl listening a)).symm)
      change Prod.map unlogged id
        (if a.outcome.success then _ else if overridable then _ else _) = _
      cases a.outcome.success with
      | true => cases listening <;> rfl
      | false => cases overridable <;> rfl
    | _ => rfl
  | override overridden listening =>
    cases stage with
    | overriding t rest => cases overridden <;> cases listening <;> rfl
    | _ => rfl

/-- Runs that differ in what they remember for the log, and are given the same but for logs, hand
    out the same but for what the log is told, and go on alike. -/
theorem play_unlogged {inputs inputs' : List RunInput} (hrun : r'.unlogged = r.unlogged)
    (hinputs : inputs'.map RunInput.unlogged = inputs.map RunInput.unlogged) :
    (r'.play inputs').unlogged = (r.play inputs).unlogged ∧ r'.acts inputs' = r.acts inputs := by
  induction inputs generalizing r r' inputs' with
  | nil =>
    obtain rfl := List.map_eq_nil_iff.1 hinputs
    exact ⟨hrun, rfl⟩
  | cons i rest ih =>
    obtain ⟨i', rest', rfl, hfirst, hrest⟩ := List.map_eq_cons_iff.1 hinputs
    have hstep := (step_unlogged r' i').symm
    rw [hrun, hfirst, step_unlogged r i, Prod.mk.injEq] at hstep
    obtain ⟨hplay, hacts⟩ := ih hstep.1 hrest
    exact ⟨hplay, congrArg₂ List.cons hstep.2 hacts⟩

end

/-- What attempt `n` at a victim begins with, counted from zero. -/
def attemptBegins (victim : NodeId) (name : String) (n : Nat) (s : Surroundings)
    (listening : Bool) : List RunEffect :=
  (if 0 < n ∧ 600 ∣ n then [.notice (.stillFencing name)] else []) ++
    if listening then
      [.report (.attempt victim)] ++
        (s.clusterNotices ++ s.history.lookupNotices victim).map .notice ++
        match s.averted? victim with
        | some how => [.report (.resolved victim how false)]
        | none =>
          (if n ≤ 2 then [.notice (.fencingNode name)] else []) ++ [.callAgent victim name]
    else []

/-- What the log is told of the outcome that comes after these. -/
def outcomeTold (name : String) (heard : List AgentOutcome) (o : AgentOutcome) : List Notice :=
  if heard.length ≤ 2 ∨ o.success = true ∨ heard.getLast?.map (·.log) ≠ some o.log then
    Trial.outcomeNotices name o
  else []

/-- What else comes of an outcome. -/
def outcomeActs (r : FencingRun) (victim : NodeId) (name : String) (o : AgentOutcome)
    (listening : Bool) : List RunEffect :=
  if o.success then if listening then [.report (.resolved victim .agent false)] else []
  else if r.overridable then [.awaitOverride victim name r.settings.overrideTime]
  else []

section

variable {r : FencingRun} {victim : NodeId} {name : String} {heard : List AgentOutcome}
  {checks calls : Nat} {t : Trial} {rest : List NodeId}

theorem Recalls.begins (h : r.Recalls victim name heard checks calls)
    (hstage : r.stage = .trying t rest) :
    checks = heard.length ∧ calls = heard.length ∧
      ∀ clock s listening,
        (r.step (.turn clock s listening)).2 =
          attemptBegins victim name heard.length s listening := by
  unfold Recalls at h
  rw [hstage] at h
  obtain ⟨rfl, hchecks, hcalls⟩ := h
  refine ⟨hchecks, hcalls, fun clock s listening => ?_⟩
  have hstep : (r.step (.turn clock s listening)).2 =
      (r.check s listening (.after victim name heard) rest).2 := by
    rw [FencingRun.step, turn, hstage]
  have hquiet : (if (Trial.after victim name heard).isQuiet then [] else
      [RunEffect.notice (.fencingNode name)]) =
        if heard.length ≤ 2 then [.notice (.fencingNode name)] else [] := by
    by_cases hfew : heard.length ≤ 2 <;> simp [Trial.isQuiet_after, hfew]
  rw [hstep, check_effects, Trial.reminder_after, attemptBegins]
  congr 1
  · split <;> rfl
  · cases listening with
    | false => rfl
    | true =>
      cases havert : s.averted? victim with
      | some how => simp [Trial.after, havert]
      | none =>
        rw [← hquiet]
        simp [Trial.after, havert]

theorem Recalls.ends (h : r.Recalls victim name heard checks calls)
    (hstage : r.stage = .calling t rest) :
    checks = heard.length + 1 ∧ calls = heard.length + 1 ∧
      ∀ a listening,
        (r.step (.agent a listening)).2 =
          (Trial.crashNotices name a ++ outcomeTold name heard a.outcome).map .notice ++
            r.outcomeActs victim name a.outcome listening := by
  unfold Recalls at h
  rw [hstage] at h
  obtain ⟨rfl, hchecks, hcalls⟩ := h
  refine ⟨hchecks, hcalls, fun a listening => ?_⟩
  have hstep : (r.step (.agent a listening)).2 = (r.agentDone listening a).2 := rfl
  have htold : (if (Trial.after victim name heard).isRepeated a.outcome then [] else
      Trial.outcomeNotices name a.outcome) = outcomeTold name heard a.outcome := by
    rw [outcomeTold]
    by_cases hrepeated : (Trial.after victim name heard).isRepeated a.outcome = true
    · rw [if_pos hrepeated, if_neg (Trial.isRepeated_after.1 hrepeated)]
    · rw [if_neg hrepeated, if_pos (not_not.1 (mt Trial.isRepeated_after.2 hrepeated))]
  rw [hstep, agentDone_eq hstage, ← htold]
  unfold outcomeActs
  dsimp only
  cases a.outcome.success with
  | true => cases listening <;> rfl
  | false => cases r.overridable <;> simp [Trial.after]

/-- At a trial nothing is told but at a check, at an outcome, and that an administrator overrode. -/
theorem Recalls.silent (h : r.Recalls victim name heard checks calls) {i : RunInput} {n : Notice}
    (hn : .notice n ∈ (r.step i).2) :
    n = .fenceOverridden name ∨
      (∃ t rest clock s listening, r.stage = .trying t rest ∧ i = .turn clock s listening) ∨
      ∃ t rest a listening, r.stage = .calling t rest ∧ i = .agent a listening := by
  unfold Recalls at h
  cases hstage : r.stage with
  | trying t rest =>
    cases i with
    | turn clock s listening => exact .inr (.inl ⟨t, rest, clock, s, listening, rfl, rfl⟩)
    | _ => simp [FencingRun.step, agentDone, overrideDone, hstage] at hn
  | calling t rest =>
    cases i with
    | agent a listening => exact .inr (.inr ⟨t, rest, a, listening, rfl, rfl⟩)
    | _ => simp [FencingRun.step, turn, overrideDone, hstage] at hn
  | overriding t rest =>
    rw [hstage] at h
    have hname : t.name = name := congrArg Trial.name h.1
    cases i with
    | override overridden listening =>
      cases overridden <;> cases listening <;>
        simp [FencingRun.step, overrideDone, resolve, report, hstage, hname] at hn
      all_goals exact .inl hn
    | _ => simp [FencingRun.step, turn, agentDone, hstage] at hn
  | resting t rest =>
    cases i <;> simp [FencingRun.step, turn, agentDone, overrideDone, hstage] at hn
  | _ =>
    rw [hstage] at h
    exact h.elim

/-- While a victim is tried again and again, an outcome is told, with every device of its log,
    unless it is a failure after the third with the log of the outcome before. A crash of the agent's
    task is told as well, whenever there is one. That the victim is fenced is told before the first
    three calls, and at every six hundredth check that it still is. What is told, and what is
    remembered for it, has no part in what else the run does. -/
theorem tells_whatIsNew {inputs : List RunInput} (hstage : r.stage = .trying { victim, name } rest)
    (hstays : r.StaysAtTrial inputs) :
    let now := r.play inputs
    let past := r.deeds inputs
    let heard := past.filterMap Deed.outcome?
    (∀ t rest, now.stage = .trying t rest →
      past.countP (·.isCheck) = heard.length ∧ past.countP (·.isCall) = heard.length ∧
        ∀ clock s listening,
          (now.step (.turn clock s listening)).2 =
            attemptBegins victim name heard.length s listening) ∧
      (∀ t rest, now.stage = .calling t rest →
        past.countP (·.isCheck) = heard.length + 1 ∧ past.countP (·.isCall) = heard.length + 1 ∧
          ∀ a listening,
            (now.step (.agent a listening)).2 =
              (Trial.crashNotices name a ++ outcomeTold name heard a.outcome).map .notice ++
                now.outcomeActs victim name a.outcome listening) ∧
      (∀ i n, .notice n ∈ (now.step i).2 →
        n = .fenceOverridden name ∨
          (∃ t rest clock s listening, now.stage = .trying t rest ∧ i = .turn clock s listening) ∨
          ∃ t rest a listening, now.stage = .calling t rest ∧ i = .agent a listening) ∧
      ∀ (other : FencingRun) (given given' : List RunInput), other.unlogged = r.unlogged →
        given'.map RunInput.unlogged = given.map RunInput.unlogged →
          other.acts given' = r.acts given ∧
            (other.play given').unlogged = (r.play given).unlogged ∧
            (other.play given').wants = (r.play given).wants := by
  intro now past heard
  have hbegun : r.Recalls victim name [] 0 0 := by
    rw [Recalls, hstage]
    exact ⟨rfl, rfl, rfl⟩
  have hnow := hbegun.play hstays
  rw [List.nil_append, Nat.zero_add, Nat.zero_add] at hnow
  refine ⟨fun t rest => hnow.begins, fun t rest => hnow.ends, fun i n => hnow.silent,
    fun other given given' hother hgiven => ?_⟩
  obtain ⟨hplay, hacts⟩ := play_unlogged hother hgiven
  refine ⟨hacts, hplay, ?_⟩
  rw [← wants_unlogged, hplay, wants_unlogged]

/-- The agent crashes three times, and is called once more. -/
def threeFailures : List RunInput :=
  let s : Surroundings :=
    { victims := ⟨[{ node := 3, name := "node3" }]⟩
      history := .empty
      daemons := .new 1 .highest
      cluster := .ok { quorate := true, ringSeq := 1, nodes := [] } }
  let turn : RunInput := .turn 0 s true
  let attempt : List RunInput := [turn, .agent (.crashed "killed") true, turn]
  attempt ++ attempt ++ attempt ++ [turn]

/-- Of an agent that crashes once more only the crash is told, and all of one that fails in another
    way or succeeds. -/
theorem tells_whatIsNew_threeFailures :
    let r : FencingRun :=
      { settings := ⟨3, 0, 0, 5000, 1000⟩, nodesJoined := false, overridable := false,
        stage := .trying { victim := 3, name := "node3" } [] }
    let failed : DeviceAttempt := ⟨0, 1, "ipmi", .agentFailed⟩
    let worked : DeviceAttempt := ⟨0, 2, "apc", .success⟩
    r.stage = .trying { victim := 3, name := "node3" } [] ∧ r.StaysAtTrial threeFailures ∧
      (r.play threeFailures).stage = .calling ⟨3, "node3", 3, some []⟩ [] ∧
      ((r.play threeFailures).step (.agent (.crashed "killed") true)).2 =
        [.notice (.agentCrashed "node3" "killed")] ∧
      ((r.play threeFailures).step (.agent (.done ⟨false, [failed]⟩) true)).2 =
        [.notice (.deviceTried "node3" failed), .notice (.fenceFailed "node3")] ∧
      ((r.play threeFailures).step (.agent (.done ⟨true, [failed, worked]⟩) true)).2 =
        [.notice (.deviceTried "node3" failed), .notice (.deviceTried "node3" worked),
          .notice (.fenceSucceeded "node3"), .report (.resolved 3 .agent false)] := by
  intro r failed worked
  have hstays : r.StaysAtTrial threeFailures := by decide +kernel
  have hcalling : (r.play threeFailures).stage = .calling ⟨3, "node3", 3, some []⟩ [] := rfl
  obtain ⟨-, hends, -⟩ := tells_whatIsNew rfl hstays
  obtain ⟨-, -, htold⟩ := hends _ _ hcalling
  refine ⟨rfl, hstays, hcalling, ?_, ?_, ?_⟩
  · rw [htold]
    decide +kernel
  · rw [htold]
    decide +kernel
  · rw [htold]
    decide +kernel

end

end FencingRun

end ClusterFence
