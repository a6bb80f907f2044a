import ClusterFence.Proofs.Fencing.Checks
import ClusterFence.Proofs.Fencing.Deeds

namespace ClusterFence

theorem Surroundings.averted?_eq_none_iff {s : Surroundings} {node : NodeId} :
    s.averted? node = none ↔ s.history.fencedOutside node = false ∧ s.isBack node = false := by
  cases houtside : s.history.fencedOutside node with
  | true => simp [averted?_of_fencedOutside houtside]
  | false => simp [averted?_of_not_fencedOutside houtside]

namespace FencingRun

/-- A look at a victim during the delay. -/
structure Look where
  victim : NodeId
  seen : Surroundings

namespace Look

def isBack (l : Look) : Bool := l.seen.isBack l.victim

def deeds (l : Look) : List Deed :=
  .looks l.victim l.seen ::
    if l.isBack then [.reports (.resolved l.victim .member true)] else []

end Look

/-- The victims that were back. -/
def reduced (looks : List Look) : List NodeId := (looks.filter (·.isBack)).map (·.victim)

/-- An attempt on a victim: what its check saw, what the agent came back with if it was called, and
    what an administrator answered if one was asked. -/
structure Try where
  seen : Surroundings
  outcome? : Option AgentOutcome := none
  answer? : Option Bool := none

namespace Try

def deeds (victim : NodeId) (name : String) (t : Try) : List Deed :=
  [.reports (.attempt victim), .checks victim t.seen] ++
    t.outcome?.elim [] (fun o => [.calls victim name, .hears o]) ++
    t.answer?.elim [] (fun a => [.asks victim name, .answered a])

/-- The agent is called just when the check finds the victim neither fenced outside nor back, and an
    administrator is asked just when the agent fails and there is a path for it. -/
structure Fair (overridable : Bool) (victim : NodeId) (t : Try) : Prop where
  called : t.outcome?.isSome = true ↔
    t.seen.history.fencedOutside victim = false ∧ t.seen.isBack victim = false
  asked : t.answer?.isSome = true ↔ overridable = true ∧ ∃ o ∈ t.outcome?, o.success = false

/-- How the victim is resolved by it. -/
def verdict? (victim : NodeId) (t : Try) : Option Resolution :=
  if t.seen.history.fencedOutside victim then some .external
  else if t.seen.isClusterMember victim && t.seen.daemons.isCleanMember victim then some .member
  else if t.outcome?.any (·.success) then some .agent
  else if t.answer? = some true then some .override
  else none

end Try

/-- The tries on a victim, of which only the last is not in vain, and how it is resolved. -/
structure Block where
  name : String
  vain : List Try := []
  last : Try
  how : Resolution

namespace Block

def deeds (victim : NodeId) (b : Block) : List Deed :=
  (b.vain ++ [b.last]).flatMap (Try.deeds victim b.name) ++
    [.reports (.resolved victim b.how false)]

def reports (victim : NodeId) (b : Block) : List FencingReport :=
  List.replicate (b.vain.length + 1) (.attempt victim) ++ [.resolved victim b.how false]

/-- The last try says how the victim is resolved, and the others leave it open. -/
structure Sound (overridable : Bool) (victim : NodeId) (b : Block) : Prop where
  fair : ∀ t ∈ b.vain ++ [b.last], t.Fair overridable victim
  vain : ∀ t ∈ b.vain, t.verdict? victim = none
  last : b.last.verdict? victim = some b.how

end Block

/-- The run turns to a victim and sees the victims that there are. -/
structure Visit where
  victim : NodeId
  seen : Victims
  block? : Option Block := none

namespace Visit

def deeds (v : Visit) : List Deed :=
  .turnsTo v.victim v.seen :: v.block?.elim [] (Block.deeds v.victim)

def reports (v : Visit) : List FencingReport := v.block?.elim [] (Block.reports v.victim)

/-- The victim is tried just when it still is one and was not dealt with before. -/
structure Sound (overridable : Bool) (v : Visit) : Prop where
  due : v.block?.isSome = true ↔ ∃ w, v.seen.get? v.victim = some w ∧ w.resolvedHere = false
  block : ∀ b ∈ v.block?, b.Sound overridable v.victim ∧
    (v.seen.get? v.victim).map (·.name) = some b.name

end Visit

/-- What is left to a run that turns to these victims and finishes. -/
def Closes (overridable : Bool) (rest : List NodeId) (deeds : List Deed) : Prop :=
  ∃ visits : List Visit, visits.map (·.victim) = rest ∧ (∀ v ∈ visits, v.Sound overridable) ∧
    deeds = visits.flatMap Visit.deeds ++ [.reports .finished]

/-- What is left to a run that tries a victim. -/
def Tends (overridable : Bool) (victim : NodeId) (name : String) (rest : List NodeId)
    (deeds : List Deed) : Prop :=
  ∃ (b : Block) (more : List Deed), b.name = name ∧ b.Sound overridable victim ∧
    Closes overridable rest more ∧ deeds = b.deeds victim ++ more

/-- What is left to a run that has not listed the victims. -/
def Opens (overridable : Bool) (resolved : List NodeId) (deeds : List Deed) : Prop :=
  ∃ (looks : List Look) (listed : Victims) (more : List Deed),
    Closes overridable (listed.ids.filter (· ∉ resolved ++ reduced looks)) more ∧
    deeds = looks.flatMap Look.deeds ++ .lists listed :: more

/-- What is left to a run that finishes, at each of its stages. While a try is under way, it goes on
    from whatever its check saw. -/
def Ahead (r : FencingRun) (deeds : List Deed) : Prop :=
  match r.stage with
  | .starting | .delaying _ | .reducing _ _ _ | .listing => Opens r.overridable r.resolved deeds
  | .choosing rest => Closes r.overridable rest deeds
  | .trying t rest | .resting t rest => Tends r.overridable t.victim t.name rest deeds
  | .calling t rest => ∀ seen : Surroundings, seen.averted? t.victim = none →
      Tends r.overridable t.victim t.name rest
        (.reports (.attempt t.victim) :: .checks t.victim seen :: .calls t.victim t.name :: deeds)
  | .overriding t rest => ∀ (seen : Surroundings) (o : AgentOutcome),
      seen.averted? t.victim = none → o.success = false → r.overridable = true →
      Tends r.overridable t.victim t.name rest
        (.reports (.attempt t.victim) :: .checks t.victim seen :: .calls t.victim t.name ::
          .hears o :: .asks t.victim t.name :: deeds)
  | .over (.ok ()) => deeds = []
  | .over (.error _) => False

section

variable {r r' : FencingRun} {i : RunInput} {s : Surroundings} {overridable : Bool}
  {victim : NodeId} {name : String} {rest : List NodeId} {deeds more : List Deed}

theorem ahead_of_isEarly (h : r.stage.isEarly = true) :
    r.Ahead deeds ↔ Opens r.overridable r.resolved deeds := by
  unfold Ahead
  cases hstage : r.stage with
  | starting | delaying | reducing | listing => rfl
  | _ => simp [Stage.isEarly, hstage] at h

theorem Try.verdict?_of_averted {how : Resolution} {t : Try}
    (h : t.seen.averted? victim = some how) : t.verdict? victim = some how := by
  unfold Surroundings.averted? at h
  unfold verdict?
  split at h
  · rwa [if_pos ‹_›]
  · rw [if_neg ‹_›]
    split at h
    · exact (if_pos ‹_›).trans h
    · cases h

theorem Try.verdict?_of_pressing {t : Try} (h : t.seen.averted? victim = none) :
    t.verdict? victim = if t.outcome?.any (·.success) then some .agent
      else if t.answer? = some true then some .override else none := by
  obtain ⟨houtside, habsent⟩ := Surroundings.averted?_eq_none_iff.1 h
  rw [Surroundings.isBack] at habsent
  rw [verdict?, houtside, habsent]
  rfl

/-- Without a reason to let the victim be, the agent is called. -/
theorem Try.fair_of_pressing (h : s.averted? victim = none) (o : AgentOutcome)
    {answer? : Option Bool}
    (hanswer : answer?.isSome = true ↔ overridable = true ∧ o.success = false) :
    Fair overridable victim { seen := s, outcome? := some o, answer? } where
  called := ⟨fun _ => Surroundings.averted?_eq_none_iff.1 h, fun _ => rfl⟩
  asked := by simpa using hanswer

theorem Try.fair_of_averted {how : Resolution} (h : s.averted? victim = some how) :
    Fair overridable victim { seen := s } where
  called := by simp [← Surroundings.averted?_eq_none_iff, h]
  asked := by simp

/-- The last try resolves the victim. -/
theorem Tends.of_last {t : Try} {how : Resolution} (hfair : t.Fair overridable victim)
    (hverdict : t.verdict? victim = some how) (h : Closes overridable rest more) :
    Tends overridable victim name rest
      (t.deeds victim name ++ .reports (.resolved victim how false) :: more) := by
  refine ⟨{ name, last := t, how }, more, rfl, ⟨?_, List.forall_mem_nil _, hverdict⟩, h, ?_⟩
  · simpa using hfair
  · simp [Block.deeds]

/-- A try is in vain, and there are more. -/
theorem Tends.of_vain {t : Try} (hfair : t.Fair overridable victim)
    (hverdict : t.verdict? victim = none) (h : Tends overridable victim name rest more) :
    Tends overridable victim name rest (t.deeds victim name ++ more) := by
  obtain ⟨b, later, rfl, ⟨hfairs, hvain, hlast⟩, hcloses, rfl⟩ := h
  refine ⟨{ b with vain := t :: b.vain }, later, rfl, ⟨?_, ?_, hlast⟩, hcloses, ?_⟩
  · exact List.forall_mem_cons.2 ⟨hfair, hfairs⟩
  · exact List.forall_mem_cons.2 ⟨hverdict, hvain⟩
  · simp [Block.deeds]

/-- The run visits a victim. -/
theorem Closes.cons {v : Visit} (hsound : v.Sound overridable) (h : Closes overridable rest more) :
    Closes overridable (v.victim :: rest) (v.deeds ++ more) := by
  obtain ⟨visits, rfl, hsounds, rfl⟩ := h
  refine ⟨v :: visits, rfl, List.forall_mem_cons.2 ⟨hsound, hsounds⟩, ?_⟩
  rw [List.flatMap_cons, List.append_assoc]

/-- The run looks at a victim that is not back. -/
theorem Opens.passes {resolved : List NodeId} (h : Opens overridable resolved more)
    (habsent : s.isBack victim = false) :
    Opens overridable resolved (.looks victim s :: more) := by
  obtain ⟨looks, listed, later, hcloses, rfl⟩ := h
  refine ⟨⟨victim, s⟩ :: looks, listed, later, ?_, ?_⟩
  · simpa [reduced, Look.isBack, habsent] using hcloses
  · simp [Look.deeds, Look.isBack, habsent]

/-- The run looks at a victim that is back. -/
theorem Opens.reduces {resolved : List NodeId} (h : Opens overridable (victim :: resolved) more)
    (hback : s.isBack victim = true) :
    Opens overridable resolved
      (.looks victim s :: .reports (.resolved victim .member true) :: more) := by
  obtain ⟨looks, listed, later, hcloses, rfl⟩ := h
  refine ⟨⟨victim, s⟩ :: looks, listed, later, ?_, ?_⟩
  · have hreduced : reduced (⟨victim, s⟩ :: looks) = victim :: reduced looks := by
      simp [reduced, Look.isBack, hback]
    have hsame : ∀ n, n ∉ resolved ++ reduced (⟨victim, s⟩ :: looks) ↔
        n ∉ victim :: resolved ++ reduced looks := by
      intro n
      rw [hreduced]
      simp only [List.cons_append, List.mem_cons, List.mem_append]
      tauto
    simpa only [hsame] using hcloses
  · simp [Look.deeds, Look.isBack, hback]

theorem map_node_unresolved (r : FencingRun) (s : Surroundings) :
    (r.unresolved s).map (·.node) = s.victims.ids.filter (· ∉ r.resolved) := by
  rw [unresolved, Victims.ids, List.filter_map]
  congr 1
  exact List.filter_congr fun v _ => by simp

/-- A victim that was not resolved is found if it is one. -/
theorem find?_unresolved (h : victim ∉ r.resolved) :
    (r.unresolved s).find? (·.node == victim) = s.victims.get? victim := by
  rw [unresolved, List.find?_filter]
  refine congrArg (fun p => s.victims.toList.find? p) (funext fun v => ?_)
  cases hv : v.node == victim with
  | false => simp
  | true => simpa [eq_of_beq hv] using h

/-- The run turns to a victim that is none any more or was dealt with before, and leaves it. -/
theorem Closes.skips (hfresh : victim ∉ r.resolved)
    (hdone : ∀ w, (r.unresolved s).find? (·.node == victim) = some w → w.resolvedHere = true)
    (h : Closes overridable rest more) :
    Closes overridable (victim :: rest) (.turnsTo victim s.victims :: more) := by
  rw [find?_unresolved hfresh] at hdone
  have hsound : Visit.Sound overridable { victim, seen := s.victims } := by
    refine ⟨⟨by simp, ?_⟩, by simp⟩
    rintro ⟨w, hw, hdue⟩
    rw [hdone w hw] at hdue
    cases hdue
  exact h.cons hsound

/-- The run turns to a victim that is due, and tries it. -/
theorem Closes.chooses {v : Victim} (hfresh : victim ∉ r.resolved)
    (hfound : (r.unresolved s).find? (·.node == victim) = some v) (hdue : v.resolvedHere = false)
    (h : Tends overridable victim v.name rest more) :
    Closes overridable (victim :: rest) (.turnsTo victim s.victims :: more) := by
  rw [find?_unresolved hfresh] at hfound
  obtain ⟨b, later, hname, hsound, hcloses, rfl⟩ := h
  have hsound : Visit.Sound overridable { victim, seen := s.victims, block? := some b } := by
    refine ⟨by simp [hfound, hdue], fun b' hb' => ?_⟩
    obtain rfl := Option.some.inj hb'
    exact ⟨hsound, by rw [hfound, hname]; rfl⟩
  exact hcloses.cons hsound

/-- The agent is called and fences the victim. -/
theorem Tends.fences {o : AgentOutcome} (hpressing : s.averted? victim = none)
    (hsuccess : o.success = true) (h : Closes overridable rest more) :
    Tends overridable victim name rest
      (.reports (.attempt victim) :: .checks victim s :: .calls victim name :: .hears o ::
        .reports (.resolved victim .agent false) :: more) := by
  have hfair : Try.Fair overridable victim { seen := s, outcome? := some o } :=
    Try.fair_of_pressing hpressing o (by simp [hsuccess])
  refine Tends.of_last hfair ?_ h
  rw [Try.verdict?_of_pressing hpressing]
  simp [hsuccess]

/-- The agent fails, and there is no path for an administrator. -/
theorem Tends.fails {o : AgentOutcome} (hpressing : s.averted? victim = none)
    (hfailure : o.success = false) (halone : overridable = false)
    (h : Tends overridable victim name rest more) :
    Tends overridable victim name rest
      (.reports (.attempt victim) :: .checks victim s :: .calls victim name :: .hears o ::
        more) := by
  have hfair : Try.Fair overridable victim { seen := s, outcome? := some o } :=
    Try.fair_of_pressing hpressing o (by simp [halone])
  refine Tends.of_vain hfair ?_ h
  rw [Try.verdict?_of_pressing hpressing]
  simp [hfailure]

section

variable {o : AgentOutcome} (hpressing : s.averted? victim = none) (hfailure : o.success = false)
  (hoverridable : overridable = true)

include hpressing hfailure hoverridable

/-- The agent fails, and an administrator says that the victim is down. -/
theorem Tends.overrides (h : Closes overridable rest more) :
    Tends overridable victim name rest
      (.reports (.attempt victim) :: .checks victim s :: .calls victim name :: .hears o ::
        .asks victim name :: .answered true :: .reports (.resolved victim .override false) ::
        more) := by
  have hfair : Try.Fair overridable victim
      { seen := s, outcome? := some o, answer? := some true } :=
    Try.fair_of_pressing hpressing o (by simp [hfailure, hoverridable])
  refine Tends.of_last hfair ?_ h
  rw [Try.verdict?_of_pressing hpressing]
  simp [hfailure]

/-- The agent fails, and no administrator steps in. -/
theorem Tends.refuses (h : Tends overridable victim name rest more) :
    Tends overridable victim name rest
      (.reports (.attempt victim) :: .checks victim s :: .calls victim name :: .hears o ::
        .asks victim name :: .answered false :: more) := by
  have hfair : Try.Fair overridable victim
      { seen := s, outcome? := some o, answer? := some false } :=
    Try.fair_of_pressing hpressing o (by simp [hfailure, hoverridable])
  refine Tends.of_vain hfair ?_ h
  rw [Try.verdict?_of_pressing hpressing]
  simp [hfailure]

end

/-- What is left to a run is what it does now and what is left then. -/
theorem ahead_append_of_goes (hmore : r'.Ahead more) (hfresh : r.Fresh)
    (hgoes : r.Goes i r' deeds) : r.Ahead (deeds ++ more) := by
  have hnext {victim : NodeId} {rest : List NodeId} (stage : r.stage = .choosing (victim :: rest)) :
      victim ∉ r.resolved :=
    hfresh.unresolved victim (by rw [stage]; exact List.mem_cons_self)
  -- what is left is said by the stage, so each case opens its own
  cases hgoes with
  | ignores => exact hmore
  | stops _ ended => simp [Ahead, ended] at hmore
  | waits _ early waits =>
    rw [ahead_of_isEarly early]
    obtain rfl | ⟨d, rfl⟩ := waits <;> exact hmore
  | polls stage | retries stage =>
    rw [Ahead, stage]
    exact hmore
  | passes stage absent =>
    rw [Ahead, stage]
    exact Opens.passes hmore absent
  | reduces stage back =>
    rw [Ahead, stage]
    exact Opens.reduces hmore back
  | @lists _ s _ stage =>
    rw [Ahead, stage]
    refine ⟨[], s.victims, more, ?_, rfl⟩
    have hmore : Closes r.overridable ((r.unresolved s).map (·.node)) more := hmore
    simpa [reduced, map_node_unresolved] using hmore
  | skips stage done =>
    rw [Ahead, stage]
    exact Closes.skips (hnext stage) done hmore
  | chooses stage found due =>
    rw [Ahead, stage]
    exact Closes.chooses (hnext stage) found due hmore
  | finishes stage =>
    rw [Ahead, stage]
    obtain rfl : more = [] := hmore
    exact ⟨[], rfl, List.forall_mem_nil _, rfl⟩
  | averts stage averted =>
    rw [Ahead, stage]
    exact Tends.of_last (Try.fair_of_averted averted) (Try.verdict?_of_averted averted) hmore
  | calls stage pressing =>
    rw [Ahead, stage]
    exact hmore _ pressing
  | fences stage success =>
    rw [Ahead, stage]
    exact fun seen pressing => Tends.fences pressing success hmore
  | @rests a _ t t' rest stage failure alone same =>
    rw [Ahead, stage]
    intro seen pressing
    have hmore : Tends r.overridable t'.victim t'.name rest more := hmore
    rw [same.1, same.2] at hmore
    exact Tends.fails pressing failure alone hmore
  | asks stage failure overridable same =>
    rw [Ahead, stage]
    intro seen pressing
    have hmore := hmore seen _ (by rw [same.1]; exact pressing) failure overridable
    rw [same.1, same.2] at hmore
    exact hmore
  | overrides stage =>
    rw [Ahead, stage]
    exact fun seen o pressing failure overridable =>
      Tends.overrides pressing failure overridable hmore
  | refuses stage =>
    rw [Ahead, stage]
    exact fun seen o pressing failure overridable =>
      Tends.refuses pressing failure overridable hmore

theorem ahead_deeds {inputs : List RunInput} (h : r.Fresh) (hdistinct : ∀ i ∈ inputs, i.Distinct)
    (hfinishes : (r.play inputs).stage = .over (.ok ())) : r.Ahead (r.deeds inputs) := by
  induction inputs generalizing r with
  | nil =>
    have hover : r.stage = .over (.ok ()) := hfinishes
    rw [Ahead, hover]
    rfl
  | cons i rest ih =>
    have hgoes := r.goes_step i
    have hmore := ih (h.of_goes (hdistinct i List.mem_cons_self) hgoes)
      (fun i hi => hdistinct i (List.mem_cons_of_mem _ hi)) hfinishes
    exact ahead_append_of_goes hmore h hgoes

theorem reports_looks (looks : List Look) :
    (looks.flatMap Look.deeds).filterMap Deed.report? =
      (reduced looks).map (.resolved · .member true) := by
  induction looks with
  | nil => rfl
  | cons l rest ih =>
    rw [List.flatMap_cons, List.filterMap_append, ih, Look.deeds, reduced, reduced,
      List.filter_cons]
    cases l.isBack <;> rfl

theorem reports_tries (victim : NodeId) (name : String) (tries : List Try) :
    (tries.flatMap (Try.deeds victim name)).filterMap Deed.report? =
      List.replicate tries.length (.attempt victim) := by
  have htry (t : Try) : (t.deeds victim name).filterMap Deed.report? = [.attempt victim] := by
    obtain ⟨seen, outcome?, answer?⟩ := t
    cases outcome? <;> cases answer? <;> rfl
  induction tries with
  | nil => rfl
  | cons t rest ih =>
    rw [List.flatMap_cons, List.filterMap_append, ih, htry, List.length_cons, List.replicate_succ]
    rfl

theorem reports_visits (visits : List Visit) :
    (visits.flatMap Visit.deeds).filterMap Deed.report? = visits.flatMap Visit.reports := by
  have hvisit (v : Visit) : v.deeds.filterMap Deed.report? = v.reports := by
    obtain ⟨victim, seen, block?⟩ := v
    cases block? with
    | none => rfl
    | some b =>
      have hblock : (b.deeds victim).filterMap Deed.report? = b.reports victim := by
        rw [Block.deeds, List.filterMap_append, reports_tries, List.length_append]
        rfl
      exact hblock
  induction visits with
  | nil => rfl
  | cons v rest ih =>
    rw [List.flatMap_cons, List.filterMap_append, ih, hvisit, List.flatMap_cons]

/-- A fencing run that finishes, whatever it sees and hears meanwhile, has looked at victims and
    resolved those that were back, then it has listed the victims and visited those of them that
    were not resolved, in their order. It has tried a victim just when it still was one and was not
    dealt with before. Each try begins with an attempt and a check; the agent is called once, just
    when the check finds no reason to let the victim be, and all tries but the last are in vain,
    which says how the victim is resolved. The end is reported once, and after all else. No victim
    is resolved twice, and nothing is done about one that was resolved. -/
theorem disciplined_play (settings : FencingSettings) (nodesJoined overridable : Bool)
    (inputs : List RunInput) (hdistinct : ∀ i ∈ inputs, i.Distinct)
    (hfinishes :
      (play { settings, nodesJoined, overridable } inputs).stage = .over (.ok ())) :
    let r : FencingRun := { settings, nodesJoined, overridable }
    (∃ (looks : List Look) (listed : Victims) (visits : List Visit),
      r.deeds inputs = looks.flatMap Look.deeds ++ [.lists listed] ++
        visits.flatMap Visit.deeds ++ [.reports .finished] ∧
      RunEffect.reports (r.effects inputs) = (reduced looks).map (.resolved · .member true) ++
        visits.flatMap Visit.reports ++ [.finished] ∧
      visits.map (·.victim) = listed.ids.filter (· ∉ reduced looks) ∧
      ∀ v ∈ visits, v.Sound overridable) ∧
    ((FencingReport.resolutions (RunEffect.reports (r.effects inputs))).map (·.1)).Nodup ∧
    (r.deeds inputs).Pairwise Deed.LeavesAlone := by
  intro r
  have hfresh : r.Fresh := .of_queue_nil rfl
  refine ⟨?_, nodup_resolutions hfresh hdistinct, (deeds_pairwise hfresh hdistinct).1⟩
  have hahead : Opens overridable [] (r.deeds inputs) := ahead_deeds hfresh hdistinct hfinishes
  obtain ⟨looks, listed, more, ⟨visits, hvisits, hsound, rfl⟩, hdeeds⟩ := hahead
  have hcourse : r.deeds inputs = looks.flatMap Look.deeds ++ [.lists listed] ++
      visits.flatMap Visit.deeds ++ [.reports .finished] := by
    simpa using hdeeds
  refine ⟨looks, listed, visits, hcourse, ?_, hvisits, hsound⟩
  rw [reports_effects, hcourse]
  simp only [List.filterMap_append, reports_looks, reports_visits]
  simp [Deed.report?]

/-- Time for the victims to come back by themselves. -/
def patientSettings : FencingSettings where
  postJoinDelay := 5
  postFailDelay := 5
  overrideTime := 3
  retryInterval := 1
  delayPoll := 1

/-- Of three victims node 2 comes back during the delay. The agent fails on node 3, which nobody
    overrides, and then fences it. Node 4 is fenced outside before it is its turn. -/
def threeVictims : List RunInput :=
  let victims : Victims :=
    ⟨[{ node := 2, name := "node2" }, { node := 3, name := "node3" },
      { node := 4, name := "node4" }]⟩
  let joined := (DaemonGroup.new 1 .highest).changeMembers [1, 2] 5
  let heard := joined.receiveOffer 2 { max := .highest } true 0
  let s : Surroundings :=
    { victims
      history := .empty
      daemons := heard.toOption.elim joined (·.1)
      cluster := .ok { quorate := true, ringSeq := 1, nodes := [⟨2, "node2", true, 1⟩] } }
  let outside := { s with history := (History.empty.ensure 4).recordExternal 4 1 7 }
  let turns (turns clock : Nat) : List RunInput := List.replicate turns (.turn clock s true)
  turns 1 0 ++ turns 4 1000 ++ turns 4 9000 ++
    [.agent (.crashed "out of memory") true, .override false true] ++ turns 1 9000 ++
    [.agent (.done {}) true] ++ turns 1 9000 ++ [.turn 9000 outside true] ++ turns 1 9000

theorem disciplined_play_threeVictims :
    let r : FencingRun :=
      { settings := patientSettings, nodesJoined := false, overridable := true }
    (∀ i ∈ threeVictims, i.Distinct) ∧
      (r.play threeVictims).stage = .over (.ok ()) ∧
      RunEffect.reports (r.effects threeVictims) =
        [.resolved 2 .member true, .attempt 3, .attempt 3, .resolved 3 .agent false, .attempt 4,
          .resolved 4 .external false, .finished] ∧
      (∃ (looks : List Look) (listed : Victims) (visits : List Visit),
        r.deeds threeVictims = looks.flatMap Look.deeds ++ [.lists listed] ++
          visits.flatMap Visit.deeds ++ [.reports .finished] ∧
        ∀ v ∈ visits, v.Sound true) ∧
      (r.deeds threeVictims).Pairwise Deed.LeavesAlone := by
  have hdistinct : ∀ i ∈ threeVictims, i.Distinct := by
    simp [threeVictims, RunInput.Distinct, RunInput.seen?, Victims.ids]
  have hfinishes : (play { settings := patientSettings, nodesJoined := false, overridable := true }
      threeVictims).stage = .over (.ok ()) := by
    rfl
  have hreports : RunEffect.reports (effects
      { settings := patientSettings, nodesJoined := false, overridable := true } threeVictims) =
        [.resolved 2 .member true, .attempt 3, .attempt 3, .resolved 3 .agent false, .attempt 4,
          .resolved 4 .external false, .finished] := by
    decide +kernel
  obtain ⟨⟨looks, listed, visits, hdeeds, -, -, hsound⟩, -, hpairwise⟩ :=
    disciplined_play patientSettings false true threeVictims hdistinct hfinishes
  exact ⟨hdistinct, hfinishes, hreports, ⟨looks, listed, visits, hdeeds, hsound⟩, hpairwise⟩

end

end FencingRun

end ClusterFence
