import ClusterFence.Proofs.Fencing.Resolving

namespace ClusterFence

/-- What a fencing run is given to go on with. -/
inductive RunInput where
  | turn (clock : Nat) (s : Surroundings) (listening : Bool)
  | agent (a : AgentAnswer) (listening : Bool)
  | override (overridden listening : Bool)

namespace RunInput

/-- What is seen with it. -/
def seen? : RunInput → Option Surroundings
  | .turn _ s _ => some s
  | _ => none

/-- The victims that are seen are listed once each. -/
def Distinct (i : RunInput) : Prop := ∀ s ∈ i.seen?, s.victims.ids.Nodup

end RunInput

/-- Something that a run learns or does. During the delay it looks whether a victim is back. Then it
    lists the victims and turns to one after the other; each of its attempts begins with a check. -/
inductive Deed where
  | looks (victim : NodeId) (s : Surroundings)
  | lists (victims : Victims)
  | turnsTo (victim : NodeId) (victims : Victims)
  | reports (r : FencingReport)
  | checks (victim : NodeId) (s : Surroundings)
  | calls (victim : NodeId) (name : String)
  | hears (o : AgentOutcome)
  | asks (victim : NodeId) (name : String)
  | answered (overridden : Bool)

namespace Deed

def report? : Deed → Option FencingReport
  | .reports r => some r
  | _ => none

/-- The victim that is resolved. -/
def settled? : Deed → Option NodeId
  | .reports (.resolved victim _ _) => some victim
  | _ => none

/-- The victim that something is done about. -/
def victim? : Deed → Option NodeId
  | .reports (.attempt victim) | .reports (.resolved victim _ _) => some victim
  | .checks victim _ | .calls victim _ | .asks victim _ => some victim
  | _ => none

/-- Nothing more is done about the victim that is resolved, if one is. -/
def LeavesAlone (a b : Deed) : Prop := ∀ victim, a.settled? = some victim → b.victim? ≠ some victim

theorem victim?_of_settled? {d : Deed} {victim : NodeId} (h : d.settled? = some victim) :
    d.victim? = some victim := by
  cases d with
  | reports r =>
    cases r with
    | resolved => exact h
    | _ => cases h
  | _ => cases h

theorem settled?_of_victim?_none {d : Deed} (h : d.victim? = none) : d.settled? = none := by
  rw [Option.eq_none_iff_forall_ne_some]
  intro victim hsettled
  rw [victim?_of_settled? hsettled] at h
  cases h

end Deed

/-- What an effect comes to. An attempt is reported, and then it is seen whether there is still
    something to be done. -/
def RunEffect.deeds (seen? : Option Surroundings) : RunEffect → List Deed
  | .report (.attempt victim) => .reports (.attempt victim) :: (seen?.map (.checks victim)).toList
  | .report r => [.reports r]
  | .callAgent victim name => [.calls victim name]
  | .awaitOverride victim name _ => [.asks victim name]
  | .notice _ => []

/-- The victims that there are still to look at or to turn to. -/
def Stage.queue : Stage → List NodeId
  | .reducing _ rest _ => rest.map (·.node)
  | .choosing rest => rest
  | .trying t rest | .calling t rest | .overriding t rest | .resting t rest => t.victim :: rest
  | .starting | .delaying _ | .listing | .over _ => []

/-- The victims have not been listed. -/
def Stage.isEarly : Stage → Bool
  | .starting | .delaying _ | .reducing _ _ _ | .listing => true
  | _ => false

namespace FencingRun

/-- The run goes on with what it is given. -/
def step (r : FencingRun) : RunInput → FencingRun × List RunEffect
  | .turn clock s listening => r.turn clock s listening
  | .agent a listening => r.agentDone listening a
  | .override overridden listening => r.overrideDone listening overridden

/-- What the run learns from what it is given, but for the check of an attempt. -/
def learns (r : FencingRun) (i : RunInput) : List Deed :=
  match i, r.stage with
  | .turn _ s _, .reducing _ (v :: _) _ => [.looks v.node s]
  | .turn _ s _, .listing => [.lists s.victims]
  | .turn _ s _, .choosing (victim :: _) => [.turnsTo victim s.victims]
  | .agent a _, .calling _ _ => [.hears a.outcome]
  | .override overridden _, .overriding _ _ => [.answered overridden]
  | _, _ => []

def deedsIn (r : FencingRun) (i : RunInput) : List Deed :=
  r.learns i ++ (r.step i).2.flatMap (RunEffect.deeds i.seen?)

/-- A run that has gone on with some inputs. -/
def play (r : FencingRun) (inputs : List RunInput) : FencingRun :=
  inputs.foldl (fun r i => (r.step i).1) r

/-- Everything that a run hands out. -/
def effects (r : FencingRun) : List RunInput → List RunEffect
  | [] => []
  | i :: rest => (r.step i).2 ++ (r.step i).1.effects rest

/-- Everything that a run learns and does. -/
def deeds (r : FencingRun) : List RunInput → List Deed
  | [] => []
  | i :: rest => r.deedsIn i ++ (r.step i).1.deeds rest

/-- The run has resolved a victim. -/
def settle (r : FencingRun) (victim : NodeId) (next : Stage) : FencingRun :=
  { r with resolved := victim :: r.resolved, stage := next }

/-- What becomes of a run that goes on, and its deeds. -/
inductive Goes (r : FencingRun) : RunInput → FencingRun → List Deed → Prop
  /-- What it is given is nothing to it. -/
  | ignores (i) : Goes r i r []
  /-- Nobody listens. -/
  | stops (i) {r' deeds} (ended : r'.stage = .over (.error .shuttingDown))
      (keeps : ∀ victim ∈ r.resolved, victim ∈ r'.resolved)
      (silent : ∀ d ∈ deeds, d.victim? = none) : Goes r i r' deeds
  /-- The delay begins, or goes on, or is over. -/
  | waits (i) {next} (early : r.stage.isEarly = true)
      (waits : next = .listing ∨ ∃ d, next = .delaying d) : Goes r i (r.goTo next) []
  | polls {clock s listening d} (stage : r.stage = .delaying d) :
      Goes r (.turn clock s listening)
        (r.goTo (.reducing d (r.unresolved s) (r.unresolved s).length)) []
  /-- A victim is not back. -/
  | passes {clock s listening d v rest remaining}
      (stage : r.stage = .reducing d (v :: rest) remaining) (absent : s.isBack v.node = false) :
      Goes r (.turn clock s listening) (r.goTo (.reducing d rest remaining)) [.looks v.node s]
  /-- A victim is back. -/
  | reduces {clock s listening d v rest remaining}
      (stage : r.stage = .reducing d (v :: rest) remaining) (back : s.isBack v.node = true) :
      Goes r (.turn clock s listening) (r.settle v.node (.reducing d rest (remaining - 1)))
        [.looks v.node s, .reports (.resolved v.node .member true)]
  | lists {clock s listening} (stage : r.stage = .listing) :
      Goes r (.turn clock s listening) (r.goTo (.choosing ((r.unresolved s).map (·.node))))
        [.lists s.victims]
  /-- There is nothing to be done about the next victim. -/
  | skips {clock s listening victim rest} (stage : r.stage = .choosing (victim :: rest))
      (done : ∀ v, (r.unresolved s).find? (·.node == victim) = some v → v.resolvedHere = true) :
      Goes r (.turn clock s listening) (r.goTo (.choosing rest)) [.turnsTo victim s.victims]
  | chooses {clock s listening victim rest v} (stage : r.stage = .choosing (victim :: rest))
      (found : (r.unresolved s).find? (·.node == victim) = some v)
      (due : v.resolvedHere = false) :
      Goes r (.turn clock s listening) (r.goTo (.trying { victim, name := v.name } rest))
        [.turnsTo victim s.victims]
  /-- No victim is left to turn to. -/
  | finishes {clock s listening} (stage : r.stage = .choosing []) :
      Goes r (.turn clock s listening) (r.goTo (.over (.ok ()))) [.reports .finished]
  | averts {clock s listening t rest how} (stage : r.stage = .trying t rest)
      (averted : s.averted? t.victim = some how) :
      Goes r (.turn clock s listening) (r.settle t.victim (.choosing rest))
        [.reports (.attempt t.victim), .checks t.victim s,
          .reports (.resolved t.victim how false)]
  | calls {clock s listening t rest} (stage : r.stage = .trying t rest)
      (pressing : s.averted? t.victim = none) :
      Goes r (.turn clock s listening) (r.goTo (.calling t rest))
        [.reports (.attempt t.victim), .checks t.victim s, .calls t.victim t.name]
  | retries {clock s listening t rest} (stage : r.stage = .resting t rest) :
      Goes r (.turn clock s listening) (r.goTo (.trying t.again rest)) []
  | fences {a listening t rest} (stage : r.stage = .calling t rest)
      (success : a.outcome.success = true) :
      Goes r (.agent a listening) (r.settle t.victim (.choosing rest))
        [.hears a.outcome, .reports (.resolved t.victim .agent false)]
  /-- The agent fails, and nobody can override. -/
  | rests {a listening t t' rest} (stage : r.stage = .calling t rest)
      (failure : a.outcome.success = false) (alone : r.overridable = false)
      (same : t'.victim = t.victim ∧ t'.name = t.name) :
      Goes r (.agent a listening) (r.goTo (.resting t' rest)) [.hears a.outcome]
  /-- The agent fails, and an administrator is asked. -/
  | asks {a listening t t' rest} (stage : r.stage = .calling t rest)
      (failure : a.outcome.success = false) (overridable : r.overridable = true)
      (same : t'.victim = t.victim ∧ t'.name = t.name) :
      Goes r (.agent a listening) (r.goTo (.overriding t' rest))
        [.hears a.outcome, .asks t.victim t.name]
  | overrides {listening t rest} (stage : r.stage = .overriding t rest) :
      Goes r (.override true listening) (r.settle t.victim (.choosing rest))
        [.answered true, .reports (.resolved t.victim .override false)]
  | refuses {listening t rest} (stage : r.stage = .overriding t rest) :
      Goes r (.override false listening) (r.goTo (.trying t.again rest)) [.answered false]

section

variable {r r' : FencingRun} {i : RunInput} {s : Surroundings} {clock : Nat} {listening : Bool}
  {t : Trial} {rest : List NodeId}

@[simp] theorem flatMap_deeds_notice (seen? : Option Surroundings) (notices : List Notice) :
    (notices.map RunEffect.notice).flatMap (RunEffect.deeds seen?) = [] := by
  simp [List.flatMap_map, RunEffect.deeds]

/-- A run that resolves a victim reports it, or stops because nobody listens. -/
theorem Goes.of_resolve {victim : NodeId} {how : Resolution} {reduced : Bool} {next : Stage}
    (learned : List Deed) (hlearned : ∀ d ∈ learned, d.victim? = none)
    (hgoes : r.Goes i (r.settle victim next) (learned ++ [.reports (.resolved victim how reduced)]))
    (listening : Bool) :
    let step := r.resolve listening victim how reduced next
    r.Goes i step.1 (learned ++ step.2.flatMap (RunEffect.deeds i.seen?)) := by
  cases listening with
  | true => exact hgoes
  | false =>
    refine .stops i rfl (fun _ => List.mem_cons_of_mem _) fun d hd => hlearned d ?_
    simpa [resolve, report] using hd

theorem goes_start (hstage : r.stage = .starting) (clock : Nat) (s : Surroundings) :
    r.Goes i (r.start clock s) [] := by
  have hwaits {next : Stage} (hnext : next = .listing ∨ ∃ d, next = .delaying d) :
      r.Goes i (r.goTo next) [] :=
    .waits i (by rw [hstage]; rfl) hnext
  simp only [start]
  generalize (if r.nodesJoined then _ else _) = seconds
  split
  · exact hwaits (.inl rfl)
  · exact hwaits (.inr ⟨_, rfl⟩)

theorem goes_endPoll {d : Delay} {remaining : Nat} (hstage : r.stage = .reducing d [] remaining)
    (clock : Nat) : r.Goes i (r.endPoll clock d remaining) [] := by
  have hwaits {next : Stage} (hnext : next = .listing ∨ ∃ d, next = .delaying d) :
      r.Goes i (r.goTo next) [] :=
    .waits i (by rw [hstage]; rfl) hnext
  unfold endPoll
  dsimp only
  split
  · exact hwaits (.inl rfl)
  split
  · exact hwaits (.inl rfl)
  · exact hwaits (.inr ⟨_, rfl⟩)

theorem goes_reduceOne {d : Delay} {v : Victim} {rest : List Victim} {remaining : Nat}
    (hstage : r.stage = .reducing d (v :: rest) remaining) (clock : Nat) (s : Surroundings)
    (listening : Bool) :
    let step := r.reduceOne s listening d v rest remaining
    r.Goes (.turn clock s listening) step.1
      (.looks v.node s :: step.2.flatMap (RunEffect.deeds (some s))) := by
  intro step
  cases hback : s.isBack v.node with
  | true =>
    have hstep : step =
        ((r.resolve listening v.node .member true (.reducing d rest (remaining - 1))).1,
          s.clusterNotices.map .notice ++
            (r.resolve listening v.node .member true (.reducing d rest (remaining - 1))).2) := by
      simp only [step, reduceOne, hback, if_true]
    rw [hstep, List.flatMap_append, flatMap_deeds_notice, List.nil_append]
    exact .of_resolve [.looks v.node s] (by simp [Deed.victim?]) (.reduces hstage hback) listening
  | false =>
    have hstep : step = (r.goTo (.reducing d rest remaining), s.clusterNotices.map .notice) := by
      simp only [step, reduceOne, hback, Bool.false_eq_true, if_false]
    rw [hstep, flatMap_deeds_notice]
    exact .passes hstage hback

theorem goes_choose {victim : NodeId} (hstage : r.stage = .choosing (victim :: rest)) (clock : Nat)
    (s : Surroundings) (listening : Bool) :
    let step := r.choose s victim rest
    r.Goes (.turn clock s listening) step.1
      (.turnsTo victim s.victims :: step.2.flatMap (RunEffect.deeds (some s))) := by
  unfold choose
  split
  · rename_i hnone
    exact .skips hstage fun v hv => by
      rw [hnone] at hv
      cases hv
  · rename_i v hfound
    cases hdone : v.resolvedHere with
    | true =>
      refine .skips hstage fun v' hv' => ?_
      rw [hfound, Option.some.injEq] at hv'
      exact hv' ▸ hdone
    | false => exact .chooses hstage hfound hdone

theorem goes_check (hstage : r.stage = .trying t rest) (clock : Nat) (s : Surroundings)
    (listening : Bool) :
    let step := r.check s listening t rest
    r.Goes (.turn clock s listening) step.1 (step.2.flatMap (RunEffect.deeds (some s))) := by
  unfold check
  cases listening with
  | false =>
    refine .stops _ rfl (fun _ => id) ?_
    simp only [Bool.not_false, if_true, flatMap_deeds_notice]
    exact List.forall_mem_nil _
  | true =>
    simp only [Bool.not_true, Bool.false_eq_true, if_false]
    have hbefore : (t.reminder.map RunEffect.notice ++ [RunEffect.report (.attempt t.victim)] ++
        (s.clusterNotices ++ s.history.lookupNotices t.victim).map RunEffect.notice).flatMap
          (RunEffect.deeds (some s)) = [.reports (.attempt t.victim), .checks t.victim s] := by
      rw [List.flatMap_append, List.flatMap_append, flatMap_deeds_notice, flatMap_deeds_notice]
      rfl
    cases haverted : s.averted? t.victim with
    | some how =>
      dsimp only
      rw [List.flatMap_append, hbefore]
      exact .averts hstage haverted
    | none =>
      have hannounced : (if t.isQuiet then [] else [RunEffect.notice (.fencingNode t.name)]).flatMap
          (RunEffect.deeds (some s)) = [] := by
        split <;> rfl
      dsimp only
      rw [List.flatMap_append, List.flatMap_append, hbefore, hannounced]
      exact .calls hstage haverted

theorem goes_agentDone (hstage : r.stage = .calling t rest) (a : AgentAnswer) (listening : Bool) :
    let step := r.agentDone listening a
    r.Goes (.agent a listening) step.1
      (.hears a.outcome :: step.2.flatMap (RunEffect.deeds none)) := by
  obtain ⟨notices, t', hvictim, hname, hdone⟩ := agentDone_calling hstage listening a
  rw [hdone]
  cases hsuccess : a.outcome.success with
  | true =>
    simp only [if_true, List.flatMap_append, flatMap_deeds_notice, List.nil_append]
    exact .of_resolve [.hears a.outcome] (by simp [Deed.victim?]) (.fences hstage hsuccess)
      listening
  | false =>
    cases hoverridable : r.overridable with
    | true =>
      simp only [Bool.false_eq_true, if_false, if_true, List.flatMap_append, flatMap_deeds_notice,
        List.nil_append]
      exact .asks hstage hsuccess hoverridable ⟨hvictim, hname⟩
    | false =>
      simp only [Bool.false_eq_true, if_false, flatMap_deeds_notice]
      exact .rests hstage hsuccess hoverridable ⟨hvictim, hname⟩

theorem goes_overrideDone (hstage : r.stage = .overriding t rest) (overridden listening : Bool) :
    let step := r.overrideDone listening overridden
    r.Goes (.override overridden listening) step.1
      (.answered overridden :: step.2.flatMap (RunEffect.deeds none)) := by
  unfold overrideDone
  rw [hstage]
  cases overridden with
  | true =>
    exact .of_resolve [.answered true] (by simp [Deed.victim?]) (.overrides hstage) listening
  | false => exact .refuses hstage

/-- Every step is one of these. -/
theorem goes_step (r : FencingRun) (i : RunInput) : r.Goes i (r.step i).1 (r.deedsIn i) := by
  cases i with
  | turn clock s listening =>
    simp only [deedsIn, step, turn, learns, RunInput.seen?]
    cases hstage : r.stage with
    | starting => exact goes_start hstage clock s
    | delaying d => exact .polls hstage
    | reducing d rest remaining =>
      cases rest with
      | nil => exact goes_endPoll hstage clock
      | cons v rest => exact goes_reduceOne hstage clock s listening
    | listing => exact .lists hstage
    | choosing rest =>
      cases rest with
      | nil =>
        cases listening with
        | true => exact .finishes hstage
        | false => exact .stops _ rfl (fun _ => id) (List.forall_mem_nil _)
      | cons victim rest => exact goes_choose hstage clock s listening
    | trying t rest => exact goes_check hstage clock s listening
    | resting t rest => exact .retries hstage
    | _ => exact .ignores _
  | agent a listening =>
    simp only [deedsIn, step, learns, RunInput.seen?]
    cases hstage : r.stage with
    | calling t rest => exact goes_agentDone hstage a listening
    | _ =>
      simp only [agentDone, hstage]
      exact .ignores _
  | override overridden listening =>
    simp only [deedsIn, step, learns, RunInput.seen?]
    cases hstage : r.stage with
    | overriding t rest => exact goes_overrideDone hstage overridden listening
    | _ =>
      simp only [overrideDone, hstage]
      exact .ignores _

/-- The victims that are still to come are listed once each, and none of them was resolved. -/
structure Fresh (r : FencingRun) : Prop where
  nodup : r.stage.queue.Nodup
  unresolved : ∀ victim ∈ r.stage.queue, victim ∉ r.resolved

theorem Fresh.of_queue_nil (h : r.stage.queue = []) : r.Fresh where
  nodup := h ▸ .nil
  unresolved := h ▸ List.forall_mem_nil _

theorem Fresh.goTo (h : r.Fresh) {next : Stage} (hqueue : next.queue.Sublist r.stage.queue) :
    (r.goTo next).Fresh where
  nodup := h.nodup.sublist hqueue
  unresolved victim hmem := h.unresolved victim (hqueue.mem hmem)

/-- The next victim is resolved. -/
theorem Fresh.settle (h : r.Fresh) {victim : NodeId} {next : Stage}
    (hqueue : r.stage.queue = victim :: next.queue) : (r.settle victim next).Fresh := by
  obtain ⟨hnodup, hunresolved⟩ := h
  rw [hqueue, List.nodup_cons] at hnodup
  rw [hqueue] at hunresolved
  refine ⟨hnodup.2, fun other hother hresolved => ?_⟩
  obtain rfl | hresolved := List.mem_cons.1 hresolved
  · exact hnodup.1 hother
  · exact hunresolved other (List.mem_cons_of_mem _ hother) hresolved

/-- The victims that were not resolved are to come. -/
theorem Fresh.of_unresolved (hnodup : s.victims.ids.Nodup) {next : Stage}
    (hqueue : next.queue = (r.unresolved s).map (·.node)) : (r.goTo next).Fresh := by
  have hsublist : next.queue.Sublist s.victims.ids := hqueue ▸ List.filter_sublist.map _
  refine ⟨hnodup.sublist hsublist, fun victim hmem => ?_⟩
  rw [FencingRun.goTo, hqueue] at hmem
  obtain ⟨v, hv, rfl⟩ := List.mem_map.1 hmem
  simpa [FencingRun.goTo] using (List.mem_filter.1 hv).2

theorem Fresh.of_goes (h : r.Fresh) {deeds : List Deed} (hdistinct : i.Distinct)
    (hgoes : r.Goes i r' deeds) : r'.Fresh := by
  cases hgoes with
  | ignores => exact h
  | stops _ ended => exact .of_queue_nil (by rw [ended]; rfl)
  | waits _ _ waits => obtain rfl | ⟨d, rfl⟩ := waits <;> exact .of_queue_nil rfl
  | polls => exact .of_unresolved (hdistinct _ rfl) rfl
  | lists => exact .of_unresolved (hdistinct _ rfl) rfl
  | passes stage | skips stage => exact h.goTo (by rw [stage]; exact List.sublist_cons_self _ _)
  | finishes => exact .of_queue_nil rfl
  | reduces stage | averts stage | fences stage | overrides stage =>
    exact h.settle (by rw [stage]; rfl)
  | chooses stage | calls stage | retries stage | refuses stage =>
    exact h.goTo (by rw [stage]; exact .refl _)
  | rests stage _ _ same | asks stage _ _ same =>
    exact h.goTo (by rw [stage, Stage.queue, Stage.queue, same.1])

/-- Something is done only about a victim that is still to come. -/
theorem Goes.mem_queue {deeds : List Deed} (hgoes : r.Goes i r' deeds) {d : Deed} (hd : d ∈ deeds)
    {victim : NodeId} (hvictim : d.victim? = some victim) : victim ∈ r.stage.queue := by
  cases hgoes with
  | ignores | waits | polls | retries => cases hd
  | stops _ _ _ silent =>
    rw [silent d hd] at hvictim
    cases hvictim
  | passes | lists | skips | chooses | finishes | rests | refuses =>
    rw [List.mem_singleton.1 hd] at hvictim
    cases hvictim
  | reduces stage | fences stage | asks stage | overrides stage =>
    rw [stage]
    obtain rfl | rfl := List.mem_pair.1 hd <;> cases hvictim
    exact List.mem_cons_self
  | averts stage | calls stage =>
    rw [stage]
    simp only [List.mem_cons, List.not_mem_nil, or_false] at hd
    obtain rfl | rfl | rfl := hd <;> cases hvictim <;> exact List.mem_cons_self

/-- What is resolved is remembered. -/
theorem Goes.mem_resolved {deeds : List Deed} (hgoes : r.Goes i r' deeds) {victim : NodeId}
    (h : victim ∈ r.resolved ∨ ∃ d ∈ deeds, d.settled? = some victim) : victim ∈ r'.resolved := by
  have hkept (hnone : ∀ d ∈ deeds, d.settled? = none) : victim ∈ r.resolved := by
    refine h.resolve_right ?_
    rintro ⟨d, hd, hsettled⟩
    rw [hnone d hd] at hsettled
    cases hsettled
  cases hgoes with
  | stops _ _ keeps silent =>
    exact keeps victim (hkept fun d hd => Deed.settled?_of_victim?_none (silent d hd))
  | reduces | fences | overrides =>
    obtain hbefore | ⟨d, hd, hsettled⟩ := h
    · exact List.mem_cons_of_mem _ hbefore
    · obtain rfl | rfl := List.mem_pair.1 hd <;> cases hsettled
      exact List.mem_cons_self
  | averts =>
    obtain hbefore | ⟨d, hd, hsettled⟩ := h
    · exact List.mem_cons_of_mem _ hbefore
    · simp only [List.mem_cons, List.not_mem_nil, or_false] at hd
      obtain rfl | rfl | rfl := hd <;> cases hsettled
      exact List.mem_cons_self
  | _ => exact hkept (by simp [Deed.settled?])

theorem Goes.pairwise {deeds : List Deed} (hgoes : r.Goes i r' deeds) :
    deeds.Pairwise Deed.LeavesAlone := by
  cases hgoes with
  | stops _ _ _ silent =>
    refine List.pairwise_of_forall_mem_list fun a ha b _ victim hsettled => ?_
    rw [Deed.settled?_of_victim?_none (silent a ha)] at hsettled
    cases hsettled
  | _ => simp [Deed.LeavesAlone, Deed.settled?]

/-- Once a victim is resolved, nothing more is done about it. -/
theorem deeds_pairwise {inputs : List RunInput} (h : r.Fresh)
    (hdistinct : ∀ i ∈ inputs, i.Distinct) :
    (r.deeds inputs).Pairwise Deed.LeavesAlone ∧
      ∀ d ∈ r.deeds inputs, ∀ victim ∈ r.resolved, d.victim? ≠ some victim := by
  induction inputs generalizing r with
  | nil => exact ⟨.nil, List.forall_mem_nil _⟩
  | cons i rest ih =>
    have hgoes := r.goes_step i
    obtain ⟨hpairwise, hleaves⟩ := ih (h.of_goes (hdistinct i List.mem_cons_self) hgoes)
      fun i hi => hdistinct i (List.mem_cons_of_mem _ hi)
    constructor
    · refine List.pairwise_append.2 ⟨hgoes.pairwise, hpairwise, fun a ha b hb victim hsettled => ?_⟩
      exact hleaves b hb victim (hgoes.mem_resolved (.inr ⟨a, ha, hsettled⟩))
    · intro d hd victim hresolved hvictim
      obtain hd | hd := List.mem_append.1 hd
      · exact h.unresolved victim (hgoes.mem_queue hd hvictim) hresolved
      · exact hleaves d hd victim (hgoes.mem_resolved (.inl hresolved)) hvictim

/-- What a run reports can be told from its deeds. -/
theorem reports_effects (r : FencingRun) (inputs : List RunInput) :
    RunEffect.reports (r.effects inputs) = (r.deeds inputs).filterMap Deed.report? := by
  have heffect (seen? : Option Surroundings) (e : RunEffect) :
      (e.deeds seen?).filterMap Deed.report? = e.report?.toList := by
    cases e with
    | report report =>
      cases report with
      | attempt => cases seen? <;> rfl
      | _ => rfl
    | _ => rfl
  have hlearns (r : FencingRun) (i : RunInput) : (r.learns i).filterMap Deed.report? = [] := by
    unfold learns
    split <;> rfl
  have hreports (seen? : Option Surroundings) (effects : List RunEffect) :
      (effects.flatMap (RunEffect.deeds seen?)).filterMap Deed.report? =
        RunEffect.reports effects := by
    induction effects with
    | nil => rfl
    | cons e rest ih =>
      rw [List.flatMap_cons, List.filterMap_append, ih, heffect]
      unfold RunEffect.reports
      rw [List.filterMap_cons]
      cases e.report? <;> rfl
  induction inputs generalizing r with
  | nil => rfl
  | cons i rest ih =>
    rw [effects, deeds, reports_append, List.filterMap_append, deedsIn, List.filterMap_append,
      hlearns, hreports, ih, List.nil_append]

/-- The victims that are resolved are those that the deeds tell of. -/
theorem resolutions_effects (r : FencingRun) (inputs : List RunInput) :
    (FencingReport.resolutions (RunEffect.reports (r.effects inputs))).map (·.1) =
      (r.deeds inputs).filterMap Deed.settled? := by
  rw [reports_effects, FencingReport.resolutions, List.filterMap_filterMap, List.map_filterMap]
  refine congrArg (fun f => (r.deeds inputs).filterMap f) (funext fun d => ?_)
  cases d with
  | reports report => cases report <;> rfl
  | _ => rfl

theorem nodup_resolutions {inputs : List RunInput} (h : r.Fresh)
    (hdistinct : ∀ i ∈ inputs, i.Distinct) :
    ((FencingReport.resolutions (RunEffect.reports (r.effects inputs))).map (·.1)).Nodup := by
  rw [resolutions_effects]
  refine (deeds_pairwise h hdistinct).1.filterMap Deed.settled? fun a b hleaves n ha n' hb => ?_
  rintro rfl
  exact hleaves n ha (Deed.victim?_of_settled? hb)

end

end FencingRun

end ClusterFence
