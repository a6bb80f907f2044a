import ClusterFence.Proofs.Fencing.Discipline

namespace ClusterFence

namespace RunInput

/-- A turn comes no earlier than at `clock`, and no victims are seen but some of `ids`. -/
def Within (clock : Nat) (ids : List NodeId) : RunInput → Prop
  | .turn now s _ => clock ≤ now ∧ s.victims.ids.Sublist ids
  | _ => True

/-- Between the two, time has not run backwards, and victims were at most removed. -/
def Precedes (i later : RunInput) : Prop :=
  match i with
  | .turn now s _ => later.Within now s.victims.ids
  | _ => True

instance (clock : Nat) (ids : List NodeId) : (i : RunInput) → Decidable (i.Within clock ids)
  | .turn _ _ _ => inferInstanceAs (Decidable (_ ∧ _))
  | .agent _ _ | .override _ _ => isTrue trivial

instance : (i later : RunInput) → Decidable (i.Precedes later)
  | .turn now s _, later => inferInstanceAs (Decidable (later.Within now s.victims.ids))
  | .agent _ _, _ | .override _ _, _ => isTrue trivial

end RunInput

/-- The delay is not over. -/
def Stage.delays : Stage → Bool
  | .starting | .delaying _ | .reducing _ _ _ => true
  | _ => false

/-- What a poll has counted that has looked at all victims. -/
def Stage.counted? : Stage → Option Nat
  | .reducing _ [] count => some count
  | _ => none

theorem Stage.counted?_eq_some_iff {stage : Stage} {count : Nat} :
    stage.counted? = some count ↔ ∃ e, stage = .reducing e [] count := by
  constructor
  · intro h
    unfold Stage.counted? at h
    split at h
    · exact ⟨_, by rw [Option.some.inj h]⟩
    · cases h
  · rintro ⟨e, rfl⟩
    rfl

/-- The victim that the agent is called for. -/
def RunEffect.call? : RunEffect → Option NodeId
  | .callAgent victim _ => some victim
  | _ => none

namespace FencingRun

/-- What has its time in a run. A poll began with `before` victims that were not resolved and left
    `left` of them, and the delay may be over with it. Later on the agent is called. -/
inductive Moment where
  | polled (clock before left : Nat) (ends : Bool)
  | called (clock : Nat) (victim : NodeId)
deriving DecidableEq

namespace Moment

def clock : Moment → Nat
  | .polled clock _ _ _ | .called clock _ => clock

/-- How many victims a poll left. -/
def left? : Moment → Option Nat
  | .polled _ _ left _ => some left
  | .called _ _ => none

/-- Some victim is given up to the agent: it is left at the end of the delay, or the agent is called
    for it. -/
def Presses : Moment → Prop
  | .polled _ _ left ends => 0 < left ∧ ends = true
  | .called _ _ => True

end Moment

/-- The moments of one step of a run whose last poll began with `before` victims. -/
def momentsIn (r : FencingRun) (before : Nat) (i : RunInput) : List Moment :=
  match i with
  | .turn now _ _ =>
    (r.stage.counted?.map (.polled now before · (!(r.step i).1.stage.delays))).toList ++
      (r.step i).2.filterMap fun effect => effect.call?.map (.called now)
  | _ => []

/-- How many victims were not resolved when the last poll began. -/
def beginsWith (r : FencingRun) (before : Nat) (i : RunInput) : Nat :=
  match i, r.stage with
  | .turn _ s _, .delaying _ => (r.unresolved s).length
  | _, _ => before

/-- All polls and calls of a run, in order. -/
def moments (r : FencingRun) (before : Nat) : List RunInput → List Moment
  | [] => []
  | i :: rest => r.momentsIn before i ++ (r.step i).1.moments (r.beginsWith before i) rest

/-- The delay that the run begins with, in seconds. -/
def initialDelay (r : FencingRun) : Int :=
  if r.nodesJoined then r.settings.postJoinDelay else r.settings.postFailDelay

/-- Those of the victims that the run has not resolved. -/
def unresolvedIds (r : FencingRun) (ids : List NodeId) : List NodeId := ids.filter (· ∉ r.resolved)

/-- The count of a poll is of the victims that were passed by and those still to be looked at, and
    no others can be left. -/
def Tallies (r : FencingRun) (ids : List NodeId) (rest : List Victim) (count : Nat) : Prop :=
  ∃ passed : List NodeId, (r.unresolvedIds ids).Sublist (passed ++ rest.map (·.node)) ∧
    count = passed.length + rest.length

/-- What a turn makes of a run during its delay. -/
inductive Waits (r : FencingRun) (now : Nat) (s : Surroundings) (listening : Bool) :
    FencingRun → Prop
  | polls {e} (stage : r.stage = .delaying e) :
      Waits r now s listening (r.goTo (.reducing e (r.unresolved s) (r.unresolved s).length))
  | passes {e v rest count} (stage : r.stage = .reducing e (v :: rest) count) :
      Waits r now s listening (r.goTo (.reducing e rest count))
  | reduces {e v rest count} (stage : r.stage = .reducing e (v :: rest) count) :
      Waits r now s listening (r.settle v.node (.reducing e rest (count - 1)))
  /-- No victim is left. -/
  | empties {e} (stage : r.stage = .reducing e [] 0) : Waits r now s listening (r.goTo .listing)
  | goesOn {e count} (stage : r.stage = .reducing e [] count) (left : 0 < count)
      (short : (e.counted r.settings.postJoinDelay now count).isOver now = false) :
      Waits r now s listening
        (r.goTo (.delaying (e.counted r.settings.postJoinDelay now count)))
  | expires {e count} (stage : r.stage = .reducing e [] count) (left : 0 < count)
      (expired : (e.counted r.settings.postJoinDelay now count).isOver now = true) :
      Waits r now s listening (r.goTo .listing)
  /-- Nobody listens. -/
  | stops {r'} (alone : listening = false) (ended : r'.stage = .over (.error .shuttingDown)) :
      Waits r now s listening r'

/-- From the time `since` on, `known` stays known of the delay that is under way when a poll counts,
    and once the delay is over it is `late`, and stays so. -/
structure Guard (postJoin : Int) (since : Nat) (known : Delay → Prop) (late : Nat → Prop) :
    Prop where
  counted : ∀ {e now} (count : Nat), since ≤ now → known e → known (e.counted postJoin now count)
  expires : ∀ {e now}, known e → e.isOver now = true → late now
  mono : ∀ {clock now}, clock ≤ now → late clock → late now

/-- What is known of the delay is known as long as it lasts. Later on it is `late`, or nobody is
    left for whom the agent could be called. The last turn was at `clock`, and `ids` were the
    victims. -/
def Guarded (known : Delay → Prop) (late : Nat → Prop) (r : FencingRun) (clock : Nat)
    (ids : List NodeId) : Prop :=
  match r.stage with
  | .starting =>
    r.initialDelay ≠ 0 ∧ ∀ now, clock ≤ now → known { seconds := r.initialDelay, start := now }
  | .delaying e => known e
  | .reducing e rest count => known e ∧ r.Tallies ids rest count
  | .listing => r.unresolvedIds ids = [] ∨ late clock
  | stage => stage.queue = [] ∨ late clock

section

variable {r : FencingRun} {s : Surroundings} {e : Delay} {rest : List Victim} {count now : Nat}
  {ids ids' : List NodeId}

theorem map_unresolved (r : FencingRun) (s : Surroundings) :
    (r.unresolved s).map (·.node) = r.unresolvedIds s.victims.ids :=
  r.map_node_unresolved s

theorem length_unresolved (r : FencingRun) (s : Surroundings) :
    (r.unresolved s).length = (r.unresolvedIds s.victims.ids).length := by
  rw [← map_unresolved, List.length_map]

theorem unresolved_eq_nil_iff : r.unresolved s = [] ↔ r.unresolvedIds s.victims.ids = [] := by
  rw [← map_unresolved, List.map_eq_nil_iff]

/-- What is still unresolved of fewer victims is so of all. -/
theorem unresolvedIds_sublist (r : FencingRun) (h : ids'.Sublist ids) :
    (r.unresolvedIds ids').Sublist (r.unresolvedIds ids) :=
  h.filter _

theorem tallies_unresolved (r : FencingRun) (s : Surroundings) :
    r.Tallies s.victims.ids (r.unresolved s) (r.unresolved s).length :=
  ⟨[], by rw [map_unresolved, List.nil_append], by simp⟩

theorem Tallies.of_sublist (h : r.Tallies ids rest count) (hsub : ids'.Sublist ids) :
    r.Tallies ids' rest count := by
  obtain ⟨passed, hcovers, hcount⟩ := h
  exact ⟨passed, (r.unresolvedIds_sublist hsub).trans hcovers, hcount⟩

/-- A victim is passed by. -/
theorem Tallies.pass {v : Victim} (h : r.Tallies ids (v :: rest) count) :
    r.Tallies ids rest count := by
  obtain ⟨passed, hcovers, hcount⟩ := h
  refine ⟨passed ++ [v.node], ?_, ?_⟩
  · simpa using hcovers
  · simp only [hcount, List.length_append, List.length_cons, List.length_nil]
    omega

/-- A victim is resolved. -/
theorem Tallies.settle {v : Victim} {next : Stage} (h : r.Tallies ids (v :: rest) count) :
    (r.settle v.node next).Tallies ids rest (count - 1) := by
  obtain ⟨passed, hcovers, hcount⟩ := h
  refine ⟨passed, ?_, by rw [hcount]; rfl⟩
  have hsettled : (r.settle v.node next).unresolvedIds ids =
      (r.unresolvedIds ids).filter (· != v.node) := by
    simp only [unresolvedIds, FencingRun.settle, List.filter_filter]
    refine List.filter_congr fun node _ => ?_
    simp [bne, Bool.beq_eq_decide_eq, not_or]
  rw [hsettled]
  refine (hcovers.filter (· != v.node)).trans ?_
  rw [List.filter_append, List.map_cons, List.filter_cons_of_neg (by simp)]
  exact List.filter_sublist.append List.filter_sublist

/-- When all victims were looked at, no more are left than were counted. -/
theorem Tallies.length_le (h : r.Tallies ids [] count) : (r.unresolvedIds ids).length ≤ count := by
  obtain ⟨passed, hcovers, hcount⟩ := h
  simpa [hcount] using hcovers.length_le

theorem Tallies.eq_nil (h : r.Tallies ids [] 0) : r.unresolvedIds ids = [] :=
  List.eq_nil_of_length_eq_zero (Nat.le_zero.1 h.length_le)

theorem waits_endPoll (hstage : r.stage = .reducing e [] count) (now : Nat) (s : Surroundings)
    (listening : Bool) : r.Waits now s listening (r.endPoll now e count) := by
  unfold endPoll
  split
  · rename_i hnone
    exact .empties (by rw [hstage, eq_of_beq hnone])
  · rename_i hsome
    have hleft : 0 < count := Nat.pos_of_ne_zero fun heq => hsome (beq_iff_eq.2 heq)
    dsimp only
    split
    · exact .expires hstage hleft ‹_›
    · exact .goesOn hstage hleft (Bool.not_eq_true _ ▸ ‹_›)

theorem waits_reduceOne {v : Victim} (hstage : r.stage = .reducing e (v :: rest) count) (now : Nat)
    (s : Surroundings) (listening : Bool) :
    r.Waits now s listening (r.reduceOne s listening e v rest count).1 := by
  unfold reduceOne
  dsimp only
  split
  · cases listening with
    | true => exact .reduces hstage
    | false => exact .stops rfl rfl
  · exact .passes hstage

/-- Every turn during the delay is one of these. -/
theorem waits_turn
    (h : (∃ e, r.stage = .delaying e) ∨ ∃ e rest count, r.stage = .reducing e rest count)
    (now : Nat) (s : Surroundings) (listening : Bool) :
    r.Waits now s listening (r.step (.turn now s listening)).1 := by
  unfold step turn
  obtain ⟨e, hstage⟩ | ⟨e, rest, count, hstage⟩ := h
  · rw [hstage]
    exact .polls hstage
  · rw [hstage]
    cases rest with
    | nil => exact waits_endPoll hstage now s listening
    | cons v rest => exact waits_reduceOne hstage now s listening

theorem play_cons (r : FencingRun) (i : RunInput) (rest : List RunInput) :
    r.play (i :: rest) = (r.step i).1.play rest :=
  rfl

theorem start_eq (r : FencingRun) (now : Nat) (s : Surroundings) :
    r.start now s =
      if (r.unresolved s).isEmpty || r.initialDelay == 0 then r.goTo .listing
      else r.goTo (.delaying { seconds := r.initialDelay, start := now }) :=
  rfl

theorem step_starting (hstage : r.stage = .starting) (now : Nat) (s : Surroundings)
    (listening : Bool) : (r.step (.turn now s listening)).1 = r.start now s := by
  simp only [step, turn, hstage]

theorem settings_resolve (r : FencingRun) (listening : Bool) (victim : NodeId) (how : Resolution)
    (reduced : Bool) (next : Stage) :
    (r.resolve listening victim how reduced next).1.settings = r.settings := by
  unfold resolve report
  split <;> rfl

/-- No run changes its pace. -/
theorem settings_step (r : FencingRun) (i : RunInput) : (r.step i).1.settings = r.settings := by
  cases i with
  | turn now s listening =>
    unfold step turn
    cases r.stage with
    | starting =>
      dsimp only
      rw [start_eq]
      split <;> rfl
    | reducing e rest count =>
      cases rest with
      | nil =>
        simp only [endPoll]
        split
        · rfl
        · split <;> rfl
      | cons v rest =>
        simp only [reduceOne]
        split
        · exact r.settings_resolve ..
        · rfl
    | choosing rest =>
      cases rest with
      | nil =>
        simp only [report]
        split <;> rfl
      | cons victim rest =>
        simp only [choose]
        split
        · rfl
        · split <;> rfl
    | trying t rest =>
      simp only [check]
      split
      · rfl
      · split
        · exact r.settings_resolve ..
        · rfl
    | _ => rfl
  | agent o listening =>
    unfold step agentDone
    cases r.stage with
    | calling t rest =>
      dsimp only
      split
      · exact r.settings_resolve ..
      · split <;> rfl
    | _ => rfl
  | override overridden listening =>
    unfold step overrideDone
    cases r.stage with
    | overriding t rest =>
      dsimp only
      split
      · exact r.settings_resolve ..
      · rfl
    | _ => rfl

/-- The agent is called only at a turn, and only when a victim is being tried. -/
theorem trying_of_callAgent {i : RunInput} {victim : NodeId} {name : String}
    (h : .callAgent victim name ∈ (r.step i).2) :
    ∃ now s listening t rest, i = .turn now s listening ∧ r.stage = .trying t rest := by
  have hdeed : Deed.calls victim name ∈ r.deedsIn i :=
    List.mem_append_right _ (List.mem_flatMap.2 ⟨_, h, List.mem_singleton.2 rfl⟩)
  have hgoes := r.goes_step i
  generalize (r.step i).1 = r' at hgoes
  generalize r.deedsIn i = deeds at hdeed hgoes
  cases hgoes with
  | stops _ _ _ silent => cases silent _ hdeed
  | calls stage => exact ⟨_, _, _, _, _, rfl, stage⟩
  | _ => simp at hdeed

theorem mem_momentsIn {before : Nat} {i : RunInput} {m : Moment}
    (h : m ∈ r.momentsIn before i) :
    ∃ now s listening, i = .turn now s listening ∧
      ((∃ e left, r.stage = .reducing e [] left ∧
          m = .polled now before left (!(r.step i).1.stage.delays)) ∨
        ∃ t rest victim, r.stage = .trying t rest ∧ m = .called now victim) := by
  cases i with
  | turn now s listening =>
    refine ⟨now, s, listening, rfl, ?_⟩
    obtain h | h := List.mem_append.1 h
    · refine .inl ?_
      obtain ⟨left, hleft, hm⟩ := Option.map_eq_some_iff.1 (Option.mem_toList.1 h)
      obtain ⟨e, hstage⟩ := Stage.counted?_eq_some_iff.1 hleft
      exact ⟨e, left, hstage, hm.symm⟩
    · obtain ⟨effect, heffect, hm⟩ := List.mem_filterMap.1 h
      cases effect with
      | callAgent victim name =>
        obtain ⟨_, _, _, t, rest, -, hstage⟩ := trying_of_callAgent heffect
        exact .inr ⟨t, rest, victim, hstage, (Option.some.inj hm).symm⟩
      | _ => cases hm
  | _ => cases h

section

variable {postJoin : Int} {since clock : Nat} {known : Delay → Prop} {late : Nat → Prop}
  {i : RunInput}

/-- Past the delay, only that it is late is known. -/
theorem guarded_iff_of_not_isEarly (h : r.stage.isEarly = false) :
    r.Guarded known late clock ids ↔ r.stage.queue = [] ∨ late clock := by
  unfold Guarded
  cases hstage : r.stage with
  | starting | delaying | reducing | listing => simp [Stage.isEarly, hstage] at h
  | _ => rfl

theorem isEarly_step (h : r.stage.isEarly = false) (i : RunInput) :
    (r.step i).1.stage.isEarly = false := by
  have hgoes := r.goes_step i
  generalize r.deedsIn i = deeds at hgoes
  generalize (r.step i).1 = r' at hgoes ⊢
  cases hgoes with
  | ignores => exact h
  | stops _ ended => rw [ended]; rfl
  | waits _ early => simp [h] at early
  | polls stage | passes stage | reduces stage | lists stage =>
    rw [stage] at h
    cases h
  | _ => rfl

/-- Who has nobody left to turn to will have nobody. -/
theorem queue_step (h : r.stage.isEarly = false) (hqueue : r.stage.queue = []) (i : RunInput) :
    (r.step i).1.stage.queue = [] := by
  have hgoes := r.goes_step i
  generalize r.deedsIn i = deeds at hgoes
  generalize (r.step i).1 = r' at hgoes ⊢
  cases hgoes with
  | ignores => exact hqueue
  | stops _ ended => rw [ended]; rfl
  | waits _ early => simp [h] at early
  | finishes => rfl
  | polls stage | passes stage | reduces stage | lists stage =>
    rw [stage] at h
    cases h
  | skips stage | chooses stage | averts stage | calls stage | retries stage | fences stage
    | rests stage | asks stage | overrides stage | refuses stage =>
    rw [stage] at hqueue
    cases hqueue

theorem Guarded.start (hstage : r.stage = .starting) (h : r.Guarded known late clock ids)
    (hnow : clock ≤ now) : (r.start now s).Guarded known late now s.victims.ids := by
  rw [Guarded, hstage] at h
  rw [start_eq]
  split
  · rename_i hnone
    rw [Bool.or_eq_true, beq_iff_eq] at hnone
    have hempty : r.unresolved s = [] := List.isEmpty_iff.1 (hnone.resolve_right h.1)
    exact .inl (unresolved_eq_nil_iff.1 hempty : r.unresolvedIds s.victims.ids = [])
  · exact h.2 now hnow

theorem Guarded.waits {r' : FencingRun} {listening : Bool}
    (hguard : Guard r.settings.postJoinDelay since known late)
    (h : r.Guarded known late clock ids) (hsince : since ≤ now)
    (hids : s.victims.ids.Sublist ids) (hwaits : r.Waits now s listening r') :
    r'.Guarded known late now s.victims.ids := by
  cases hwaits with
  | polls stage =>
    rw [Guarded, stage] at h
    exact ⟨h, r.tallies_unresolved s⟩
  | passes stage =>
    rw [Guarded, stage] at h
    exact ⟨h.1, (h.2.of_sublist hids).pass⟩
  | reduces stage =>
    rw [Guarded, stage] at h
    exact ⟨h.1, (h.2.of_sublist hids).settle⟩
  | empties stage =>
    rw [Guarded, stage] at h
    exact .inl (h.2.of_sublist hids).eq_nil
  | goesOn stage =>
    rw [Guarded, stage] at h
    exact hguard.counted _ hsince h.1
  | expires stage _ expired =>
    rw [Guarded, stage] at h
    exact .inr (hguard.expires (hguard.counted _ hsince h.1) expired)
  | stops _ ended =>
    rw [Guarded, ended]
    exact .inl rfl

/-- A turn keeps what is known. -/
theorem Guarded.turn (hguard : Guard r.settings.postJoinDelay since known late)
    (h : r.Guarded known late clock ids) (hsince : since ≤ now) (listening : Bool)
    (hwithin : (RunInput.turn now s listening).Within clock ids) :
    (r.step (.turn now s listening)).1.Guarded known late now s.victims.ids := by
  obtain ⟨hnow, hids⟩ := hwithin
  have hlater (hpast : r.stage.isEarly = false) :
      (r.step (.turn now s listening)).1.Guarded known late now s.victims.ids := by
    rw [guarded_iff_of_not_isEarly (isEarly_step hpast _)]
    exact ((guarded_iff_of_not_isEarly hpast).1 h).imp (queue_step hpast · _) (hguard.mono hnow)
  cases hstage : r.stage with
  | starting =>
    rw [step_starting hstage]
    exact h.start hstage hnow
  | delaying e => exact h.waits hguard hsince hids (waits_turn (.inl ⟨e, hstage⟩) now s listening)
  | reducing e rest count =>
    exact h.waits hguard hsince hids (waits_turn (.inr ⟨e, rest, count, hstage⟩) now s listening)
  | listing =>
    have hstep : (r.step (.turn now s listening)).1 =
        r.goTo (.choosing ((r.unresolved s).map (·.node))) := by
      simp only [step, FencingRun.turn, hstage]
    rw [Guarded, hstage] at h
    rw [hstep, map_unresolved]
    refine h.imp (fun hnone => ?_) (hguard.mono hnow)
    exact List.sublist_nil.1 (hnone ▸ r.unresolvedIds_sublist hids)
  | _ => exact hlater (by rw [hstage]; rfl)

/-- Before the victims are listed, a run goes on only at its turns. -/
theorem step_of_isEarly (h : r.stage.isEarly = true) (hother : i.seen? = none) :
    (r.step i).1 = r := by
  cases i with
  | turn => cases hother
  | agent o listening =>
    unfold step agentDone
    cases hstage : r.stage with
    | calling => simp [Stage.isEarly, hstage] at h
    | _ => rfl
  | override overridden listening =>
    unfold step overrideDone
    cases hstage : r.stage with
    | overriding => simp [Stage.isEarly, hstage] at h
    | _ => rfl

/-- What else a run can be given keeps it as well. -/
theorem Guarded.other (h : r.Guarded known late clock ids) (hother : i.seen? = none) :
    (r.step i).1.Guarded known late clock ids := by
  cases hearly : r.stage.isEarly with
  | false =>
    rw [guarded_iff_of_not_isEarly (isEarly_step hearly _)]
    exact ((guarded_iff_of_not_isEarly hearly).1 h).imp_left (queue_step hearly · _)
  | true =>
    rwa [step_of_isEarly hearly hother]

/-- A poll that leaves somebody ends the delay just when the time is up. -/
theorem delays_endPoll (hleft : 0 < count) (e : Delay) (now : Nat) :
    (r.endPoll now e count).stage.delays =
      !(e.counted r.settings.postJoinDelay now count).isOver now := by
  unfold endPoll
  rw [if_neg (by simpa using Nat.ne_of_gt hleft)]
  dsimp only
  split
  · rename_i hover
    rw [hover]
    rfl
  · rename_i hshort
    rw [Bool.not_eq_true] at hshort
    rw [hshort]
    rfl

theorem step_reducing_nil (hstage : r.stage = .reducing e [] count) (now : Nat) (s : Surroundings)
    (listening : Bool) : r.step (.turn now s listening) = (r.endPoll now e count, []) := by
  simp only [step, FencingRun.turn, hstage]

/-- No one is given up to the agent before it is late. -/
theorem Guarded.late_of_presses (hguard : Guard r.settings.postJoinDelay since known late)
    (h : r.Guarded known late clock ids) (hsince : since ≤ clock) (hwithin : i.Within clock ids)
    {before : Nat} {m : Moment} (hm : m ∈ r.momentsIn before i) (hpresses : m.Presses) :
    late m.clock := by
  obtain ⟨now, s, listening, rfl, ⟨e, left, hstage, rfl⟩ | ⟨t, rest, victim, hstage, rfl⟩⟩ :=
    mem_momentsIn hm
  · obtain ⟨hleft, hends⟩ := hpresses
    rw [step_reducing_nil hstage, delays_endPoll hleft, Bool.not_not] at hends
    rw [Guarded, hstage] at h
    exact hguard.expires (hguard.counted left (Nat.le_trans hsince hwithin.1) h.1) hends
  · rw [Guarded, hstage] at h
    exact hguard.mono hwithin.1 (h.resolve_left (List.cons_ne_nil _ _))

/-- One step of a run keeps what is known for those that follow. -/
theorem Guarded.step (hguard : Guard r.settings.postJoinDelay since known late)
    (h : r.Guarded known late clock ids) (hsince : since ≤ clock) (hwithin : i.Within clock ids)
    {later : List RunInput} (hlater : ∀ j ∈ later, j.Within clock ids)
    (horder : ∀ j ∈ later, i.Precedes j) :
    ∃ clock' ids', (r.step i).1.Guarded known late clock' ids' ∧ since ≤ clock' ∧
      ∀ j ∈ later, j.Within clock' ids' := by
  cases i with
  | turn now s listening =>
    have hnow : since ≤ now := Nat.le_trans hsince hwithin.1
    exact ⟨now, s.victims.ids, h.turn hguard hnow listening hwithin, hnow, horder⟩
  | agent o listening => exact ⟨clock, ids, h.other rfl, hsince, hlater⟩
  | override overridden listening => exact ⟨clock, ids, h.other rfl, hsince, hlater⟩

theorem Guarded.moments {inputs : List RunInput}
    (hguard : Guard r.settings.postJoinDelay since known late)
    (h : r.Guarded known late clock ids) (hsince : since ≤ clock)
    (hwithin : ∀ i ∈ inputs, i.Within clock ids) (horder : inputs.Pairwise RunInput.Precedes)
    (before : Nat) : ∀ m ∈ r.moments before inputs, m.Presses → late m.clock := by
  induction inputs generalizing r clock ids before with
  | nil => exact fun m hm => nomatch hm
  | cons i rest ih =>
    obtain ⟨hi, hrest⟩ := List.forall_mem_cons.1 hwithin
    obtain ⟨horder, horders⟩ := List.pairwise_cons.1 horder
    obtain ⟨clock', ids', h', hsince', hrest'⟩ := h.step hguard hsince hi hrest horder
    intro m hm hpresses
    obtain hm | hm := List.mem_append.1 hm
    · exact h.late_of_presses hguard hsince hi hm hpresses
    · rw [← r.settings_step i] at hguard
      exact ih hguard h' hsince' hrest' horders _ m hm hpresses

/-- What is known is known all along. -/
theorem Guarded.play {inputs later : List RunInput}
    (hguard : Guard r.settings.postJoinDelay since known late)
    (h : r.Guarded known late clock ids) (hsince : since ≤ clock)
    (hwithin : ∀ i ∈ inputs ++ later, i.Within clock ids)
    (horder : (inputs ++ later).Pairwise RunInput.Precedes) :
    ∃ clock' ids', (r.play inputs).Guarded known late clock' ids' ∧ since ≤ clock' ∧
      ∀ i ∈ later, i.Within clock' ids' := by
  induction inputs generalizing r clock ids with
  | nil => exact ⟨clock, ids, h, hsince, hwithin⟩
  | cons i rest ih =>
    obtain ⟨hi, hrest⟩ := List.forall_mem_cons.1 hwithin
    obtain ⟨horder, horders⟩ := List.pairwise_cons.1 horder
    obtain ⟨clock', ids', h', hsince', hrest'⟩ := h.step hguard hsince hi hrest horder
    rw [← r.settings_step i] at hguard
    exact ih hguard h' hsince' hrest' horders

end

end

end FencingRun

end ClusterFence
