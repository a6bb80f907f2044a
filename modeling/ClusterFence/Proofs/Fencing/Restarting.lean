import ClusterFence.Proofs.Fencing.Delaying

namespace ClusterFence

namespace RunInput

def clock? : RunInput → Option Nat
  | .turn now _ _ => some now
  | _ => none

/-- Inputs in order have a bound to begin with. -/
theorem exists_within {inputs : List RunInput} (h : inputs.Pairwise Precedes) :
    ∃ ids, ∀ i ∈ inputs, i.Within 0 ids := by
  induction inputs with
  | nil => exact ⟨[], List.forall_mem_nil _⟩
  | cons i rest ih =>
    obtain ⟨hfollow, hrest⟩ := List.pairwise_cons.1 h
    cases i with
    | turn now s listening =>
      refine ⟨s.victims.ids, List.forall_mem_cons.2 ⟨⟨Nat.zero_le _, .refl _⟩, fun j hj => ?_⟩⟩
      have hj := hfollow j hj
      cases j with
      | turn => exact ⟨Nat.zero_le _, hj.2⟩
      | _ => trivial
    | _ => exact (ih hrest).imp fun ids hids => List.forall_mem_cons.2 ⟨trivial, hids⟩

end RunInput

namespace Delay

variable {e : Delay} {postJoin active : Int} {now count : Nat}

/-- The longer delay, if a restart changes it, is the active one. -/
structure Leads (postJoin active : Int) (e : Delay) : Prop where
  positive : 0 < e.seconds
  longest : max e.seconds postJoin = active

theorem Leads.pos (h : e.Leads postJoin active) : 0 < active :=
  h.longest ▸ Int.lt_of_lt_of_le h.positive (Int.le_max_left _ _)

theorem Leads.le (h : e.Leads postJoin active) : postJoin ≤ active :=
  h.longest ▸ Int.le_max_right _ _

@[simp] theorem counted_lastCount (e : Delay) (postJoin : Int) (now count : Nat) :
    (e.counted postJoin now count).lastCount = count := by
  unfold counted
  split <;> rfl

/-- A lower count restarts the delay. -/
theorem counted_of_lt (h : e.Leads postJoin active) (hlower : count < e.lastCount) :
    e.counted postJoin now count = { seconds := active, start := now, lastCount := count } := by
  obtain ⟨hpositive, rfl⟩ := h
  unfold counted
  rw [if_pos hlower]
  have hseconds : (if 0 < e.seconds && e.seconds < postJoin then postJoin else e.seconds) =
      max e.seconds postJoin := by
    simp only [Bool.and_eq_true, decide_eq_true_eq, hpositive, true_and]
    split <;> omega
  rw [hseconds]

theorem counted_of_le (hlower : e.lastCount ≤ count) :
    e.counted postJoin now count = { e with lastCount := count } := by
  unfold counted
  rw [if_neg (Nat.not_lt.2 hlower)]

theorem Leads.counted (h : e.Leads postJoin active) (now count : Nat) :
    (e.counted postJoin now count).Leads postJoin active := by
  obtain hlower | hnot := Nat.lt_or_ge count e.lastCount
  · rw [counted_of_lt h hlower]
    obtain ⟨hpositive, rfl⟩ := h
    exact ⟨by show (0 : Int) < max _ _; omega, by show max (max _ _) _ = _; omega⟩
  · rw [counted_of_le hnot]
    exact ⟨h.positive, h.longest⟩

theorem isOver_iff (h : 0 < e.seconds) :
    e.isOver now = true ↔ e.start + 1000 * e.seconds.toNat ≤ now := by
  unfold isOver
  rw [Bool.and_eq_true, decide_eq_true_eq, decide_eq_true_eq]
  omega

/-- Once it has been restarted at the time `since` with the active delay, a delay is not over
    before that has passed. -/
theorem guard_of_restart (hactive : 0 < active) (hlongest : postJoin ≤ active) (since : Nat) :
    FencingRun.Guard postJoin since (fun e => since ≤ e.start ∧ e.seconds = active)
      (since + 1000 * active.toNat ≤ ·) where
  counted {e now} count hsince h := by
    obtain ⟨hstart, hseconds⟩ := h
    have hleads : e.Leads postJoin active := ⟨hseconds ▸ hactive, by omega⟩
    obtain hlower | hnot := Nat.lt_or_ge count e.lastCount
    · rw [counted_of_lt hleads hlower]
      exact ⟨hsince, rfl⟩
    · rw [counted_of_le hnot]
      exact ⟨hstart, hseconds⟩
  expires {e now} h hover := by
    obtain ⟨hstart, hseconds⟩ := h
    rw [isOver_iff (hseconds ▸ hactive), hseconds] at hover
    omega
  mono hle hlate := Nat.le_trans hlate hle

end Delay

namespace FencingRun

/-- What the delay under way tells of the polls so far: the active delay that a restart leads to,
    and, once there was a poll, that the next one begins with no more victims than it left. The
    poll that is under way began with `before` victims. -/
def Tracks (active : Int) (polled : Prop) (before : Nat) (r : FencingRun) (ids : List NodeId) :
    Prop :=
  match r.stage with
  | .starting =>
    ¬ polled ∧ 0 < r.initialDelay ∧ max r.initialDelay r.settings.postJoinDelay = active
  | .delaying e =>
    e.Leads r.settings.postJoinDelay active ∧
      (polled → (r.unresolvedIds ids).length ≤ e.lastCount)
  | .reducing e rest count =>
    e.Leads r.settings.postJoinDelay active ∧ (polled → before ≤ e.lastCount) ∧
      r.Tallies ids rest count
  | _ => True

/-- How many victims were not resolved when the last poll of a run began. -/
def began (r : FencingRun) (before : Nat) : List RunInput → Nat
  | [] => before
  | i :: rest => (r.step i).1.began (r.beginsWith before i) rest

section

variable {r : FencingRun} {i : RunInput} {inputs : List RunInput} {ids : List NodeId}
  {s : Surroundings} {active : Int} {polled : Prop} {before now clock : Nat} {listening : Bool}

/-- The delay does not come back. -/
theorem delays_step (h : r.stage.delays = false) (i : RunInput) :
    (r.step i).1.stage.delays = false := by
  have hpast {stage : Stage} (hearly : stage.isEarly = false) : stage.delays = false := by
    cases stage with
    | starting | delaying | reducing | listing => cases hearly
    | _ => rfl
  cases hstage : r.stage with
  | starting | delaying | reducing => simp [Stage.delays, hstage] at h
  | listing =>
    cases i with
    | turn => simp only [step, turn, hstage]; rfl
    | agent => simp only [step, agentDone, hstage]; rfl
    | override => simp only [step, overrideDone, hstage]; rfl
  | _ => exact hpast (isEarly_step (by rw [hstage]; rfl) i)

theorem isEarly_of_delays (h : r.stage.delays = true) : r.stage.isEarly = true := by
  cases hstage : r.stage with
  | starting | delaying | reducing => rfl
  | _ => simp [Stage.delays, hstage] at h

/-- During the delay there are no moments but the ends of polls. -/
theorem momentsIn_of_delays (h : r.stage.delays = true) (before now : Nat) (s : Surroundings)
    (listening : Bool) :
    r.momentsIn before (.turn now s listening) =
      (r.stage.counted?.map
        (.polled now before · (!(r.step (.turn now s listening)).1.stage.delays))).toList := by
  have hcalls : (r.step (.turn now s listening)).2.filterMap
      (fun effect => effect.call?.map (Moment.called now)) = [] := by
    rw [List.filterMap_eq_nil_iff]
    intro effect heffect
    cases effect with
    | callAgent victim name =>
      obtain ⟨_, _, _, t, rest, -, hstage⟩ := trying_of_callAgent heffect
      rw [hstage] at h
      cases h
    | _ => rfl
  rw [momentsIn, hcalls, List.append_nil]

theorem Tracks.of_not_delays (h : r.stage.delays = false) : r.Tracks active polled before ids := by
  unfold Tracks
  cases hstage : r.stage with
  | starting | delaying | reducing => simp [Stage.delays, hstage] at h
  | _ => trivial

theorem beginsWith_of_delaying {e : Delay} (h : r.stage = .delaying e) (before now : Nat)
    (s : Surroundings) (listening : Bool) :
    r.beginsWith before (.turn now s listening) = (r.unresolved s).length := by
  unfold beginsWith
  rw [h]

theorem beginsWith_of_reducing {e : Delay} {rest : List Victim} {count : Nat}
    (h : r.stage = .reducing e rest count) (before now : Nat) (s : Surroundings)
    (listening : Bool) : r.beginsWith before (.turn now s listening) = before := by
  unfold beginsWith
  rw [h]

theorem Tracks.waits {r' : FencingRun} (h : r.Tracks active polled before ids)
    (hids : s.victims.ids.Sublist ids) (hwaits : r.Waits now s listening r') :
    r'.Tracks active (polled ∨ r.stage.counted?.isSome = true)
      (r.beginsWith before (.turn now s listening)) s.victims.ids := by
  cases hwaits with
  | polls stage =>
    rw [Tracks, stage] at h
    refine ⟨h.1, fun hpolled => ?_, r.tallies_unresolved s⟩
    have hpolled : polled := by simpa [stage, Stage.counted?] using hpolled
    rw [beginsWith_of_delaying stage, length_unresolved]
    exact Nat.le_trans (r.unresolvedIds_sublist hids).length_le (h.2 hpolled)
  | passes stage =>
    rw [Tracks, stage] at h
    refine ⟨h.1, fun hpolled => ?_, (h.2.2.of_sublist hids).pass⟩
    rw [beginsWith_of_reducing stage]
    exact h.2.1 (by simpa [stage, Stage.counted?] using hpolled)
  | reduces stage =>
    rw [Tracks, stage] at h
    refine ⟨h.1, fun hpolled => ?_, (h.2.2.of_sublist hids).settle⟩
    rw [beginsWith_of_reducing stage]
    exact h.2.1 (by simpa [stage, Stage.counted?] using hpolled)
  | goesOn stage =>
    rw [Tracks, stage] at h
    refine ⟨h.1.counted _ _, fun _ => ?_⟩
    rw [Delay.counted_lastCount]
    exact (h.2.2.of_sublist hids).length_le
  | empties | expires => trivial
  | stops _ ended => exact .of_not_delays (by rw [ended]; rfl)

theorem Tracks.start (hstage : r.stage = .starting) (h : r.Tracks active polled before ids)
    (now : Nat) (s : Surroundings) :
    (r.start now s).Tracks active (polled ∨ r.stage.counted?.isSome = true) before
      s.victims.ids := by
  rw [Tracks, hstage] at h
  rw [start_eq]
  split
  · trivial
  · refine ⟨⟨h.2.1, h.2.2⟩, fun hpolled => ?_⟩
    simp [hstage, Stage.counted?, h.1] at hpolled

/-- A turn during the delay keeps track. -/
theorem Tracks.turn (h : r.Tracks active polled before ids)
    (hwithin : (RunInput.turn now s listening).Within clock ids) :
    (r.step (.turn now s listening)).1.Tracks active (polled ∨ r.stage.counted?.isSome = true)
      (r.beginsWith before (.turn now s listening)) s.victims.ids := by
  cases hstage : r.stage with
  | starting =>
    have hbefore : r.beginsWith before (.turn now s listening) = before := by
      unfold beginsWith
      rw [hstage]
    rw [step_starting hstage, hbefore, ← hstage]
    exact h.start hstage now s
  | delaying e =>
    rw [← hstage]
    exact h.waits hwithin.2 (waits_turn (.inl ⟨e, hstage⟩) now s listening)
  | reducing e rest count =>
    rw [← hstage]
    exact h.waits hwithin.2 (waits_turn (.inr ⟨e, rest, count, hstage⟩) now s listening)
  | _ => exact .of_not_delays (delays_step (by rw [hstage]; rfl) _)

/-- A poll that leaves fewer victims than the one before restarts the delay. -/
theorem step_of_lower {e : Delay} {left : Nat} (hstage : r.stage = .reducing e [] left)
    (hleads : e.Leads r.settings.postJoinDelay active) (hleft : 0 < left)
    (hlower : left < e.lastCount) (now : Nat) (s : Surroundings) (listening : Bool) :
    (r.step (.turn now s listening)).1 =
      r.goTo (.delaying { seconds := active, start := now, lastCount := left }) := by
  have hshort :
      Delay.isOver { seconds := active, start := now, lastCount := left } now = false := by
    rw [← Bool.not_eq_true, Delay.isOver_iff hleads.pos]
    have hpos := hleads.pos
    dsimp only
    omega
  rw [step_reducing_nil hstage, endPoll, if_neg (by simpa using Nat.ne_of_gt hleft)]
  simp only [Delay.counted_of_lt hleads hlower, hshort, Bool.false_eq_true, if_false]

/-- After a poll that restarts the delay, no one is given up before the active delay has passed. -/
theorem Tracks.late_of_lower {e : Delay} {left : Nat} (h : r.Tracks active polled before ids)
    (hstage : r.stage = .reducing e [] left) (hpolled : polled) (hleft : 0 < left)
    (hlower : left < before) {later : List RunInput}
    (horder : ∀ j ∈ later, (RunInput.turn now s listening).Precedes j)
    (horders : later.Pairwise RunInput.Precedes) :
    (r.step (.turn now s listening)).1.stage.delays = true ∧
      ∀ m ∈ (r.step (.turn now s listening)).1.moments before later, m.Presses →
        now + 1000 * active.toNat ≤ m.clock := by
  rw [Tracks, hstage] at h
  obtain ⟨hleads, hbefore, -⟩ := h
  rw [step_of_lower hstage hleads hleft (Nat.lt_of_lt_of_le hlower (hbefore hpolled))]
  let restarted := r.goTo (.delaying { seconds := active, start := now, lastCount := left })
  have hguarded : restarted.Guarded (fun e => now ≤ e.start ∧ e.seconds = active)
      (now + 1000 * active.toNat ≤ ·) now s.victims.ids :=
    ⟨Nat.le_refl now, rfl⟩
  have hguard : Guard restarted.settings.postJoinDelay now _ _ :=
    Delay.guard_of_restart hleads.pos hleads.le now
  exact ⟨rfl, hguarded.moments hguard (Nat.le_refl now) horder horders before⟩

/-- Every moment of a run comes at one of its steps. -/
theorem exists_of_moments_eq {m : Moment} {earlier later : List Moment}
    (h : r.moments before inputs = earlier ++ m :: later) :
    ∃ pre i post inBefore inAfter, inputs = pre ++ i :: post ∧
      earlier = r.moments before pre ++ inBefore ∧
      (r.play pre).momentsIn (r.began before pre) i = inBefore ++ m :: inAfter ∧
      later = inAfter ++ ((r.play pre).step i).1.moments
        ((r.play pre).beginsWith (r.began before pre) i) post := by
  induction inputs generalizing r before earlier with
  | nil => simp [moments] at h
  | cons i rest ih =>
    obtain ⟨more, rfl, hmore⟩ | ⟨more, hin, hmore⟩ := List.append_eq_append_iff.1 h
    · obtain ⟨pre, j, post, inBefore, inAfter, rfl, rfl, hmoments⟩ := ih hmore
      exact ⟨i :: pre, j, post, inBefore, inAfter, rfl, by rw [moments, List.append_assoc],
        hmoments⟩
    · cases more with
      | nil =>
        -- the moment is the first one of a later step
        obtain ⟨pre, j, post, inBefore, inAfter, rfl, hearlier, hmoments⟩ :=
          ih (show _ = [] ++ m :: later from hmore.symm)
        refine ⟨i :: pre, j, post, inBefore, inAfter, rfl, ?_, hmoments⟩
        rw [moments, hin, List.append_nil, List.append_assoc, ← hearlier, List.append_nil]
      | cons m' more =>
        obtain ⟨rfl, rfl⟩ := List.cons.inj hmore
        exact ⟨[], i, rest, earlier, more, rfl, rfl, hin, rfl⟩

/-- A poll comes at a turn at which all victims were looked at, and nothing else does. -/
theorem poll_of_moments {earlier later : List Moment} {b left : Nat} {ends : Bool}
    (h : r.moments before inputs = earlier ++ .polled now b left ends :: later) :
    ∃ pre s listening post e, inputs = pre ++ .turn now s listening :: post ∧
      r.moments before pre = earlier ∧ r.began before pre = b ∧
      (r.play pre).stage = .reducing e [] left ∧
      ((r.play pre).step (.turn now s listening)).1.stage.delays = !ends ∧
      ((r.play pre).step (.turn now s listening)).1.moments b post = later := by
  obtain ⟨pre, i, post, inBefore, inAfter, rfl, rfl, hin, rfl⟩ := exists_of_moments_eq h
  have hmem : .polled now b left ends ∈ (r.play pre).momentsIn (r.began before pre) i := by
    simp [hin]
  obtain ⟨_, s, listening, rfl, ⟨e, _, hstage, hpoll⟩ | ⟨_, _, _, -, hcall⟩⟩ := mem_momentsIn hmem
  · obtain ⟨rfl, rfl, rfl, rfl⟩ := Moment.polled.inj hpoll
    have hdelays : (r.play pre).stage.delays = true := by
      rw [hstage]
      rfl
    rw [momentsIn_of_delays hdelays, hstage] at hin
    obtain ⟨rfl, rfl⟩ : inBefore = [] ∧ inAfter = [] := by
      obtain ⟨hnone, hrest⟩ | ⟨-, hrest⟩ := List.singleton_eq_append_iff.1 hin
      · exact ⟨hnone, (List.cons.inj hrest).2⟩
      · cases hrest
    refine ⟨pre, s, listening, post, e, rfl, (List.append_nil _).symm, rfl, hstage,
      (Bool.not_not _).symm, ?_⟩
    rw [beginsWith_of_reducing hstage]
    rfl
  · cases hcall

theorem Tracks.of_imp {polled' : Prop} (h : r.Tracks active polled before ids)
    (himp : polled' → polled) : r.Tracks active polled' before ids := by
  unfold Tracks at h ⊢
  split at h
  · exact ⟨fun hpolled => h.1 (himp hpolled), h.2⟩
  · exact ⟨h.1, fun hpolled => h.2 (himp hpolled)⟩
  · exact ⟨h.1, fun hpolled => h.2.1 (himp hpolled), h.2.2⟩
  · trivial

/-- One step of a run keeps track for those that follow. -/
theorem Tracks.step (h : r.Tracks active polled before ids) (hwithin : i.Within clock ids)
    {later : List RunInput} (hlater : ∀ j ∈ later, j.Within clock ids)
    (horder : ∀ j ∈ later, i.Precedes j) :
    ∃ clock' ids', (r.step i).1.Tracks active (polled ∨ r.momentsIn before i ≠ [])
      (r.beginsWith before i) ids' ∧ ∀ j ∈ later, j.Within clock' ids' := by
  cases hdelays : r.stage.delays with
  | false =>
    have hnext (ids : List NodeId) : (r.step i).1.Tracks active
        (polled ∨ r.momentsIn before i ≠ []) (r.beginsWith before i) ids :=
      .of_not_delays (delays_step hdelays i)
    cases i with
    | turn now s listening => exact ⟨now, s.victims.ids, hnext _, horder⟩
    | _ => exact ⟨clock, ids, hnext _, hlater⟩
  | true =>
    cases i with
    | turn now s listening =>
      refine ⟨now, s.victims.ids, (h.turn hwithin).of_imp (Or.imp_right fun hpoll => ?_), horder⟩
      rw [momentsIn_of_delays hdelays] at hpoll
      cases hcounted : r.stage.counted? with
      | none => simp [hcounted] at hpoll
      | some count => rfl
    | agent o listening =>
      rw [step_of_isEarly (isEarly_of_delays hdelays) rfl]
      exact ⟨clock, ids, h.of_imp fun hpolled => hpolled.resolve_right fun hne => hne rfl, hlater⟩
    | override overridden listening =>
      rw [step_of_isEarly (isEarly_of_delays hdelays) rfl]
      exact ⟨clock, ids, h.of_imp fun hpolled => hpolled.resolve_right fun hne => hne rfl, hlater⟩

theorem Tracks.play {later : List RunInput} (h : r.Tracks active polled before ids)
    (hwithin : ∀ i ∈ inputs ++ later, i.Within clock ids)
    (horder : (inputs ++ later).Pairwise RunInput.Precedes) :
    ∃ ids', (r.play inputs).Tracks active (polled ∨ r.moments before inputs ≠ [])
      (r.began before inputs) ids' := by
  induction inputs generalizing r clock ids before polled with
  | nil => exact ⟨ids, h.of_imp fun hpolled => hpolled.resolve_right fun hne => hne rfl⟩
  | cons i rest ih =>
    obtain ⟨hi, hrest⟩ := List.forall_mem_cons.1 hwithin
    obtain ⟨horder, horders⟩ := List.pairwise_cons.1 horder
    obtain ⟨clock', ids', hnext, hrest'⟩ := h.step hi hrest horder
    obtain ⟨ids'', hplay⟩ := ih hnext hrest' horders
    refine ⟨ids'', hplay.of_imp ?_⟩
    rw [moments, ne_eq, List.append_eq_nil_iff, not_and_or, or_assoc]
    exact id

/-- The delay under way is the one of `seconds` that began at the time `begun`, and every poll so
    far has left `left` victims. -/
def Unmoved (seconds : Int) (begun left : Nat) (r : FencingRun) : Prop :=
  match r.stage with
  | .starting => False
  | .delaying e | .reducing e _ _ =>
    e.seconds = seconds ∧ e.start = begun ∧ (e.lastCount = 0 ∨ e.lastCount = left)
  | _ => True

variable {seconds : Int} {begun left : Nat}

theorem Unmoved.of_not_delays (h : r.stage.delays = false) : r.Unmoved seconds begun left := by
  unfold Unmoved
  cases hstage : r.stage with
  | starting | delaying | reducing => simp [Stage.delays, hstage] at h
  | _ => trivial

theorem Unmoved.waits {r' : FencingRun} (h : r.Unmoved seconds begun left)
    (hleft : ∀ count ∈ r.stage.counted?, count = left) (hwaits : r.Waits now s listening r') :
    r'.Unmoved seconds begun left := by
  cases hwaits with
  | polls stage | passes stage | reduces stage =>
    rw [Unmoved, stage] at h
    exact h
  | @goesOn e count stage =>
    rw [Unmoved, stage] at h
    obtain ⟨hseconds, hstart, hcount⟩ := h
    have hleft : count = left := hleft count (by rw [stage]; rfl)
    have hkept : e.counted r.settings.postJoinDelay now count = { e with lastCount := count } :=
      Delay.counted_of_le (by omega)
    rw [hkept]
    exact ⟨hseconds, hstart, .inr hleft⟩
  | empties | expires => trivial
  | stops _ ended => exact .of_not_delays (by rw [ended]; rfl)

theorem Unmoved.step (h : r.Unmoved seconds begun left) (i : RunInput)
    (hleft : ∀ m ∈ r.momentsIn before i, m.left? = some left) :
    (r.step i).1.Unmoved seconds begun left := by
  cases hdelays : r.stage.delays with
  | false => exact .of_not_delays (delays_step hdelays i)
  | true =>
    cases i with
    | turn now s listening =>
      rw [momentsIn_of_delays hdelays] at hleft
      have hcount : ∀ count ∈ r.stage.counted?, count = left := by
        intro count hcount
        rw [Option.mem_def] at hcount
        rw [hcount] at hleft
        exact Option.some.inj (hleft _ List.mem_cons_self)
      cases hstage : r.stage with
      | starting =>
        rw [Unmoved, hstage] at h
        exact h.elim
      | delaying e => exact h.waits hcount (waits_turn (.inl ⟨e, hstage⟩) now s listening)
      | reducing e rest count =>
        exact h.waits hcount (waits_turn (.inr ⟨e, rest, count, hstage⟩) now s listening)
      | _ => simp [Stage.delays, hstage] at hdelays
    | _ => rwa [step_of_isEarly (isEarly_of_delays hdelays) rfl]

theorem Unmoved.play (h : r.Unmoved seconds begun left)
    (hleft : ∀ m ∈ r.moments before inputs, m.left? = some left) :
    (r.play inputs).Unmoved seconds begun left := by
  induction inputs generalizing r before with
  | nil => exact h
  | cons i rest ih =>
    obtain ⟨hin, hrest⟩ := List.forall_mem_append.1 hleft
    exact ih (h.step i hin) hrest

/-- The delay begins at the first turn. -/
theorem unmoved_play (hstage : r.stage = .starting)
    (hbegun : inputs.findSome? RunInput.clock? = some begun)
    (hleft : ∀ m ∈ r.moments before inputs, m.left? = some left) :
    (r.play inputs).Unmoved r.initialDelay begun left := by
  induction inputs generalizing before with
  | nil => cases hbegun
  | cons i rest ih =>
    obtain ⟨-, hrest⟩ := List.forall_mem_append.1 hleft
    have hother (hother : i.seen? = none)
        (hbegun : rest.findSome? RunInput.clock? = some begun) :
        (r.play (i :: rest)).Unmoved r.initialDelay begun left := by
      have hsame : (r.step i).1 = r := step_of_isEarly (by rw [hstage]; rfl) hother
      rw [hsame] at hrest
      rw [play_cons, hsame]
      exact ih hbegun hrest
    cases i with
    | turn now s listening =>
      obtain rfl : now = begun := Option.some.inj hbegun
      rw [step_starting hstage] at hrest
      rw [play_cons, step_starting hstage]
      refine Unmoved.play ?_ hrest
      rw [start_eq]
      split
      · trivial
      · exact ⟨rfl, rfl, .inl rfl⟩
    | agent o listening => exact hother rfl hbegun
    | override overridden listening => exact hother rfl hbegun

/-- Without a turn no run begins its delay. -/
theorem play_of_no_turn (hearly : r.stage.isEarly = true)
    (h : inputs.findSome? RunInput.clock? = none) : r.play inputs = r := by
  induction inputs with
  | nil => rfl
  | cons i rest ih =>
    cases i with
    | turn => cases h
    | agent o listening =>
      have hsame : (r.step (.agent o listening)).1 = r := step_of_isEarly hearly rfl
      rw [play_cons, hsame]
      exact ih h
    | override overridden listening =>
      have hsame : (r.step (.override overridden listening)).1 = r := step_of_isEarly hearly rfl
      rw [play_cons, hsame]
      exact ih h

end

/-- In a run that begins with a positive delay, while victims are only removed, each poll but the
    first restarts the delay if it leaves some victims, and fewer than it began with: the delay goes
    on, and no one is given up to the agent before the longer of the two delays has passed since
    that poll. The first poll restarts nothing: as long as all polls leave as many victims, the
    delay is over just when the first one has passed since the run began. -/
theorem lower_count_restarts (settings : FencingSettings) (nodesJoined overridable : Bool)
    (inputs : List RunInput) (horder : inputs.Pairwise RunInput.Precedes)
    (hdelay : 0 < initialDelay { settings, nodesJoined, overridable }) :
    let r : FencingRun := { settings, nodesJoined, overridable }
    let active := max r.initialDelay settings.postJoinDelay
    (∀ earlier clock before left ends later,
      r.moments 0 inputs = earlier ++ .polled clock before left ends :: later → earlier ≠ [] →
        0 < left → left < before →
          ends = false ∧ ∀ m ∈ later, m.Presses → clock + 1000 * active.toNat ≤ m.clock) ∧
      ∀ begun, inputs.findSome? RunInput.clock? = some begun →
        ∀ earlier clock before left ends later,
          r.moments 0 inputs = earlier ++ .polled clock before left ends :: later → 0 < left →
            (∀ m ∈ earlier, m.left? = some left) →
              (ends = true ↔ begun + 1000 * r.initialDelay.toNat ≤ clock) := by
  intro r active
  obtain ⟨ids, hwithin⟩ := RunInput.exists_within horder
  refine ⟨fun earlier clock before left ends later hmoments hearlier hleft hlower => ?_,
    fun begun hbegun earlier clock before left ends later hmoments hleft hsame => ?_⟩
  · obtain ⟨pre, s, listening, post, e, rfl, rfl, rfl, hstage, hends, rfl⟩ :=
      poll_of_moments hmoments
    have hstart : r.Tracks active False 0 ids := ⟨not_false, hdelay, rfl⟩
    obtain ⟨ids', htracks⟩ := hstart.play hwithin horder
    obtain ⟨horder, horders⟩ :=
      List.pairwise_cons.1 (List.pairwise_append.1 horder).2.1
    obtain ⟨hgoes, hlate⟩ :=
      htracks.late_of_lower hstage (.inr hearlier) hleft hlower horder horders
    exact ⟨by simpa [hgoes] using hends, hlate⟩
  · obtain ⟨pre, s, listening, post, e, rfl, rfl, rfl, hstage, hends, rfl⟩ :=
      poll_of_moments hmoments
    have hpre : pre.findSome? RunInput.clock? = some begun := by
      rw [List.findSome?_append] at hbegun
      cases hpre : pre.findSome? RunInput.clock? with
      | none =>
        rw [play_of_no_turn rfl hpre] at hstage
        cases hstage
      | some first => rwa [hpre] at hbegun
    have hunmoved : (r.play pre).Unmoved r.initialDelay begun left := unmoved_play rfl hpre hsame
    rw [Unmoved, hstage] at hunmoved
    obtain ⟨hseconds, hstart, hcount⟩ := hunmoved
    have hkept : e.counted (r.play pre).settings.postJoinDelay clock left =
        { e with lastCount := left } :=
      Delay.counted_of_le (by omega)
    rw [step_reducing_nil hstage, delays_endPoll hleft, hkept, Bool.not_inj_iff] at hends
    rw [← hends, Delay.isOver_iff (hseconds ▸ hdelay)]
    rw [hseconds, hstart]

/-- The delay after a failure is three seconds, and that after a join ten. -/
def hastySettings : FencingSettings where
  postJoinDelay := 10
  postFailDelay := 3
  overrideTime := 3
  retryInterval := 1
  delayPoll := 1000

/-- Nodes 2 and 3 are victims. The daemon of node 2 has restarted, and the node may be back. -/
def twoVictims (back : Bool) : Surroundings :=
  let joined := (DaemonGroup.new 1 .highest).changeMembers [1, 2] 5
  { victims := ⟨[{ node := 2, name := "node2" }, { node := 3, name := "node3" }]⟩
    history := .empty
    daemons := (joined.receiveOffer 2 { max := .highest } true 0).toOption.elim joined (·.1)
    cluster := .ok { quorate := true, ringSeq := 1, nodes := [⟨2, "node2", back, 1⟩] } }

/-- Turns of a run at one time. -/
def turnsAt (clock turns : Nat) (back : Bool) : List RunInput :=
  List.replicate turns (.turn clock (twoVictims back) true)

/-- A poll each second. Node 2 is back at the second one, and node 3 is called for when the delay is
    over. -/
def backAtSecondPoll : List RunInput :=
  turnsAt 0 1 false ++ turnsAt 1000 4 false ++ turnsAt 2000 4 true ++
    (List.range 9).flatMap (fun k => turnsAt (3000 + 1000 * k) 3 true) ++ turnsAt 12000 6 true

/-- Node 2 is back at the first poll. -/
def backAtFirstPoll : List RunInput :=
  turnsAt 0 1 true ++ turnsAt 1000 4 true ++ turnsAt 2000 3 true ++ turnsAt 3000 6 true

theorem lower_count_restarts_backAtSecondPoll :
    let r : FencingRun :=
      { settings := hastySettings, nodesJoined := false, overridable := false }
    let later : List Moment := (List.range 9).map (fun k => .polled (3000 + 1000 * k) 1 1 false) ++
      [.polled 12000 1 1 true, .called 12000 3]
    backAtSecondPoll.Pairwise RunInput.Precedes ∧ 0 < r.initialDelay ∧
      r.moments 0 backAtSecondPoll =
        [.polled 1000 2 2 false] ++ .polled 2000 2 1 false :: later ∧
      (∀ m ∈ later, m.Presses → 12000 ≤ m.clock) ∧
      (false = true ↔ 0 + 1000 * r.initialDelay.toNat ≤ 1000) := by
  intro r later
  have horder : backAtSecondPoll.Pairwise RunInput.Precedes := by decide +kernel
  have hdelay : 0 < r.initialDelay := by decide
  have hmoments : r.moments 0 backAtSecondPoll =
      [.polled 1000 2 2 false] ++ .polled 2000 2 1 false :: later := by
    decide +kernel
  obtain ⟨hrestarts, hfirst⟩ :=
    lower_count_restarts hastySettings false false backAtSecondPoll horder hdelay
  have hlate := (hrestarts _ 2000 2 1 false later hmoments (by simp) (by decide) (by decide)).2
  exact ⟨horder, hdelay, hmoments, hlate,
    hfirst 0 rfl [] 1000 2 2 false _ hmoments (by decide) (List.forall_mem_nil _)⟩

/-- A first poll that leaves fewer victims than it began with does not restart the delay: when node
    2 is back at the first poll, after a second, node 3 is called for after three. -/
theorem first_lower_count_restarts_nothing :
    ¬ ∀ (settings : FencingSettings) (nodesJoined overridable : Bool) (inputs : List RunInput),
        inputs.Pairwise RunInput.Precedes → 0 < settings.delayPoll →
        0 < initialDelay { settings, nodesJoined, overridable } →
        ∀ earlier clock before left ends later,
          moments { settings, nodesJoined, overridable } 0 inputs =
            earlier ++ .polled clock before left ends :: later → 0 < left → left < before →
              ∀ m ∈ later, m.Presses →
                clock + 1000 *
                  (max (initialDelay { settings, nodesJoined, overridable })
                    settings.postJoinDelay).toNat ≤ m.clock := by
  intro hrestarts
  have hlate := hrestarts hastySettings false false backAtFirstPoll (by decide +kernel) (by decide)
    (by decide) [] 1000 2 1 false
    [.polled 2000 1 1 false, .polled 3000 1 1 true, .called 3000 3] (by decide +kernel)
    (by decide) (by decide) (.called 3000 3) (by simp) trivial
  exact absurd hlate (by decide)

end FencingRun

end ClusterFence
