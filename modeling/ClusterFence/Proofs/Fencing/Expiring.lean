import ClusterFence.Proofs.Fencing.Restarting

namespace ClusterFence

namespace Delay

/-- The most victims that the next poll can count, if there were `victims` to begin with. -/
def limit (victims : Nat) (e : Delay) : Nat := if e.lastCount = 0 then victims else e.lastCount

/-- What is spent of the time that there is for the delay: since the time `begun` no more than
    `span` went by for each victim fewer. The delay is between the `shortest` and the `longest`. -/
structure Spends (begun victims span : Nat) (shortest longest : Int) (e : Delay) : Prop where
  least : shortest ≤ e.seconds
  most : e.seconds ≤ longest
  since : begun ≤ e.start
  some : 1 ≤ e.limit victims
  fewer : e.limit victims ≤ victims
  spent : e.start + e.limit victims * span ≤ begun + victims * span

section

variable {begun victims now count poll : Nat} {shortest longest postJoin : Int} {e : Delay}

theorem limit_counted (hleft : 0 < count) (e : Delay) (postJoin : Int) (now victims : Nat) :
    (e.counted postJoin now count).limit victims = count := by
  rw [limit, counted_lastCount, if_neg (Nat.ne_of_gt hleft)]

theorem Spends.positive {span : Nat} (h : e.Spends begun victims span shortest longest)
    (hshort : 0 < shortest) : 0 < e.seconds :=
  Int.lt_of_lt_of_le hshort h.least

/-- Whatever victims are left, the longest delay is paid for. -/
theorem Spends.le {span : Nat} (h : e.Spends begun victims span shortest longest) :
    e.start + span ≤ begun + victims * span := by
  obtain ⟨-, -, -, hsome, -, hspent⟩ := h
  have hone : 1 * span ≤ e.limit victims * span := Nat.mul_le_mul_right span hsome
  omega

/-- A poll spends no more than there is: if it restarts the delay, there is a victim fewer, whose
    time covers what has passed since the delay began. -/
theorem Spends.counted
    (h : e.Spends begun victims (1000 * longest.toNat + poll) shortest longest)
    (hjoin : postJoin ≤ longest) (hshort : 0 < shortest) (hbegun : begun ≤ now)
    (hnow : now < e.start + 1000 * e.seconds.toNat + poll) (hleft : 0 < count)
    (hcount : count ≤ e.limit victims) :
    (e.counted postJoin now count).Spends begun victims (1000 * longest.toNat + poll) shortest
      longest := by
  obtain ⟨hleast, hmost, hsince, hsome, hfewer, hspent⟩ := h
  have hlimit := limit_counted hleft e postJoin now victims
  obtain hlower | hnot := Nat.lt_or_ge count e.lastCount
  · have hleads : e.Leads postJoin (max e.seconds postJoin) := ⟨by omega, rfl⟩
    have hlast : e.limit victims = e.lastCount := by
      rw [limit, if_neg (by omega)]
    have hpaid : (count + 1) * (1000 * longest.toNat + poll) ≤
        e.limit victims * (1000 * longest.toNat + poll) :=
      Nat.mul_le_mul_right _ (by omega)
    rw [Nat.succ_mul] at hpaid
    rw [counted_of_lt hleads hlower] at hlimit ⊢
    refine ⟨?_, ?_, hbegun, by omega, by omega, ?_⟩
    · dsimp only
      omega
    · dsimp only
      omega
    · rw [hlimit]
      dsimp only
      omega
  · have hpaid : count * (1000 * longest.toNat + poll) ≤
        e.limit victims * (1000 * longest.toNat + poll) :=
      Nat.mul_le_mul_right _ hcount
    rw [counted_of_le hnot] at hlimit ⊢
    refine ⟨hleast, hmost, hsince, by omega, by omega, ?_⟩
    rw [hlimit]
    dsimp only
    omega

end

end Delay

namespace FencingRun

/-- How long a run pauses before its next turn, in milliseconds. -/
def pauseMillis (r : FencingRun) : Nat :=
  match r.wants with
  | .pause millis => millis
  | _ => 0

/-- The time and the run after some turns, each taken as soon as the run wants to, with nobody
    keeping it waiting when it reports. It sees `seen k` at the turn that comes after `k` others. -/
def course (r : FencingRun) (clock : Nat) (seen : Nat → Surroundings) : Nat → Nat × FencingRun
  | 0 => (clock, r)
  | k + 1 =>
    let now := clock + r.pauseMillis
    (r.step (.turn now (seen 0) true)).1.course now (fun j => seen (j + 1)) k

/-- The longest time that a delay takes, with the pause before the poll that ends it. -/
def span (r : FencingRun) (longest : Int) : Nat := 1000 * longest.toNat + r.settings.delayPoll

/-- The run is in its delay, at the time `clock`, and it is not late. -/
def Paces (begun victims : Nat) (shortest longest : Int) (r : FencingRun) (clock : Nat)
    (ids : List NodeId) : Prop :=
  match r.stage with
  | .delaying e =>
    e.Spends begun victims (r.span longest) shortest longest ∧
      clock < e.start + 1000 * e.seconds.toNat ∧ (r.unresolvedIds ids).length ≤ e.limit victims
  | .reducing e rest count =>
    e.Spends begun victims (r.span longest) shortest longest ∧
      clock < e.start + 1000 * e.seconds.toNat + r.settings.delayPoll ∧ r.Tallies ids rest count ∧
      count ≤ e.limit victims
  | _ => False

/-- The delay is over before the `limit`, and if a victim is left, not before the shortest delay. -/
structure Expires (begun limit : Nat) (shortest : Int) (r : FencingRun) (clock : Nat)
    (ids : List NodeId) : Prop where
  stage : r.stage = .listing
  inTime : clock ≤ limit
  notEarly : r.unresolvedIds ids ≠ [] → begun + 1000 * shortest.toNat ≤ clock

/-- How much there can still be to do in the delay: each millisecond that is left can bring a poll,
    and a poll takes a turn for each victim. -/
def toDo (begun victims : Nat) (longest : Int) (r : FencingRun) (clock : Nat) : Nat :=
  (begun + victims * r.span longest - clock) * (victims + 2) +
    match r.stage with
    | .reducing _ rest _ => rest.length + 1
    | _ => 0

section

variable {begun victims clock now : Nat} {shortest longest : Int} {r : FencingRun} {e : Delay}
  {ids : List NodeId} {s : Surroundings}

theorem pauseMillis_of_delaying (h : r.stage = .delaying e) :
    r.pauseMillis = r.settings.delayPoll := by
  simp only [pauseMillis, wants, h]

theorem pauseMillis_of_reducing {rest : List Victim} {count : Nat}
    (h : r.stage = .reducing e rest count) : r.pauseMillis = 0 := by
  simp only [pauseMillis, wants, h]

/-- There is time for a poll. -/
theorem toDo_of_delaying (h : r.stage = .delaying e) (begun victims : Nat) (longest : Int)
    (clock : Nat) :
    r.toDo begun victims longest clock =
      (begun + victims * r.span longest - clock) * (victims + 2) := by
  simp only [toDo, h, Nat.add_zero]

theorem toDo_of_reducing {rest : List Victim} {count : Nat} (h : r.stage = .reducing e rest count)
    (begun victims : Nat) (longest : Int) (clock : Nat) :
    r.toDo begun victims longest clock =
      (begun + victims * r.span longest - clock) * (victims + 2) + (rest.length + 1) := by
  simp only [toDo, h]

/-- A poll takes time, and that is worth more than its turns. -/
theorem toDo_poll {limit poll length : Nat} (hclock : clock < limit) (hpoll : 0 < poll)
    (hlength : length ≤ victims) :
    (limit - (clock + poll)) * (victims + 2) + (length + 1) < (limit - clock) * (victims + 2) := by
  have hless : (limit - (clock + poll) + 1) * (victims + 2) ≤ (limit - clock) * (victims + 2) :=
    Nat.mul_le_mul_right _ (by omega)
  rw [Nat.succ_mul] at hless
  omega

/-- At each turn the delay is over, or there is less to do. -/
theorem Paces.waits {r' : FencingRun} (h : r.Paces begun victims shortest longest clock ids)
    (hbegun : begun ≤ clock) (hshort : 0 < shortest) (hjoin : r.settings.postJoinDelay ≤ longest)
    (hpoll : 0 < r.settings.delayPoll) (hids : s.victims.ids.Sublist ids)
    (hwaits : r.Waits (clock + r.pauseMillis) s true r') :
    r'.Expires begun (begun + victims * r.span longest) shortest (clock + r.pauseMillis)
        s.victims.ids ∨
      r'.Paces begun victims shortest longest (clock + r.pauseMillis) s.victims.ids ∧
        r'.toDo begun victims longest (clock + r.pauseMillis) <
          r.toDo begun victims longest clock := by
  have hspan : r.span longest = 1000 * longest.toNat + r.settings.delayPoll := rfl
  cases hwaits with
  | @polls e stage =>
    rw [Paces, stage] at h
    obtain ⟨hspends, hclock, hcount⟩ := h
    have hlength : (r.unresolved s).length ≤ e.limit victims := by
      rw [length_unresolved]
      exact Nat.le_trans (r.unresolvedIds_sublist hids).length_le hcount
    have hlimit : clock < begun + victims * r.span longest := by
      have hpaid := hspends.le
      have hmost := hspends.most
      omega
    rw [pauseMillis_of_delaying stage, toDo_of_delaying stage]
    refine .inr ⟨⟨hspends, ?_, r.tallies_unresolved s, hlength⟩, ?_⟩
    · exact Nat.add_lt_add_right hclock _
    · exact toDo_poll hlimit hpoll (Nat.le_trans hlength hspends.fewer)
  | @passes e v rest count stage =>
    rw [Paces, stage] at h
    obtain ⟨hspends, hclock, htallies, hcount⟩ := h
    rw [pauseMillis_of_reducing stage, toDo_of_reducing stage]
    refine .inr ⟨⟨hspends, hclock, (htallies.of_sublist hids).pass, hcount⟩, ?_⟩
    exact Nat.add_lt_add_left (Nat.lt_succ_self _) _
  | @reduces e v rest count stage =>
    rw [Paces, stage] at h
    obtain ⟨hspends, hclock, htallies, hcount⟩ := h
    rw [pauseMillis_of_reducing stage, toDo_of_reducing stage]
    refine .inr ⟨⟨hspends, hclock, (htallies.of_sublist hids).settle, by omega⟩, ?_⟩
    exact Nat.add_lt_add_left (Nat.lt_succ_self _) _
  | @empties e stage =>
    rw [Paces, stage] at h
    obtain ⟨hspends, hclock, htallies, -⟩ := h
    have hpaid := hspends.le
    have hmost := hspends.most
    rw [pauseMillis_of_reducing stage, Nat.add_zero]
    refine .inl ⟨rfl, ?_, fun hsome => absurd (htallies.of_sublist hids).eq_nil hsome⟩
    omega
  | @goesOn e count stage left short =>
    rw [Paces, stage] at h
    obtain ⟨hspends, hclock, htallies, hcount⟩ := h
    rw [pauseMillis_of_reducing stage, Nat.add_zero] at short ⊢
    rw [toDo_of_reducing stage]
    have hcounted := hspends.counted hjoin hshort hbegun hclock left hcount
    refine .inr ⟨⟨hcounted, ?_, ?_⟩, ?_⟩
    · rw [← Bool.not_eq_true, Delay.isOver_iff (hcounted.positive hshort)] at short
      exact Nat.lt_of_not_le short
    · rw [Delay.limit_counted left]
      exact (htallies.of_sublist hids).length_le
    · rw [toDo_of_delaying rfl]
      exact Nat.lt_add_of_pos_right (Nat.succ_pos _)
  | @expires e count stage left expired =>
    rw [Paces, stage] at h
    obtain ⟨hspends, hclock, htallies, hcount⟩ := h
    rw [pauseMillis_of_reducing stage, Nat.add_zero] at expired ⊢
    have hcounted := hspends.counted hjoin hshort hbegun hclock left hcount
    rw [Delay.isOver_iff (hcounted.positive hshort)] at expired
    have hpaid := hspends.le
    have hmost := hspends.most
    refine .inl ⟨rfl, ?_, fun _ => ?_⟩
    · omega
    · have hleast := hcounted.least
      have hsince := hcounted.since
      omega
  | stops alone => cases alone

/-- The delay is over at some turn, by induction on what there is to do. -/
theorem Paces.exists_course (h : r.Paces begun victims shortest longest clock ids)
    (hbegun : begun ≤ clock) (hshort : 0 < shortest) (hjoin : r.settings.postJoinDelay ≤ longest)
    (hpoll : 0 < r.settings.delayPoll) (seen : Nat → Surroundings)
    (hids : (seen 0).victims.ids.Sublist ids)
    (hshrinks : ∀ k, (seen (k + 1)).victims.ids.Sublist (seen k).victims.ids) :
    ∃ k, (r.course clock seen (k + 1)).2.Expires begun (begun + victims * r.span longest) shortest
      (r.course clock seen (k + 1)).1 (seen k).victims.ids := by
  induction hmeasure : r.toDo begun victims longest clock using Nat.strongRecOn
    generalizing r clock ids seen with
  | ind n ih =>
    have hdelay : (∃ e, r.stage = .delaying e) ∨
        ∃ e rest count, r.stage = .reducing e rest count := by
      unfold Paces at h
      split at h
      · exact .inl ⟨_, ‹_›⟩
      · exact .inr ⟨_, _, _, ‹_›⟩
      · exact h.elim
    obtain hover | ⟨hpaces, hless⟩ := h.waits hbegun hshort hjoin hpoll hids
      (waits_turn hdelay (clock + r.pauseMillis) (seen 0) true)
    · exact ⟨0, hover⟩
    · have hsettings := r.settings_step (.turn (clock + r.pauseMillis) (seen 0) true)
      obtain ⟨k, hk⟩ := ih _ (hmeasure ▸ hless) hpaces
        (Nat.le_trans hbegun (Nat.le_add_right _ _)) (hsettings ▸ hjoin) (hsettings ▸ hpoll)
        (fun j => seen (j + 1)) (hshrinks 0) (fun k => hshrinks (k + 1)) rfl
      rw [span, hsettings] at hk
      exact ⟨k + 1, hk⟩

theorem play_concat (r : FencingRun) (inputs : List RunInput) (i : RunInput) :
    r.play (inputs ++ [i]) = ((r.play inputs).step i).1 := by
  rw [play, List.foldl_append]
  rfl

/-- What is handed out is handed out at some step. -/
theorem exists_step_of_mem_effects {inputs : List RunInput} {effect : RunEffect}
    (h : effect ∈ r.effects inputs) :
    ∃ pre i post, inputs = pre ++ i :: post ∧ effect ∈ ((r.play pre).step i).2 := by
  induction inputs generalizing r with
  | nil => cases h
  | cons i rest ih =>
    obtain h | h := List.mem_append.1 h
    · exact ⟨[], i, rest, rfl, h⟩
    · obtain ⟨pre, j, post, rfl, hstep⟩ := ih h
      exact ⟨i :: pre, j, post, rfl, hstep⟩

/-- A delay without end is never changed, and it never ends. -/
theorem guard_of_negative (postJoin : Int) :
    Guard postJoin 0 (fun e => e.seconds < 0) (fun _ => False) where
  counted {e now} count _ h := by
    unfold Delay.counted
    have hkept : (0 < e.seconds && e.seconds < postJoin) = false := by
      rw [decide_eq_false (by omega), Bool.false_and]
    split
    · rw [hkept]
      exact h
    · exact h
  expires {e now} h hover := by
    unfold Delay.isOver at hover
    rw [decide_eq_false (by omega), Bool.false_and] at hover
    cases hover
  mono _ := id

/-- At its first turn, which it takes at once, a run lists the victims or begins its delay. -/
theorem course_of_starting (hstage : r.stage = .starting) (clock : Nat)
    (seen : Nat → Surroundings) (k : Nat) :
    r.course clock seen (k + 1) =
      (r.start clock (seen 0)).course clock (fun j => seen (j + 1)) k := by
  have hpause : r.pauseMillis = 0 := by simp only [pauseMillis, wants, hstage]
  simp only [course, step_starting hstage, hpause, Nat.add_zero]

/-- A run paces itself from the start of its delay on. -/
theorem paces_start (hsome : r.unresolved s ≠ []) (hdelay : 0 < r.initialDelay)
    (hlongest : r.initialDelay ≤ longest) (clock : Nat) :
    (r.start clock s).Paces clock s.victims.size r.initialDelay longest clock s.victims.ids := by
  have hsize : (r.unresolved s).length ≤ s.victims.size := List.length_filter_le _ _
  have hvictims : 1 ≤ s.victims.size :=
    Nat.le_trans (List.length_pos_iff.2 hsome) hsize
  have hwaits : ((r.unresolved s).isEmpty || r.initialDelay == 0) = false := by
    rw [Bool.or_eq_false_iff, List.isEmpty_eq_false_iff, beq_eq_false_iff_ne]
    exact ⟨hsome, by omega⟩
  rw [start_eq, hwaits]
  refine ⟨⟨Int.le_refl _, hlongest, Nat.le_refl _, hvictims, Nat.le_refl _, Nat.le_refl _⟩, ?_, ?_⟩
  · dsimp only
    omega
  · show (r.unresolvedIds s.victims.ids).length ≤ s.victims.size
    rwa [← length_unresolved]

/-- The delay of a run that has just been started is over in time. -/
theorem exists_course (hstage : r.stage = .starting) (hpoll : 0 < r.settings.delayPoll)
    (hdelay : 0 ≤ r.initialDelay) (hlongest : r.initialDelay ≤ longest)
    (hjoin : r.settings.postJoinDelay ≤ longest) (clock : Nat) (seen : Nat → Surroundings)
    (hshrinks : ∀ k, (seen (k + 1)).victims.ids.Sublist (seen k).victims.ids) :
    ∃ k, let (now, after) := r.course clock seen (k + 1)
      after.stage = .listing ∧
      (r.initialDelay = 0 ∨ (seen 0).victims.size = 0 → now = clock) ∧
      now ≤ clock + (seen 0).victims.size * r.span longest ∧
      (0 < r.initialDelay → after.unresolved (seen k) ≠ [] →
        clock + 1000 * r.initialDelay.toNat ≤ now) := by
  by_cases hdirect : r.unresolved (seen 0) = [] ∨ r.initialDelay = 0
  · have hstart : r.start clock (seen 0) = r.goTo .listing := by
      rw [start_eq, if_pos]
      rwa [Bool.or_eq_true, List.isEmpty_iff, beq_iff_eq]
    refine ⟨0, ?_⟩
    rw [course_of_starting hstage, hstart]
    refine ⟨rfl, fun _ => rfl, Nat.le_add_right _ _, fun hpositive hsome => ?_⟩
    obtain hnone | hzero := hdirect
    · exact absurd hnone hsome
    · omega
  · rw [not_or] at hdirect
    obtain ⟨hsome, hset⟩ := hdirect
    have hpositive : 0 < r.initialDelay := by omega
    have hpaces := r.paces_start hsome hpositive hlongest clock
    have hsettings : (r.start clock (seen 0)).settings = r.settings := by
      rw [start_eq]
      split <;> rfl
    obtain ⟨k, hover⟩ := hpaces.exists_course (Nat.le_refl clock) hpositive (hsettings ▸ hjoin)
      (hsettings ▸ hpoll) (fun j => seen (j + 1)) (hshrinks 0) fun k => hshrinks (k + 1)
    have hspan : (r.start clock (seen 0)).span longest = r.span longest := by
      rw [span, hsettings, span]
    refine ⟨k + 1, ?_⟩
    rw [course_of_starting hstage]
    refine ⟨hover.stage, fun hnone => ?_, hspan ▸ hover.inTime, fun _ hleft => ?_⟩
    · have hsize : (r.unresolved (seen 0)).length ≤ (seen 0).victims.size :=
        List.length_filter_le _ _
      have hpos := List.length_pos_iff.2 hsome
      omega
    · exact hover.notEarly fun hempty => hleft (unresolved_eq_nil_iff.2 hempty)

end

/-- With the polls of a run some time apart, and while victims are only removed, a delay that has
    an end is over after some turns: at once if it is zero or there is no victim; in any case within
    the longest delay and a pause for each victim; and not before the delay that the run begins with
    has passed, if a victim is left. A poll that leaves nobody is the last. A negative delay is over
    only when nobody is left, and such a run never calls the agent, however long the other delay
    is. -/
theorem delay_ends (settings : FencingSettings) (nodesJoined overridable : Bool)
    (hpoll : 0 < settings.delayPoll) :
    let r : FencingRun := { settings, nodesJoined, overridable }
    let longest := max r.initialDelay settings.postJoinDelay
    (0 ≤ r.initialDelay → ∀ (clock : Nat) (seen : Nat → Surroundings),
      (∀ k, (seen (k + 1)).victims.ids.Sublist (seen k).victims.ids) →
        ∃ k, let (now, after) := r.course clock seen (k + 1)
          after.stage = .listing ∧
          (r.initialDelay = 0 ∨ (seen 0).victims.size = 0 → now = clock) ∧
          now ≤ clock + (seen 0).victims.size * (1000 * longest.toNat + settings.delayPoll) ∧
          (0 < r.initialDelay → after.unresolved (seen k) ≠ [] →
            clock + 1000 * r.initialDelay.toNat ≤ now)) ∧
    (∀ inputs clock before ends, .polled clock before 0 ends ∈ r.moments 0 inputs → ends = true) ∧
    (r.initialDelay < 0 → ∀ inputs : List RunInput, inputs.Pairwise RunInput.Precedes →
      (∀ victim name, .callAgent victim name ∉ r.effects inputs) ∧
      ∀ before now s listening, inputs = before ++ [.turn now s listening] →
        (r.play inputs).stage = .listing → (r.play inputs).unresolved s = []) := by
  intro r longest
  refine ⟨fun hdelay clock seen hshrinks => ?_, fun inputs clock before ends hpolled => ?_,
    fun hnegative inputs horder => ?_⟩
  · have hjoin : r.settings.postJoinDelay ≤ longest := Int.le_max_right _ _
    exact exists_course rfl hpoll hdelay (Int.le_max_left _ _) hjoin clock seen hshrinks
  · obtain ⟨earlier, later, hmoments⟩ := List.append_of_mem hpolled
    obtain ⟨pre, s, listening, post, e, -, -, -, hstage, hends, -⟩ := poll_of_moments hmoments
    rw [step_reducing_nil hstage] at hends
    simpa [endPoll, FencingRun.goTo, Stage.delays] using hends
  · obtain ⟨ids, hwithin⟩ := RunInput.exists_within horder
    have hstart : r.Guarded (fun e => e.seconds < 0) (fun _ => False) 0 ids :=
      ⟨by omega, fun now _ => hnegative⟩
    refine ⟨fun victim name hcall => ?_, ?_⟩
    · obtain ⟨pre, i, post, rfl, hstep⟩ := exists_step_of_mem_effects hcall
      obtain ⟨_, _, _, t, rest, -, hstage⟩ := trying_of_callAgent hstep
      obtain ⟨clock', ids', hguarded, -⟩ :=
        hstart.play (guard_of_negative _) (Nat.le_refl 0) hwithin horder
      rw [Guarded, hstage] at hguarded
      exact hguarded.elim (List.cons_ne_nil _ _) id
    · rintro before now s listening rfl hlisting
      obtain ⟨clock', ids', hguarded, -, hwithin⟩ :=
        hstart.play (guard_of_negative _) (Nat.le_refl 0) hwithin horder
      have hnext := hguarded.turn (guard_of_negative _) (Nat.zero_le now) listening
        (hwithin _ List.mem_cons_self)
      rw [play_concat] at hlisting ⊢
      rw [Guarded, hlisting] at hnext
      exact unresolved_eq_nil_iff.2 (hnext.resolve_right id)

/-- Of two victims one is back at the second poll. With a delay that has an end, this is over within
    twice the longest delay and a pause; without end, neither victim is ever called for. -/
theorem delay_ends_twoVictims :
    let r : FencingRun :=
      { settings := hastySettings, nodesJoined := false, overridable := false }
    let endless : FencingRun :=
      { settings := { hastySettings with postFailDelay := -1 }, nodesJoined := false,
        overridable := false }
    let seen (k : Nat) : Surroundings := twoVictims (5 ≤ k)
    0 < hastySettings.delayPoll ∧ 0 < r.initialDelay ∧ endless.initialDelay < 0 ∧
      (∀ k, (seen (k + 1)).victims.ids.Sublist (seen k).victims.ids) ∧
      (∃ k, (r.course 0 seen (k + 1)).2.stage = .listing ∧
        (r.course 0 seen (k + 1)).1 ≤ 0 + 2 * (1000 * 10 + 1000)) ∧
      backAtSecondPoll.Pairwise RunInput.Precedes ∧
      ∀ victim name, .callAgent victim name ∉ endless.effects backAtSecondPoll := by
  intro r endless seen
  have hpoll : 0 < hastySettings.delayPoll := by decide
  have hshrinks (k : Nat) : (seen (k + 1)).victims.ids.Sublist (seen k).victims.ids := .refl _
  have horder : backAtSecondPoll.Pairwise RunInput.Precedes := by decide +kernel
  obtain ⟨hends, -, -⟩ := delay_ends hastySettings false false hpoll
  obtain ⟨k, hlisting, -, hintime, -⟩ := hends (by decide) 0 seen hshrinks
  obtain ⟨-, -, hendless⟩ :=
    delay_ends { hastySettings with postFailDelay := -1 } false false hpoll
  have hsilent := (hendless (by decide) backAtSecondPoll horder).1
  exact ⟨hpoll, by decide, by decide, hshrinks, ⟨k, hlisting, hintime⟩, horder, hsilent⟩

end FencingRun

end ClusterFence
