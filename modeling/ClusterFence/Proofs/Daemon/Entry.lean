import ClusterFence.Proofs.Daemon.Entitled
import ClusterFence.Proofs.Daemon.Hearing
import ClusterFence.Proofs.Daemon.Lifecycle
import ClusterFence.Proofs.Wire.RoundTrip
import Mathlib.Data.List.Induction

namespace ClusterFence

/-- The move brings an event of the group. -/
def Move.brings (group : GroupName) : Move → Bool
  | .post (.group name _) => name == group
  | _ => false

/-- The daemon takes a step in the move. -/
def Move.isDaemon : Move → Bool
  | .daemon _ _ _ => true
  | _ => false

namespace Station

/-- The call of the group service that is answered in a move. -/
def call? (s : Station) : Move → Option TransportCall
  | .daemon _ _ _ =>
    match s.daemon.wants with
    | .answer call => some call
    | _ => none
  | _ => none

/-- The calls of a run, each with what is known of the daemon group when it is made. -/
def calls (s : Station) : List Move → List (DaemonGroup × TransportCall)
  | [] => []
  | m :: rest => ((s.call? m).map (s.daemon.daemons, ·)).toList ++ (s.move m).calls rest

/-- The call has been made, or it is being answered. -/
def HasCalled (s : Station) (call : TransportCall) (moves : List Move) : Prop :=
  call ∈ (s.calls moves).map (·.2) ∨ (s.play moves).daemon.wants = .answer call

/-- Nothing comes to a group before the daemon has called to join it. -/
def Delivers (s : Station) (group : GroupName) (moves : List Move) : Prop :=
  ∀ i < moves.length, moves[i]?.any (·.brings group) = true →
    s.HasCalled (.join group) (moves.take i)

instance (s : Station) (call : TransportCall) (moves : List Move) :
    Decidable (s.HasCalled call moves) :=
  inferInstanceAs (Decidable (_ ∨ _))

instance (s : Station) (group : GroupName) (moves : List Move) :
    Decidable (s.Delivers group moves) :=
  inferInstanceAs (Decidable (∀ i < moves.length, _ → _))

/-- The call is in place: it is about the daemon group, or there is a version to enter the domain
    with, and a message for it is of that version. -/
def InPlace (group : GroupName) (daemons : DaemonGroup) : TransportCall → Prop
  | .join g => g = .daemon ∨ g = group ∧ daemons.agreed?.isSome = true
  | .multicast g data => g = .daemon ∨ g = group ∧ ∃ e : Envelope, data = e.encode ∧
      daemons.agreed? = some (e.header.version.major, e.header.version.minor)
  | .leave _ => True

/-- What holds of a station and the calls that were made there. -/
structure Admitted (config : Config) (calls : List (DaemonGroup × TransportCall)) (s : Station) :
    Prop where
  sameConfig : s.daemon.config = config
  arranged : s.daemon.Arranged
  entitled : s.daemon.Entitled
  alone : s.daemon.daemons.agreed? = none → s.missions = [] ∧
    ∀ e ∈ s.queue, ¬ Daemon.ofDomain config.domainGroup (.event e)
  parts : s.daemon.Stranded → ∃ steps ≤ 4, s.daemon.Parts steps
  inPlace : ∀ p ∈ calls, InPlace config.domainGroup p.1 p.2
  agreed : ∀ p ∈ calls, ∀ q, p.1.agreed? = some q → s.daemon.daemons.agreed? = some q

section

variable {s : Station} {config : Config} {calls : List (DaemonGroup × TransportCall)}
  {answer : Answer} {snapshot : Except Error ClusterSnapshot} {input : DaemonInput}

theorem calls_append (s : Station) (moves more : List Move) :
    s.calls (moves ++ more) = s.calls moves ++ (s.play moves).calls more := by
  induction moves generalizing s with
  | nil => rfl
  | cons m rest ih =>
    rw [List.cons_append, Station.calls, ih, Station.calls, List.append_assoc]
    rfl

theorem calls_append_singleton (s : Station) (moves : List Move) (m : Move) :
    s.calls (moves ++ [m]) = s.calls moves ++
      (((s.play moves).call? m).map ((s.play moves).daemon.daemons, ·)).toList := by
  rw [calls_append, Station.calls, Station.calls, List.append_nil]

theorem Delivers.of_append {group : GroupName} {moves more : List Move}
    (h : s.Delivers group (moves ++ more)) : s.Delivers group moves := by
  intro i hi hbrings
  have hlt : i < (moves ++ more).length := by
    rw [List.length_append]
    omega
  have hcalled := h i hlt (by rwa [List.getElem?_append_left hi])
  rwa [List.take_append_of_le_length (Nat.le_of_lt hi)] at hcalled

theorem Delivers.last {group : GroupName} {moves : List Move} {m : Move}
    (h : s.Delivers group (moves ++ [m])) (hbrings : m.brings group = true) :
    s.HasCalled (.join group) moves := by
  have hcalled := h moves.length (by simp) (by simpa using hbrings)
  rwa [List.take_left'] at hcalled
  rfl

theorem fits_of_input? (h : s.input? answer snapshot = some input) :
    s.daemon.fits input = true := by
  unfold input? at h
  unfold Daemon.fits
  split at h <;> rename_i hwants <;> rw [hwants]
  · obtain ⟨e, -, rfl⟩ := Option.map_eq_some_iff.1 h
    rfl
  all_goals first | cases h; rfl | cases h

/-- What is called for is what the daemon is about to do. -/
theorem inPlace_of_wants {d : Daemon} (h : d.Entitled) {call : TransportCall}
    (hwants : d.wants = .answer call) : InPlace d.config.domainGroup d.daemons call := by
  have hopen : d.result.isSome = false := by
    by_contra hover
    rw [Bool.not_eq_false] at hover
    simp [Daemon.wants, hover] at hwants
  cases hagenda : d.agenda with
  | nil => simp [Daemon.wants, hopen, hagenda] at hwants
  | cons task rest =>
    have htask := h.tasks task (hagenda ▸ List.mem_cons_self)
    cases task with
    | send s purpose =>
      obtain rfl : s.call = call := by simpa [Daemon.wants, hopen, hagenda] using hwants
      exact htask
    | join j =>
      obtain rfl : j.call = call := by simpa [Daemon.wants, hopen, hagenda] using hwants
      exact htask
    | leave group =>
      obtain rfl : .leave group = call := by simpa [Daemon.wants, hopen, hagenda] using hwants
      trivial
    | _ => simp [Daemon.wants, hopen, hagenda] at hwants

/-- Who has called to join the domain group has a version to enter it with. -/
theorem Admitted.agreed_of_hasCalled (h : s.Admitted config calls)
    (hcalled : .join config.domainGroup ∈ calls.map (·.2) ∨
      s.daemon.wants = .answer (.join config.domainGroup)) :
    s.daemon.daemons.agreed?.isSome = true := by
  have hplace {daemons : DaemonGroup} {call : TransportCall}
      (hplace : InPlace config.domainGroup daemons call)
      (hcall : call = .join config.domainGroup) : daemons.agreed?.isSome = true := by
    subst hcall
    exact (hplace.resolve_left config.domainGroup_ne_daemon).2
  obtain hjoin | hwants := hcalled
  · obtain ⟨p, hp, hcall⟩ := List.mem_map.1 hjoin
    obtain ⟨q, hq⟩ := Option.isSome_iff_exists.1 (hplace (h.inPlace p hp) hcall)
    rw [h.agreed p hp q hq, Option.isSome_some]
  · rw [← h.sameConfig] at hwants
    exact hplace (h.sameConfig ▸ inPlace_of_wants h.entitled hwants) rfl

theorem admitted_new (config : Config) (overridable : Bool) :
    (new config overridable).Admitted config [] where
  sameConfig := rfl
  arranged := Daemon.arranged_of_toPerform_nil rfl
  entitled := Daemon.entitled_new config overridable
  alone _ := ⟨rfl, List.forall_mem_nil _⟩
  parts h := absurd h.1 Bool.false_ne_true
  inPlace := List.forall_mem_nil _
  agreed := List.forall_mem_nil _

/-- While there is no version to enter the domain with, nothing that comes from there is given to
    the daemon. -/
theorem Admitted.occasion (h : s.Admitted config calls)
    (hinput : s.input? answer snapshot = some input)
    (hoccasion : Daemon.ofDomain config.domainGroup input) :
    s.daemon.daemons.agreed?.isSome = true := by
  cases hagreed : s.daemon.daemons.agreed? with
  | some p => rfl
  | none =>
    obtain ⟨e, rfl, hqueue⟩ | ⟨hother, -⟩ := queue_of_input? hinput
    · exact absurd hoccasion ((h.alone hagreed).2 e (hqueue ▸ List.mem_cons_self))
    · obtain hevent | ⟨report, rfl⟩ := hoccasion
      · cases input with
        | event e => exact absurd rfl (hother e)
        | _ => cases hevent
      · exact absurd rfl (hother _)

theorem Admitted.feed (h : s.Admitted config calls)
    (hinput : s.input? answer snapshot = some input) (now : Seconds) {call : Option TransportCall}
    (hcall : ∀ c ∈ call, s.daemon.wants = .answer c) :
    (s.feed now input).Admitted config (calls ++ (call.map (s.daemon.daemons, ·)).toList) := by
  have hfits := fits_of_input? hinput
  have hgoes := Daemon.goes_step hfits now
  have hholds := hgoes.agreed
  have hentitled := Daemon.entitled_of_goes h.entitled hgoes fun ho =>
    h.occasion hinput (h.sameConfig ▸ ho)
  constructor
  case sameConfig => exact hgoes.config.trans h.sameConfig
  case arranged => exact (Daemon.performs_step h.arranged now input).arranged
  case entitled => exact hentitled
  case alone =>
    intro hnone
    obtain ⟨hmissions, hqueue⟩ := h.alone (hholds.agreed_eq_none hnone)
    have hcarried : s.daemon.carried? = none := by
      rw [Option.eq_none_iff_forall_ne_some]
      intro a ha
      obtain ⟨task, htask, haction⟩ := Option.bind_eq_some_iff.1 ha
      have hplace := h.entitled.tasks task (List.mem_of_mem_head? htask)
      cases task with
      | perform =>
        rw [Task.InPlace, hholds.agreed_eq_none hnone] at hplace
        cases hplace
      | _ => cases haction
    refine ⟨(missions_feed_of_idle h.arranged hcarried now input).trans hmissions, ?_⟩
    intro e he
    obtain ⟨e', -, hwaiting⟩ | ⟨-, hwaiting⟩ := queue_of_input? hinput
    · exact hqueue e (hwaiting ▸ List.mem_cons_of_mem _ he)
    · exact hqueue e (hwaiting ▸ he)
  case parts =>
    intro hstranded
    cases hset : s.daemon.daemons.running?.isSome with
    | true =>
      have hbefore := hholds.agreed_eq_none hstranded.2
      obtain ⟨steps, hsteps, hparts⟩ := h.parts ⟨hset, hbefore⟩
      have houtside := (h.entitled.outside hbefore).1
      exact ⟨steps - 1, by omega,
        (hparts.pred_of_goes hsteps hfits ⟨hset, hbefore⟩ houtside hgoes).1⟩
    | false =>
      obtain ⟨hresult, hagenda⟩ := hgoes.agenda_of_running hset hstranded.1
      have hopen := Daemon.isOpen_of_fits hfits
      rw [Option.isSome_eq_false_iff, Option.isNone_iff_eq_none] at hopen
      exact ⟨4, Nat.le_refl 4, hresult.trans hopen, hagenda⟩
  case inPlace =>
    intro p hp
    obtain hp | hp := List.mem_append.1 hp
    · exact h.inPlace p hp
    · obtain ⟨c, hc, rfl⟩ := Option.map_eq_some_iff.1 (Option.mem_toList.1 hp)
      exact h.sameConfig ▸ inPlace_of_wants h.entitled (hcall c hc)
  case agreed =>
    intro p hp q hq
    obtain hp | hp := List.mem_append.1 hp
    · exact hholds.2 q (h.agreed p hp q hq)
    · obtain ⟨c, -, rfl⟩ := Option.map_eq_some_iff.1 (Option.mem_toList.1 hp)
      exact hholds.2 q hq

/-- What comes before there is a version to enter the domain with is nothing from the domain. -/
theorem Admitted.post (h : s.Admitted config calls) {e : DaemonEvent}
    (hreport : e.isReport = false)
    (hbrings : (Move.post e).brings config.domainGroup = true →
      s.daemon.daemons.agreed?.isSome = true) :
    Admitted config calls { s with queue := s.queue ++ [e] } := by
  refine { h with alone := fun hnone => ⟨(h.alone hnone).1, fun e' he' => ?_⟩ }
  obtain he' | he' := List.mem_append.1 he'
  · exact (h.alone hnone).2 e' he'
  obtain rfl := List.mem_singleton.1 he'
  rintro (hevent | ⟨report, hinput⟩)
  · have hsome : s.daemon.daemons.agreed?.isSome = true := by
      refine hbrings ?_
      cases e' with
      | group name event =>
        rw [DaemonInput.domainEvent?, DaemonEvent.domainEvent?] at hevent
        split at hevent
        · exact beq_iff_eq.2 ‹_›
        · cases hevent
      | _ => cases hevent
    simp only [hnone, Option.isSome_none, Bool.false_eq_true] at hsome
  · cases hinput
    cases hreport

theorem daemon_conduct (mission : Nat) (f : FencingRun → FencingRun × List RunEffect) :
    (s.conduct mission f).daemon = s.daemon := by
  unfold conduct
  split <;> rfl

/-- A run goes on only when there is one, and so a version was agreed on. -/
theorem Admitted.conduct (h : s.Admitted config calls) (mission : Nat)
    (f : FencingRun → FencingRun × List RunEffect) :
    (s.conduct mission f).Admitted config calls := by
  have hdaemon := s.daemon_conduct mission f
  constructor
  case sameConfig => exact hdaemon ▸ h.sameConfig
  case arranged => exact hdaemon ▸ h.arranged
  case entitled => exact hdaemon ▸ h.entitled
  case parts => exact hdaemon ▸ h.parts
  case inPlace => exact h.inPlace
  case agreed => exact hdaemon ▸ h.agreed
  case alone =>
    intro hnone
    rw [hdaemon] at hnone
    have hsame : s.conduct mission f = s := by
      unfold Station.conduct
      rw [(h.alone hnone).1, List.getElem?_nil]
    rw [hsame]
    exact h.alone hnone

theorem Admitted.move (h : s.Admitted config calls) (m : Move)
    (hbrings : m.brings config.domainGroup = true → .join config.domainGroup ∈ calls.map (·.2) ∨
      s.daemon.wants = .answer (.join config.domainGroup)) :
    (s.move m).Admitted config (calls ++ ((s.call? m).map (s.daemon.daemons, ·)).toList) := by
  have hquiet (hnone : s.call? m = none) (hmove : (s.move m).Admitted config calls) :
      (s.move m).Admitted config
        (calls ++ ((s.call? m).map (s.daemon.daemons, ·)).toList) := by
    rw [hnone, Option.map_none, Option.toList_none, List.append_nil]
    exact hmove
  cases m with
  | post e =>
    refine hquiet rfl ?_
    simp only [Station.move]
    split
    · exact h
    · rename_i hopen
      simp only [Bool.or_eq_true, not_or, Bool.not_eq_true] at hopen
      exact h.post hopen.1 fun hb => h.agreed_of_hasCalled (hbrings hb)
  | daemon now answer snapshot =>
    have hcall (c : TransportCall) (hc : c ∈ s.call? (.daemon now answer snapshot)) :
        s.daemon.wants = .answer c := by
      rw [call?, Option.mem_def] at hc
      split at hc
      · rename_i hwants
        rw [hwants, Option.some.inj hc]
      · cases hc
    cases hinput : s.input? answer snapshot with
    | some input =>
      rw [Station.move, hinput]
      exact h.feed hinput now hcall
    | none =>
      refine hquiet (Option.eq_none_iff_forall_ne_some.2 fun c hc => ?_) ?_
      · simp [input?, hcall c hc] at hinput
      · rw [Station.move, hinput]
        exact h
  | turn mission clock cluster =>
    exact hquiet rfl (h.conduct mission (·.turn clock (s.surroundings cluster) s.isOpen))
  | agent mission outcome =>
    exact hquiet rfl (h.conduct mission (·.agentDone s.isOpen outcome))
  | override mission overridden =>
    exact hquiet rfl (h.conduct mission (·.overrideDone s.isOpen overridden))

theorem play_append (s : Station) (moves more : List Move) :
    s.play (moves ++ more) = (s.play moves).play more := List.foldl_append

theorem admitted_play {overridable : Bool} {moves : List Move}
    (h : (new config overridable).Delivers config.domainGroup moves) :
    ((new config overridable).play moves).Admitted config
      ((new config overridable).calls moves) := by
  induction moves using List.reverseRecOn with
  | nil => exact admitted_new config overridable
  | append_singleton moves m ih =>
    rw [calls_append_singleton, play_append]
    exact (ih h.of_append).move m h.last

/-- What cannot end at once wants no event. -/
theorem input?_of_parts {steps : Nat} (h : s.daemon.Parts (steps + 1)) (answer : Answer)
    (snapshot : Except Error ClusterSnapshot) :
    (s.input? answer snapshot).isSome = true := by
  obtain ⟨hresult, hagenda⟩ := h
  match steps with
  | 0 | 1 | 2 | _ + 3 => simp [input?, Daemon.wants, hresult, hagenda, Daemon.lastTasks]

theorem Admitted.parts_move (h : s.Admitted config calls) (hstranded : s.daemon.Stranded)
    {steps : Nat} (hsteps : steps ≤ 4) (hparts : s.daemon.Parts steps) (m : Move) :
    (s.move m).daemon.Parts (steps - m.isDaemon.toNat) ∧
      (s.move m).daemon.daemons.ours = s.daemon.daemons.ours := by
  have hrests (hdaemon : (s.move m).daemon = s.daemon) (hnot : steps - m.isDaemon.toNat = steps) :
      (s.move m).daemon.Parts (steps - m.isDaemon.toNat) ∧
        (s.move m).daemon.daemons.ours = s.daemon.daemons.ours := by
    rw [hdaemon, hnot]
    exact ⟨hparts, rfl⟩
  cases m with
  | post e =>
    refine hrests ?_ rfl
    rw [Station.move]
    split <;> rfl
  | daemon now answer snapshot =>
    cases hinput : s.input? answer snapshot with
    | some input =>
      have hfits := fits_of_input? hinput
      have hgoes := Daemon.goes_step hfits now
      rw [Station.move, hinput]
      exact hparts.pred_of_goes hsteps hfits hstranded (h.entitled.outside hstranded.2).1 hgoes
    | none =>
      cases steps with
      | zero =>
        refine hrests ?_ rfl
        rw [Station.move, hinput]
      | succ steps =>
        have hsome := input?_of_parts hparts answer snapshot
        rw [hinput] at hsome
        cases hsome
  | turn mission clock cluster => exact hrests (s.daemon_conduct mission _) rfl
  | agent mission outcome => exact hrests (s.daemon_conduct mission _) rfl
  | override mission overridden => exact hrests (s.daemon_conduct mission _) rfl

/-- With a version that it cannot run the daemon keeps to itself until it ends. -/
theorem parts_play {overridable : Bool} {before more : List Move}
    (h : (new config overridable).Delivers config.domainGroup (before ++ more))
    (hstranded : ((new config overridable).play before).daemon.Stranded) :
    let s := ((new config overridable).play before).daemon
    let s' := ((new config overridable).play (before ++ more)).daemon
    s'.daemons.ours = s.daemons.ours ∧
      ∃ steps ≤ 4, s'.Parts (steps - more.countP Move.isDaemon) := by
  intro s
  induction more using List.reverseRecOn with
  | nil =>
    rw [List.append_nil] at h ⊢
    exact ⟨rfl, (admitted_play h).parts hstranded⟩
  | append_singleton more m ih =>
    rw [← List.append_assoc] at h ⊢
    obtain ⟨hours, steps, hsteps, hparts⟩ := ih h.of_append
    have hmove := (admitted_play h.of_append).parts_move (hstranded.of_ours hours)
      (Nat.le_trans (Nat.sub_le _ _) hsteps) hparts m
    have hplay (s : Station) : s.play [m] = s.move m := rfl
    rw [play_append _ _ [m], hplay]
    refine ⟨hmove.2.trans hours, steps, hsteps, ?_⟩
    rw [List.countP_append, Nat.sub_add_eq, List.countP_singleton]
    cases hm : m.isDaemon <;> simpa [hm] using hmove.1

/-- What is agreed on when the domain group is joined or written to is agreed on ever after, and is
    what we can run. -/
theorem Admitted.agreed_of_call (h : s.Admitted config calls) {daemons : DaemonGroup}
    {call : TransportCall} (hmem : (daemons, call) ∈ calls)
    (hcall : call = .join config.domainGroup ∨ ∃ data, call = .multicast config.domainGroup data) :
    ∃ run, daemons.running? = some run ∧ run.runnableUnder Version.highest = true ∧
      s.daemon.daemons.agreed? = some (run.major, run.minor) := by
  have hplace := h.inPlace _ hmem
  have hsome : daemons.agreed?.isSome = true := by
    obtain rfl | ⟨data, rfl⟩ := hcall
    · exact (hplace.resolve_left config.domainGroup_ne_daemon).2
    · obtain ⟨-, e, -, hagreed⟩ := hplace.resolve_left config.domainGroup_ne_daemon
      rw [hagreed, Option.isSome_some]
  obtain ⟨q, hq⟩ := Option.isSome_iff_exists.1 hsome
  have hnow := h.agreed _ hmem q hq
  obtain ⟨run, hrunning, -, rfl⟩ := DaemonGroup.agreed?_eq_some_iff.1 hq
  obtain ⟨run', -, hrunnable, hsame⟩ := DaemonGroup.agreed?_eq_some_iff.1 hnow
  rw [h.entitled.max, Version.runnableUnder] at hrunnable
  rw [Prod.mk.injEq] at hsame
  refine ⟨run, hrunning, ?_, hnow⟩
  rwa [Version.runnableUnder, hsame.1, hsame.2]

/-- As long as nothing comes to the domain group before the daemon has called to join it, the daemon
    calls to join it only while a version runs that it can run. With another version it neither
    joins nor writes to the group, and ends for that within four steps. All that it writes there is
    under one version, and who runs that version does not refuse it for its version. The daemon
    ends with fatal errors only. -/
theorem entersAgreed_play (config : Config) (overridable : Bool) (moves : List Move)
    (hdelivers : (new config overridable).Delivers config.domainGroup moves) :
    let s := new config overridable
    (∀ daemons, (daemons, .join config.domainGroup) ∈ s.calls moves →
      ∃ run, daemons.running? = some run ∧ run.major = Version.highest.major ∧
        run.minor ≤ Version.highest.minor) ∧
    (∀ before more run, moves = before ++ more →
      (s.play before).daemon.daemons.running? = some run →
      run.runnableUnder Version.highest = false →
      (∀ daemons call, (daemons, call) ∈ s.calls moves →
        call ≠ .join config.domainGroup ∧ ∀ data, call ≠ .multicast config.domainGroup data) ∧
      (4 ≤ more.countP Move.isDaemon → (s.play moves).daemon.result =
        some (.error (.incompatibleVersion run Version.highest)))) ∧
    (∃ major minor, ∀ daemons data,
      (daemons, .multicast config.domainGroup data) ∈ s.calls moves →
      (∃ run, daemons.running? = some run ∧ run.major = major ∧ run.minor = minor) ∧
        (WireHeader.decode data).1.version.major = major ∧
        (WireHeader.decode data).1.version.minor = minor ∧
        ∀ sender v, v.major = major → v.minor = minor →
          Envelope.decode data sender (some v) = Envelope.decode data sender none) ∧
    ∀ e, (s.play moves).daemon.result = some (.error e) → e.isFatal = true := by
  intro s
  have h : (s.play moves).Admitted config (s.calls moves) := admitted_play hdelivers
  refine ⟨fun daemons hcall => ?_, fun before more run hmoves hrunning hunrunnable => ?_, ?_,
    h.entitled.result⟩
  · obtain ⟨run, hrunning, hrunnable, -⟩ := h.agreed_of_call hcall (.inl rfl)
    rw [Version.runnableUnder, Bool.and_eq_true, beq_iff_eq, decide_eq_true_eq] at hrunnable
    exact ⟨run, hrunning, hrunnable⟩
  · subst hmoves
    have hbefore := admitted_play hdelivers.of_append
    have hstranded : (s.play before).daemon.Stranded := by
      refine ⟨by rw [hrunning, Option.isSome_some], ?_⟩
      rw [DaemonGroup.agreed?, hrunning, Option.bind_some, hbefore.entitled.max, hunrunnable]
      rfl
    obtain ⟨hours, steps, hsteps, hparts⟩ := parts_play hdelivers hstranded
    have hnone := (hstranded.of_ours hours).2
    refine ⟨fun daemons call hmem => ?_, fun hmany => ?_⟩
    · have hnot (hcall : call = .join config.domainGroup ∨
          ∃ data, call = .multicast config.domainGroup data) : False := by
        obtain ⟨run, -, -, hagreed⟩ := h.agreed_of_call hmem hcall
        rw [hnone] at hagreed
        cases hagreed
      exact ⟨fun hcall => hnot (.inl hcall), fun data hcall => hnot (.inr ⟨data, hcall⟩)⟩
    · rw [Nat.sub_eq_zero_of_le (Nat.le_trans hsteps hmany), Daemon.Parts] at hparts
      rw [hparts, Daemon.versionError_of_ours hours, Daemon.versionError, hbefore.entitled.max,
        DaemonGroup.run_of_running? hrunning]
  · cases hagreed : (s.play moves).daemon.daemons.agreed? with
    | none =>
      refine ⟨0, 0, fun daemons data hmem => ?_⟩
      obtain ⟨run, -, -, hsome⟩ := h.agreed_of_call hmem (.inr ⟨data, rfl⟩)
      rw [hagreed] at hsome
      cases hsome
    | some q =>
      refine ⟨q.1, q.2, fun daemons data hmem => ?_⟩
      obtain ⟨run, hrunning, -, hsome⟩ := h.agreed_of_call hmem (.inr ⟨data, rfl⟩)
      obtain ⟨-, e, rfl, hcarries⟩ := (h.inPlace _ hmem).resolve_left config.domainGroup_ne_daemon
      have hheader := h.agreed _ hmem _ hcarries
      rw [hagreed, Option.some.injEq] at hsome hheader
      subst hsome
      have hversion :
          (WireHeader.decode e.encode).1.version = e.header.version.withoutFlags :=
        WireHeader.version_decode_encode _ _
      obtain ⟨hmajor, hminor⟩ := Prod.mk.inj hheader
      have hnumbers : (WireHeader.decode e.encode).1.version.major = run.major ∧
          (WireHeader.decode e.encode).1.version.minor = run.minor := by
        rw [hversion]
        exact ⟨hmajor.symm, hminor.symm⟩
      refine ⟨⟨run, hrunning, rfl, rfl⟩, hnumbers.1, hnumbers.2, fun sender v hv hw => ?_⟩
      refine Envelope.decode_of_compatible ?_ sender
      rw [Version.compatible, hnumbers.1, hnumbers.2, hv, hw, beq_self_eq_true, beq_self_eq_true,
        Bool.and_self]

/-- Who is in a group now, all of whom have come together. -/
def entryGroup (nodes : List NodeId) : GroupEvent :=
  .membership ⟨nodes.map (⟨·, .join⟩), [], nodes.map (⟨·, .join⟩)⟩

/-- A node announces which version it runs. -/
def entryOffer (sender : NodeId) (run : Version) : Move :=
  let offer : Envelope := ⟨{ sender }, .protocol { max := Version.highest, run }⟩
  .post (.group .daemon (.deliver sender offer.encode))

/-- The daemon goes on for some steps. -/
def entrySteps (steps : Nat) : List Move :=
  let snapshot := .ok { quorate := true, ringSeq := 1, nodes := [⟨1, "node1", true, 1⟩] }
  List.replicate steps (.daemon 10 (.ok ()) snapshot)

/-- A lone node agrees with itself, enters its domain and sends its START there. -/
def soleEntry : List Move :=
  let domain (e : GroupEvent) : Move := .post (.group soleConfig.domainGroup e)
  entrySteps 2 ++ [.post (.group .daemon (entryGroup [1]))] ++ entrySteps 2 ++
  [entryOffer 1 {}] ++ entrySteps 5 ++ [entryOffer 1 Version.highest] ++ entrySteps 4 ++
  [domain (.ring 1 1), domain (entryGroup [1])] ++ entrySteps 5

/-- The START that it sends. -/
def soleStart : Envelope :=
  ⟨{ version := Version.highest, sender := 1, flags := .joining },
    .start
      { seq := 1
        summary := { counts := { members := 1, joined := 1 } }
        entries := [{ node := 1, flags := NodeEntry.memberFlag }] }⟩

/-- The version that is heard of is beyond the node. -/
def misfitHeard : List Move :=
  entrySteps 2 ++ [.post (.group .daemon (entryGroup [1, 2]))] ++ entrySteps 2 ++
  [entryOffer 2 { major := 2, minor := 1, patch := 1 }] ++ entrySteps 1

/-- The lone node enters under the version that it runs, and the other does not enter. -/
theorem entersAgreed_play_soleEntry :
    let s := new soleConfig false
    s.Delivers soleConfig.domainGroup soleEntry ∧
      (∃ daemons run, (daemons, .join soleConfig.domainGroup) ∈ s.calls soleEntry ∧
        daemons.running? = some run ∧ run.minor ≤ 1) ∧
      (∃ daemons run,
        (daemons, .multicast soleConfig.domainGroup soleStart.encode) ∈ s.calls soleEntry ∧
        daemons.running? = some run ∧
        (WireHeader.decode soleStart.encode).1.version.minor = run.minor) ∧
      s.Delivers soleConfig.domainGroup (misfitHeard ++ entrySteps 4) ∧
      (s.play misfitHeard).daemon.daemons.running? = some ⟨2, 1, 1, 0⟩ ∧
      (s.play (misfitHeard ++ entrySteps 4)).daemon.result =
        some (.error (.incompatibleVersion ⟨2, 1, 1, 0⟩ Version.highest)) := by
  have hfacts :
      let s := new soleConfig false
      s.Delivers soleConfig.domainGroup soleEntry ∧
        s.Delivers soleConfig.domainGroup (misfitHeard ++ entrySteps 4) ∧
        .join soleConfig.domainGroup ∈ (s.calls soleEntry).map (·.2) ∧
        .multicast soleConfig.domainGroup soleStart.encode ∈ (s.calls soleEntry).map (·.2) ∧
        (s.play misfitHeard).daemon.daemons.running? = some ⟨2, 1, 1, 0⟩ := by
    decide +kernel
  have hsole := entersAgreed_play soleConfig false soleEntry hfacts.1
  have hmisfit := entersAgreed_play soleConfig false (misfitHeard ++ entrySteps 4) hfacts.2.1
  -- the station is named once its facts are evaluated
  generalize new soleConfig false = s at *
  obtain ⟨hdelivers, hdelivers', hjoins, hsends, hheard⟩ := hfacts
  obtain ⟨henters, -, ⟨major, minor, hwrites⟩, -⟩ := hsole
  have hbalks := (hmisfit.2.1 misfitHeard (entrySteps 4) ⟨2, 1, 1, 0⟩ rfl hheard (by decide)).2
  refine ⟨hdelivers, ?_, ?_, hdelivers', hheard, hbalks (by decide)⟩
  · obtain ⟨⟨daemons, call⟩, hjoin, hcall⟩ := List.mem_map.1 hjoins
    obtain rfl : call = .join soleConfig.domainGroup := hcall
    obtain ⟨run, hrunning, -, hminor⟩ := henters daemons hjoin
    exact ⟨daemons, run, hjoin, hrunning, hminor⟩
  · obtain ⟨⟨daemons, call⟩, hsend, hcall⟩ := List.mem_map.1 hsends
    obtain rfl : call = .multicast soleConfig.domainGroup soleStart.encode := hcall
    obtain ⟨⟨run, hrunning, -, hrun⟩, -, hheader, -⟩ := hwrites daemons _ hsend
    exact ⟨daemons, run, hsend, hrunning, hheader.trans hrun.symm⟩

end

end Station

end ClusterFence
