import ClusterFence.Proofs.Negotiation.Eviction
import ClusterFence.Proofs.Negotiation.Lowest

namespace ClusterFence

namespace Version

theorem isSet_of_numbers {v w : Version} (h : w.numbers = v.numbers) : w.isSet = v.isSet := by
  rw [isSet, isSet, (numbers_eq_iff.1 h).1]

/-- Who had `v` for its version has `w` later: numbers that are set stay, and so does the flag of a
    daemon with state. -/
structure Settles (v w : Version) : Prop where
  numbers : v.isSet = true → w.numbers = v.numbers
  stateful : v.isStateful = true → w.isStateful = true

namespace Settles

theorem refl (v : Version) : v.Settles v := ⟨fun _ => rfl, id⟩

theorem trans {u v w : Version} (hfirst : u.Settles v) (hthen : v.Settles w) : u.Settles w where
  numbers h := by
    have hkept := hfirst.numbers h
    rw [hthen.numbers (by rw [isSet_of_numbers hkept, h]), hkept]
  stateful h := hthen.stateful (hfirst.stateful h)

end Settles

end Version

namespace DaemonGroup

variable {g : DaemonGroup}

theorem isStateful_setStateful (g : DaemonGroup) : g.setStateful.ours.run.isStateful = true := by
  have hflag (flags : UInt16) :
      (flags ||| Version.statefulFlag) &&& Version.statefulFlag = Version.statefulFlag := by
    apply UInt16.toBitVec_inj.1
    rw [UInt16.toBitVec_and, UInt16.toBitVec_or]
    ext i
    simp
    grind
  unfold setStateful Version.isStateful
  rw [hflag]
  rfl

theorem settles_adopt (g : DaemonGroup) (run : Version) : g.ours.run.Settles (g.adopt run) := by
  obtain ⟨-, hkept⟩ | ⟨hunset, -, hadopted⟩ := g.adopt_cases run
  · rw [hkept]
    exact .refl _
  · rw [hadopted]
    refine ⟨fun hset => ?_, id⟩
    rw [hunset] at hset
    cases hset

/-- An announcement can set the version, and gaining state can flag it. -/
theorem settles_step (g : DaemonGroup) (i : DaemonGroupInput) :
    g.ours.run.Settles (g.step i).ours.run := by
  cases i with
  | membership members joined now => exact .refl _
  | offer sender o quorate quorateTime =>
    obtain ⟨-, hrefused⟩ | ⟨verdict, hears⟩ := g.hears_step sender o quorate quorateTime
    · rw [hrefused]
      exact .refl _
    · generalize g.step (.offer sender o quorate quorateTime) = g' at hears ⊢
      cases hears with
      | merged => exact .refl _
      | held => exact g.settles_adopt o.run
  | proposes =>
    rw [step, propose_fst]
    exact .refl _
  | stateful => exact ⟨fun _ => rfl, fun _ => g.isStateful_setStateful⟩

theorem settles_play (g : DaemonGroup) (inputs : List DaemonGroupInput) :
    g.ours.run.Settles (g.play inputs).ours.run := by
  induction inputs using List.reverseRecOn with
  | nil => exact .refl _
  | append_singleton inputs i ih =>
    rw [play_append_singleton]
    exact ih.trans ((g.play inputs).settles_step i)

/-- No version with a zero in it is run, and no offer that is held has one in its highest version. -/
structure Sound (g : DaemonGroup) : Prop where
  run : g.ours.run.isSet = true → g.ours.run.Positive
  held : ∀ node o, g.offer? node = some o → o.max.Positive

theorem sound_new (us : NodeId) (max : Version) : (new us max).Sound where
  run h := by cases h
  held node o h := by simp [new, offer?] at h

/-- Only what is well-formed is adopted. -/
theorem Sound.adopt (h : g.Sound) {o : Offer} (hfit : o.WellFormed)
    (hset : (g.adopt o.run).isSet = true) : (g.adopt o.run).Positive := by
  obtain ⟨-, hkept⟩ | ⟨-, hrun, hadopted⟩ := g.adopt_cases o.run
  · rw [hkept] at hset ⊢
    exact h.run hset
  · have hmajor : o.run.major ≠ 0 := by simpa [Version.isSet] using hrun
    obtain ⟨hminor, hpatch⟩ := hfit.2.2.2.resolve_left hmajor
    rw [hadopted]
    exact ⟨hmajor, hminor, hpatch⟩

/-- A membership change brings no offer. -/
theorem offer?_of_changeMembers {members : List NodeId} {now : Seconds} {node : NodeId} {o : Offer}
    (h : (g.changeMembers members now).offer? node = some o) : g.offer? node = some o := by
  rw [offer?_eq_record, record_changeMembers] at h
  rw [offer?_eq_record]
  unfold DaemonNode.listed at h
  grind

theorem Sound.step (h : g.Sound) (i : DaemonGroupInput) : (g.step i).Sound := by
  cases i with
  | membership members joined now =>
    exact ⟨h.run, fun node o ho => h.held node o (offer?_of_changeMembers ho)⟩
  | offer sender o quorate quorateTime =>
    obtain ⟨-, hrefused⟩ | ⟨verdict, hears⟩ := g.hears_step sender o quorate quorateTime
    · rw [hrefused]
      exact h
    · generalize g.step (.offer sender o quorate quorateTime) = g' at hears ⊢
      cases hears with
      | merged n killed _ _ _ hnode _ =>
        refine ⟨h.run, fun node o ho => h.held node o ?_⟩
        rwa [offer?_insert_killed hnode] at ho
      | held n hfit _ _ _ =>
        refine ⟨h.adopt hfit, fun node o' ho => ?_⟩
        rw [offer?_insert] at ho
        split at ho
        · obtain rfl : o = o' := Option.some.inj ho
          exact ⟨hfit.1, hfit.2.1, hfit.2.2.1⟩
        · exact h.held node o' ho
  | proposes =>
    rw [DaemonGroup.step, propose_fst]
    exact ⟨h.run, h.held⟩
  | stateful => exact ⟨h.run, h.held⟩

theorem sound_play (us : NodeId) (max : Version) (inputs : List DaemonGroupInput) :
    ((new us max).play inputs).Sound := by
  induction inputs using List.reverseRecOn with
  | nil => exact sound_new us max
  | append_singleton inputs i ih =>
    rw [play_append_singleton]
    exact ih.step i

/-- Every member was heard, and there is one. -/
theorem allHeard_iff : g.allHeard = true ↔
    g.members ≠ [] ∧ ∀ node ∈ g.members, (g.offer? node).isSome = true := by
  simp [allHeard]

/-- The highest version that a node announced. -/
def highest (g : DaemonGroup) (node : NodeId) : Version :=
  ((g.offer? node).map (·.max)).getD {}

theorem highest_of_offer? {node : NodeId} {o : Offer} (ho : g.offer? node = some o) :
    g.highest node = o.max := by
  rw [highest, ho, Option.map_some, Option.getD_some]

/-- Whoever may propose has a version to propose, and that is the least of the highest ones. -/
theorem Sound.lowestVersion (h : g.Sound) (hheard : g.allHeard = true) :
    ∃ least, g.lowestVersion = .ok least ∧ least.flags = 0 ∧
      least.LeastOf (g.members.map g.highest) := by
  obtain ⟨hne, hall⟩ := allHeard_iff.1 hheard
  have hoffer (node : NodeId) (hnode : node ∈ g.members) :
      ∃ o, g.offer? node = some o ∧ o.max = g.highest node := by
    obtain ⟨o, ho⟩ := Option.isSome_iff_exists.1 (hall node hnode)
    exact ⟨o, ho, (highest_of_offer? ho).symm⟩
  have hpositive : ∀ v ∈ g.members.map g.highest, v.Positive := by
    intro v hv
    obtain ⟨node, hnode, rfl⟩ := List.mem_map.1 hv
    obtain ⟨o, ho, hmax⟩ := hoffer node hnode
    rw [← hmax]
    exact h.held node o ho
  exact lowestVersion_eq_ok (highestVersions_eq_ok hoffer) (List.map_eq_nil_iff.not.2 hne) hpositive

theorem propose_of_not_mayPropose (h : g.mayPropose = false) : g.propose.2 = .ok none := by
  unfold propose
  rw [if_neg (by simp [h])]

theorem Sound.propose_of_mayPropose (h : g.Sound) (hmay : g.mayPropose = true) :
    ∃ least, g.propose.2 = .ok (some { max := g.ours.max, run := least }) := by
  have hheard : g.allHeard = true := by
    unfold mayPropose at hmay
    simp_all
  obtain ⟨least, hleast, -⟩ := h.lowestVersion hheard
  refine ⟨least, ?_⟩
  unfold propose
  rw [if_pos hmay, hleast]
  rfl

/-- That we have proposed is not forgotten. -/
theorem proposed_step (h : g.proposed = true) (i : DaemonGroupInput) :
    (g.step i).proposed = true := by
  cases i with
  | membership members joined now => exact h
  | offer sender o quorate quorateTime =>
    obtain ⟨-, hrefused⟩ | ⟨verdict, hears⟩ := g.hears_step sender o quorate quorateTime
    · rwa [hrefused]
    · rw [hears.kept.2.2.1, h]
  | proposes => rw [step, propose_fst, h, Bool.true_or]
  | stateful => exact h

theorem proposed_play (h : g.proposed = true) (inputs : List DaemonGroupInput) :
    (g.play inputs).proposed = true := by
  induction inputs using List.reverseRecOn with
  | nil => exact h
  | append_singleton inputs i ih =>
    rw [play_append_singleton]
    exact proposed_step ih i

theorem running?_eq_some_iff {v : Version} :
    g.running? = some v ↔ g.ours.run.isSet = true ∧ g.ours.run = v := by
  unfold running?
  split <;> simp_all

/-- After every run, a version that is running has no zero in it, and its numbers stay whatever
    happens later; the flag of a daemon with state stays as well, also while no version is running.
    A call for a proposal does not fail, and it brings one only while no version is running and an
    offer is held from every member; from then on no call brings another. -/
theorem settled_play (us : NodeId) (max : Version) (inputs : List DaemonGroupInput) :
    let g := (new us max).play inputs
    (∀ v, g.running? = some v → (v.major ≠ 0 ∧ v.minor ≠ 0 ∧ v.patch ≠ 0) ∧
      ∀ more, ∃ w, (g.play more).running? = some w ∧
        w.major = v.major ∧ w.minor = v.minor ∧ w.patch = v.patch) ∧
    (g.ours.run.isStateful = true → ∀ more, (g.play more).ours.run.isStateful = true) ∧
    ∃ proposal?, g.propose.2 = .ok proposal? ∧
      ∀ o, proposal? = some o →
        g.running? = none ∧ g.members ≠ [] ∧
          (∀ node ∈ g.members, (g.offer? node).isSome = true) ∧
          ∀ more, (g.propose.1.play more).propose.2 = .ok none := by
  intro g
  have hsound : g.Sound := sound_play us max inputs
  refine ⟨fun v hv => ?_, fun hstate more => (g.settles_play more).stateful hstate, ?_⟩
  · obtain ⟨hset, rfl⟩ := running?_eq_some_iff.1 hv
    refine ⟨hsound.run hset, fun more => ?_⟩
    have hnumbers := (g.settles_play more).numbers hset
    refine ⟨(g.play more).ours.run, running?_eq_some_iff.2 ⟨?_, rfl⟩,
      Version.numbers_eq_iff.1 hnumbers⟩
    rw [Version.isSet_of_numbers hnumbers, hset]
  · cases hmay : g.mayPropose with
    | false => exact ⟨none, propose_of_not_mayPropose hmay, by simp⟩
    | true =>
      obtain ⟨least, hproposal⟩ := hsound.propose_of_mayPropose hmay
      have hproposed : g.propose.1.proposed = true := by rw [propose_fst, hmay, Bool.or_true]
      simp only [mayPropose, Bool.and_eq_true, Bool.not_eq_true'] at hmay
      obtain ⟨⟨hunset, -⟩, hheard⟩ := hmay
      obtain ⟨hne, hall⟩ := allHeard_iff.1 hheard
      refine ⟨_, hproposal, fun o _ => ⟨?_, hne, hall, fun more => ?_⟩⟩
      · rw [running?, hunset]
        rfl
      · apply propose_of_not_mayPropose
        rw [mayPropose, proposed_play hproposed, Bool.not_true, Bool.and_false, Bool.false_and]

/-- Node 1 of the pair that merges back is asked for its proposal before a version is running, and
    again once it has heard its own. It keeps the version and its state when node 2 goes and comes
    back. -/
theorem settled_play_mergesBack :
    ((new 1 .highest).play (mergesBack.take 3)).propose.2 =
        .ok (some { max := .highest, run := .highest }) ∧
      (((new 1 .highest).play (mergesBack.take 3)).propose.1.play (mergesBack.drop 4)).propose.2 =
        .ok none ∧
      ((new 1 .highest).play (mergesBack.take 6)).running? =
        some { Version.highest with flags := Version.statefulFlag } ∧
      (∃ w, (((new 1 .highest).play (mergesBack.take 6)).play (mergesBack.drop 6)).running? =
          some w ∧ w.major = 1 ∧ w.minor = 1 ∧ w.patch = 1) ∧
      (((new 1 .highest).play (mergesBack.take 6)).play
        (mergesBack.drop 6)).ours.run.isStateful = true := by
  have hproposal : ((new 1 .highest).play (mergesBack.take 3)).propose.2 =
      .ok (some { max := .highest, run := .highest }) := by decide +kernel
  have hruns : ((new 1 .highest).play (mergesBack.take 6)).running? =
      some { Version.highest with flags := Version.statefulFlag } := by decide +kernel
  have hstateful : ((new 1 .highest).play (mergesBack.take 6)).ours.run.isStateful = true := by
    decide +kernel
  obtain ⟨-, -, proposal?, hcall, honce⟩ := settled_play 1 .highest (mergesBack.take 3)
  obtain ⟨hkept, hstate, -⟩ := settled_play 1 .highest (mergesBack.take 6)
  obtain rfl : some _ = proposal? := Except.ok.inj (hproposal.symm.trans hcall)
  exact ⟨hproposal, (honce _ rfl).2.2.2 _, hruns, (hkept _ hruns).2 _, hstate hstateful _⟩

end DaemonGroup

end ClusterFence
