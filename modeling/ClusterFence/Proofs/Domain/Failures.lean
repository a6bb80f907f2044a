import ClusterFence.Fencing.Run
import ClusterFence.Proofs.Changes
import ClusterFence.Proofs.Domain.Forgetting

namespace ClusterFence

/-- A run that turns to a victim goes by whether it was dealt with: it tries to fence an open one,
    and passes over a closed one. -/
theorem FencingRun.choose_eq {run : FencingRun} {s : Surroundings} {node : NodeId}
    (hnodup : s.victims.ids.Nodup) (hvictim : node ∈ s.victims.ids) (hfresh : node ∉ run.resolved)
    (rest : List NodeId) : ∃ name, run.choose s node rest =
      if s.victims.isOpen node = true then
        (run.goTo (.trying { victim := node, name } rest), [])
      else (run.goTo (.choosing rest), [.notice (.victimResolvedBefore node)]) := by
  obtain ⟨victim, hget⟩ := Victims.get?_isSome_of_mem_ids hvictim
  have hfind : (run.unresolved s).find? (·.node == node) = some victim := by
    unfold unresolved
    rw [List.find?_filter]
    refine Eq.trans (congrArg (fun p => s.victims.toList.find? p) (funext fun other => ?_)) hget
    cases hother : other.node == node with
    | false => simp
    | true => simpa [eq_of_beq hother] using hfresh
  refine ⟨victim.name, ?_⟩
  rw [(Victims.isOpen_eq_not_isClosed hnodup hget).1]
  unfold choose
  rw [hfind]
  cases hresolved : victim.resolvedHere <;> simp [hresolved]

namespace Domain

/-- A membership change that is taken up makes victims of the nodes that failed, and closes no
    victim and opens none. -/
theorem changeMembers_failed {d : Domain} {m : Membership} {now : Seconds}
    (haccepted : (d.changeMembers m now).2 = none)
    (hstays : (d.leaving && m.left.any (·.node == d.us)) = false) :
    let after := (d.changeMembers m now).1.domain
    (∀ a ∈ m.left, a.reason.isFailure = true → a.node ∈ after.victims.ids) ∧
      ∀ node, after.victims.isClosed node = d.victims.isClosed node := by
  unfold changeMembers at haccepted ⊢
  rw [hstays] at haccepted ⊢
  cases hstray : m.stray? with
  | some node => simp [ChangeQueue.add, hstray] at haccepted
  | none =>
    simp only [ChangeQueue.add, hstray, Bool.false_eq_true, if_false, Reaction.after,
      advance_victims]
    obtain ⟨initial, _, h⟩ := addVictims_eq
      { d with
        changes := (d.changes.add d.us m d.history now).queue
        history := (d.changes.add d.us m d.history now).history }
      (.ofMembership (d.changes.changeSeq + 1) d.us m now)
    simp only [ChangeQueue.add, hstray] at h
    rw [h]
    constructor
    · intro a ha hfailure
      refine Victims.mem_ids_addInitial (Victims.mem_ids_addFailed.2 (.inr ?_)) _ _ _
      exact Change.mem_failedNodes_ofMembership.2 ⟨a, ha, hfailure, rfl⟩
    · intro node
      rw [Victims.isClosed_addInitial, Victims.isClosed_addFailed]

/-- In every run a membership change that is taken up makes a victim of each node that failed. The
    victim is open exactly when the node was not a victim that had been dealt with here before, and
    only then does the next fencing run try to fence it. -/
theorem failed_isOpen_iff (config : Config) (inputs : List (Seconds × DomainInput))
    (m : Membership) (now : Seconds) :
    let d := (new config).play inputs
    let after := (d.changeMembers m now).1.domain
    (d.changeMembers m now).2 = none → (d.leaving && m.left.any (·.node == d.us)) = false →
    ∀ a ∈ m.left, a.reason.isFailure = true →
      after.victims.contains a.node = true ∧
      (after.victims.isOpen a.node = true ↔ d.victims.isClosed a.node = false) ∧
      ∀ (run : FencingRun) (s : Surroundings) (rest : List NodeId),
        s.victims = after.victims → a.node ∉ run.resolved → ∃ name, run.choose s a.node rest =
          if d.victims.isClosed a.node = false then
            (run.goTo (.trying { victim := a.node, name } rest), [])
          else (run.goTo (.choosing rest), [.notice (.victimResolvedBefore a.node)]) := by
  intro d after haccepted hstays a ha hfailure
  obtain ⟨hfailed, hclosed⟩ := changeMembers_failed haccepted hstays
  have hmem : a.node ∈ after.victims.ids := hfailed a ha hfailure
  have hnodup : after.victims.ids.Nodup :=
    (d.changeMembers_victims m now).2 (nodup_ids_play config inputs)
  have hopen : after.victims.isOpen a.node = true ↔ d.victims.isClosed a.node = false := by
    obtain ⟨victim, hget⟩ := Victims.get?_isSome_of_mem_ids hmem
    obtain ⟨hisOpen, hisClosed⟩ := Victims.isOpen_eq_not_isClosed hnodup hget
    rw [← hclosed a.node, hisOpen, hisClosed]
    simp
  refine ⟨Victims.contains_eq_true_iff.2 hmem, hopen, ?_⟩
  intro run s rest hs hfresh
  rw [← hs] at hnodup hmem
  obtain ⟨name, hchoose⟩ := FencingRun.choose_eq hnodup hmem hfresh rest
  refine ⟨name, hchoose.trans ?_⟩
  rw [hs]
  simp only [hopen]

section

/-- Node 2 of the pair is fenced here after its failure, and comes back before our report about it
    does. -/
def rejoinedBeforeReport : List (Seconds × DomainInput) :=
  let message (sender : NodeId) (m : Message) : DomainInput := .message ⟨{ sender }, m⟩
  let alone : ChangeReport :=
    { seq := 2
      summary := { startedCount := 1, counts := { members := 1, removed := 1, failed := 1 } }
      entries := [{ node := 1, flags := 1 }] }
  failureAfterComplete ++
    [(17, message 1 (.start alone)), (18, .resolved 2 .agent false), (19, .finished),
     (20, .membership { members := [⟨1, .join⟩, ⟨2, .join⟩], left := [], joined := [⟨2, .join⟩] })]

/-- Node 2 fails. -/
def secondFails : Membership where
  members := [⟨1, .join⟩]
  left := [⟨2, .nodeDown⟩]
  joined := []

/-- The victim of the first failure is a victim still when its node fails for the second time. -/
theorem failed_isOpen_iff_rejoinedBeforeReport :
    let d := (new pairConfig).play rejoinedBeforeReport
    let after := (d.changeMembers secondFails 21).1.domain
    (d.changeMembers secondFails 21).2 = none ∧
      (d.leaving && secondFails.left.any (·.node == d.us)) = false ∧
      after.victims.contains 2 = true ∧
      (after.victims.isOpen 2 = true ↔ d.victims.isClosed 2 = false) := by
  have haccepted :
      (((new pairConfig).play rejoinedBeforeReport).changeMembers secondFails 21).2 = none := by
    decide +kernel
  have hstays : (((new pairConfig).play rejoinedBeforeReport).leaving &&
      secondFails.left.any (·.node == ((new pairConfig).play rejoinedBeforeReport).us)) =
        false := by decide +kernel
  have h := failed_isOpen_iff pairConfig rejoinedBeforeReport secondFails 21 haccepted hstays
    ⟨2, .nodeDown⟩ List.mem_cons_self rfl
  exact ⟨haccepted, hstays, h.1, h.2.1⟩

/-- A failure can go unfenced: a node that was fenced here, came back and failed again before our
    report came back is left as the victim that was dealt with, and that report forgets it. -/
theorem refailed_victim_stays_closed :
    ¬ ∀ (config : Config) (inputs : List (Seconds × DomainInput)) (m : Membership) (now : Seconds)
        (a : GroupAddress),
        (((new config).play inputs).changeMembers m now).2 = none →
        ((new config).play inputs).leaving = false → a ∈ m.left → a.reason.isFailure = true →
        (((new config).play inputs).changeMembers m now).1.domain.victims.isOpen a.node =
          true := by
  intro hfenced
  have h := hfenced pairConfig rejoinedBeforeReport secondFails 21 ⟨2, .nodeDown⟩
    (by decide +kernel) (by decide +kernel) List.mem_cons_self rfl
  exact absurd h (by decide +kernel)

end

end Domain

end ClusterFence
