import ClusterFence.Proofs.Domain.Reports
import ClusterFence.Proofs.Domain.Taken
import ClusterFence.Proofs.Echo.Membership

namespace ClusterFence

theorem ChangeQueue.map_updateCurrent {α : Type} {g : Change → α} {f : Change → Change}
    (hf : ∀ c, g (f c) = g c) (q : ChangeQueue) :
    (q.updateCurrent f).pending.map g = q.pending.map g := by
  unfold updateCurrent
  split
  · rfl
  · rename_i hpending
    rw [hpending, List.map_cons, List.map_cons, hf]

namespace Domain

theorem accept_of_start {d : Domain} {e : Envelope} {s : ReceivedStart} (hstart : e.start? = some s)
    (now : Seconds) : d.accept e now = d.receiveStart s now := by
  unfold Envelope.start? at hstart
  unfold accept
  cases hmessage : e.message <;> simp [hmessage] at hstart
  rw [← hstart]

/-- A message that is no START leaves the changes as they are. -/
theorem accept_of_not_start {d : Domain} {e : Envelope} (hnone : e.start? = none) (now : Seconds) :
    (d.accept e now).1.changes = d.changes ∧ (d.accept e now).1.fencing = d.fencing := by
  unfold Envelope.start? at hnone
  unfold accept
  cases hmessage : e.message with
  | protocol offer => exact ⟨rfl, rfl⟩
  | start report => simp [hmessage] at hnone
  | victimDone seq entry =>
    obtain ⟨_, h⟩ := d.receiveVictimDone_eq e.header.sender entry now
    dsimp only
    rw [h]
    exact ⟨rfl, rfl⟩
  | complete report =>
    dsimp only [receiveComplete]
    split <;> exact ⟨rfl, rfl⟩
  | external victim => exact ⟨rfl, rfl⟩

/-- A view of the changes that does not look at how far they have got sees the same after getting
    on, unless all of them are done with. -/
theorem map_advance {α : Type} {g : Change → α}
    (hg : ∀ c phase sentStart, g { c with phase, sentStart } = g c) (d : Domain) :
    (d.advance.domain.changes.pending.map g = d.changes.pending.map g ∧
        d.advance.domain.changes.startedCount = d.changes.startedCount) ∨
      d.advance.domain.changes.pending = [] := by
  obtain h | ⟨c, -, -, -, h⟩ | ⟨c, -, -, -, -, h⟩ | ⟨c, -, -, -, -, h⟩ := d.advance_cases
  · exact .inl (by simp [h])
  · exact .inl (by simp [h])
  · rw [h]
    exact .inl ⟨ChangeQueue.map_updateCurrent (fun c => hg c _ _) _, startedCount_updateCurrent _ _⟩
  · rw [h]
    unfold settle
    dsimp only
    split
    · exact .inl ⟨ChangeQueue.map_updateCurrent (fun c => hg c _ c.sentStart) _,
        startedCount_updateCurrent _ _⟩
    · exact .inr (ChangeQueue.pending_retire _)

/-- The membership change is the end of our own leave. -/
def endsLeave (d : Domain) (m : Membership) : Bool := d.leaving && m.left.any (·.node == d.us)

/-- A membership change in which nobody strays is taken up, unless it is the end of our leave. -/
theorem changeMembers_of_stray_none {d : Domain} {m : Membership} (hstray : m.stray? = none)
    (now : Seconds) : (d.changeMembers m now).1.domain =
      if d.endsLeave m = true then d else (d.told m now).advance.domain := by
  unfold changeMembers ChangeQueue.add endsLeave
  rw [hstray]
  split <;> rfl

/-- What an input makes of the changes of a domain. -/
inductive Uptake (d : Domain) (now : Seconds) : DomainInput → Domain → Prop
  | stays {i} {d' : Domain} (other : ∀ m, i ≠ .membership m) (fencing : d'.fencing = d.fencing)
      (changes : d'.changes = d.changes) : Uptake d now i d'
  | getsOn {i} {d' : Domain} (other : ∀ m, i ≠ .membership m) (fencing : d'.fencing = d.fencing)
      (changes : d'.changes = d.changes) : Uptake d now i d'.advance.domain
  | starts {e s} (start : e.start? = some s) :
      Uptake d now (.message e) (d.receiveStart s now).1.advance.domain
  | left {m} (leave : d.endsLeave m = true) : Uptake d now (.membership m) d
  | refused {m} {d' : Domain} (leave : d.endsLeave m = false) (stray : m.stray?.isSome = true)
      (fencing : d'.fencing = d.fencing)
      (changes : d'.changes = { d.changes with changeSeq := d.changes.changeSeq + 1 }) :
      Uptake d now (.membership m) d'
  | queued {m} (leave : d.endsLeave m = false) (stray : m.stray? = none) :
      Uptake d now (.membership m) (d.told m now).advance.domain
  | finished : Uptake d now .finished d.finishFencing.domain

theorem uptake_changeMembers (d : Domain) (m : Membership) (now : Seconds) :
    Uptake d now (.membership m) (d.changeMembers m now).1.domain := by
  unfold changeMembers
  cases hleave : d.leaving && m.left.any (·.node == d.us) with
  | true => exact .left hleave
  | false =>
    unfold ChangeQueue.add
    cases hstray : m.stray? with
    | some node => exact .refused hleave (by simp [hstray]) rfl rfl
    | none => exact .queued hleave hstray

/-- Every input is taken up in one of these ways. -/
theorem uptake_step (d : Domain) (now : Seconds) (i : DomainInput) :
    Uptake d now i (d.step now i).1.domain := by
  cases i with
  | membership m => exact d.uptake_changeMembers m now
  | ring node seq => exact .getsOn (by simp) rfl rfl
  | cluster s => exact .getsOn (by simp) rfl rfl
  | message e =>
    simp only [step, receive, Reaction.after]
    cases hstart : e.start? with
    | none =>
      obtain ⟨hchanges, hfencing⟩ := d.accept_of_not_start hstart now
      exact .getsOn (by simp) hfencing hchanges
    | some s =>
      rw [accept_of_start hstart]
      exact .starts hstart
  | fencedOutside reporter victim => exact .stays (by simp) rfl rfl
  | tellExternal victim => exact .stays (by simp) rfl rfl
  | attempted victim => exact .stays (by simp) rfl rfl
  | resolved victim how reduced =>
    simp only [step, resolve_domain]
    exact .stays (by simp) rfl rfl
  | finished => exact .finished
  | nudged => exact .getsOn (by simp) rfl rfl
  | leaving => exact .stays (by simp) rfl rfl

theorem numbered_advance {d : Domain} (h : d.changes.Numbered) :
    d.advance.domain.changes.Numbered := by
  obtain ⟨hseqs, -⟩ | hnil := d.map_advance (g := (·.seq)) fun _ _ _ => rfl
  · exact h.of_seqs d.changeSeq_advance hseqs
  · exact .of_pending_nil hnil

/-- The pending changes stay in order as long as there is a number for the next one. -/
theorem Uptake.numbered {d d' : Domain} {now : Seconds} {i : DomainInput}
    (huptake : Uptake d now i d') (h : d.changes.Numbered)
    (hroom : d.changes.changeSeq.toNat + i.isMembership.toNat < UInt32.size) :
    d'.changes.Numbered := by
  cases huptake with
  | stays _ _ changes => rwa [changes]
  | getsOn _ _ changes =>
    rw [← changes] at h
    exact numbered_advance h
  | @starts e s _ =>
    have htouched := d.touched_receiveStart s now
    have hseqs := congrArg (List.map (·.1)) htouched.marks
    rw [List.map_map, List.map_map] at hseqs
    exact numbered_advance (h.of_seqs htouched.changeSeq hseqs)
  | left _ => exact h
  | refused _ _ _ changes =>
    rw [changes]
    exact h.next hroom (.inl rfl)
  | @queued m _ _ =>
    have htold : (d.told m now).changes.Numbered := by
      rw [told_changes]
      exact h.next hroom (.inr rfl)
    exact numbered_advance htold
  | finished =>
    unfold finishFencing
    split
    · exact .of_pending_nil (ChangeQueue.pending_retire _)
    · exact h

theorem numbered_step {d : Domain} (h : d.changes.Numbered) {now : Seconds} {i : DomainInput}
    (hroom : d.changes.changeSeq.toNat + i.isMembership.toNat < UInt32.size) :
    (d.step now i).1.domain.changes.Numbered :=
  (d.uptake_step now i).numbered h hroom

theorem countP_isMembership_cons (now : Seconds) (i : DomainInput)
    (rest : List (Seconds × DomainInput)) : ((now, i) :: rest).countP (·.2.isMembership) =
      rest.countP (·.2.isMembership) + i.isMembership.toNat := by
  rw [List.countP_cons]
  cases i.isMembership <;> rfl

/-- No more numbers are given out than there are membership changes. -/
theorem changeSeq_play_le (d : Domain) (inputs : List (Seconds × DomainInput)) :
    (d.play inputs).changes.changeSeq.toNat ≤
      d.changes.changeSeq.toNat + inputs.countP (·.2.isMembership) := by
  induction inputs generalizing d with
  | nil => exact Nat.le_refl _
  | cons timed rest ih =>
    obtain ⟨now, i⟩ := timed
    have hused := changeSeq_le_of_turn (d.turn_step now i)
    have hrest := ih (d.step now i).1.domain
    rw [countP_isMembership_cons]
    exact Nat.le_trans hrest (by omega)

/-- What inputs keep that find the changes in order, and a number for the next one, holds after a
    run in which the numbers have not come round. -/
theorem play_induction_numbered {P : Domain → Prop}
    (hstep : ∀ d now i, d.changes.Numbered →
      d.changes.changeSeq.toNat + i.isMembership.toNat < UInt32.size → P d →
        P (d.step now i).1.domain)
    {d : Domain} {inputs : List (Seconds × DomainInput)} (hnumbered : d.changes.Numbered)
    (hroom : d.changes.changeSeq.toNat + inputs.countP (·.2.isMembership) < UInt32.size)
    (h : P d) : (d.play inputs).changes.Numbered ∧ P (d.play inputs) := by
  induction inputs generalizing d with
  | nil => exact ⟨hnumbered, h⟩
  | cons timed rest ih =>
    obtain ⟨now, i⟩ := timed
    have hused := changeSeq_le_of_turn (d.turn_step now i)
    rw [countP_isMembership_cons] at hroom
    have hnext : d.changes.changeSeq.toNat + i.isMembership.toNat < UInt32.size := by omega
    exact ih (numbered_step hnumbered hnext) (by omega) (hstep d now i hnumbered hnext h)

theorem numbered_new (config : Config) : (new config).changes.Numbered :=
  .of_pending_nil (by rw [new_changes])

/-- No two pending changes have the same number, as long as the numbers have not come round. -/
theorem nodup_seq_play (config : Config) {inputs : List (Seconds × DomainInput)}
    (hroom : inputs.length < UInt32.size) :
    (((new config).play inputs).changes.pending.map (·.seq)).Nodup := by
  have hfew : (new config).changes.changeSeq.toNat + inputs.countP (·.2.isMembership) <
      UInt32.size := by
    have hcount := List.countP_le_length (p := fun timed => timed.2.isMembership) (l := inputs)
    rw [new_changes, UInt32.toNat_zero]
    omega
  obtain ⟨hplay, -⟩ := play_induction_numbered (P := fun _ => True) (fun _ _ _ _ _ _ => trivial)
    (numbered_new config) hfew trivial
  exact hplay.decreasing.imp fun hlt => (UInt32.ne_of_lt hlt).symm

/-- A run that does not bring the numbers of changes round leaves the current change a number of its
    own. -/
theorem awaitsStarts_play (config : Config) {inputs : List (Seconds × DomainInput)} {c : Change}
    (hroom : inputs.length < UInt32.size) (hidle : ((new config).play inputs).fencing = false)
    (hcurrent : ((new config).play inputs).changes.current? = some c)
    (hphase : c.phase = .awaitingStarts)
    (hknown : ∀ c' ∈ ((new config).play inputs).changes.pending, ∀ m ∈ c'.members,
      ((new config).play inputs).history.contains m.node = true) :
    ((new config).play inputs).AwaitsStarts c where
  idle := hidle
  current := hcurrent
  phase := hphase
  own old hold := by
    have hnodup := nodup_seq_play config hroom
    rw [ChangeQueue.pending_of_current? hcurrent, List.map_cons, List.nodup_cons] at hnodup
    intro heq
    exact hnodup.1 (heq ▸ List.mem_map_of_mem hold)
  known := hknown

end Domain

end ClusterFence
