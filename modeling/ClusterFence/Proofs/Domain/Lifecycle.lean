import ClusterFence.Proofs.Domain.Turns

namespace ClusterFence.Domain

/-- A membership change comes between fencing runs, and the end of a run during one. -/
def InTurn (d : Domain) : DomainInput → Prop
  | .membership _ => d.fencing = false
  | .finished => d.fencing = true
  | _ => True

/-- How far the changes have got, and what of that fencing tells. -/
structure Lifecycle (d : Domain) : Prop where
  fencing_iff :
    d.fencing = true ↔ ∃ c, d.changes.current? = some c ∧ c.phase = .awaitingFencing
  older : ∀ c ∈ d.changes.pending.tail, c.phase ≠ .awaitingFencing
  allStarted : d.fencing = true → ∀ c, d.changes.current? = some c → c.allStarted = true
  sentStart_iff :
    ∀ c ∈ d.changes.pending, c.sentStart = true ↔ c.phase ≠ .awaitingConditions

theorem Lifecycle.of_pending_nil {d : Domain} (hfencing : d.fencing = false)
    (hpending : d.changes.pending = []) : d.Lifecycle where
  fencing_iff := by simp [hfencing, ChangeQueue.current?, hpending]
  older := by simp [hpending]
  allStarted := by simp [hfencing]
  sentStart_iff := by simp [hpending]

theorem lifecycle_new (config : Config) : (new config).Lifecycle := by
  unfold new
  split <;> exact .of_pending_nil rfl rfl

section

variable {d d' : Domain}

/-- Nothing but the fencing flag and the pending changes matters. -/
theorem Lifecycle.of_pending_eq (hl : d.Lifecycle) (hfencing : d'.fencing = d.fencing)
    (hpending : d'.changes.pending = d.changes.pending) : d'.Lifecycle where
  fencing_iff := by
    rw [hfencing, ChangeQueue.current?, hpending]
    exact hl.fencing_iff
  older := by
    rw [hpending]
    exact hl.older
  allStarted := by
    rw [hfencing, ChangeQueue.current?, hpending]
    exact hl.allStarted
  sentStart_iff := by
    rw [hpending]
    exact hl.sentStart_iff

/-- The current changes of a domain and of what has become of it are as far as each other. -/
theorem Touched.current?_mark (h : Touched d d') {c' : Change}
    (hcurrent : d'.changes.current? = some c') :
    ∃ c, d.changes.current? = some c ∧ c'.mark = c.mark ∧
      (c.allStarted = true → c'.allStarted = true) := by
  obtain ⟨c, hc, hstarted⟩ := h.started c' hcurrent
  refine ⟨c, hc, ?_, hstarted⟩
  have hmarks := h.marks
  rw [ChangeQueue.pending_of_current? hcurrent, ChangeQueue.pending_of_current? hc] at hmarks
  exact (List.cons.inj hmarks).1

theorem Touched.current?_isSome (h : Touched d d') :
    d'.changes.current?.isSome = d.changes.current?.isSome := by
  have hlength := congrArg List.length h.marks
  simp only [List.length_map] at hlength
  unfold ChangeQueue.current?
  cases hp : d.changes.pending <;> cases hp' : d'.changes.pending <;> simp_all

theorem Lifecycle.touched (hl : d.Lifecycle) (h : Touched d d') : d'.Lifecycle where
  fencing_iff := by
    rw [h.fencing, hl.fencing_iff]
    constructor
    · rintro ⟨c, hc, hphase⟩
      have hsome := h.current?_isSome
      rw [hc, Option.isSome_some, Option.isSome_iff_exists] at hsome
      obtain ⟨c', hc'⟩ := hsome
      obtain ⟨c₀, hc₀, hmark, -⟩ := h.current?_mark hc'
      rw [hc, Option.some.injEq] at hc₀
      refine ⟨c', hc', ?_⟩
      rw [← hphase, hc₀]
      exact congrArg (·.2.1) hmark
    · rintro ⟨c', hc', hphase⟩
      obtain ⟨c, hc, hmark, -⟩ := h.current?_mark hc'
      refine ⟨c, hc, ?_⟩
      rw [← hphase]
      exact (congrArg (·.2.1) hmark).symm
  older := by
    intro c' hc'
    have hmarks := congrArg List.tail h.marks
    rw [← List.map_tail, ← List.map_tail] at hmarks
    obtain ⟨c, hc, hmark⟩ := exists_mem_of_map_eq hmarks hc'
    have hphase : c.phase = c'.phase := congrArg (·.2.1) hmark
    rw [← hphase]
    exact hl.older c hc
  allStarted := by
    intro hfencing c' hc'
    obtain ⟨c, hc, -, hstarted⟩ := h.current?_mark hc'
    exact hstarted (hl.allStarted (h.fencing ▸ hfencing) c hc)
  sentStart_iff := by
    intro c' hc'
    obtain ⟨c, hc, hmark⟩ := exists_mem_of_map_eq h.marks hc'
    have hphase : c.phase = c'.phase := congrArg (·.2.1) hmark
    have hsent : c.sentStart = c'.sentStart := congrArg (·.2.2) hmark
    rw [← hphase, ← hsent]
    exact hl.sentStart_iff c hc

/-- A change that is not fenced for keeps the domain from being stuck. -/
theorem Lifecycle.not_awaitingFencing (hl : d.Lifecycle) (hfencing : d.fencing = false)
    {c : Change} (hc : d.changes.current? = some c) : c.phase ≠ .awaitingFencing := by
  intro hphase
  have := hl.fencing_iff.2 ⟨c, hc, hphase⟩
  simp_all

/-- The current change moves to a phase after its START was sent, and is fenced for from then on or
    not. -/
theorem Lifecycle.updateCurrent (hl : d.Lifecycle) {c : Change} {f : Change → Change}
    (hc : d.changes.current? = some c) (hchanges : d'.changes = d.changes.updateCurrent f)
    (hsent : (f c).sentStart = true) (hphase : (f c).phase ≠ .awaitingConditions)
    (hfencing : d'.fencing = true ↔ (f c).phase = .awaitingFencing)
    (hstarted : d'.fencing = true → (f c).allStarted = true) : d'.Lifecycle := by
  have hpending : d'.changes.pending = f c :: d.changes.pending.tail := by
    rw [hchanges, ChangeQueue.pending_updateCurrent hc]
  have hcurrent : d'.changes.current? = some (f c) := by
    rw [ChangeQueue.current?, hpending, List.head?_cons]
  refine ⟨?_, ?_, ?_, ?_⟩
  · simp [hcurrent, hfencing]
  · rw [hpending]
    exact hl.older
  · intro hf c' hc'
    rw [hcurrent, Option.some.injEq] at hc'
    exact hc' ▸ hstarted hf
  · intro c' hc'
    rw [hpending, List.mem_cons] at hc'
    obtain rfl | hc' := hc'
    · simp [hsent, hphase]
    · exact hl.sentStart_iff c' (List.mem_of_mem_tail hc')

theorem Lifecycle.advance (hl : d.Lifecycle) : d.advance.domain.Lifecycle := by
  obtain h | ⟨c, hfencing, hc, hphase, -⟩ | ⟨c, hfencing, hc, hphase, -, h⟩ |
    ⟨c, hfencing, hc, hphase, hstarted, h⟩ := d.advance_cases
  · rw [h]
    exact hl
  · exact absurd hphase (hl.not_awaitingFencing hfencing hc)
  · rw [h]
    refine hl.updateCurrent hc rfl rfl (by simp) ?_ ?_ <;> simp [sendStart, hfencing]
  · have hsent : c.sentStart = true :=
      (hl.sentStart_iff c (ChangeQueue.current?_mem hc)).2 (by simp [hphase])
    rw [h]
    unfold settle
    dsimp only
    split
    · exact hl.updateCurrent hc rfl hsent (by simp) (by simp) fun _ => hstarted
    · exact .of_pending_nil hfencing (ChangeQueue.pending_retire _)

theorem Lifecycle.queued (hl : d.Lifecycle) (hfencing : d.fencing = false) {c : Change}
    (hmark : c.phase = .awaitingConditions ∧ c.sentStart = false)
    (hf : d'.fencing = d.fencing) (hpending : d'.changes.pending = c :: d.changes.pending) :
    d'.Lifecycle where
  fencing_iff := by simp [hf, hfencing, ChangeQueue.current?, hpending, hmark.1]
  older := by
    rw [hpending, List.tail_cons]
    intro c' hc'
    cases hold : d.changes.pending with
    | nil => simp [hold] at hc'
    | cons newest older =>
      rw [hold, List.mem_cons] at hc'
      obtain rfl | hc' := hc'
      · exact hl.not_awaitingFencing hfencing (by simp [ChangeQueue.current?, hold])
      · exact hl.older c' (by simpa [hold] using hc')
  allStarted := by simp [hf, hfencing]
  sentStart_iff := by
    intro c' hc'
    rw [hpending, List.mem_cons] at hc'
    obtain rfl | hc' := hc'
    · simp [hmark]
    · exact hl.sentStart_iff c' hc'

/-- What comes in turn keeps the lives of the changes in order. -/
theorem Lifecycle.turn (hl : d.Lifecycle) {i : DomainInput} {r : Reaction} (hturn : d.InTurn i)
    (h : Turn d i r) : r.domain.Lifecycle := by
  cases h with
  | stays touched => exact hl.touched touched
  | getsOn touched _ domain =>
    rw [domain]
    exact (hl.touched touched).advance
  | refused fencing changes =>
    exact hl.of_pending_eq fencing (by rw [changes])
  | queued fencing changes mark domain =>
    rw [domain]
    simp only [Change.mark, Prod.mk.injEq] at mark
    refine (hl.queued hturn mark.2 fencing ?_).advance
    rw [changes]
  | finished =>
    have hfencing : d.fencing = true := hturn
    simp only [finishFencing, hfencing, if_true]
    exact .of_pending_nil rfl (ChangeQueue.pending_retire _)

/-- All inputs of a run come in turn. -/
def PlaysInTurn (d : Domain) : List (Seconds × DomainInput) → Prop
  | [] => True
  | (now, i) :: rest => d.InTurn i ∧ (d.step now i).1.domain.PlaysInTurn rest

theorem Lifecycle.play (hl : d.Lifecycle) {inputs : List (Seconds × DomainInput)}
    (hturns : d.PlaysInTurn inputs) : (d.play inputs).Lifecycle := by
  induction inputs generalizing d with
  | nil => exact hl
  | cons timed rest ih =>
    obtain ⟨hturn, hrest⟩ := hturns
    exact ih (hl.turn hturn (d.turn_step timed.1 timed.2)) hrest

/-- As long as inputs come in turn, the log is never told that a change is stuck in a phase or that
    a run has ended that was not outstanding. -/
theorem Lifecycle.not_outOfTurn (hl : d.Lifecycle) {i : DomainInput} {r : Reaction}
    (hturn : d.InTurn i) (h : Turn d i r) : ∀ n ∈ r.notices, ¬ n.OutOfTurn := by
  have hadvance {d' : Domain} (hl : d'.Lifecycle) {n : Notice} (hn : n ∈ d'.advance.notices) :
      ¬ n.OutOfTurn := by
    obtain h | ⟨c, hfencing, hc, hphase, -⟩ | ⟨c, -, -, -, -, h⟩ | ⟨c, -, -, -, -, h⟩ :=
      d'.advance_cases
    · simp [h] at hn
    · exact absurd hphase (hl.not_awaitingFencing hfencing hc)
    · simp [h, sendStart] at hn
    · rw [h] at hn
      unfold settle at hn
      dsimp only at hn
      split at hn
      · simp at hn
      · split at hn <;> simp at hn
        rw [hn]
        exact id
  cases h with
  | stays _ _ _ notices => exact notices
  | getsOn touched _ _ _ notices =>
    exact fun n hn => (notices n hn).elim (hadvance (hl.touched touched)) id
  | refused _ _ _ notices => exact notices
  | queued fencing changes mark _ _ notices =>
    simp only [Change.mark, Prod.mk.injEq] at mark
    have hqueued := hl.queued hturn mark.2 fencing (by rw [changes])
    exact fun n hn => (notices n hn).elim (hadvance hqueued) id
  | finished =>
    have hfencing : d.fencing = true := hturn
    simp [finishFencing, hfencing]

end

end ClusterFence.Domain
