import ClusterFence.Proofs.Domain.Lifecycle
import ClusterFence.Proofs.Queue

namespace ClusterFence

/-- The changes whose STARTs are among some actions, in order. -/
def Action.startSeqs (actions : List Action) : List UInt32 := actions.filterMap startSeq?

/-- The changes whose COMPLETEs are among some actions, in order. -/
def Action.completeSeqs (actions : List Action) : List UInt32 := actions.filterMap completeSeq?

namespace Action

theorem startSeqs_append (first later : List Action) :
    startSeqs (first ++ later) = startSeqs first ++ startSeqs later :=
  List.filterMap_append

theorem completeSeqs_append (first later : List Action) :
    completeSeqs (first ++ later) = completeSeqs first ++ completeSeqs later :=
  List.filterMap_append

theorem startSeqs_of_noReport {actions : List Action} (h : ∀ a ∈ actions, a.NoReport) :
    startSeqs actions = [] :=
  List.filterMap_eq_nil_iff.2 fun a ha => (h a ha).1

theorem completeSeqs_of_noReport {actions : List Action} (h : ∀ a ∈ actions, a.NoReport) :
    completeSeqs actions = [] :=
  List.filterMap_eq_nil_iff.2 fun a ha => (h a ha).2

theorem noReport_evict (nodes : List NodeId) : ∀ a ∈ nodes.map Action.evict, a.NoReport := by
  intro a ha
  obtain ⟨node, -, rfl⟩ := List.mem_map.1 ha
  exact ⟨rfl, rfl⟩

end Action

/-- A change by its number, and whether its START was sent. -/
def Change.sent (c : Change) : UInt32 × Bool := (c.seq, c.sentStart)

/-- The numbers of the changes that were started and completed so far are in keeping with those
    that are pending. All are numbered in the order in which they came. -/
structure ChangeQueue.Booked (q : ChangeQueue) (starts completes : List UInt32) : Prop where
  decreasing : (q.pending.map (·.seq)).Pairwise (· > ·)
  le_changeSeq : ∀ c ∈ q.pending, c.seq ≤ q.changeSeq
  starts_increasing : starts.Pairwise (· < ·)
  starts_le : ∀ seq ∈ starts, seq ≤ q.changeSeq
  starts_lt :
    ∀ c, q.current? = some c → c.sentStart = false → ∀ seq ∈ starts, seq < c.seq
  sentStart_iff : ∀ c ∈ q.pending, c.sentStart = true ↔ c.seq ∈ starts
  completes_increasing : completes.Pairwise (· < ·)
  completes_started : ∀ seq ∈ completes, seq ∈ starts
  completes_lt : ∀ seq ∈ completes, ∀ c ∈ q.pending, seq < c.seq

namespace ChangeQueue.Booked

variable {q q' : ChangeQueue} {starts completes : List UInt32}

theorem empty : Booked {} [] [] := by
  constructor <;> simp

/-- Members that start and phases that change do not matter. -/
theorem of_sent (hb : q.Booked starts completes) (hseq : q'.changeSeq = q.changeSeq)
    (hsent : q'.pending.map Change.sent = q.pending.map Change.sent) :
    q'.Booked starts completes := by
  have hold {c' : Change} (hc' : c' ∈ q'.pending) :
      ∃ c ∈ q.pending, c.seq = c'.seq ∧ c.sentStart = c'.sentStart := by
    have hmem : c'.sent ∈ q.pending.map Change.sent := hsent ▸ List.mem_map_of_mem hc'
    simpa [Change.sent] using hmem
  refine ⟨?_, ?_, hb.starts_increasing, ?_, ?_, ?_, hb.completes_increasing,
    hb.completes_started, ?_⟩
  · have hseqs := congrArg (List.map (·.1)) hsent
    simp only [List.map_map, Function.comp_def, Change.sent] at hseqs
    rw [hseqs]
    exact hb.decreasing
  · intro c' hc'
    obtain ⟨c, hc, hcseq, -⟩ := hold hc'
    rw [← hcseq, hseq]
    exact hb.le_changeSeq c hc
  · rw [hseq]
    exact hb.starts_le
  · intro c' hc' hunsent
    have hhead := congrArg List.head? hsent
    simp only [List.head?_map] at hhead
    rw [show q'.pending.head? = some c' from hc', Option.map_some, eq_comm,
      Option.map_eq_some_iff] at hhead
    obtain ⟨c, hc, hcsent⟩ := hhead
    simp only [Change.sent, Prod.mk.injEq] at hcsent
    rw [← hcsent.1]
    exact hb.starts_lt c hc (by rw [hcsent.2, hunsent])
  · intro c' hc'
    obtain ⟨c, hc, hcseq, hcsent⟩ := hold hc'
    rw [← hcseq, ← hcsent]
    exact hb.sentStart_iff c hc
  · intro seq hs c' hc'
    obtain ⟨c, hc, hcseq, -⟩ := hold hc'
    rw [← hcseq]
    exact hb.completes_lt seq hs c hc

theorem of_pending_nil (hb : q.Booked starts completes) (hseq : q'.changeSeq = q.changeSeq)
    (hpending : q'.pending = []) : q'.Booked starts completes where
  decreasing := by simp [hpending]
  le_changeSeq := by simp [hpending]
  starts_increasing := hb.starts_increasing
  starts_le := by
    rw [hseq]
    exact hb.starts_le
  starts_lt := by simp [ChangeQueue.current?, hpending]
  sentStart_iff := by simp [hpending]
  completes_increasing := hb.completes_increasing
  completes_started := hb.completes_started
  completes_lt := by simp [hpending]

/-- A membership change uses up a number, which has to be left. -/
theorem numbered (hb : q.Booked starts completes) (hroom : q.changeSeq.toNat + 1 < UInt32.size) :
    { q with changeSeq := q.changeSeq + 1 : ChangeQueue }.Booked starts completes where
  decreasing := hb.decreasing
  le_changeSeq c hc := UInt32.le_of_lt (lt_next (hb.le_changeSeq c hc) hroom)
  starts_increasing := hb.starts_increasing
  starts_le seq hs := UInt32.le_of_lt (lt_next (hb.starts_le seq hs) hroom)
  starts_lt := hb.starts_lt
  sentStart_iff := hb.sentStart_iff
  completes_increasing := hb.completes_increasing
  completes_started := hb.completes_started
  completes_lt := hb.completes_lt

/-- A new change is queued under the next number. -/
theorem queued (hb : q.Booked starts completes) (hroom : q.changeSeq.toNat + 1 < UInt32.size)
    {c : Change} (hseq : c.seq = q.changeSeq + 1) (hsent : c.sentStart = false)
    (hq : q' = { q with changeSeq := q.changeSeq + 1, pending := c :: q.pending }) :
    q'.Booked starts completes := by
  have hnew (seq : UInt32) (h : seq ≤ q.changeSeq) : seq < c.seq := by
    rw [hseq]
    exact lt_next h hroom
  have hn := hb.numbered hroom
  subst hq
  refine
    { hn with
      decreasing := ?_, le_changeSeq := ?_, starts_lt := ?_, sentStart_iff := ?_
      completes_lt := ?_ }
  · rw [List.map_cons, List.pairwise_cons]
    refine ⟨?_, hb.decreasing⟩
    intro seq hs
    obtain ⟨old, hold, rfl⟩ := List.mem_map.1 hs
    exact hnew old.seq (hb.le_changeSeq old hold)
  · intro c' hc'
    obtain rfl | hc' := List.mem_cons.1 hc'
    · simp [hseq]
    · exact hn.le_changeSeq c' hc'
  · intro c' hc' _ seq hs
    rw [← Option.some.inj hc']
    exact hnew seq (hb.starts_le seq hs)
  · intro c' hc'
    obtain rfl | hc' := List.mem_cons.1 hc'
    · rw [hsent]
      simp only [Bool.false_eq_true, false_iff]
      intro hs
      exact absurd (hnew _ (hb.starts_le _ hs)) (UInt32.lt_irrefl _)
    · exact hb.sentStart_iff c' hc'
  · intro seq hs c' hc'
    obtain rfl | hc' := List.mem_cons.1 hc'
    · exact hnew seq (hb.starts_le seq (hb.completes_started seq hs))
    · exact hb.completes_lt seq hs c' hc'

/-- No older change has the number of the current one. -/
theorem ne_of_mem_tail (hb : q.Booked starts completes) {c old : Change}
    (hc : q.current? = some c) (hold : old ∈ q.pending.tail) : old.seq ≠ c.seq := by
  have hpairs := hb.decreasing
  rw [ChangeQueue.pending_of_current? hc, List.map_cons, List.pairwise_cons] at hpairs
  have := hpairs.1 old.seq (List.mem_map_of_mem hold)
  grind

/-- The START of the current change goes out. -/
theorem started (hb : q.Booked starts completes) {c : Change} {f : Change → Change}
    (hc : q.current? = some c) (hsent : c.sentStart = false) (hseq : (f c).seq = c.seq)
    (hf : (f c).sentStart = true) :
    (q.updateCurrent f).Booked (starts ++ [c.seq]) completes := by
  have hmem := ChangeQueue.current?_mem hc
  have hpending := ChangeQueue.pending_updateCurrent hc f
  have htail {old : Change} (hold : old ∈ q.pending.tail) : old ∈ q.pending :=
    List.mem_of_mem_tail hold
  refine ⟨?_, ?_, ?_, ?_, ?_, ?_, hb.completes_increasing, ?_, ?_⟩
  · have hdecreasing := hb.decreasing
    rw [ChangeQueue.pending_of_current? hc, List.map_cons] at hdecreasing
    rw [hpending, List.map_cons, hseq]
    exact hdecreasing
  · rw [hpending, ChangeQueue.changeSeq_updateCurrent]
    intro c' hc'
    obtain rfl | hc' := List.mem_cons.1 hc'
    · rw [hseq]
      exact hb.le_changeSeq c hmem
    · exact hb.le_changeSeq c' (htail hc')
  · rw [List.pairwise_append]
    refine ⟨hb.starts_increasing, List.pairwise_singleton _ _, fun seq hs _ hlast => ?_⟩
    rw [List.mem_singleton.1 hlast]
    exact hb.starts_lt c hc hsent seq hs
  · intro seq hs
    rw [ChangeQueue.changeSeq_updateCurrent]
    obtain hs | hs := List.mem_append.1 hs
    · exact hb.starts_le seq hs
    · rw [List.mem_singleton.1 hs]
      exact hb.le_changeSeq c hmem
  · intro c' hc' hunsent
    rw [ChangeQueue.current?, hpending, List.head?_cons, Option.some.injEq] at hc'
    simp [← hc', hf] at hunsent
  · rw [hpending]
    intro c' hc'
    obtain rfl | hc' := List.mem_cons.1 hc'
    · simp [hf, hseq]
    · simp [hb.sentStart_iff c' (htail hc'), hb.ne_of_mem_tail hc hc']
  · exact fun seq hs => List.mem_append_left _ (hb.completes_started seq hs)
  · rw [hpending]
    intro seq hs c' hc'
    obtain rfl | hc' := List.mem_cons.1 hc'
    · rw [hseq]
      exact hb.completes_lt seq hs c hmem
    · exact hb.completes_lt seq hs c' (htail hc')

/-- The COMPLETE of the current change goes out, and nothing is pending any more. -/
theorem completed (hb : q.Booked starts completes) {c : Change} (hc : q.current? = some c)
    (hsent : c.sentStart = true) : q.retire.Booked starts (completes ++ [c.seq]) := by
  have hmem := ChangeQueue.current?_mem hc
  have hretired : q.retire.Booked starts completes := hb.of_pending_nil (by simp) (by simp)
  refine
    { hretired with completes_increasing := ?_, completes_started := ?_, completes_lt := by simp }
  · rw [List.pairwise_append]
    refine ⟨hb.completes_increasing, List.pairwise_singleton _ _, fun seq hs _ hlast => ?_⟩
    rw [List.mem_singleton.1 hlast]
    exact hb.completes_lt seq hs c hmem
  · intro seq hs
    obtain hs | hs := List.mem_append.1 hs
    · exact hb.completes_started seq hs
    · rw [List.mem_singleton.1 hs]
      exact (hb.sentStart_iff c hmem).1 hsent

end ChangeQueue.Booked

namespace Domain

variable {d d' : Domain} {starts completes : List UInt32}

theorem noReport_settle {c : Change} {a : Action} (ha : a ∈ (d.settle c).actions) :
    a.NoReport := by
  unfold settle at ha
  dsimp only at ha
  split at ha <;> simp at ha
  · obtain rfl | rfl := ha <;> exact ⟨rfl, rfl⟩
  · rw [ha]
    exact ⟨rfl, rfl⟩

/-- The reports of a step are booked along with what the step does to the changes. -/
theorem booked_advance (hl : d.Lifecycle) (hb : d.changes.Booked starts completes) :
    d.advance.domain.changes.Booked (starts ++ Action.startSeqs d.advance.actions)
      (completes ++ Action.completeSeqs d.advance.actions) := by
  obtain h | ⟨c, -, -, -, h⟩ | ⟨c, hfencing, hc, hphase, -, h⟩ | ⟨c, -, hc, hphase, -, h⟩ :=
    d.advance_cases
  · simpa [h, Action.startSeqs, Action.completeSeqs] using hb
  · simpa [h, Action.startSeqs, Action.completeSeqs] using hb
  · have hsent : c.sentStart = false := by
      have := hl.sentStart_iff c (ChangeQueue.current?_mem hc)
      simp_all
    rw [h]
    simp only [sendStart, startAction, report, Action.startSeqs, Action.completeSeqs,
      Action.startSeq?, Action.completeSeq?, List.filterMap_cons, List.filterMap_nil,
      List.append_nil]
    exact hb.started hc hsent rfl rfl
  · have hquiet : ∀ a ∈ (d.settle c).actions, a.NoReport := fun a ha => noReport_settle ha
    rw [h, Action.startSeqs_of_noReport hquiet, Action.completeSeqs_of_noReport hquiet,
      List.append_nil, List.append_nil]
    have hpending := ChangeQueue.pending_updateCurrent hc ({ · with phase := .awaitingFencing })
    have hagreed : (d.changes.updateCurrent ({ · with phase := .awaitingFencing })).Booked starts
        completes := by
      refine hb.of_sent (by simp) ?_
      have hsent := congrArg (List.map Change.sent) (ChangeQueue.pending_of_current? hc)
      rw [hpending, hsent]
      rfl
    unfold settle
    dsimp only
    split
    · exact hagreed
    · exact hagreed.of_pending_nil (ChangeQueue.changeSeq_retire _) (ChangeQueue.pending_retire _)

theorem booked_touched (hb : d.changes.Booked starts completes) (h : Touched d d') :
    d'.changes.Booked starts completes := by
  refine hb.of_sent h.changeSeq ?_
  have hsent := congrArg (List.map fun mark => (mark.1, mark.2.2)) h.marks
  rw [List.map_map, List.map_map] at hsent
  exact hsent

/-- What comes in turn keeps the books in order, as long as there are numbers left. -/
theorem booked_turn (hl : d.Lifecycle) (hb : d.changes.Booked starts completes)
    {i : DomainInput} {r : Reaction} (hturn : d.InTurn i)
    (hroom : ∀ m, i = .membership m → d.changes.changeSeq.toNat + 1 < UInt32.size) (h : Turn d i r) :
    r.domain.changes.Booked (starts ++ Action.startSeqs r.actions)
      (completes ++ Action.completeSeqs r.actions) := by
  cases h with
  | stays touched _ actions =>
    have reports : ∀ a ∈ r.actions, a.NoReport := fun a ha => (actions a ha).1
    rw [Action.startSeqs_of_noReport reports, Action.completeSeqs_of_noReport reports,
      List.append_nil, List.append_nil]
    exact booked_touched hb touched
  | getsOn touched _ domain actions =>
    rw [domain, actions]
    exact booked_advance (hl.touched touched) (booked_touched hb touched)
  | refused fencing changes actions =>
    rw [changes, actions]
    simpa [Action.startSeqs, Action.completeSeqs] using hb.numbered (hroom _ rfl)
  | queued fencing changes mark domain actions =>
    simp only [Change.mark, Prod.mk.injEq] at mark
    have hlater := hl.queued hturn mark.2 fencing (by rw [changes])
    have hqueued := hb.queued (hroom _ rfl) mark.1 mark.2.2 changes
    rw [domain, actions, Action.startSeqs_append, Action.completeSeqs_append,
      Action.startSeqs_of_noReport (Action.noReport_evict _),
      Action.completeSeqs_of_noReport (Action.noReport_evict _)]
    exact booked_advance hlater hqueued
  | finished =>
    have hfencing : d.fencing = true := hturn
    obtain ⟨c, hc, hphase⟩ := hl.fencing_iff.1 hfencing
    have hsent : c.sentStart = true :=
      (hl.sentStart_iff c (ChangeQueue.current?_mem hc)).2 (by simp [hphase])
    simp only [finishFencing, hfencing, if_true, hc, Option.map_some, Option.toList_some,
      completeAction, report, Action.startSeqs, Action.completeSeqs, Action.startSeq?,
      Action.completeSeq?, List.filterMap_cons, List.filterMap_nil, List.append_nil]
    exact hb.completed hc hsent

/-- The domain that an input led to warrants a report: for a START the conditions are met, and for a
    COMPLETE the change was just fenced for, after everybody had started it. -/
structure Warrants (d : Domain) (a : Action) : Prop where
  start : a.startSeq? ≠ none → d.conditionsMet = true
  complete : ∀ seq, a.completeSeq? = some seq → d.fencing = false ∧
    ∃ c, d.changes.started = some c ∧ c.seq = seq ∧ c.phase = .awaitingFencing ∧
      c.allStarted = true

theorem Warrants.of_noReport {a : Action} (h : a.NoReport) : d.Warrants a where
  start hstart := absurd h.1 hstart
  complete seq hseq := by simp [h.2] at hseq

theorem warrants_advance {a : Action} (ha : a ∈ d.advance.actions) :
    d.advance.domain.Warrants a := by
  obtain h | ⟨c, -, -, -, h⟩ | ⟨c, -, -, -, hmet, h⟩ | ⟨c, -, -, -, -, h⟩ := d.advance_cases
  · simp [h] at ha
  · simp [h] at ha
  · have hmet' : d.advance.domain.conditionsMet = true := by rw [conditionsMet_advance, hmet]
    rw [h] at ha
    rw [List.mem_singleton.1 ha]
    exact ⟨fun _ => hmet', fun seq hseq => by simp [startAction, Action.completeSeq?] at hseq⟩
  · exact .of_noReport (noReport_settle (h ▸ ha))

/-- What comes in turn brings warranted reports only. -/
theorem warrants_turn (hl : d.Lifecycle) {i : DomainInput} {r : Reaction} (hturn : d.InTurn i)
    (h : Turn d i r) {a : Action} (ha : a ∈ r.actions) : r.domain.Warrants a := by
  cases h with
  | stays _ _ actions => exact .of_noReport (actions a ha).1
  | getsOn _ _ domain actions =>
    rw [actions] at ha
    rw [domain]
    exact warrants_advance ha
  | refused _ _ actions => simp [actions] at ha
  | queued _ _ _ domain actions =>
    rw [actions, List.mem_append] at ha
    rw [domain]
    obtain ha | ha := ha
    · exact .of_noReport (Action.noReport_evict _ a ha)
    · exact warrants_advance ha
  | finished =>
    have hfencing : d.fencing = true := hturn
    obtain ⟨c, hc, hphase⟩ := hl.fencing_iff.1 hfencing
    have hstarted := hl.allStarted hfencing c hc
    simp only [finishFencing, hfencing, if_true, hc, Option.map_some, Option.toList_some,
      List.mem_singleton] at ha ⊢
    subst ha
    refine ⟨fun hstart => absurd rfl hstart, fun seq hseq => ⟨rfl, c, ?_, ?_, hphase, hstarted⟩⟩
    · simp only [retireCurrent, ChangeQueue.retire]
      rw [ChangeQueue.pending_of_current? hc]
    · simpa [completeAction, report, Action.completeSeq?] using hseq

theorem runs_advance (d : Domain) :
    d.advance.actions.countP Action.startsRun + d.fencing.toNat =
      d.advance.domain.fencing.toNat := by
  obtain h | ⟨c, -, -, -, h⟩ | ⟨c, -, -, -, -, h⟩ | ⟨c, hfencing, -, -, -, h⟩ := d.advance_cases
  · simp [h]
  · simp [h]
  · simp [h, sendStart, startAction, Action.startsRun]
  · rw [h]
    unfold settle
    dsimp only
    split <;> simp [Action.startsRun, hfencing, retireCurrent]

/-- A run is started when fencing becomes outstanding, and only the end of a run ends that. -/
theorem runs_turn {i : DomainInput} {r : Reaction} (hturn : d.InTurn i) (h : Turn d i r) :
    r.actions.countP Action.startsRun + d.fencing.toNat =
      r.domain.fencing.toNat + if i = .finished then 1 else 0 := by
  cases h with
  | stays touched other actions =>
    have hnone : r.actions.countP Action.startsRun = 0 :=
      List.countP_eq_zero.2 fun a ha => by simp [(actions a ha).2]
    simp [hnone, touched.fencing, other]
  | getsOn touched other domain actions =>
    rw [domain, actions, if_neg other, ← touched.fencing]
    exact runs_advance _
  | refused fencing _ actions => simp [actions, fencing]
  | @queued m _ d' _ fencing _ _ domain actions =>
    have hevict : (m.evictions.map Action.evict).countP Action.startsRun = 0 := by
      simp [List.countP_eq_zero, Action.startsRun]
    rw [domain, actions, List.countP_append, hevict, ← fencing]
    have hadvance := d'.runs_advance
    simp only [reduceCtorEq, if_false]
    omega
  | finished =>
    have hfencing : d.fencing = true := hturn
    have hcomplete :
        (d.changes.current?.map d.completeAction).toList.countP Action.startsRun = 0 := by
      cases d.changes.current? <;> simp [completeAction, Action.startsRun]
    simp [finishFencing, hfencing, hcomplete]

end Domain

end ClusterFence
