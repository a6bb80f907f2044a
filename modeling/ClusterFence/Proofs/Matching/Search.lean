import ClusterFence.Proofs.Echo.Rivals
import ClusterFence.Proofs.Queue
import Mathlib.Data.List.Nodup

namespace ClusterFence

/-- The report has the sizes of the change and flags none but its members. -/
structure ChangeReport.Fits (r : ChangeReport) (c : Change) : Prop where
  counts : r.summary.counts = c.counts
  flagged : ∀ e ∈ r.entries, e.isMember = true → c.isMember e.node = true

/-- The START can be for the change. Its first line about us flags us as a member, and it fits the
    change. Its sender is a member that has not started yet, and nothing on record of the sender is
    later than the change. -/
structure ReceivedStart.CanBeFor (s : ReceivedStart) (us : NodeId) (h : History) (c : Change) :
    Prop where
  ours : ∃ e, s.report.entries.find? (·.node == us) = some e ∧ e.isMember = true
  sender : ∃ p, c.member? s.sender = some p ∧ p.started = false
  record : h.Holds s.sender (·.NotAfter c.createTime c.seq)
  fits : s.report.Fits c

namespace ReceivedStart

variable {s : ReceivedStart} {us : NodeId} {h : History}

theorem describes_iff {c : Change} : s.describes us h c = true ↔ s.CanBeFor us h c := by
  unfold describes flagsMember Change.awaits
  simp only [Bool.and_eq_true, Option.any_eq_true, allowedBy, beq_iff_eq, List.all_eq_true,
    Bool.or_eq_true, Bool.not_eq_true', decide_eq_true_eq]
  constructor
  · rintro ⟨⟨⟨⟨hours, hsender⟩, n, hn, ⟨⟨hadd, hfail⟩, hleft⟩, hmatch⟩, hcounts⟩, hflagged⟩
    refine ⟨hours, hsender, ⟨n, hn, hadd, hmatch, hfail, hleft⟩, hcounts, fun e he hmember => ?_⟩
    exact (hflagged e he).resolve_left (by simp [hmember])
  · rintro ⟨hours, hsender, ⟨n, hn, hadd, hmatch, hfail, hleft⟩, hcounts, hflagged⟩
    refine ⟨⟨⟨⟨hours, hsender⟩, n, hn, ⟨⟨hadd, hfail⟩, hleft⟩, hmatch⟩, hcounts⟩, fun e he => ?_⟩
    cases hmember : e.isMember with
    | false => exact .inl rfl
    | true => exact .inr (hflagged e he hmember)

instance (s : ReceivedStart) (us : NodeId) (h : History) : DecidablePred (s.CanBeFor us h) :=
  fun _ => decidable_of_iff _ describes_iff

theorem candidates_eq (q : ChangeQueue) :
    s.candidates us q h = q.pending.reverse.filter (s.CanBeFor us h ·) := by
  unfold candidates
  apply List.filter_congr
  intro c _
  rw [Bool.eq_iff_iff, describes_iff, decide_eq_true_eq]

end ReceivedStart

namespace History

/-- Of two matches the later one stays on record. -/
theorem recordMatch_recordMatch (h : History) (node : NodeId) (seq seq' : UInt32) :
    (h.recordMatch node seq).recordMatch node seq' = h.recordMatch node seq' := by
  rw [eq_iff_get?]
  intro other
  unfold recordMatch
  rw [get?_update, get?_update, get?_update]
  split
  · rw [Option.map_map]
    rfl
  · rfl

end History

namespace ReceivedStart

variable {s : ReceivedStart} {us : NodeId} {h : History}

/-- The histories after a search that ended with the given change, or with none. -/
def noted (s : ReceivedStart) (h : History) (found : Option UInt32) : History :=
  found.elim h (h.recordMatch s.sender)

theorem findFirst_snd (l : List Change) :
    (s.findFirst us l h).2 = s.noted h (s.findFirst us l h).1 := by
  induction l with
  | nil => rfl
  | cons c newer ih =>
    unfold findFirst
    split
    · rfl
    · exact ih

/-- A search that goes on after a first match has that on record already. -/
theorem findSecond_snd_of_some (first : UInt32) (l : List Change) :
    (s.findSecond us (some first) l (h.recordMatch s.sender first)).2 =
      s.noted h (s.findSecond us (some first) l (h.recordMatch s.sender first)).1 := by
  induction l with
  | nil => rfl
  | cons c newer ih =>
    unfold findSecond
    split
    · exact h.recordMatch_recordMatch s.sender first c.seq
    · exact ih

theorem findSecond_snd (l : List Change) :
    (s.findSecond us none l h).2 = s.noted h (s.findSecond us none l h).1 := by
  induction l with
  | nil => rfl
  | cons c newer ih =>
    unfold findSecond
    split
    · exact findSecond_snd_of_some c.seq newer
    · exact ih

/-- Only the change that was found is put on record. -/
theorem find_snd (q : ChangeQueue) : (s.find us q h).2 = s.noted h (s.find us q h).1 := by
  unfold find
  split
  · exact findSecond_snd _
  · exact findFirst_snd _

/-- A change that was found is one of the candidates. -/
theorem exists_candidate_of_find {q : ChangeQueue}
    (hdecreasing : (q.pending.map (·.seq)).Pairwise (· > ·)) {seq : UInt32}
    (hfind : (s.find us q h).1 = some seq) : ∃ c ∈ s.candidates us q h, c.seq = seq := by
  rw [find_fst hdecreasing] at hfind
  obtain ⟨c, hc, hseq⟩ := Option.map_eq_some_iff.1 hfind
  refine ⟨c, ?_, hseq⟩
  split at hc
  · obtain hc | ⟨-, hc⟩ := Option.or_eq_some_iff.1 hc
    · exact List.mem_of_getElem? hc
    · exact List.mem_of_getElem? hc
  · exact List.mem_of_getElem? hc

theorem find_eq_none_iff {q : ChangeQueue}
    (hdecreasing : (q.pending.map (·.seq)).Pairwise (· > ·)) :
    (s.find us q h).1 = none ↔ s.candidates us q h = [] := by
  rw [find_fst hdecreasing, Option.map_eq_none_iff]
  cases s.candidates us q h with
  | nil => simp
  | cons c newer => split <;> simp

/-- A START is taken for the oldest of the pending changes that it can be for, going by what is on
    record before the search. If it is flagged as a duplicate it is taken for the second oldest, if
    there is a second one. When a change is found, it becomes the one that the sender was last
    matched with, and nothing else is put on record. The sender was in the cluster when that change
    was created. -/
theorem find_spec (s : ReceivedStart) (us : NodeId) (q : ChangeQueue) (h : History)
    (hdecreasing : (q.pending.map (·.seq)).Pairwise (· > ·)) :
    let found := (s.find us q h).1
    let after := (s.find us q h).2
    let fitting := q.pending.reverse.filter (s.CanBeFor us h ·)
    found = (if s.flags.contains .duplicate then fitting[1]?.or fitting[0]? else fitting[0]?).map
      (·.seq) ∧
    (found = none ↔ fitting = []) ∧
    (found = none → after = h) ∧
    (∀ seq, found = some seq →
      after.Holds s.sender (·.lastMatchSeq = seq) ∧
      (∀ node, node ≠ s.sender → after.get? node = h.get? node) ∧
      after.get? s.sender = (h.get? s.sender).map ({ · with lastMatchSeq := seq })) ∧
    ∀ c ∈ q.pending, found = some c.seq → h.Holds s.sender (·.clusterAddTime ≤ c.createTime) := by
  intro found after fitting
  have hfitting : s.candidates us q h = fitting := candidates_eq q
  have hafter : after = s.noted h found := find_snd q
  have hmem {c : Change} : c ∈ fitting ↔ c ∈ q.pending ∧ s.CanBeFor us h c := by
    simp only [fitting, List.mem_filter, List.mem_reverse, decide_eq_true_eq]
  refine ⟨hfitting ▸ find_fst hdecreasing, hfitting ▸ find_eq_none_iff hdecreasing, ?_, ?_, ?_⟩
  · intro hnone
    rw [hafter, hnone]
    rfl
  · intro seq hfound
    obtain ⟨c, hc, -⟩ := exists_candidate_of_find hdecreasing hfound
    obtain ⟨n, hn, -⟩ := (hmem.1 (hfitting ▸ hc)).2.record
    have hself : after.get? s.sender = (h.get? s.sender).map ({ · with lastMatchSeq := seq }) := by
      rw [hafter, hfound]
      exact History.get?_update_self _ _ _
    refine ⟨⟨{ n with lastMatchSeq := seq }, by rw [hself, hn, Option.map_some], rfl⟩, ?_, hself⟩
    intro node hne
    rw [hafter, hfound]
    exact History.get?_update_of_ne hne.symm
  · intro c hc hfound
    obtain ⟨c', hc', hseq⟩ := exists_candidate_of_find hdecreasing hfound
    obtain ⟨hpending, hfor⟩ := hmem.1 (hfitting ▸ hc')
    -- no two pending changes have the same number
    have heq : c' = c := List.inj_on_of_nodup_map
      (hdecreasing.imp fun hlt => (UInt32.ne_of_lt hlt).symm) hpending hc hseq
    obtain ⟨n, hn, hadd, -⟩ := hfor.record
    exact ⟨n, hn, heq ▸ hadd⟩

/-- Node 3 joins nodes 1 and 2, fails and joins again, and nothing is agreed on meanwhile. -/
def rejoining : ChangeQueue := ChangeQueue.play {}
  [.event 1 { members := [{ node := 1 }, { node := 2 }, { node := 3 }], left := [],
              joined := [{ node := 3 }] } {} 10,
    .event 1 { members := [{ node := 1 }, { node := 2 }], left := [⟨3, .nodeDown⟩], joined := [] }
      {} 20,
    .event 1 { members := [{ node := 1 }, { node := 2 }, { node := 3 }], left := [],
               joined := [{ node := 3 }] } {} 30]

/-- The START of node 2 for the second time that node 3 joins. -/
def secondJoin : ReceivedStart where
  sender := 2
  flags := .duplicate
  report :=
    { seq := 8
      summary := { counts := { members := 3, joined := 1 } }
      entries := [{ node := 1, flags := 1 }, { node := 2, flags := 1 }, { node := 3, flags := 1 }] }

theorem find_spec_secondJoin :
    let known := ({} : History).ensure 2
    (rejoining.pending.map (·.seq)).Pairwise (· > ·) ∧
      (secondJoin.find 1 rejoining known).1 = some 3 ∧
      (secondJoin.find 1 rejoining known).2.Holds 2 (·.lastMatchSeq = 3) := by
  intro known
  have hdecreasing : (rejoining.pending.map (·.seq)).Pairwise (· > ·) := by decide +kernel
  obtain ⟨hfound, -, -, hnoted, -⟩ := find_spec secondJoin 1 rejoining known hdecreasing
  have hthird : (secondJoin.find 1 rejoining known).1 = some 3 := by
    rw [hfound]
    decide +kernel
  exact ⟨hdecreasing, hthird, (hnoted 3 hthird).1⟩

end ReceivedStart

end ClusterFence
