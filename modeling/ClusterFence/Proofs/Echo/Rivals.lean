import ClusterFence.Proofs.Domain.Matching

namespace ClusterFence

namespace ReceivedStart

variable {s : ReceivedStart} {us : NodeId} {h : History}

/-- The pending changes that a START describes, oldest first. -/
def candidates (s : ReceivedStart) (us : NodeId) (q : ChangeQueue) (h : History) : List Change :=
  q.pending.reverse.filter (s.describes us h)

/-- A match rules out no newer change. -/
theorem describes_recordMatch {first c : Change} (hfirst : s.describes us h first = true)
    (hle : first.seq ≤ c.seq) :
    s.describes us (h.recordMatch s.sender first.seq) c = s.describes us h c := by
  have hallowed : ((h.recordMatch s.sender first.seq).get? s.sender).any (allowedBy · c) =
      (h.get? s.sender).any (allowedBy · c) := by
    unfold describes at hfirst
    simp only [Bool.and_eq_true] at hfirst
    obtain ⟨n, hn, hbefore⟩ := Option.any_eq_true _ _ |>.1 hfirst.1.1.2
    unfold History.recordMatch
    rw [History.get?_update_self, hn, Option.map_some, Option.any_some, Option.any_some]
    simp only [allowedBy, Bool.and_eq_true, decide_eq_true_eq] at hbefore
    have hmatch : n.lastMatchSeq ≤ c.seq := UInt32.le_trans hbefore.2 hle
    simp [allowedBy, hle, hmatch]
  unfold describes
  rw [hallowed]

theorem findFirst_fst (l : List Change) :
    (s.findFirst us l h).1 = (l.find? (s.describes us h)).map (·.seq) := by
  induction l with
  | nil => rfl
  | cons c newer ih =>
    rw [List.find?_cons, findFirst]
    cases hc : s.describes us h c with
    | true => rfl
    | false => simpa using ih

/-- Once a match is found, the next one counts, if there is one. -/
theorem findSecond_fst_of_some (first : UInt32) (l : List Change) :
    (s.findSecond us (some first) l h).1 =
      some (((l.find? (s.describes us h)).map (·.seq)).getD first) := by
  induction l with
  | nil => rfl
  | cons c newer ih =>
    rw [List.find?_cons, findSecond]
    cases hc : s.describes us h c with
    | true => rfl
    | false => simpa using ih

theorem findSecond_fst {l : List Change} (hsorted : l.Pairwise (·.seq < ·.seq)) :
    (s.findSecond us none l h).1 =
      (((l.filter (s.describes us h))[1]?).or (l.filter (s.describes us h))[0]?).map (·.seq) := by
  induction l with
  | nil => rfl
  | cons c newer ih =>
    obtain ⟨hnewer, hsorted⟩ := List.pairwise_cons.1 hsorted
    rw [findSecond, List.filter_cons]
    cases hc : s.describes us h c with
    | false => simpa using ih hsorted
    | true =>
      have hsame : newer.filter (s.describes us (h.recordMatch s.sender c.seq)) =
          newer.filter (s.describes us h) := by
        apply List.filter_congr
        intro c' hc'
        exact describes_recordMatch hc (UInt32.le_of_lt (hnewer c' hc'))
      have hhead : newer.find? (s.describes us (h.recordMatch s.sender c.seq)) =
          (newer.filter (s.describes us h))[0]? := by
        rw [← List.head?_filter, hsame, List.head?_eq_getElem?]
      simp only [if_true, Option.isSome_none, Bool.false_eq_true, if_false,
        findSecond_fst_of_some, hhead, List.getElem?_cons_succ, List.getElem?_cons_zero]
      cases (newer.filter (s.describes us h))[0]? <;> rfl

/-- Which of the candidates a START is for. -/
theorem find_fst {q : ChangeQueue} (hdecreasing : (q.pending.map (·.seq)).Pairwise (· > ·)) :
    (s.find us q h).1 =
      (if s.flags.contains .duplicate then
        ((s.candidates us q h)[1]?).or (s.candidates us q h)[0]?
      else (s.candidates us q h)[0]?).map (·.seq) := by
  unfold find candidates
  split
  · apply findSecond_fst
    rw [List.pairwise_reverse]
    exact List.pairwise_map.1 hdecreasing
  · rw [findFirst_fst, ← List.head?_filter, List.head?_eq_getElem?]

end ReceivedStart

/-- Changes by their numbers, lowest first: the first one is the one that no other is below. -/
theorem getElem?_zero_seq_iff {l : List Change} (hsorted : l.Pairwise (·.seq < ·.seq))
    {seq : UInt32} : (l[0]?).map (·.seq) = some seq ↔
      seq ∈ l.map (·.seq) ∧ l.filter (·.seq < seq) = [] := by
  cases l with
  | nil => simp
  | cons c newer =>
    obtain ⟨hnewer, -⟩ := List.pairwise_cons.1 hsorted
    simp only [List.getElem?_cons_zero, Option.map_some, Option.some.injEq, List.map_cons,
      List.mem_cons, List.filter_eq_nil_iff, decide_eq_true_eq, forall_eq_or_imp]
    constructor
    · rintro rfl
      refine ⟨.inl rfl, UInt32.lt_irrefl _, fun c' hc' => ?_⟩
      exact UInt32.lt_asymm (hnewer c' hc')
    · rintro ⟨rfl | hseq, hle, -⟩
      · rfl
      · obtain ⟨c', hc', rfl⟩ := List.mem_map.1 hseq
        exact absurd (hnewer c' hc') hle

/-- The second one is the one that one other is below; where there is no second one, the first is
    the only one. -/
theorem getElem?_one_seq_iff {l : List Change} (hsorted : l.Pairwise (·.seq < ·.seq))
    {seq : UInt32} : ((l[1]?).or l[0]?).map (·.seq) = some seq ↔
      seq ∈ l.map (·.seq) ∧
        ((l.filter (·.seq < seq)).length = 1 ∨ l.filter (·.seq != seq) = []) := by
  match l with
  | [] => simp
  | [c] =>
    by_cases hc : c.seq = seq
    · simp [hc]
    · simp [hc, Ne.symm hc]
  | first :: second :: newer =>
    obtain ⟨hfirst, hrest⟩ := List.pairwise_cons.1 hsorted
    obtain ⟨hsecond, -⟩ := List.pairwise_cons.1 hrest
    have hlt : first.seq < second.seq := hfirst second List.mem_cons_self
    have hnone (c : Change) (hc : ∀ c' ∈ newer, c.seq < c'.seq) :
        newer.filter (·.seq < c.seq) = [] := by
      rw [List.filter_eq_nil_iff]
      intro c' hc'
      simpa using UInt32.le_of_lt (hc c' hc')
    simp only [List.getElem?_cons_succ, List.getElem?_cons_zero, Option.some_or, Option.map_some,
      Option.some.injEq]
    constructor
    · rintro rfl
      refine ⟨by simp, .inl ?_⟩
      rw [List.filter_cons_of_pos (by simpa using hlt), List.filter_cons_of_neg (by simp),
        hnone second hsecond]
      rfl
    · rintro ⟨hmem, hone | hnil⟩
      · rw [List.map_cons, List.mem_cons, List.map_cons, List.mem_cons] at hmem
        obtain rfl | rfl | hnewer := hmem
        · -- nothing is below the first
          rw [List.filter_cons_of_neg (by simp),
            List.filter_cons_of_neg (by simpa using UInt32.le_of_lt hlt),
            hnone first fun c' hc' => hfirst c' (List.mem_cons_of_mem _ hc')] at hone
          cases hone
        · rfl
        · -- the first two are below a later one
          obtain ⟨c', hc', rfl⟩ := List.mem_map.1 hnewer
          rw [List.filter_cons_of_pos (by simpa using hfirst c' (List.mem_cons_of_mem _ hc')),
            List.filter_cons_of_pos (by simpa using hsecond c' hc')] at hone
          simp at hone
      · rw [List.filter_eq_nil_iff] at hnil
        have heq₁ := hnil first List.mem_cons_self
        have heq₂ := hnil second (List.mem_cons_of_mem _ List.mem_cons_self)
        simp only [bne_iff_ne, ne_eq, Decidable.not_not] at heq₁ heq₂
        exact heq₂

end ClusterFence
