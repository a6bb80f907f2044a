import ClusterFence.Proofs.Negotiation.Assembly
import Mathlib.Data.List.DropRight
import Mathlib.Data.List.Induction

namespace ClusterFence

/-- The version that is run, or proposed, by whoever announces this, if there is one. -/
def Offer.version? (o : Offer) : Option Version :=
  if o.run.isSet then some o.run.withoutFlags else none

namespace LogEntry

def version? : LogEntry → Option Version
  | .membership _ _ => none
  | .offer _ _ o => o.version?

/-- The entries after the one that added the node last. -/
def sinceAdded (node : NodeId) (log : List LogEntry) : List LogEntry :=
  log.rtakeWhile (!·.adds node)

/-- The first version that a node has heard since it was added. -/
def firstHeard? (node : NodeId) (log : List LogEntry) : Option Version :=
  (sinceAdded node log).findSome? version?

/-- The node has heard an announcement of the other since it was added. -/
def Heard (node : NodeId) (log : List LogEntry) (other : NodeId) : Prop :=
  ∃ made o, .offer other made o ∈ sinceAdded node log

/-- A node that has taken up these entries can announce this: it tells of the version that it has
    heard first, or it proposes one when it has heard none and has heard all members. -/
def Tells (node : NodeId) (heard : List LogEntry) (o : Offer) : Prop :=
  o.version? = firstHeard? node heard ∨
    firstHeard? node heard = none ∧ ∀ other ∈ lastMembers heard, Heard node heard other

/-- The entry can come after these. A membership change adds those who were no members; and who
    announces something is a member, and has been one since it made the announcement. -/
def Follows (before : List LogEntry) : LogEntry → Prop
  | .membership members joined =>
    ∀ node, joined.contains node = true ↔ node ∈ members ∧ node ∉ lastMembers before
  | .offer sender made o =>
    sender ∈ lastMembers before ∧ made ≤ before.length ∧
      (∀ e ∈ before.drop made, e.adds sender = false) ∧ o.WellFormed ∧
      Tells sender (before.take made) o

/-- Every entry can come after those before it. -/
def Sound (log : List LogEntry) : Prop :=
  ∀ before e after, log = before ++ e :: after → e.Follows before

/-- What is announced by a daemon that has not taken up more than the first `position` entries is up
    to date for a member that has heard version `v` in them: it has no other version, and the
    member's own has that one. -/
def UpToDate (position : Nat) (node : NodeId) (v : Version) : LogEntry → Prop
  | .membership _ _ => True
  | .offer sender made o =>
    made ≤ position → (∀ w ∈ o.version?, w = v) ∧ (sender = node → o.version? = some v)

/-- A join overtakes no outdated announcement: what comes after it, from who had not taken it up, is
    up to date for the members that stay. -/
def WaitsFor (before after : List LogEntry) : LogEntry → Prop
  | .offer _ _ _ => True
  | .membership members joined =>
    joined ≠ [] → ∀ node ∈ members, joined.contains node = false →
      ∀ v ∈ firstHeard? node before, ∀ e ∈ after, e.UpToDate before.length node v

/-- No join overtakes an outdated announcement. -/
def NoneOvertaken (log : List LogEntry) : Prop :=
  ∀ n, ∀ h : n < log.length, log[n].WaitsFor (log.take n) (log.drop (n + 1))

instance (position : Nat) (node : NodeId) (v : Version) :
    DecidablePred (UpToDate position node v)
  | .membership _ _ => isTrue trivial
  | .offer _ made _ => inferInstanceAs (Decidable (made ≤ position → _))

instance (before after : List LogEntry) : DecidablePred (WaitsFor before after)
  | .offer _ _ _ => isTrue trivial
  | .membership members joined =>
    have := List.decidableBAll (fun node => joined.contains node = false →
      ∀ v ∈ firstHeard? node before, ∀ e ∈ after, e.UpToDate before.length node v) members
    inferInstanceAs (Decidable (joined ≠ [] → _))

instance : DecidablePred NoneOvertaken :=
  fun log => inferInstanceAs (Decidable (∀ n, ∀ _ : n < log.length, _))

/-- Any two members that have heard a version have heard the same one first. -/
def Agree (log : List LogEntry) : Prop :=
  ∀ p ∈ lastMembers log, ∀ q ∈ lastMembers log, ∀ v w,
    firstHeard? p log = some v → firstHeard? q log = some w → v = w

section

variable {node p q : NodeId} {v : Version} {e : LogEntry} {log log' : List LogEntry}

theorem sinceAdded_append_of_adds (log : List LogEntry) (h : e.adds node = true) :
    sinceAdded node (log ++ [e]) = [] :=
  List.rtakeWhile_concat_neg _ _ _ (by simp [h])

/-- The entries after the last join of the node are among those of every part that has it. -/
theorem sinceAdded_append_of_mem (log : List LogEntry) (he : e ∈ log') (h : e.adds node = true) :
    sinceAdded node (log ++ log') = sinceAdded node log' := by
  induction log' using List.reverseRecOn with
  | nil => cases he
  | append_singleton log' last ih =>
    rw [← List.append_assoc]
    cases hlast : last.adds node with
    | true => rw [sinceAdded_append_of_adds _ hlast, sinceAdded_append_of_adds _ hlast]
    | false =>
      have he : e ∈ log' := by
        obtain he | he := List.mem_append.1 he
        · exact he
        · rw [List.mem_singleton.1 he, hlast] at h
          cases h
      unfold sinceAdded at ih ⊢
      rw [List.rtakeWhile_concat_pos _ _ _ (by simp [hlast]),
        List.rtakeWhile_concat_pos _ _ _ (by simp [hlast]), ih he]

theorem sinceAdded_append (log : List LogEntry) (h : ∀ e ∈ log', e.adds node = false) :
    sinceAdded node (log ++ log') = sinceAdded node log ++ log' := by
  induction log' using List.reverseRecOn with
  | nil => rw [List.append_nil, List.append_nil]
  | append_singleton log' last ih =>
    simp only [List.mem_append, List.mem_singleton, or_imp, forall_and, forall_eq] at h
    unfold sinceAdded at ih ⊢
    rw [← List.append_assoc, List.rtakeWhile_concat_pos _ _ _ (by simp [h.2]), ih h.1,
      List.append_assoc]

theorem firstHeard?_append (log : List LogEntry) (h : ∀ e ∈ log', e.adds node = false) :
    firstHeard? node (log ++ log') = (firstHeard? node log).or (log'.findSome? version?) := by
  rw [firstHeard?, firstHeard?, sinceAdded_append log h, List.findSome?_append]

theorem firstHeard?_append_of_some (h : ∀ e ∈ log', e.adds node = false)
    (hv : firstHeard? node log = some v) : firstHeard? node (log ++ log') = some v := by
  rw [firstHeard?_append log h, hv, Option.some_or]

theorem firstHeard?_take_of_some (h : ∀ e ∈ log', e.adds node = false)
    (hv : firstHeard? node log = some v) {n : Nat} (hn : log.length ≤ n) :
    firstHeard? node ((log ++ log').take n) = some v := by
  rw [List.take_append, List.take_of_length_le hn]
  exact firstHeard?_append_of_some (fun e he => h e (List.mem_of_mem_take he)) hv

theorem Sound.of_append (h : Sound (log ++ log')) : Sound log :=
  fun before e after heq => h before e (after ++ log') (by rw [heq]; simp)

theorem Sound.append_singleton (h : Sound log) (he : e.Follows log) : Sound (log ++ [e]) := by
  intro before e' after heq
  obtain rfl | ⟨after, last, rfl⟩ := after.eq_nil_or_concat
  · obtain ⟨rfl, rfl⟩ := List.append_singleton_inj.1 heq
    exact he
  · rw [List.concat_eq_append, ← List.cons_append, ← List.append_assoc] at heq
    exact h before e' after (List.append_singleton_inj.1 heq).1

/-- What a member has announced can come later as well, as long as it is not added again. -/
theorem Follows.append_singleton {sender : NodeId} {made : Nat} {o : Offer}
    (h : (LogEntry.offer sender made o).Follows log) (hadds : e.adds sender = false)
    (hmem : sender ∈ lastMembers (log ++ [e])) :
    (LogEntry.offer sender made o).Follows (log ++ [e]) := by
  obtain ⟨-, hmade, hremains, hfit, htells⟩ := h
  refine ⟨hmem, ?_, ?_, hfit, ?_⟩
  · rw [List.length_append]
    exact Nat.le_add_right_of_le hmade
  · rw [List.drop_append_of_le_length hmade]
    simpa [or_imp, forall_and] using ⟨hremains, hadds⟩
  · rwa [List.take_append_of_le_length hmade]

/-- Who is a member, and was not added by the last entry, was one before it. -/
theorem Follows.mem_lastMembers (h : e.Follows log) (hadds : e.adds node = false)
    (hmem : node ∈ lastMembers (log ++ [e])) : node ∈ lastMembers log := by
  rw [lastMembers_append_singleton] at hmem
  cases e with
  | membership members joined =>
    by_contra hnot
    rw [adds, (h node).2 ⟨hmem, hnot⟩] at hadds
    cases hadds
  | offer sender made o => exact hmem

/-- Who is a member, and was not added since, was one before. -/
theorem Sound.mem_lastMembers (h : Sound (log ++ log')) (hadds : ∀ e ∈ log', e.adds node = false)
    (hmem : node ∈ lastMembers (log ++ log')) : node ∈ lastMembers log := by
  induction log' using List.reverseRecOn with
  | nil => rwa [List.append_nil] at hmem
  | append_singleton log' last ih =>
    simp only [List.mem_append, List.mem_singleton, or_imp, forall_and, forall_eq] at hadds
    rw [← List.append_assoc] at h hmem
    have hlast : last.Follows (log ++ log') := h _ _ [] rfl
    exact ih h.of_append hadds.1 (hlast.mem_lastMembers hadds.2 hmem)

/-- Every member was added, and the entries since then are those after it. -/
theorem Sound.exists_added (h : Sound log) (hmem : node ∈ lastMembers log) :
    ∃ before members joined, log = before ++ .membership members joined :: sinceAdded node log ∧
      joined.contains node = true := by
  induction log using List.reverseRecOn with
  | nil => cases hmem
  | append_singleton log e ih =>
    cases hadds : e.adds node with
    | true =>
      rw [sinceAdded_append_of_adds log hadds]
      cases e with
      | membership members joined => exact ⟨log, members, joined, rfl, hadds⟩
      | offer sender made o => cases hadds
    | false =>
      have he : e.Follows log := h log e [] rfl
      obtain ⟨before, members, joined, heq, hjoined⟩ :=
        ih h.of_append (he.mem_lastMembers hadds hmem)
      refine ⟨before, members, joined, ?_, hjoined⟩
      rw [sinceAdded_append log (by simpa using hadds), ← List.cons_append, ← List.append_assoc,
        ← heq]

/-- Of two members one has heard a version and the other has not: the other joined after the one had
    heard it, and nothing with a version has come since. -/
theorem Sound.exists_join_between (h : Sound log) (hp : p ∈ lastMembers log)
    (hv : firstHeard? p log = some v) (hq : q ∈ lastMembers log)
    (hnone : firstHeard? q log = none) :
    ∃ before members joined, log = before ++ .membership members joined :: sinceAdded q log ∧
      joined.contains q = true ∧ p ∈ members ∧ firstHeard? p before = some v ∧
      ∀ e ∈ .membership members joined :: sinceAdded q log, e.adds p = false := by
  obtain ⟨before, members, joined, heq, hjoined⟩ := h.exists_added hq
  have hunversioned : ∀ e ∈ .membership members joined :: sinceAdded q log, version? e = none :=
    List.forall_mem_cons.2 ⟨rfl, List.findSome?_eq_none_iff.1 hnone⟩
  have hstays : ∀ e ∈ .membership members joined :: sinceAdded q log, e.adds p = false := by
    intro e he
    by_contra hadds
    rw [firstHeard?, heq, sinceAdded_append_of_mem before he (by simpa using hadds)] at hv
    obtain ⟨e', he', hversion⟩ := List.exists_of_findSome?_eq_some hv
    have hmem := (List.rtakeWhile_suffix _ _).subset he'
    rw [hunversioned e' hmem] at hversion
    cases hversion
  refine ⟨before, members, joined, heq, hjoined, ?_, ?_, hstays⟩
  · rw [heq, List.append_cons] at h hp
    have hmem := h.mem_lastMembers (fun e he => hstays e (List.mem_cons_of_mem _ he)) hp
    rwa [lastMembers_append_singleton] at hmem
  · rwa [heq, firstHeard?_append before hstays, List.findSome?_eq_none_iff.2 hunversioned,
      Option.or_none] at hv

theorem NoneOvertaken.of_append (h : NoneOvertaken (log ++ log')) : NoneOvertaken log := by
  intro n hn
  have hwaits := h n (by rw [List.length_append]; exact Nat.lt_add_right _ hn)
  rw [List.getElem_append_left hn, List.take_append_of_le_length hn.le,
    List.drop_append_of_le_length hn] at hwaits
  generalize log[n] = e at hwaits
  cases e with
  | offer => trivial
  | membership members joined =>
    intro hjoined node hmem hstays v hv e he
    exact hwaits hjoined node hmem hstays v hv e (List.mem_append_left _ he)

/-- What comes after a join, from who had not taken it up, is up to date for a member that stays. -/
theorem NoneOvertaken.upToDate (h : NoneOvertaken log) {before after : List LogEntry}
    {members joined : List NodeId} (heq : log = before ++ .membership members joined :: after)
    (hq : joined.contains q = true) (hp : p ∈ members) (hstays : joined.contains p = false)
    (hv : firstHeard? p before = some v) (he : e ∈ after) : e.UpToDate before.length p v := by
  subst heq
  have hwaits := h before.length (by simp)
  simp only [List.getElem_append_right le_rfl, Nat.sub_self, List.getElem_cons_zero,
    List.take_left', List.drop_append, List.drop_of_length_le (Nat.le_succ _), List.nil_append,
    Nat.add_sub_cancel_left, List.drop_succ_cons, List.drop_zero] at hwaits
  refine hwaits ?_ p hp hstays v hv e he
  rintro rfl
  cases hq

/-- Who has heard no version has not heard a member that has heard one. -/
theorem Sound.not_heard (h : Sound log) (hover : NoneOvertaken log) (hp : p ∈ lastMembers log)
    (hv : firstHeard? p log = some v) (hq : q ∈ lastMembers log)
    (hnone : firstHeard? q log = none) : ¬ Heard q log p := by
  rintro ⟨made, o, ho⟩
  obtain ⟨before, members, joined, heq, hjoined, hmem, hbefore, hstays⟩ :=
    h.exists_join_between hp hv hq hnone
  have hunversioned : o.version? = none := List.findSome?_eq_none_iff.1 hnone _ ho
  by_cases hmade : made ≤ before.length
  · -- It announced this before it took up the join, and the join overtook it.
    have hversion := (hover.upToDate heq hjoined hmem (hstays _ List.mem_cons_self) hbefore ho
      hmade).2 rfl
    rw [hunversioned] at hversion
    cases hversion
  · -- It announced this after the join, and it told of the version.
    obtain ⟨first, rest, hsplit⟩ := List.append_of_mem ho
    rw [hsplit, ← List.cons_append] at heq hstays
    rw [← List.append_assoc] at heq
    obtain ⟨-, -, -, -, htells⟩ := h _ _ _ heq
    rw [Tells, hunversioned, firstHeard?_take_of_some
      (fun e he => hstays e (List.mem_append_left _ he)) hbefore (Nat.le_of_not_le hmade)] at htells
    simp at htells

/-- An announcement that comes to a member that has heard no version has the version that another
    member has heard. -/
theorem Sound.version_eq {sender : NodeId} {made : Nat} {o : Offer} {w : Version} (h : Sound log)
    (hfollows : (LogEntry.offer sender made o).Follows log)
    (hover : NoneOvertaken (log ++ [.offer sender made o]))
    (hagree : ∀ n ≤ log.length, Agree (log.take n)) (hp : p ∈ lastMembers log)
    (hv : firstHeard? p log = some v) (hq : q ∈ lastMembers log)
    (hnone : firstHeard? q log = none) (hw : o.version? = some w) : w = v := by
  obtain ⟨before, members, joined, heq, hjoined, hmem, hbefore, hstays⟩ :=
    h.exists_join_between hp hv hq hnone
  obtain ⟨hsender, hmade, hremains, -, htells⟩ := hfollows
  by_cases hjoin : made ≤ before.length
  · have heq' : log ++ [.offer sender made o] =
        before ++ .membership members joined :: (sinceAdded q log ++ [.offer sender made o]) := by
      rw [← List.cons_append, ← List.append_assoc, ← heq]
    have hdated : (LogEntry.offer sender made o).UpToDate before.length p v :=
      hover.upToDate heq' hjoined hmem (hstays _ List.mem_cons_self) hbefore (by simp)
    exact (hdated hjoin).1 w hw
  · -- The sender had taken up the join, and with it all that made `p` hear its version.
    have hlate := Nat.le_of_not_le hjoin
    have hheard : firstHeard? p (log.take made) = some v := by
      rw [heq]
      exact firstHeard?_take_of_some hstays hbefore hlate
    have hdrop : ∀ e ∈ log.drop made, e.adds p = false := by
      rw [heq, List.drop_append, List.drop_of_length_le hlate, List.nil_append]
      exact fun e he => hstays e (List.mem_of_mem_drop he)
    rw [← List.take_append_drop made log] at h hover hp hsender
    have hpThen := h.mem_lastMembers hdrop hp
    have hsenderThen := h.mem_lastMembers hremains hsender
    rw [List.append_assoc] at hover
    obtain htold | ⟨hunheard, hall⟩ := htells
    · exact hagree made hmade sender hsenderThen p hpThen w v (htold ▸ hw) hheard
    · exact absurd (hall p hpThen)
        (h.of_append.not_heard hover.of_append hpThen hheard hsenderThen hunheard)

/-- One more entry. Who has heard a version stays with it, and who hears the first one with this
    entry hears that of the others. -/
theorem Sound.agree_append_singleton (h : Sound (log ++ [e])) (hover : NoneOvertaken (log ++ [e]))
    (hagree : ∀ n ≤ log.length, Agree (log.take n)) : Agree (log ++ [e]) := by
  have he : e.Follows log := h log e [] rfl
  have hlog : Agree log := by simpa using hagree log.length le_rfl
  have hkept {node : NodeId} {v : Version} (hmem : node ∈ lastMembers (log ++ [e]))
      (hv : firstHeard? node (log ++ [e]) = some v) : node ∈ lastMembers log ∧
        (firstHeard? node log = some v ∨
          firstHeard? node log = none ∧ e.version? = some v) := by
    have hadds : ∀ e' ∈ [e], e'.adds node = false := by
      rw [List.forall_mem_singleton]
      by_contra hadds
      rw [firstHeard?, sinceAdded_append_of_adds log (by simpa using hadds)] at hv
      cases hv
    rw [firstHeard?_append log hadds, List.findSome?_singleton, Option.or_eq_some_iff] at hv
    exact ⟨h.mem_lastMembers hadds hmem, hv⟩
  have hversion {p q : NodeId} {v w : Version} (hp : p ∈ lastMembers log)
      (hv : firstHeard? p log = some v) (hq : q ∈ lastMembers log)
      (hnone : firstHeard? q log = none) (hw : e.version? = some w) : w = v := by
    cases e with
    | membership => cases hw
    | offer => exact h.of_append.version_eq he hover hagree hp hv hq hnone hw
  intro p hp q hq v w hv hw
  obtain ⟨hp, hv | ⟨hpNone, hv⟩⟩ := hkept hp hv <;> obtain ⟨hq, hw | ⟨hqNone, hw⟩⟩ := hkept hq hw
  · exact hlog p hp q hq v w hv hw
  · exact (hversion hp hv hq hqNone hw).symm
  · exact hversion hq hw hp hpNone hv
  · exact Option.some.inj (hv.symm.trans hw)

/-- As long as no join overtakes an outdated announcement, all members that have heard a version
    have heard the same one first. -/
theorem Sound.agree (h : Sound log) (hover : NoneOvertaken log) : Agree log := by
  -- A proposal is as old as what its sender had taken up, so all parts of the log are needed.
  have hparts : ∀ n, Agree (log.take n) := by
    induction log using List.reverseRecOn with
    | nil =>
      intro n p hp
      rw [List.take_nil] at hp
      cases hp
    | append_singleton log e ih =>
      intro n
      have hagree := ih h.of_append hover.of_append
      by_cases hn : n ≤ log.length
      · rw [List.take_append_of_le_length hn]
        exact hagree n
      · rw [List.take_of_length_le (by simpa using Nat.succ_le_of_lt (Nat.lt_of_not_le hn))]
        exact h.agree_append_singleton hover fun n _ => hagree n
  simpa using hparts log.length

end

end LogEntry

end ClusterFence
