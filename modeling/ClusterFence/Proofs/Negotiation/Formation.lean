import ClusterFence.Proofs.Negotiation.Assembly

namespace ClusterFence

/-- The version that all members speak: the least of their highest ones, without flags. -/
structure Version.Common (least : Version) (members : List NodeId)
    (highest : NodeId → PositiveVersion) : Prop where
  leastOf : least.LeastOf (members.map (highest ·))
  flags : least.flags = 0

/-- What a daemon has made of the announcements that it heard, in a group where none has state: it
    holds the highest version of everyone it heard, and it runs nothing or the least one. -/
structure DaemonGroup.Knows (g : DaemonGroup) (members : List NodeId)
    (highest : NodeId → PositiveVersion) (least : Version) (node : NodeId)
    (heard : List LogEntry) : Prop where
  coherent : g.Coherent
  members : g.members = members
  max : g.ours.max = highest node
  run : g.ours.run = {} ∨ g.ours.run = least
  held : ∀ other o, g.offer? other = some o → o.max = highest other
  heard : ∀ other made o, .offer other made o ∈ heard →
    (g.offer? other).isSome = true ∧ (o.run.isSet = true → g.ours.run = least)

/-- A daemon of such a group at its seat, and all that it has said. It proposes once, and not before
    everyone was heard. -/
structure Seat.Forms (s : Seat) (members : List NodeId) (highest : NodeId → PositiveVersion)
    (least : Version) (node : NodeId) (log : List LogEntry) (said : List Offer) : Prop where
  knows : s.group.Knows members highest least node (log.take s.next)
  next_pos : 0 < s.next
  next_le : s.next ≤ log.length
  due : s.group.ours.run.isSet = false → s.group.allHeard = true → s.group.proposed = true
  said : said = { max := highest node } ::
    if s.group.proposed then [{ max := (highest node : Version), run := least }] else []

namespace Assembly

/-- The assembly after deliveries. -/
def deliverAll (a : Assembly) (deliveries : List Delivery) : Assembly := deliveries.foldl deliver a

/-- The group has formed: after the change that adds everyone, the log has announcements of the
    members only. -/
structure Forming (a : Assembly) (members : List NodeId) (highest : NodeId → PositiveVersion)
    (least : Version) : Prop where
  members_eq : a.members = members
  log : ∃ first rest, a.log = first :: rest ∧
    ∀ e ∈ rest, ∃ sender ∈ members, ∃ made o, e = .offer sender made o
  seats : ∀ node ∈ members,
    (a.seat node).Forms members highest least node a.log (a.said node)

end Assembly

section

variable {members : List NodeId} {highest : NodeId → PositiveVersion} {least : Version}
  {node : NodeId}

theorem Version.exists_common (hne : members ≠ []) (highest : NodeId → PositiveVersion) :
    ∃ least : Version, least.Common members highest := by
  have hversions : members.map (highest · : NodeId → Version) ≠ [] := by simpa using hne
  obtain ⟨least, hflags, hleast⟩ := exists_leastOf hversions
  exact ⟨least, hleast, hflags⟩

theorem Version.Common.positive (h : least.Common members highest) : least.Positive :=
  h.leastOf.positive (by simpa using fun node _ => (highest node).2)

theorem Version.Common.isSet (h : least.Common members highest) : least.isSet = true := by
  simpa [Version.isSet] using h.positive.1

namespace DaemonGroup

variable {g g' : DaemonGroup} {heard : List LogEntry}

/-- Once everyone was heard, the version to propose is the least one. -/
theorem Knows.lowestVersion (h : g.Knows members highest least node heard)
    (hleast : least.Common members highest) (hall : g.allHeard = true) :
    g.lowestVersion = .ok least := by
  unfold allHeard at hall
  rw [Bool.and_eq_true, List.all_eq_true, h.members] at hall
  obtain ⟨hne, hall⟩ := hall
  have hheard : ∀ other ∈ g.members, ∃ o, g.offer? other = some o ∧ o.max = highest other := by
    intro other hother
    rw [h.members] at hother
    obtain ⟨o, ho⟩ := Option.isSome_iff_exists.1 (hall other hother)
    exact ⟨o, ho, h.held other o ho⟩
  have hversions := highestVersions_eq_ok hheard
  rw [h.members] at hversions
  obtain ⟨lowest, hlowest, hlowestFlags, hlowestLeast⟩ := lowestVersion_eq_ok hversions
    (by simpa using hne) (by simpa using fun other _ => (highest other).2)
  rw [hlowest, hlowestLeast.eq hleast.leastOf (hlowestFlags.trans hleast.flags.symm)]

/-- What is run after an announcement of the least version, or of none. -/
theorem Knows.adopt (h : g.Knows members highest least node heard)
    (hleast : least.Common members highest) {run : Version} (hrun : run = {} ∨ run = least) :
    g.adopt run = least ∨ g.adopt run = {} ∧ g.ours.run = {} ∧ run = {} := by
  obtain ⟨hkept, heq⟩ | ⟨hunset, hrunSet, heq⟩ := g.adopt_cases run <;> rw [heq]
  · obtain hours | hours := h.run
    · right
      refine ⟨hours, hours, hrun.resolve_right ?_⟩
      rintro rfl
      rw [hours, hleast.isSet] at hkept
      obtain hours | hunset := hkept
      · cases hours
      · cases hunset
    · exact .inl hours
  · left
    obtain rfl | rfl := hrun
    · cases hrunSet
    · obtain hours | hours := h.run
      · have hflags := hleast.flags
        rw [hours]
        cases run
        subst hflags
        rfl
      · rw [hours, hleast.isSet] at hunset
        cases hunset

/-- An announcement of a member is held, and a version in it is run from then on. -/
theorem Knows.hears {sender : NodeId} {o : Offer} {verdict : OfferVerdict}
    (h : g.Knows members highest least node heard) (hleast : least.Common members highest)
    (made : Nat) (hmax : o.max = highest sender)
    (hrun : o.run = {} ∨ o.run = least) (hears : g.Hears sender o (.ok (g', verdict))) :
    g'.Knows members highest least node (heard ++ [.offer sender made o]) := by
  obtain ⟨-, hmembers, -, hours, -⟩ := hears.kept
  have hoffers := hears.offer?_cases
  have hcoherent := h.coherent.hears hears
  cases hears with
  | merged n killed _ _ _ _ hmerge =>
    -- Only who has state takes an announcement for one that tells of a partition.
    have hstateless : g.ours.run.isStateful = false := by
      obtain hunset | hset := h.run
      · rw [hunset]
        rfl
      · simp [hset, Version.isStateful, hleast.flags]
    simp [isStatefulMerge, hstateless] at hmerge
  | held n _ _ hnode _ =>
    have hset := hleast.isSet
    have hadopt := h.adopt hleast hrun
    refine ⟨hcoherent, hmembers.trans h.members, hours.trans h.max, ?_, fun other o' ho' => ?_,
      fun other made' o' ho' => ?_⟩
    · exact hadopt.symm.imp_left (·.1)
    · obtain hkept | ⟨rfl, hnew⟩ := hoffers other
      · exact h.held other o' (hkept ▸ ho')
      · rw [hnew] at ho'
        exact Option.some.inj ho' ▸ hmax
    · simp only [List.mem_append, List.mem_singleton, LogEntry.offer.injEq] at ho'
      obtain hbefore | ⟨rfl, rfl, rfl⟩ := ho'
      · obtain ⟨hsome, hruns⟩ := h.heard other made' o' hbefore
        refine ⟨?_, fun hset' => hadopt.resolve_right ?_⟩
        · obtain hkept | ⟨-, hnew⟩ := hoffers other
          · rwa [hkept]
          · rw [hnew]
            rfl
        · rintro ⟨-, hunset, -⟩
          simp [← hruns hset', hunset, Version.isSet] at hset
      · refine ⟨?_, fun hset' => hadopt.resolve_right ?_⟩
        · rw [offer?_insert, if_pos rfl]
          rfl
        · rintro ⟨-, -, hunset⟩
          simp [hunset, Version.isSet] at hset'

theorem Knows.propose (h : g.Knows members highest least node heard) :
    g.propose.1.Knows members highest least node heard := by
  rw [propose_fst]
  exact ⟨⟨h.coherent.lists_iff, h.coherent.lists_of_offer⟩, h.members, h.max, h.run, h.held,
    h.heard⟩

end DaemonGroup

/-- What members announce in such a group is well-formed. -/
theorem Offer.wellFormed_of_common {o : Offer} (hleast : least.Common members highest)
    (hmax : o.max = highest node) (hrun : o.run = {} ∨ o.run = least) : o.WellFormed := by
  obtain ⟨hmajor, hminor, hpatch⟩ := (highest node).2
  refine ⟨hmax ▸ hmajor, hmax ▸ hminor, hmax ▸ hpatch, ?_⟩
  obtain hunset | hset := hrun
  · rw [hunset]
    exact .inl rfl
  · rw [hset]
    exact .inr hleast.positive.2

theorem Seat.Forms.of_mem_said {s : Seat} {log : List LogEntry} {said : List Offer} {o : Offer}
    (h : s.Forms members highest least node log said) (ho : o ∈ said) :
    o.max = highest node ∧ (o.run = {} ∨ o.run = least) := by
  rw [h.said] at ho
  cases hproposed : s.group.proposed <;> simp [hproposed] at ho
  · subst ho
    exact ⟨rfl, .inl rfl⟩
  · obtain rfl | rfl := ho
    · exact ⟨rfl, .inl rfl⟩
    · exact ⟨rfl, .inr rfl⟩

/-- A daemon takes up an announcement of a member: it is heard, and the proposal that is due then
    has the least version. -/
theorem Seat.Forms.takes {s s' : Seat} {log : List LogEntry} {said : List Offer} {sender : NodeId}
    {made : Nat} {o : Offer} (h : s.Forms members highest least node log said)
    (hleast : least.Common members highest)
    (hnext : log[s.next]? = some (.offer sender made o)) (hsender : sender ∈ members)
    (hmax : o.max = highest sender) (hrun : o.run = {} ∨ o.run = least)
    (htakes : s.Takes (.offer sender made o) s') :
    ∃ sent, s'.outbox.map (·.2) = s.outbox.map (·.2) ++ sent ∧
      s'.Forms members highest least node log (said ++ sent) := by
  cases htakes with
  | refused _ _ _ unfit =>
    have hlists := (h.knows.coherent.lists_iff sender).2 (h.knows.members ▸ hsender)
    obtain hunfit | hnot := unfit
    · exact absurd (Offer.wellFormed_of_common hleast hmax hrun) hunfit
    · simp [hlists] at hnot
  | heard _ _ _ g verdict hears =>
    have hknows := h.knows.hears hleast made hmax hrun hears
    rw [← LogEntry.take_succ_of_next hnext] at hknows
    have hproposed := hears.kept.2.2.1
    have hlength := (List.getElem?_eq_some_iff.1 hnext).1
    refine ⟨g.proposal?.toList, by simp [Seat.sends], hknows.propose, Nat.succ_pos _, hlength,
      fun hunset hall => ?_, ?_⟩
    · rw [Seat.sends, DaemonGroup.propose_fst] at hunset hall ⊢
      have hall : g.allHeard = true := hall
      have hunset : g.ours.run.isSet = false := hunset
      simp [DaemonGroup.mayPropose, hunset, hall]
    · rw [Seat.sends, DaemonGroup.propose_fst, h.said, ← hproposed]
      cases hmay : g.mayPropose with
      | true =>
        have hproposal : g.proposal? = some { max := (highest node : Version), run := least } := by
          rw [DaemonGroup.proposal?_eq_some_iff, ← hknows.max]
          refine ⟨hmay, least, hknows.lowestVersion hleast ?_, rfl⟩
          simp only [DaemonGroup.mayPropose, Bool.and_eq_true] at hmay
          exact hmay.2
        simp only [DaemonGroup.mayPropose, Bool.and_eq_true, Bool.not_eq_true'] at hmay
        simp [hproposal, hmay.1.2]
      | false =>
        have hproposal : g.proposal? = none := by
          rw [Option.eq_none_iff_forall_ne_some]
          intro o ho
          rw [DaemonGroup.proposal?_eq_some_iff, hmay] at ho
          cases ho.1
        simp [hproposal]

namespace Assembly

theorem Forming.delivered {a a' : Assembly} (h : a.Forming members highest least)
    (hleast : least.Common members highest) (hdelivered : a.Delivered a') :
    a'.Forming members highest least := by
  obtain ⟨first, rest, hlog, hrest⟩ := h.log
  cases hdelivered with
  | idle => exact h
  | takesUp node e s hmem hnext htakes =>
    rw [h.members_eq] at hmem
    have hforms := h.seats node hmem
    have he : e ∈ rest := by
      obtain ⟨k, hk⟩ := Nat.exists_eq_succ_of_ne_zero hforms.next_pos.ne'
      rw [hlog, hk, List.getElem?_cons_succ] at hnext
      exact List.mem_of_getElem? hnext
    obtain ⟨sender, hsender, made, o, rfl⟩ := hrest e he
    have ho : o ∈ a.said sender := mem_said_of_mem_log (List.mem_of_getElem? hnext)
    obtain ⟨hmax, hrun⟩ := (h.seats sender hsender).of_mem_said ho
    obtain ⟨sent, houtbox, hforms'⟩ :=
      hforms.takes hleast hnext hsender hmax hrun htakes
    refine ⟨h.members_eq, h.log, fun other hother => ?_⟩
    by_cases hne : other = node
    · subst hne
      rw [seat_put_self, said_put_self houtbox]
      exact hforms'
    · rw [seat_put_of_ne s hne, said_put_of_ne s hne]
      exact h.seats other hother
  | placed node made o outbox hmem houtbox =>
    rw [h.members_eq] at hmem
    refine ⟨by rw [members_place, h.members_eq], ⟨first, rest ++ [.offer node made o], ?_, ?_⟩,
      fun other hother => ?_⟩
    · rw [log_place, hlog, List.cons_append]
    · intro e he
      obtain he | he := List.mem_append.1 he
      · exact hrest e he
      · exact ⟨node, hmem, made, o, List.mem_singleton.1 he⟩
    · obtain ⟨knows, next_pos, next_le, due, said⟩ := h.seats other hother
      obtain ⟨outbox', -, hseat⟩ := seat_place houtbox other
      rw [said_place houtbox, hseat, log_place]
      refine ⟨?_, next_pos, ?_, due, said⟩
      · rw [List.take_append_of_le_length next_le]
        exact knows
      · rw [List.length_append]
        exact Nat.le_add_right_of_le next_le

/-- A daemon that has come with all the others has heard nobody, and said what it speaks. -/
theorem knows_new (members : List NodeId) (now : Seconds) (heard : List LogEntry)
    (hheard : ∀ other made o, .offer other made o ∉ heard) :
    ((DaemonGroup.new node (highest node)).changeMembers members now).Knows members highest least
      node heard := by
  have hcoherent := DaemonGroup.coherent_new node (highest node : Version)
  refine ⟨hcoherent.changeMembers members now, rfl, rfl, .inl rfl, ?_, ?_⟩
  · intro other o ho
    rw [DaemonGroup.offer?_changeMembers_new] at ho
    cases ho
  · intro other made o ho
    exact absurd ho (hheard other made o)

/-- A group forms when everyone comes at once. -/
theorem forming_changeMembers (hne : members ≠ []) (moment : NodeId → Moment) :
    (new.changeMembers members highest moment).Forming members highest least := by
  have hjoining : new.joining members = members := List.filter_eq_self.2 fun _ _ => rfl
  have hannounces : DaemonGroup.announces members = true := by
    simpa [DaemonGroup.announces] using hne
  have hlog : (new.changeMembers members highest moment).log = [.membership members members] := by
    rw [log_changeMembers, hjoining]
    rfl
  refine ⟨members_changeMembers new highest moment, ⟨_, [], hlog, by simp⟩, fun node hnode => ?_⟩
  have hseat := seat_changeMembers_of_mem new highest moment
    (show (new.joining members).contains node = true by rw [hjoining]; simpa using hnode)
  rw [hjoining, Seat.takes, hannounces] at hseat
  have hknows : ((DaemonGroup.new node (highest node)).changeMembers members
      (moment node).now).Knows members highest least node [.membership members members] :=
    knows_new members (moment node).now _ (by simp)
  rw [said, hseat, hlog]
  refine ⟨hknows, Nat.one_pos, Nat.le_refl 1, fun _ hall => ?_, rfl⟩
  -- Nobody was heard, so no proposal is due.
  obtain ⟨other, hother⟩ := List.exists_mem_of_ne_nil members hne
  unfold DaemonGroup.allHeard at hall
  rw [Bool.and_eq_true, List.all_eq_true] at hall
  have hheard := hall.2 other hother
  rw [Seat.sends, DaemonGroup.offer?_changeMembers_new] at hheard
  cases hheard

theorem Forming.deliverAll {a : Assembly} (h : a.Forming members highest least)
    (hleast : least.Common members highest) (deliveries : List Delivery) :
    (a.deliverAll deliveries).Forming members highest least := by
  induction deliveries generalizing a with
  | nil => exact h
  | cons d rest ih => exact ih (h.delivered hleast (a.delivered_deliver d))

/-- Who has taken up everything that anyone has sent runs the least version. -/
theorem Forming.running_of_quiet {a : Assembly} (h : a.Forming members highest least)
    (hleast : least.Common members highest) (hquiet : a.Quiet) (hmem : node ∈ members) :
    (a.seat node).group.ours.run = least := by
  obtain ⟨knows, -, -, due, said⟩ := h.seats node hmem
  rw [Quiet, h.members_eq] at hquiet
  rw [(hquiet node hmem).2, List.take_length] at knows
  obtain hunset | hrun := knows.run
  · have hall : (a.seat node).group.allHeard = true := by
      unfold DaemonGroup.allHeard
      rw [Bool.and_eq_true, List.all_eq_true, knows.members]
      refine ⟨by simpa using List.ne_nil_of_mem hmem, fun other hother => ?_⟩
      have hsaid : { max := (highest other : Version) } ∈ a.said other := by
        rw [(h.seats other hother).said]
        exact List.mem_cons_self
      obtain ⟨made, hlog⟩ := exists_mem_log_of_mem_said (hquiet other hother).1 hsaid
      exact (knows.heard other made _ hlog).1
    have hproposed := due (by rw [hunset]; rfl) hall
    have hsaid : { max := (highest node : Version), run := least } ∈ a.said node := by
      rw [said, hproposed]
      simp
    obtain ⟨made, hlog⟩ := exists_mem_log_of_mem_said (hquiet node hmem).1 hsaid
    exact (knows.heard node made _ hlog).2 hleast.isSet
  · exact hrun

/-- The daemons of a group that forms run nothing, or the least of the highest versions. Each
    proposes once at most, and it proposes that one; and all run it once nothing is undelivered. -/
theorem settles_on_least (hne : members ≠ []) (highest : NodeId → PositiveVersion)
    (moment : NodeId → Moment) :
    ∃ least : Version, least.LeastOf (members.map (highest ·)) ∧ ∀ deliveries : List Delivery,
      let a := (new.changeMembers members highest moment).deliverAll deliveries
      (∀ node ∈ members,
        ((a.seat node).group.running? = none ∨ (a.seat node).group.running? = some least) ∧
          a.said node <+: [{ max := highest node }, { max := highest node, run := least }]) ∧
        (a.Quiet → ∀ node ∈ members, (a.seat node).group.running? = some least) := by
  obtain ⟨least, hleast⟩ := Version.exists_common hne highest
  refine ⟨least, hleast.leastOf, fun deliveries => ?_⟩
  have hnew : (new.changeMembers members highest moment).Forming members highest least :=
    forming_changeMembers hne moment
  have hforming := hnew.deliverAll hleast deliveries
  refine ⟨fun node hnode => ⟨?_, ?_⟩, fun hquiet node hnode => ?_⟩
  · unfold DaemonGroup.running?
    obtain hunset | hrun := (hforming.seats node hnode).knows.run
    · rw [hunset]
      exact .inl rfl
    · rw [hrun, hleast.isSet]
      exact .inr rfl
  · rw [(hforming.seats node hnode).said]
    split
    · exact List.prefix_rfl
    · exact ⟨[_], rfl⟩
  · unfold DaemonGroup.running?
    rw [hforming.running_of_quiet hleast hquiet hnode, hleast.isSet]
    rfl

end Assembly

end

namespace Assembly

section

/-- Three nodes that speak up to 1.2.2, 1.1.3 and 2.1.1. -/
def threeVersions (node : NodeId) : PositiveVersion :=
  if node = 1 then ⟨{ major := 1, minor := 2, patch := 2 }, by decide⟩
  else if node = 2 then ⟨{ major := 1, minor := 1, patch := 3 }, by decide⟩
  else ⟨{ major := 2, minor := 1, patch := 1 }, by decide⟩

/-- Node 3 hears everyone first, and its proposal is there before the others have heard anyone. -/
def thirdProposes : List Delivery :=
  let takesUp (node : NodeId) : Delivery := .takesUp node {}
  [.places 3, .places 1, .places 2, takesUp 3, takesUp 3, takesUp 3, .places 3, takesUp 3,
   takesUp 1, takesUp 1, takesUp 1, .places 1, takesUp 1, takesUp 1, takesUp 2, takesUp 2,
   takesUp 2, .places 2, takesUp 2, takesUp 2, takesUp 2, takesUp 1, takesUp 3, takesUp 3]

/-- All three have proposed, nothing is undelivered, and all run 1.1.3. -/
theorem settles_on_least_thirdProposes :
    let a := (new.changeMembers [1, 2, 3] threeVersions fun _ => {}).deliverAll thirdProposes
    [(1 : NodeId), 2, 3] ≠ [] ∧ a.Quiet ∧
      ∃ least, least.LeastOf ([1, 2, 3].map (threeVersions ·)) ∧
        least = { major := 1, minor := 1, patch := 3 } ∧
        ∀ node ∈ [1, 2, 3], (a.seat node).group.running? = some least := by
  intro a
  have hquiet : a.Quiet := by decide +kernel
  have hsecond : (a.seat 2).group.running? = some { major := 1, minor := 1, patch := 3 } := by
    decide +kernel
  have hne : [(1 : NodeId), 2, 3] ≠ [] := by decide
  obtain ⟨least, hleast, hsettles⟩ := settles_on_least hne threeVersions fun _ => {}
  have hrunning := (hsettles thirdProposes).2 hquiet
  refine ⟨hne, hquiet, least, hleast, ?_, hrunning⟩
  exact Option.some.inj ((hrunning 2 (by decide)).symm.trans hsecond)

end

end Assembly

end ClusterFence
