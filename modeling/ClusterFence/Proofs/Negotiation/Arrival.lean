import ClusterFence.Proofs.Negotiation.Running
import Mathlib.Data.List.Forall2

namespace ClusterFence

namespace DaemonGroupInput

/-- The input concerns the node: the members change, or we gain state, or the node announces its
    versions. -/
def concerns (node : NodeId) : DaemonGroupInput → Bool
  | .membership _ _ _ | .stateful => true
  | .offer sender _ _ _ => sender == node
  | .proposes => false

/-- The inputs are the same, but the members may be listed in another order and more than once. -/
inductive Alike : DaemonGroupInput → DaemonGroupInput → Prop
  | refl (i) : Alike i i
  | membership {members members'} (same : ∀ node, node ∈ members ↔ node ∈ members') (joined now) :
      Alike (.membership members joined now) (.membership members' joined now)

/-- What concerns a node comes in the same order in both runs, for each node by itself.
    Announcements of different nodes may come in any order. -/
def SameForEach (inputs inputs' : List DaemonGroupInput) : Prop :=
  ∀ node, List.Forall₂ Alike (inputs.filter (concerns node)) (inputs'.filter (concerns node))

/-- Two announcements of different nodes can change places. -/
theorem sameForEach_swap {sender sender' : NodeId} (hne : sender ≠ sender') (o o' : Offer)
    (quorate quorate' : Bool) (time time' : Seconds) (before after : List DaemonGroupInput) :
    SameForEach
      (before ++ .offer sender o quorate time :: .offer sender' o' quorate' time' :: after)
      (before ++ .offer sender' o' quorate' time' :: .offer sender o quorate time :: after) := by
  intro node
  have hsame : List.filter (concerns node)
        [.offer sender o quorate time, .offer sender' o' quorate' time'] =
      List.filter (concerns node)
        [.offer sender' o' quorate' time', .offer sender o quorate time] := by
    by_cases hsender : sender = node
    · have hother : (sender' == node) = false := by simpa [← hsender] using hne.symm
      simp only [List.filter, concerns, hother]
    · have hother : (sender == node) = false := by simpa using hsender
      simp only [List.filter, concerns, hother]
  have hsplit (first second : DaemonGroupInput) :
      before ++ first :: second :: after = before ++ [first, second] ++ after := by simp
  rw [hsplit, hsplit]
  simp only [List.filter_append, hsame]
  exact List.forall₂_same.2 fun i _ => .refl i

end DaemonGroupInput

namespace DaemonGroup

open DaemonGroupInput

/-- What decides about the offer of a node: what is known of the node, and whether we have state. -/
def view (g : DaemonGroup) (node : NodeId) : DaemonNode × Bool :=
  (g.record node, g.ours.run.isStateful)

section

variable {g g' : DaemonGroup} {node : NodeId} {i i' : DaemonGroupInput}

/-- To adopt a version is not to gain state. -/
theorem isStateful_adopt (g : DaemonGroup) (run : Version) :
    (g.adopt run).isStateful = g.ours.run.isStateful := by
  obtain ⟨-, hkept⟩ | ⟨-, -, hadopted⟩ := g.adopt_cases run
  · rw [hkept]
  · rw [hadopted]
    rfl

theorem isStateful_step (g : DaemonGroup) (i : DaemonGroupInput) :
    (g.step i).ours.run.isStateful =
      match i with
      | .stateful => true
      | _ => g.ours.run.isStateful := by
  cases i with
  | membership members joined now => rfl
  | offer sender o quorate quorateTime =>
    obtain ⟨-, hrefused⟩ | ⟨verdict, hears⟩ := g.hears_step sender o quorate quorateTime
    · rw [hrefused]
    · generalize g.step (.offer sender o quorate quorateTime) = after at hears ⊢
      cases hears with
      | merged => rfl
      | held => exact g.isStateful_adopt o.run
  | proposes =>
    rw [step, propose_fst]
  | stateful => exact g.isStateful_setStateful

/-- What does not concern a node does not show in its view. -/
theorem view_step_of_not_concerns (h : concerns node i = false) :
    (g.step i).view node = g.view node := by
  unfold view
  rw [isStateful_step]
  cases i with
  | membership members joined now => cases h
  | offer sender o quorate quorateTime =>
    have hother : sender ≠ node := by simpa [concerns] using h
    rw [record_step_offer]
    simp [hother]
  | proposes => rw [record_step_proposes]
  | stateful => cases h

/-- Inputs that are alike make the same of a view. -/
theorem view_step_congr (hus : g.us = g'.us) (hview : g.view node = g'.view node)
    (hi : Alike i i') : (g.step i).view node = (g'.step i').view node := by
  obtain ⟨hrecord, hstateful⟩ := Prod.mk.inj hview
  unfold view
  rw [isStateful_step, isStateful_step]
  cases hi with
  | membership same joined now =>
    rw [step, step, record_changeMembers, record_changeMembers, hrecord, hstateful,
      List.contains_eq_mem, List.contains_eq_mem]
    simp [same]
  | refl =>
    cases i with
    | membership members joined now =>
      rw [step, step, record_changeMembers, record_changeMembers, hrecord, hstateful]
    | offer sender o quorate quorateTime =>
      have hmerge (n : DaemonNode) :
          g.isStatefulMerge node n o = g'.isStatefulMerge node n o := by
        rw [isStatefulMerge, isStatefulMerge, hus, hstateful]
      rw [record_step_offer, record_step_offer, lists_eq_record, lists_eq_record, hrecord,
        hstateful]
      simp only [hmerge]
    | proposes => rw [record_step_proposes, record_step_proposes, hrecord, hstateful]
    | stateful => rw [record_step_stateful, record_step_stateful, hrecord]

theorem view_play_congr {inputs inputs' : List DaemonGroupInput} (hus : g.us = g'.us)
    (hview : g.view node = g'.view node) (hinputs : List.Forall₂ Alike inputs inputs') :
    (g.play inputs).view node = (g'.play inputs').view node := by
  induction hinputs generalizing g g' with
  | nil => exact hview
  | @cons i i' _ _ hi _ ih =>
    refine ih ?_ (view_step_congr hus hview hi)
    rw [(us_members_step g i).1, (us_members_step g' i').1, hus]

/-- For the view of a node the inputs that do not concern it can be left out. -/
theorem view_play_filter (g : DaemonGroup) (node : NodeId) (inputs : List DaemonGroupInput) :
    (g.play inputs).view node = (g.play (inputs.filter (concerns node))).view node := by
  induction inputs generalizing g with
  | nil => rfl
  | cons i rest ih =>
    rw [List.filter_cons]
    have hrest : (g.play (i :: rest)).view node =
        ((g.step i).play (rest.filter (concerns node))).view node := ih (g.step i)
    cases hconcerns : concerns node i with
    | true => exact hrest
    | false =>
      rw [hrest, if_neg Bool.false_ne_true]
      exact view_play_congr (us_members_step g i).1 (view_step_of_not_concerns hconcerns)
        (List.forall₂_same.2 fun i _ => .refl i)

/-- A version that is least of some is least of the same ones listed in another way. -/
theorem lowestVersion_congr (hsound : g.Sound) (hsound' : g'.Sound) (hheard : g.allHeard = true)
    (hmembers : ∀ node, node ∈ g'.members ↔ node ∈ g.members)
    (hoffers : ∀ node, g'.offer? node = g.offer? node) : g'.lowestVersion = g.lowestVersion := by
  have hheard' : g'.allHeard = true := by
    rw [allHeard_iff] at hheard ⊢
    obtain ⟨hne, hall⟩ := hheard
    obtain ⟨first, hfirst⟩ := List.exists_mem_of_ne_nil _ hne
    refine ⟨List.ne_nil_of_mem ((hmembers first).2 hfirst), fun node hnode => ?_⟩
    rw [hoffers]
    exact hall node ((hmembers node).1 hnode)
  obtain ⟨least, hleast, hflags, hleastOf⟩ := hsound.lowestVersion hheard
  obtain ⟨least', hleast', hflags', hleastOf'⟩ := hsound'.lowestVersion hheard'
  have hversions (v : Version) : v ∈ g'.members.map g'.highest ↔ v ∈ g.members.map g.highest := by
    simp only [List.mem_map, hmembers, highest, hoffers]
  have hsame : least'.LeastOf (g.members.map g.highest) := by
    simpa only [Version.LeastOf, hversions] using hleastOf'
  rw [hleast, hleast', hsame.eq hleastOf (hflags'.trans hflags.symm)]

end

section

variable (us : NodeId) (max : Version) {inputs inputs' : List DaemonGroupInput}

/-- Of two runs that are the same for each node, the members and what is held of them are the
    same. -/
theorem SameForEach.agree (h : SameForEach inputs inputs') (node : NodeId) :
    (node ∈ ((new us max).play inputs').members ↔ node ∈ ((new us max).play inputs).members) ∧
      ((new us max).play inputs').offer? node = ((new us max).play inputs).offer? node := by
  have hview : ((new us max).play inputs').view node = ((new us max).play inputs).view node := by
    rw [view_play_filter, view_play_filter _ _ inputs]
    exact (view_play_congr rfl rfl (h node)).symm
  have hrecord := congrArg Prod.fst hview
  dsimp only [view] at hrecord
  rw [← (coherent_play us max inputs').lists_iff, ← (coherent_play us max inputs).lists_iff,
    lists_eq_record, lists_eq_record, offer?_eq_record, offer?_eq_record, hrecord]
  exact ⟨.rfl, rfl⟩

end

/-- After every run in which an offer is held from every member, and there is one, the version to
    propose is found. It has the numbers of the highest version of some member, and in the order of
    majors, then minors, then patches it is not above that of any. How the members are listed does
    not matter to it, nor in which order the announcements of different nodes came. -/
theorem lowestVersion_play (us : NodeId) (max : Version) (inputs : List DaemonGroupInput)
    (hmember : ((new us max).play inputs).members ≠ [])
    (hheld : ∀ node ∈ ((new us max).play inputs).members,
      (((new us max).play inputs).offer? node).isSome = true) :
    let g := (new us max).play inputs
    (∃ least, g.lowestVersion = .ok least ∧
      (∃ node ∈ g.members, ∃ o, g.offer? node = some o ∧ least = o.max.withoutFlags) ∧
      ∀ node ∈ g.members, ∀ o, g.offer? node = some o →
        least.major < o.max.major ∨ least.major = o.max.major ∧
          (least.minor < o.max.minor ∨ least.minor = o.max.minor ∧ least.patch ≤ o.max.patch)) ∧
    (∀ members, (∀ node, node ∈ members ↔ node ∈ g.members) →
      { g with members }.lowestVersion = g.lowestVersion) ∧
    ∀ inputs', SameForEach inputs inputs' →
      ((new us max).play inputs').lowestVersion = g.lowestVersion := by
  intro g
  have hsound : g.Sound := sound_play us max inputs
  have hheard : g.allHeard = true := allHeard_iff.2 ⟨hmember, hheld⟩
  refine ⟨?_, fun members hmembers => ?_, fun inputs' hsame => ?_⟩
  · obtain ⟨least, hleast, hflags, ⟨v, hv, hnumbers⟩, hle⟩ := hsound.lowestVersion hheard
    refine ⟨least, hleast, ?_, fun node hnode o ho => ?_⟩
    · obtain ⟨node, hnode, rfl⟩ := List.mem_map.1 hv
      obtain ⟨o, ho⟩ := Option.isSome_iff_exists.1 (hheld node hnode)
      rw [highest_of_offer? ho] at hnumbers
      obtain ⟨hmajor, hminor, hpatch⟩ := Version.numbers_eq_iff.1 hnumbers
      refine ⟨node, hnode, o, ho, ?_⟩
      cases least
      simp_all [Version.withoutFlags]
    · rw [← Version.numbers_le_iff, ← highest_of_offer? ho]
      exact hle _ (List.mem_map_of_mem hnode)
  · exact lowestVersion_congr hsound ⟨hsound.run, hsound.held⟩ hheard hmembers fun _ => rfl
  · have hagree := SameForEach.agree us max hsame
    exact lowestVersion_congr hsound (sound_play us max inputs') hheard
      (fun node => (hagree node).1) fun node => (hagree node).2

/-- Three daemons of which the second speaks the lowest minor number, and the third the lowest
    patch of the higher one. -/
def threeHeard : List DaemonGroupInput :=
  [.membership [1, 2, 3] [1, 2, 3] 10, .offer 1 { max := ⟨2, 2, 5, 0⟩ } true 5,
   .offer 2 { max := ⟨2, 1, 7, 0⟩ } true 5, .offer 3 { max := ⟨2, 2, 1, 0⟩ } true 5]

/-- The second daemon is heard first, and the members are listed backwards, one of them twice. -/
theorem lowestVersion_play_threeHeard :
    let g := (new 1 .highest).play threeHeard
    let reordered : List DaemonGroupInput :=
      [.membership [3, 2, 1, 3] [1, 2, 3] 10, .offer 2 { max := ⟨2, 1, 7, 0⟩ } true 5,
       .offer 1 { max := ⟨2, 2, 5, 0⟩ } true 5, .offer 3 { max := ⟨2, 2, 1, 0⟩ } true 5]
    (g.members ≠ [] ∧ ∀ node ∈ g.members, (g.offer? node).isSome = true) ∧
      g.lowestVersion = .ok ⟨2, 1, 7, 0⟩ ∧ SameForEach threeHeard reordered ∧
      ((new 1 .highest).play reordered).lowestVersion = .ok ⟨2, 1, 7, 0⟩ := by
  intro g reordered
  have hmember : g.members ≠ [] := by decide +kernel
  have hheld : ∀ node ∈ g.members, (g.offer? node).isSome = true :=
    List.all_eq_true.1 (by decide +kernel)
  have hlowest : g.lowestVersion = .ok ⟨2, 1, 7, 0⟩ := by decide +kernel
  have hsame : SameForEach threeHeard reordered := by
    intro node
    have hlists : Alike (.membership [1, 2, 3] [1, 2, 3] 10)
        (.membership [3, 2, 1, 3] [1, 2, 3] 10) := by
      refine .membership (fun node => ?_) _ _
      simp only [List.mem_cons, List.not_mem_nil, or_false]
      tauto
    have hne : (1 : NodeId) ≠ 2 := by decide
    have hoffers := sameForEach_swap hne { max := ⟨2, 2, 5, 0⟩ } { max := ⟨2, 1, 7, 0⟩ } true true
      5 5 [] [.offer 3 { max := ⟨2, 2, 1, 0⟩ } true 5] node
    exact .cons hlists hoffers
  refine ⟨⟨hmember, hheld⟩, hlowest, hsame, ?_⟩
  rw [(lowestVersion_play 1 .highest threeHeard hmember hheld).2.2 reordered hsame, hlowest]

end DaemonGroup

end ClusterFence
