import ClusterFence.Proofs.Negotiation.Group
import Mathlib.Data.Finset.Max
import Mathlib.Data.Prod.Lex

namespace ClusterFence

namespace Version

/-- The numbers of a version, to be compared one after the other. -/
def numbers (v : Version) : Nat ×ₗ Nat ×ₗ Nat :=
  toLex (v.major.toNat, toLex (v.minor.toNat, v.patch.toNat))

theorem numbers_le_iff {v w : Version} : v.numbers ≤ w.numbers ↔
    v.major < w.major ∨
      v.major = w.major ∧ (v.minor < w.minor ∨ v.minor = w.minor ∧ v.patch ≤ w.patch) := by
  simp only [numbers, Prod.Lex.toLex_le_toLex, UInt16.lt_iff_toNat_lt, UInt16.le_iff_toNat_le,
    UInt16.toNat_inj]

theorem numbers_eq_iff {v w : Version} :
    v.numbers = w.numbers ↔ v.major = w.major ∧ v.minor = w.minor ∧ v.patch = w.patch := by
  simp [numbers, UInt16.toNat_inj]

/-- No part of the version is zero. -/
def Positive (v : Version) : Prop := v.major ≠ 0 ∧ v.minor ≠ 0 ∧ v.patch ≠ 0

instance : DecidablePred Positive := fun _ => inferInstanceAs (Decidable (_ ∧ _ ∧ _))

/-- The version has the numbers of one of these, and none of these is below it. -/
def LeastOf (versions : List Version) (v : Version) : Prop :=
  (∃ w ∈ versions, v.numbers = w.numbers) ∧ ∀ w ∈ versions, v.numbers ≤ w.numbers

theorem exists_leastOf {versions : List Version} (hne : versions ≠ []) :
    ∃ v : Version, v.flags = 0 ∧ v.LeastOf versions := by
  obtain ⟨first, hfirst⟩ := List.exists_mem_of_ne_nil versions hne
  obtain ⟨least, hmem, hle⟩ := versions.toFinset.exists_min_image numbers
    ⟨first, List.mem_toFinset.2 hfirst⟩
  refine ⟨least.withoutFlags, rfl, ⟨least, List.mem_toFinset.1 hmem, rfl⟩, fun w hw => ?_⟩
  exact hle w (List.mem_toFinset.2 hw)

/-- There is one least version, flags apart. -/
theorem LeastOf.eq {versions : List Version} {v w : Version} (hv : v.LeastOf versions)
    (hw : w.LeastOf versions) (hflags : v.flags = w.flags) : v = w := by
  have hle {v w : Version} (hv : v.LeastOf versions) (hw : w.LeastOf versions) :
      v.numbers ≤ w.numbers := by
    obtain ⟨⟨x, hx, heq⟩, -⟩ := hw
    rw [heq]
    exact hv.2 x hx
  obtain ⟨hmajor, hminor, hpatch⟩ := numbers_eq_iff.1 (le_antisymm (hle hv hw) (hle hw hv))
  cases v
  cases w
  simp_all

theorem LeastOf.positive {versions : List Version} {v : Version} (hv : v.LeastOf versions)
    (hpositive : ∀ w ∈ versions, w.Positive) : v.Positive := by
  obtain ⟨⟨w, hw, heq⟩, -⟩ := hv
  obtain ⟨hmajor, hminor, hpatch⟩ := numbers_eq_iff.1 heq
  rw [Positive, hmajor, hminor, hpatch]
  exact hpositive w hw

end Version

namespace DaemonGroup

/-- One part of versions in which it is not zero: the least is that of one of them. -/
theorem leastPart_eq_ok (part : VersionPart) {versions : List Version} (value : Version → UInt16)
    (hne : versions ≠ []) (hpositive : ∀ v ∈ versions, value v ≠ 0) :
    ∃ least ∈ versions, leastPart part (versions.map value) = .ok (value least) ∧
      ∀ v ∈ versions, value least ≤ value v := by
  unfold leastPart
  cases hmin : (versions.map value).min? with
  | none => exact absurd (List.map_eq_nil_iff.1 (List.min?_eq_none_iff.1 hmin)) hne
  | some n =>
    obtain ⟨hmem, hle⟩ := List.min?_eq_some_iff.1 hmin
    obtain ⟨least, hleast, rfl⟩ := List.mem_map.1 hmem
    refine ⟨least, hleast, ?_, fun v hv => hle _ (List.mem_map_of_mem hv)⟩
    simp [hpositive least hleast]

/-- What is known of members that have all been heard. -/
theorem highestVersions_eq_ok {g : DaemonGroup} {highest : NodeId → Version}
    (hheard : ∀ node ∈ g.members, ∃ o, g.offer? node = some o ∧ o.max = highest node) :
    g.highestVersions = .ok (g.members.map highest) := by
  unfold highestVersions
  generalize g.members = members at hheard
  induction members with
  | nil => rfl
  | cons first rest ih =>
    obtain ⟨o, hoffer, hmax⟩ := hheard first List.mem_cons_self
    rw [List.mapM_cons, hoffer, ih fun node hnode => hheard node (List.mem_cons_of_mem _ hnode),
      List.map_cons, ← hmax]
    rfl

/-- The version that all members speak is the least of their highest ones. -/
theorem lowestVersion_eq_ok {g : DaemonGroup} {all : List Version}
    (hall : g.highestVersions = .ok all) (hne : all ≠ []) (hpositive : ∀ v ∈ all, v.Positive) :
    ∃ least, g.lowestVersion = .ok least ∧ least.flags = 0 ∧ least.LeastOf all := by
  obtain ⟨v, hv, hmajor, hmajorLe⟩ := leastPart_eq_ok .major (·.major) hne
    fun x hx => (hpositive x hx).1
  have hv' : v ∈ all.filter (·.major == v.major) := List.mem_filter.2 ⟨hv, by simp⟩
  obtain ⟨w, hw, hminor, hminorLe⟩ := leastPart_eq_ok .minor (·.minor) (List.ne_nil_of_mem hv')
    fun x hx => (hpositive x (List.mem_filter.1 hx).1).2.1
  have hw' : w ∈ (all.filter (·.major == v.major)).filter (·.minor == w.minor) :=
    List.mem_filter.2 ⟨hw, by simp⟩
  obtain ⟨u, hu, hpatch, hpatchLe⟩ := leastPart_eq_ok .patch (·.patch) (List.ne_nil_of_mem hw')
    fun x hx => (hpositive x (List.mem_filter.1 (List.mem_filter.1 hx).1).1).2.2
  simp only [List.mem_filter, beq_iff_eq, and_imp] at hu hminorLe hpatchLe
  obtain ⟨⟨hu, huMajor⟩, huMinor⟩ := hu
  refine ⟨{ major := v.major, minor := w.minor, patch := u.patch }, ?_, rfl, ⟨u, hu, ?_⟩, ?_⟩
  · unfold lowestVersion
    rw [hall]
    simp only [bind, Except.bind, hmajor, hminor, hpatch, pure, Except.pure]
  · exact Version.numbers_eq_iff.2 ⟨huMajor.symm, huMinor.symm, rfl⟩
  · intro x hx
    rw [Version.numbers_le_iff]
    dsimp only
    obtain hlt | heq := UInt16.lt_or_eq_of_le (hmajorLe x hx)
    · exact .inl hlt
    obtain hlt | heq' := UInt16.lt_or_eq_of_le (hminorLe x hx heq.symm)
    · exact .inr ⟨heq, .inl hlt⟩
    · exact .inr ⟨heq, .inr ⟨heq', hpatchLe x hx heq.symm heq'.symm⟩⟩

theorem ne_zero_of_leastPart {part : VersionPart} {values : List UInt16} {n : UInt16}
    (h : leastPart part values = .ok n) : n ≠ 0 := by
  unfold leastPart at h
  split at h
  · split at h
    · cases h
    · rename_i hne
      cases h
      simpa using hne
  · cases h

/-- No version with a zero in it is ever proposed. -/
theorem positive_of_lowestVersion {g : DaemonGroup} {v : Version}
    (h : g.lowestVersion = .ok v) : v.Positive := by
  unfold lowestVersion at h
  simp only [bind, Except.bind] at h
  split at h
  · cases h
  split at h
  · cases h
  rename_i hmajor
  split at h
  · cases h
  rename_i hminor
  split at h
  · cases h
  rename_i hpatch
  cases h
  exact ⟨ne_zero_of_leastPart hmajor, ne_zero_of_leastPart hminor, ne_zero_of_leastPart hpatch⟩

end DaemonGroup

end ClusterFence
