import ClusterFence.Change
import Mathlib.Data.List.Forall2

namespace ClusterFence

variable {α β : Type} {p : α → Bool} {f : α → α}

/-- What is in a list looks like something in another one that looks the same. -/
theorem exists_mem_of_map_eq {g : α → β} {l l' : List α} (h : l'.map g = l.map g) {x : α}
    (hx : x ∈ l') : ∃ y ∈ l, g y = g x := by
  have hmem : g x ∈ l.map g := h ▸ List.mem_map_of_mem hx
  simpa using hmem

/-- A view of the elements that the change respects does not see the change. -/
theorem map_updateFirst {g : α → β} (hf : ∀ x, g (f x) = g x) (l : List α) :
    (updateFirst p f l).map g = l.map g := by
  induction l with
  | nil => rfl
  | cons x l ih =>
    unfold updateFirst
    split
    · simp [hf]
    · simp [ih]

/-- What relates each element to itself and to what it is changed to relates the lists. -/
theorem forall₂_updateFirst {r : α → α → Prop} (hsame : ∀ x, r x x) (hf : ∀ x, r x (f x))
    (l : List α) : List.Forall₂ r l (updateFirst p f l) := by
  induction l with
  | nil => exact .nil
  | cons x l ih =>
    unfold updateFirst
    split
    · exact .cons (hf x) (List.forall₂_same.2 fun y _ => hsame y)
    · exact .cons (hsame x) ih

/-- A new element comes from the one that is found. -/
theorem find?_of_mem_updateFirst {x : α} {l : List α} (hx : x ∈ updateFirst p f l) :
    x ∈ l ∨ ∃ y, l.find? p = some y ∧ x = f y := by
  induction l with
  | nil => simp [updateFirst] at hx
  | cons y l ih =>
    rw [List.find?_cons]
    unfold updateFirst at hx
    cases hp : p y with
    | true =>
      rw [hp, if_pos rfl] at hx
      obtain rfl | hx := List.mem_cons.1 hx
      · exact .inr ⟨y, rfl, rfl⟩
      · exact .inl (List.mem_cons_of_mem _ hx)
    | false =>
      rw [hp, if_neg Bool.false_ne_true] at hx
      obtain rfl | hx := List.mem_cons.1 hx
      · exact .inl List.mem_cons_self
      · exact (ih hx).imp_left (List.mem_cons_of_mem _)

/-- Nothing changes if the first element that passes the test is kept. -/
theorem updateFirst_eq_self {l : List α} (h : ∀ x, l.find? p = some x → f x = x) :
    updateFirst p f l = l := by
  induction l with
  | nil => rfl
  | cons x l ih =>
    unfold updateFirst
    cases hp : p x with
    | true => rw [if_pos rfl, h x (List.find?_cons_of_pos hp)]
    | false =>
      have hrest : (x :: l).find? p = l.find? p := List.find?_cons_of_neg (by simp [hp])
      rw [if_neg Bool.false_ne_true, ih fun y hy => h y (hrest.trans hy)]

theorem mem_updateFirst {x : α} {l : List α} (hx : x ∈ updateFirst p f l) :
    x ∈ l ∨ ∃ y ∈ l, p y = true ∧ x = f y := by
  obtain hx | ⟨y, hy, rfl⟩ := find?_of_mem_updateFirst hx
  · exact .inl hx
  · exact .inr ⟨y, List.mem_of_find?_eq_some hy, List.find?_some hy, rfl⟩

theorem mem_updateFirst_of_not {x : α} {l : List α} (hx : x ∈ l) (hp : l.find? p ≠ some x) :
    x ∈ updateFirst p f l := by
  induction l with
  | nil => cases hx
  | cons y l ih =>
    rw [List.find?_cons] at hp
    unfold updateFirst
    obtain rfl | hx := List.mem_cons.1 hx
    · cases hpx : p x <;> simp_all
    · cases hpy : p y with
      | true => simp [hx]
      | false =>
        rw [hpy] at hp
        simp [ih hx hp]

/-- The element that is found is the one that is changed. -/
theorem mem_updateFirst_of_find? {x : α} {l : List α} (hx : l.find? p = some x) :
    f x ∈ updateFirst p f l := by
  induction l with
  | nil => cases hx
  | cons y l ih =>
    rw [List.find?_cons] at hx
    unfold updateFirst
    cases hpy : p y <;> simp_all

/-- A test that the change respects is passed as often as before. -/
theorem any_updateFirst {q : α → Bool} (hf : ∀ x, p x = true → q (f x) = q x) (l : List α) :
    (updateFirst p f l).any q = l.any q := by
  induction l with
  | nil => rfl
  | cons x l ih =>
    unfold updateFirst
    split <;> simp_all

/-- The element that is changed is found as it is after the change. -/
theorem find?_updateFirst (hf : ∀ x, p (f x) = p x) (l : List α) :
    (updateFirst p f l).find? p = (l.find? p).map f := by
  induction l with
  | nil => rfl
  | cons x l ih =>
    unfold updateFirst
    cases hx : p x with
    | true => simp [hf, hx]
    | false => simp [hx, ih]

/-- A search that the changed element does not meet does not see the change. -/
theorem find?_updateFirst_of_disjoint {q : α → Bool}
    (hq : ∀ x, p x = true → q x = false ∧ q (f x) = false) (l : List α) :
    (updateFirst p f l).find? q = l.find? q := by
  induction l with
  | nil => rfl
  | cons x l ih =>
    unfold updateFirst
    cases hx : p x with
    | true => simp [hq x hx]
    | false => cases hqx : q x <;> simp [hqx, ih]

/-- Where no key occurs twice, each element is found by its own. -/
theorem find?_of_mem [BEq β] [LawfulBEq β] {key : α → β} {l : List α}
    (hnodup : (l.map key).Nodup) {x : α} (hx : x ∈ l) : l.find? (key · == key x) = some x := by
  induction l with
  | nil => cases hx
  | cons first rest ih =>
    rw [List.map_cons, List.nodup_cons] at hnodup
    rw [List.find?_cons]
    obtain rfl | hx := List.mem_cons.1 hx
    · rw [beq_self_eq_true]
    · have hne : (key first == key x) = false := by
        apply beq_false_of_ne
        intro heq
        exact hnodup.1 (heq ▸ List.mem_map_of_mem hx)
      rw [hne]
      exact ih hnodup.2 hx

end ClusterFence
