import ClusterFence.Document.Toml.Value

namespace ClusterFence.Toml

/-- The value of a digit. -/
def digitValue (c : Char) : Nat := c.toNat - '0'.toNat

section

variable {ds rest cs : List Char} {c d : Char} {n m width : Nat}

theorem ne_of_isDigit (h : d.isDigit = true) (hc : c.isDigit = false) : d ≠ c := by
  rintro rfl
  rw [h] at hc
  cases hc

theorem digit?_of_isDigit (h : d.isDigit = true) : digit? 10 d = some (digitValue d) := by
  have hrange := Char.isDigit_iff_toNat.1 h
  have hhex : hexDigit? d = some (digitValue d) := by
    rw [Char.isDigit, Bool.and_eq_true, decide_eq_true_eq, decide_eq_true_eq] at h
    unfold hexDigit?
    rw [if_pos (by rw [Bool.and_eq_true, decide_eq_true_eq, decide_eq_true_eq]; exact h)]
    rfl
  have hten : digitValue d < 10 := by
    change '0'.toNat ≤ d.toNat ∧ d.toNat ≤ '9'.toNat at hrange
    rw [digitValue]
    have hzero : '0'.toNat = 48 := rfl
    have hnine : '9'.toNat = 57 := rfl
    omega
  rw [digit?, hhex]
  simp [hten]

theorem fixedDigits?_append (hds : ∀ d ∈ ds, d.isDigit = true) (hc : c.isDigit = false)
    (h : fixedDigits? width n (ds ++ c :: rest) = some (m, cs)) :
    ∃ left, (∀ d ∈ left, d.isDigit = true) ∧ cs = left ++ c :: rest := by
  induction width generalizing ds n with
  | zero =>
    cases h
    exact ⟨ds, hds, rfl⟩
  | succ width ih =>
    cases ds with
    | nil => simp [fixedDigits?, hc] at h
    | cons d ds =>
      obtain ⟨hd, hds⟩ := List.forall_mem_cons.1 hds
      simp only [List.cons_append, fixedDigits?, hd, if_true] at h
      exact ih hds h

theorem after?_append (hds : ∀ d ∈ ds, d.isDigit = true) {stop : Char}
    (hstop : stop.isDigit = false) (hc : c ≠ stop) : after? stop (ds ++ c :: rest) = none := by
  cases ds with
  | nil => simp [after?, hc]
  | cons d ds => simp [after?, ne_of_isDigit (hds d List.mem_cons_self) hstop]

/-- A number is not the beginning of a moment. -/
theorem moment?_append (hds : ∀ d ∈ ds, d.isDigit = true) (hc : c.isDigit = false)
    (hdash : c ≠ '-') (hcolon : c ≠ ':') : moment? (ds ++ c :: rest) = none := by
  have hdate : date? (ds ++ c :: rest) = none := by
    unfold date?
    cases hyear : fixedDigits? 4 0 (ds ++ c :: rest) with
    | none => rfl
    | some read =>
      obtain ⟨left, hleft, hcs⟩ := fixedDigits?_append hds hc hyear
      simp [hcs, after?_append hleft (rfl : '-'.isDigit = false) hdash]
  have htime : time? (ds ++ c :: rest) = none := by
    unfold time? twoDigits?
    cases hhour : fixedDigits? 2 0 (ds ++ c :: rest) with
    | none => rfl
    | some read =>
      obtain ⟨hour, cs⟩ := read
      obtain ⟨left, hleft, rfl⟩ := fixedDigits?_append hds hc hhour
      simp [after?_append hleft (rfl : ':'.isDigit = false) hcolon]
  rw [moment?, hdate, htime]

theorem moreDigits?_append (hds : ∀ d ∈ ds, d.isDigit = true) (hc : digit? 10 c = none)
    (hunderscore : c ≠ '_') (rest : List Char) :
    moreDigits? 10 (ds ++ c :: rest) = some (ds.map digitValue, c :: rest) := by
  induction ds with
  | nil =>
    rw [List.nil_append, moreDigits?.eq_def]
    split <;> simp_all
  | cons d ds ih =>
    obtain ⟨hd, hds⟩ := List.forall_mem_cons.1 hds
    have hone : d ≠ '_' := ne_of_isDigit hd rfl
    rw [List.cons_append, moreDigits?.eq_def]
    split <;> simp_all [digit?_of_isDigit]

/-- A number other than zero does not begin with a zero. -/
theorem toDigits_eq_cons (hn : n ≠ 0) : ∃ d ds, Nat.toDigits 10 n = d :: ds ∧ d ≠ '0' := by
  induction n using Nat.strongRecOn with
  | ind n ih =>
    rw [Nat.toDigits_eq_if (by omega)]
    split
    next hsmall =>
      have hdigit : ∀ n < 10, n ≠ 0 → n.digitChar ≠ '0' := by decide
      exact ⟨n.digitChar, [], rfl, hdigit n hsmall hn⟩
    next hlarge =>
      obtain ⟨d, ds, hds, hd⟩ := ih (n / 10) (by omega) (by omega)
      exact ⟨d, ds ++ [(n % 10).digitChar], by rw [hds, List.cons_append], hd⟩

theorem isDigit_of_mem_toDigits (hd : d ∈ Nat.toDigits 10 n) : d.isDigit = true :=
  Nat.isDigit_of_mem_toDigits (by decide) (by decide) hd

theorem ofDigits_toDigits (n : Nat) :
    ofDigits 10 ((Nat.toDigits 10 n).map digitValue) = n := by
  rw [ofDigits, List.foldl_map]
  exact Nat.ofDigitChars_ten_toDigits

theorem plainDigits?_toDigits (n : Nat) (hc : digit? 10 c = none) (hunderscore : c ≠ '_')
    (rest : List Char) :
    plainDigits? (Nat.toDigits 10 n ++ c :: rest) =
      some ((Nat.toDigits 10 n).map digitValue, c :: rest) := by
  by_cases hn : n = 0
  · rw [hn, Nat.toDigits_zero]
    rfl
  · obtain ⟨d, ds, hdigits, hd⟩ := toDigits_eq_cons hn
    have hds : ∀ e ∈ d :: ds, e.isDigit = true := fun e he =>
      isDigit_of_mem_toDigits (hdigits ▸ he)
    obtain ⟨hdigit, hds⟩ := List.forall_mem_cons.1 hds
    rw [hdigits, List.cons_append, plainDigits?.eq_def]
    split
    next h => exact absurd (List.head_eq_of_cons_eq h) hd
    next => simp [digits?, digit?_of_isDigit hdigit, moreDigits?_append hds hc hunderscore]

theorem signedNumber?_toDigits (hn : (n : Int) ≤ Int64.maxValue.toInt) (hc : c = '\n' ∨ c = ',')
    (rest : List Char) :
    signedNumber? false (Nat.toDigits 10 n ++ c :: rest) = some (.integer n, c :: rest) := by
  have hvalue : integerValue? n = some (.integer n) := by
    simp [integerValue?, hn]
  unfold signedNumber?
  obtain rfl | rfl := hc <;>
    simp [plainDigits?_toDigits, digit?, hexDigit?, ofDigits_toDigits, hvalue]

theorem number?_toDigits (hn : (n : Int) ≤ Int64.maxValue.toInt) (hc : c = '\n' ∨ c = ',')
    (rest : List Char) :
    number? (Nat.toDigits 10 n ++ c :: rest) = some (.integer n, c :: rest) := by
  by_cases hzero : n = 0
  · rw [hzero, Nat.toDigits_zero]
    obtain rfl | rfl := hc <;> rfl
  · have hsigned := signedNumber?_toDigits hn hc rest
    obtain ⟨d, ds, hdigits, hd⟩ := toDigits_eq_cons hzero
    have hdigit : d.isDigit = true := isDigit_of_mem_toDigits (by rw [hdigits]; simp)
    rw [hdigits, List.cons_append] at hsigned ⊢
    have hsign : sign (d :: (ds ++ c :: rest)) = (false, d :: (ds ++ c :: rest)) := by
      rw [sign.eq_def]
      split <;> simp_all [Char.isDigit]
    rw [number?.eq_def]
    split
    next h => exact absurd (List.head_eq_of_cons_eq h) hd
    next h => exact absurd (List.head_eq_of_cons_eq h) hd
    next h => exact absurd (List.head_eq_of_cons_eq h) hd
    next =>
      rw [hsign]
      split
      next h =>
        obtain rfl := List.head_eq_of_cons_eq (Prod.mk.inj h).2
        cases hdigit
      next h =>
        obtain rfl := List.head_eq_of_cons_eq (Prod.mk.inj h).2
        cases hdigit
      next h =>
        obtain ⟨rfl, rfl⟩ := Prod.mk.inj h
        exact hsigned

theorem cons_ne_of_isDigit (hd : d.isDigit = true) {cs' : List Char} (hc : c.isDigit = false) :
    d :: cs ≠ c :: cs' :=
  fun h => ne_of_isDigit hd hc (List.head_eq_of_cons_eq h)

theorem scalarValue?_digit (hd : d.isDigit = true) (hmoment : moment? (d :: cs) = none) :
    scalarValue? (d :: cs) = number? (d :: cs) := by
  rw [scalarValue?.eq_def]
  split
  next h => exact absurd h (cons_ne_of_isDigit hd rfl)
  next h => exact absurd h (cons_ne_of_isDigit hd rfl)
  next h => exact absurd h (cons_ne_of_isDigit hd rfl)
  next h => exact absurd h (cons_ne_of_isDigit hd rfl)
  next => rw [hmoment]

/-- A value that begins with a digit holds no other values. -/
theorem valueWithin?_digit (hd : d.isDigit = true) (depth : Nat) (cs : List Char) :
    valueWithin? depth (d :: cs) = scalarValue? (d :: cs) := by
  cases depth with
  | zero => rfl
  | succ depth =>
    rw [valueWithin?.eq_def]
    dsimp only
    split
    next h => exact absurd h (cons_ne_of_isDigit hd rfl)
    next h => exact absurd h (cons_ne_of_isDigit hd rfl)
    next => rfl

/-- A number that a program writes is read as that number, however deep it stands. -/
theorem valueWithin?_toDigits (hn : (n : Int) ≤ Int64.maxValue.toInt) (hc : c = '\n' ∨ c = ',')
    (depth : Nat) (rest : List Char) :
    valueWithin? depth (Nat.toDigits 10 n ++ c :: rest) = some (.integer n, c :: rest) := by
  have hnumber := number?_toDigits hn hc rest
  have hmoment : moment? (Nat.toDigits 10 n ++ c :: rest) = none := by
    refine moment?_append (fun _ => isDigit_of_mem_toDigits) ?_ ?_ ?_ <;>
      obtain rfl | rfl := hc <;> decide
  cases hdigits : Nat.toDigits 10 n with
  | nil => exact absurd hdigits Nat.toDigits_ne_nil
  | cons d ds =>
    have hdigit : d.isDigit = true := isDigit_of_mem_toDigits (by rw [hdigits]; simp)
    rw [hdigits, List.cons_append] at hnumber hmoment
    rw [List.cons_append, valueWithin?_digit hdigit, scalarValue?_digit hdigit hmoment, hnumber]

end

end ClusterFence.Toml
