import ClusterFence.Proofs.Toml.Number
import ClusterFence.Proofs.Toml.Table
import ClusterFence.Proofs.Toml.Text

namespace ClusterFence.Toml

/-- A text, which may be several lines of text, is read as a line, whatever follows it. -/
def Says (text : String) (line : Line) : Prop :=
  ∀ rest, line? (text.toList ++ '\n' :: rest) = some (line, rest)

def isBareKey (key : String) : Bool := !key.toList.isEmpty && key.toList.all isBare

/-- A key, an equals sign between blanks, and what follows it. -/
def keyed (key : String) (cs : List Char) : List Char := key.toList ++ ' ' :: '=' :: ' ' :: cs

/-- Texts as lines of a text. -/
def written (said : List (String × Line)) : List Char :=
  said.flatMap fun p => p.1.toList ++ ['\n']

section

variable {key : String} {cs rest : List Char} {c : Char} {line : Line} {fuel : Nat}
  {said : List (String × Line)} {read : List Char → Option (Document × List Char)}

theorem skipBlanks_cons (hc : isBlank c = false) (cs : List Char) :
    skipBlanks (c :: cs) = c :: cs :=
  List.dropWhile_cons_of_neg (by simp [hc])

theorem ne_of_isBare {d : Char} (h : isBare c = true) (hd : isBare d = false) : c ≠ d := by
  rintro rfl
  rw [h] at hd
  cases hd

theorem skipBlanks_bare (hc : isBare c = true) (cs : List Char) :
    skipBlanks (c :: cs) = c :: cs := by
  have hspace : c ≠ ' ' := ne_of_isBare hc rfl
  have htab : c ≠ '\t' := ne_of_isBare hc rfl
  exact skipBlanks_cons (by simp [isBlank, hspace, htab]) cs

/-- What is written under a key begins with a character of the key. -/
theorem keyed_eq_cons (hkey : isBareKey key = true) (cs : List Char) :
    ∃ c more, isBare c = true ∧ keyed key cs = c :: more := by
  rw [isBareKey, Bool.and_eq_true, Bool.not_eq_true', List.isEmpty_eq_false_iff] at hkey
  obtain ⟨hne, hbare⟩ := hkey
  cases hlist : key.toList with
  | nil => exact absurd hlist hne
  | cons c more =>
    rw [hlist, List.all_cons, Bool.and_eq_true] at hbare
    exact ⟨c, _, hbare.1, by rw [keyed, hlist, List.cons_append]⟩

/-- A key without quotes is read up to the blank after it. -/
theorem key?_keyed (hkey : isBareKey key = true) (cs : List Char) :
    key? (keyed key cs) = some ([key], '=' :: ' ' :: cs) := by
  obtain ⟨c, more, hc, hcons⟩ := keyed_eq_cons hkey cs
  rw [isBareKey, Bool.and_eq_true, Bool.not_eq_true', List.isEmpty_eq_false_iff,
    List.all_eq_true] at hkey
  obtain ⟨hne, hbare⟩ := hkey
  have htake : (keyed key cs).takeWhile isBare = key.toList := by
    rw [keyed, List.takeWhile_append_of_pos hbare]
    simp [isBare]
  have hdrop : (keyed key cs).dropWhile isBare = ' ' :: '=' :: ' ' :: cs := by
    rw [keyed, List.dropWhile_append_of_pos hbare]
    rfl
  have hpart : keyPart? (keyed key cs) = some (key.toList, ' ' :: '=' :: ' ' :: cs) := by
    rw [keyPart?.eq_def]
    split
    next h => exact absurd (List.head_eq_of_cons_eq (hcons.symm.trans h)) (ne_of_isBare hc rfl)
    next h => exact absurd (List.head_eq_of_cons_eq (hcons.symm.trans h)) (ne_of_isBare hc rfl)
    next =>
      rw [htake, hdrop]
      split
      next h => exact absurd h hne
      next => rfl
  rw [key?, nestingLimit, keyParts?, hcons, skipBlanks_bare hc, ← hcons, hpart]
  simp [skipBlanks, isBlank]

theorem field?_blank (cs : List Char) : field? read (' ' :: cs) = field? read cs := rfl

/-- A field under a key without quotes. -/
theorem field?_keyed (hkey : isBareKey key = true) (cs : List Char) :
    field? read (keyed key cs) =
      (read (skipBlanks cs)).map fun value => (([key], value.1), value.2) := by
  rw [field?, key?_keyed hkey]
  change (read (skipBlanks cs)).bind _ = _
  cases read (skipBlanks cs) <;> rfl

/-- A line with a field under a key without quotes. -/
theorem content?_keyed (hkey : isBareKey key = true) (cs : List Char) :
    content? (keyed key cs) =
      (value? (skipBlanks cs)).map fun value => (.field [key] value.1, value.2) := by
  obtain ⟨c, more, hc, hcons⟩ := keyed_eq_cons hkey cs
  have hother {d : Char} {ds : List Char} (hd : isBare d = false) : c :: more ≠ d :: ds :=
    fun h => ne_of_isBare hc hd (List.head_eq_of_cons_eq h)
  have hfield : field? value? (keyed key cs) = _ := field?_keyed hkey cs
  rw [hcons] at hfield ⊢
  rw [content?, skipBlanks_bare hc]
  split
  next h => cases h
  next h => exact absurd h (hother rfl)
  next h => exact absurd h (hother rfl)
  next h => exact absurd h (hother rfl)
  next h => exact absurd h (hother rfl)
  next h => exact absurd h (hother rfl)
  next =>
    rw [hfield]
    cases value? (skipBlanks cs) <;> rfl

theorem lines?_succ (hne : cs ≠ []) (fuel : Nat) :
    lines? (fuel + 1) cs =
      (line? cs).bind fun first => (lines? fuel first.2).map (first.1 :: ·) := by
  rw [lines?.eq_3 _ _ hne]
  cases line? cs with
  | none => rfl
  | some first =>
    obtain ⟨line, rest⟩ := first
    change (lines? fuel rest).bind _ = (lines? fuel rest).map _
    cases lines? fuel rest <;> rfl

/-- What is said line by line is read line by line. -/
theorem lines?_written (h : ∀ p ∈ said, Says p.1 p.2)
    (hfuel : (written said ++ rest).length ≤ fuel) :
    ∃ fuel', rest.length ≤ fuel' ∧
      lines? fuel (written said ++ rest) = (lines? fuel' rest).map (said.map (·.2) ++ ·) := by
  induction said generalizing fuel with
  | nil => exact ⟨fuel, hfuel, by simp [written]⟩
  | cons p said ih =>
    obtain ⟨hp, hsaid⟩ := List.forall_mem_cons.1 h
    have hwritten : written (p :: said) ++ rest = p.1.toList ++ '\n' :: (written said ++ rest) := by
      simp [written]
    rw [hwritten] at hfuel ⊢
    obtain - | fuel := fuel
    · simp at hfuel
    have hrest : (written said ++ rest).length ≤ fuel := by
      simp only [List.length_append, List.length_cons] at hfuel ⊢
      omega
    obtain ⟨fuel', hfuel', hlines⟩ := ih hsaid hrest
    refine ⟨fuel', hfuel', ?_⟩
    have hstep : lines? (fuel + 1) (p.1.toList ++ '\n' :: (written said ++ rest)) =
        (lines? fuel (written said ++ rest)).map (p.2 :: ·) := by
      rw [lines?_succ (by simp), hp, Option.bind_some]
    rw [hstep, hlines, Option.map_map]
    rfl

theorem line?_of_content? (h : content? cs = some (line, '\n' :: rest)) :
    line? cs = some (line, rest) := by
  rw [line?, h]
  rfl

/-- A text is a value, however deep it stands. -/
theorem valueWithin?_text (depth : Nat) (cs : List Char) :
    valueWithin? depth ('"' :: cs) =
      (text? ('"' :: cs)).map fun read => (.text (String.ofList read.1), read.2) := by
  have hscalar : scalarValue? ('"' :: cs) =
      (text? ('"' :: cs)).map fun read => (.text (String.ofList read.1), read.2) := by
    change (text? ('"' :: cs)).bind _ = _
    cases text? ('"' :: cs) <;> rfl
  cases depth with
  | zero => exact hscalar
  | succ depth => exact hscalar

/-- A list of which the first item is followed by a comma. -/
theorem items?_cons {cs' cs'' : List Char} {d : Document}
    (hskip : skipLines? false cs = some (c :: cs')) (hc : c ≠ ']')
    (hitem : read (c :: cs') = some (d, ',' :: cs'')) (fuel : Nat) :
    items? read (fuel + 1) cs =
      (items? read fuel cs'').map fun items => (d :: items.1, items.2) := by
  rw [items?, hskip, Option.bind_eq_bind, Option.bind_some]
  split
  next h => exact absurd (List.head_eq_of_cons_eq h) hc
  next =>
    rw [hitem]
    change (items? read fuel cs'').bind _ = _
    cases items? read fuel cs'' <;> rfl

/-- A table of which the first field is followed by a comma. -/
theorem fields?_cons {cs' cs'' : List Char} {field : List String × Document}
    (hfield : field? read cs = some (field, cs')) (hcomma : skipBlanks cs' = ',' :: cs'')
    (fuel : Nat) :
    fields? read (fuel + 1) cs =
      (fields? read fuel cs'').map fun fields => (field :: fields.1, fields.2) := by
  rw [fields?, hfield, Option.bind_eq_bind, Option.bind_some]
  dsimp only
  rw [hcomma]
  change (fields? read fuel cs'').bind _ = _
  cases fields? read fuel cs'' <;> rfl

/-- The last field of a table. -/
theorem fields?_singleton {cs' : List Char} {field : List String × Document}
    (hfield : field? read cs = some (field, cs')) (hclose : skipBlanks cs' = '\x7d' :: rest)
    (fuel : Nat) : fields? read (fuel + 1) cs = some ([field], rest) := by
  rw [fields?, hfield, Option.bind_eq_bind, Option.bind_some]
  dsimp only
  rw [hclose]
  rfl

end

end ClusterFence.Toml
