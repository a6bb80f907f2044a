import ClusterFence.Document.Toml.Text

namespace ClusterFence.Toml

/-- A character that does not stand for itself between double quotes. -/
def isMeant (c : Char) : Bool := c == '"' || c == '\\'

/-- A text is read from the characters before `rest`, at least so many more than the text has. What
    has the mark is handed on wherever it is read. -/
def ReadFrom (mark : Char) (least : Nat) (cs t rest : List Char) : Prop :=
  ∃ read, cs = read ++ rest ∧ t.length + least ≤ read.length ∧ read.count mark ≤ t.count mark

section

variable {w rest t cs : List Char} {c c' mark : Char} {place : TextPlace} {least : Nat}

theorem before_eq_some {read? : Option (List Char × List Char)} :
    before c read? = some (t, rest) ↔ ∃ t', read? = some (t', rest) ∧ t = c :: t' := by
  cases read? with
  | none => simp [before]
  | some read =>
    obtain ⟨t', rest'⟩ := read
    simp only [before, Option.some.injEq, Prod.mk.injEq]
    constructor
    · rintro ⟨rfl, rfl⟩
      exact ⟨t', ⟨rfl, rfl⟩, rfl⟩
    · rintro ⟨t'', ⟨rfl, rfl⟩, rfl⟩
      exact ⟨rfl, rfl⟩

/-- A character that stands for itself. -/
theorem lineText?_cons (hc : isMeant c = false) (cs : List Char) :
    lineText? .between (c :: cs) =
      if isPlain c then before c (lineText? .between cs) else none := by
  rw [isMeant, Bool.or_eq_false_iff, beq_eq_false_iff_ne, beq_eq_false_iff_ne] at hc
  rw [lineText?.eq_def]
  split <;> simp_all

/-- A line of text is read as it is written, as long as every character stands for itself. -/
theorem lineText?_append (hw : ∀ c ∈ w, isPlain c = true ∧ isMeant c = false) (cs : List Char) :
    lineText? .between (w ++ cs) =
      (lineText? .between cs).map fun read => (w ++ read.1, read.2) := by
  induction w with
  | nil => simp
  | cons c w ih =>
    obtain ⟨⟨hplain, hmeant⟩, hw⟩ := List.forall_mem_cons.1 hw
    rw [List.cons_append, lineText?_cons hmeant, if_pos hplain, ih hw]
    cases lineText? .between cs <;> rfl

theorem ReadFrom.skip (h : ReadFrom mark least cs t rest) (hc : c ≠ mark) :
    ReadFrom mark least (c :: cs) t rest := by
  obtain ⟨read, rfl, hlength, hcount⟩ := h
  refine ⟨c :: read, rfl, Nat.le_succ_of_le hlength, ?_⟩
  rwa [List.count_cons_of_ne hc]

theorem ReadFrom.put (h : ReadFrom mark least cs t rest) (hc : c ≠ mark ∨ c' = c) :
    ReadFrom mark least (c :: cs) (c' :: t) rest := by
  obtain ⟨read, rfl, hlength, hcount⟩ := h
  refine ⟨c :: read, rfl, by simp only [List.length_cons]; omega, ?_⟩
  obtain hc | rfl := hc
  · rw [List.count_cons_of_ne hc]
    exact Nat.le_trans hcount List.count_le_count_cons
  · simpa only [List.count_cons, Nat.add_le_add_iff_right] using hcount

theorem ReadFrom.before {read? : Option (List Char × List Char)}
    (h : before c' read? = some (t, rest)) (hc : c ≠ mark ∨ c' = c)
    (ih : ∀ {t}, read? = some (t, rest) → ReadFrom mark least cs t rest) :
    ReadFrom mark least (c :: cs) t rest := by
  obtain ⟨t', hrest, rfl⟩ := before_eq_some.1 h
  exact (ih hrest).put hc

/-- A text for which a mark has to be read has more of them than stand before that one. -/
theorem ReadFrom.count_lt {p tail : List Char}
    (h : ReadFrom mark least (p ++ mark :: tail) t rest) (hlength : p.length < t.length + least) :
    p.count mark < t.count mark := by
  obtain ⟨read, hread, hleast, hcount⟩ := h
  obtain ⟨more, rfl⟩ : p ++ [mark] <+: read := by
    refine List.prefix_of_prefix_length_le ⟨tail, ?_⟩ ⟨rest, hread.symm⟩ ?_
    · rw [List.append_assoc, List.singleton_append]
    · rw [List.length_append, List.length_singleton]
      omega
  rw [List.count_append, List.count_append, List.count_singleton_self] at hcount
  omega

theorem ne_of_nextDigit? {digits value : Nat} {next : TextPlace × Option Char}
    (h : nextDigit? digits value c = some next) : c ≠ '\n' ∧ c ≠ '[' := by
  constructor <;> rintro rfl <;> cases h

theorem ne_of_escaped? (h : escaped? c = some c') : c ≠ '\n' ∧ c ≠ '[' := by
  constructor <;> rintro rfl <;> cases h

theorem ne_of_isBlank (h : isBlank c = true) : c ≠ '[' := by
  rintro rfl
  cases h

/-- A line of text is read from one line, at the end of which a quote is dropped. -/
theorem lineText?_readFrom (h : lineText? place cs = some (t, rest)) :
    ReadFrom '\n' 1 cs t rest := by
  fun_induction lineText? place cs generalizing t
  -- a digit of the number of a character, which ends with it or goes on
  case case2 hdigit ih => exact .before h (.inl (ne_of_nextDigit? hdigit).1) ih
  case case3 hdigit ih => exact (ih h).skip (ne_of_nextDigit? hdigit).1
  -- after a backslash
  case case5 | case6 =>
    rename_i ih
    exact (ih h).skip (by decide)
  case case7 hescaped ih => exact .before h (.inl (ne_of_escaped? hescaped).1) ih
  -- between two characters: a quote, a backslash, another character
  case case9 =>
    cases h
    exact ⟨['"'], rfl, Nat.le_refl _, Nat.le_refl _⟩
  case case10 ih => exact (ih h).skip (by decide)
  case case11 ih => exact .before h (.inr rfl) ih
  all_goals cases h

/-- A block of text is read with all its brackets; at its end three quotes are dropped. -/
theorem blockText?_readFrom (h : blockText? place cs = some (t, rest)) :
    ReadFrom '[' 3 cs t rest := by
  fun_induction blockText? place cs generalizing t
  -- a digit of the number of a character, which ends with it or goes on
  case case2 hdigit ih => exact .before h (.inl (ne_of_nextDigit? hdigit).2) ih
  case case3 hdigit ih => exact (ih h).skip (ne_of_nextDigit? hdigit).2
  -- after a backslash, and at a seam
  case case10 hescaped ih => exact .before h (.inl (ne_of_escaped? hescaped).2) ih
  case case9 hblank ih => exact (ih h).skip (ne_of_isBlank hblank)
  case case14 hblank ih => exact (ih h).skip (ne_of_isBlank hblank)
  -- the quotes at the end
  case case20 =>
    cases h
    exact ⟨['"', '"', '"', '"', '"'], rfl, Nat.le_refl _, Nat.le_refl _⟩
  case case21 =>
    cases h
    exact ⟨['"', '"', '"', '"'], rfl, Nat.le_refl _, Nat.le_refl _⟩
  case case22 =>
    cases h
    exact ⟨['"', '"', '"'], rfl, Nat.le_refl _, Nat.le_refl _⟩
  -- line endings of two characters
  case case8 ih => exact ((ih h).skip (by decide)).skip (by decide)
  case case13 ih => exact ((ih h).skip (by decide)).skip (by decide)
  case case19 ih => exact ((ih h).skip (by decide)).skip (by decide)
  case case25 ih => exact (ReadFrom.before h (.inr rfl) ih).skip (by decide)
  -- characters that are handed on
  case case24 ih => exact .before h (.inr rfl) ih
  case case26 ih => exact .before h (.inr rfl) ih
  -- single characters that are not, and what is no text
  all_goals first
    | cases h
    | rename_i ih
      exact (ih h).skip (by decide)

/-- A line of text that is read as it is written has only characters that stand for themselves. -/
theorem forall_of_lineText? {tail : List Char}
    (h : lineText? .between (w ++ '"' :: '\n' :: tail) = some (w, rest)) :
    ∀ c ∈ w, isPlain c = true ∧ isMeant c = false := by
  induction w with
  | nil => exact List.forall_mem_nil _
  | cons c w ih =>
    by_cases hquote : c = '"'
    · subst hquote
      simp [lineText?] at h
    by_cases hbackslash : c = '\\'
    · subst hbackslash
      -- the backslash takes another character with it, and what is left of the line is too short
      have hread : lineText? .backslash (w ++ ['"'] ++ '\n' :: tail) = some ('\\' :: w, rest) := by
        rw [List.append_assoc]
        exact h
      have hcount := (lineText?_readFrom hread).count_lt (by simp)
      simp at hcount
    · have hmeant : isMeant c = false := by simp [isMeant, hquote, hbackslash]
      rw [List.cons_append, lineText?_cons hmeant] at h
      split at h
      next hplain =>
        obtain ⟨w', hrest, hw⟩ := before_eq_some.1 h
        obtain rfl := List.tail_eq_of_cons_eq hw
        exact List.forall_mem_cons.2 ⟨⟨hplain, hmeant⟩, ih hrest⟩
      next => cases h

/-- Two quotes more would begin a block. -/
theorem text?_line (h : ∀ more, cs ≠ '"' :: '"' :: more) :
    text? ('"' :: cs) = lineText? .between cs := by
  rw [text?.eq_def]
  split <;> simp_all

/-- A text that begins with characters that stand for themselves is a line of text. -/
theorem text?_append (hw : ∀ c ∈ w, isMeant c = false)
    (h : w = [] → ∀ more, cs ≠ '"' :: '"' :: more) :
    text? ('"' :: (w ++ cs)) = lineText? .between (w ++ cs) := by
  refine text?_line fun more hmore => ?_
  obtain - | ⟨c, w⟩ := w
  · exact h rfl more hmore
  · rw [List.cons_append, List.cons.injEq] at hmore
    have hmeant := hw c List.mem_cons_self
    rw [hmore.1] at hmeant
    cases hmeant

/-- Characters between quotes are read as a text that ends with them. -/
def ReadsAs (w t : List Char) : Prop :=
  ∀ c cs, c ≠ '"' → text? ('"' :: (w ++ '"' :: c :: cs)) = some (t, c :: cs)

/-- A text that is put between quotes as it is, is read as it is, as long as every character stands
    for itself. -/
theorem readsAs_self (hw : ∀ c ∈ w, isPlain c = true ∧ isMeant c = false) : ReadsAs w w := by
  intro c cs hc
  have hend (more : List Char) : '"' :: c :: cs ≠ '"' :: '"' :: more := fun h =>
    hc (List.head_eq_of_cons_eq (List.tail_eq_of_cons_eq h))
  rw [text?_append (fun d hd => (hw d hd).2) fun _ => hend, lineText?_append hw]
  simp [lineText?]

/-- What no text is made of cannot stand between quotes. -/
theorem text?_eq_none (hw : ∀ c ∈ w, isMeant c = false) (hc : c ∈ w) (hplain : isPlain c = false)
    (cs : List Char) : text? ('"' :: (w ++ cs)) = none := by
  rw [text?_append hw fun hempty => absurd hc (hempty ▸ List.not_mem_nil)]
  induction w with
  | nil => cases hc
  | cons d w ih =>
    obtain ⟨hd, hw⟩ := List.forall_mem_cons.1 hw
    rw [List.cons_append, lineText?_cons hd]
    obtain rfl | hc := List.mem_cons.1 hc
    · rw [hplain]
      rfl
    · rw [ih hw hc]
      exact ite_self _

theorem lineEnding?_eq_some (h : lineEnding? cs = some rest) :
    cs = '\n' :: rest ∨ cs = '\r' :: '\n' :: rest := by
  unfold lineEnding? at h
  split at h <;> cases h
  · exact .inl rfl
  · exact .inr rfl

/-- A line ending straight after the three quotes is all that is passed over. -/
theorem blockStart_append (w cs : List Char) :
    ∃ w', blockStart (w ++ '"' :: cs) = w' ++ '"' :: cs ∧ w'.length ≤ w.length ∧
      w'.count '[' = w.count '[' := by
  cases hending : lineEnding? (w ++ '"' :: cs) with
  | none => exact ⟨w, by rw [blockStart, hending, Option.getD_none], Nat.le_refl _, rfl⟩
  | some rest =>
    have hstart : blockStart (w ++ '"' :: cs) = rest := by
      rw [blockStart, hending, Option.getD_some]
    -- the line ending lies before the quote
    obtain h | h := lineEnding?_eq_some hending <;> obtain - | ⟨c, w⟩ := w
    · simp at h
    · rw [List.cons_append, List.cons.injEq] at h
      obtain ⟨rfl, rfl⟩ := h
      exact ⟨w, hstart, Nat.le_succ _, by simp⟩
    · simp at h
    · obtain - | ⟨d, w⟩ := w
      · simp at h
      · simp only [List.cons_append, List.cons.injEq] at h
        obtain ⟨rfl, rfl, rfl⟩ := h
        exact ⟨w, hstart, by simp only [List.length_cons]; omega, by simp⟩

/-- A text between quotes that ends with its line, a bracket standing after an empty line, is read
    as it is written only if its characters stand for themselves. -/
theorem forall_of_text? {tail : List Char}
    (h : text? ('"' :: (w ++ '"' :: '\n' :: '\n' :: '[' :: tail)) = some (w, rest)) :
    ∀ c ∈ w, isPlain c = true ∧ isMeant c = false := by
  by_cases hone : w = ['"']
  · subst hone
    -- all three quotes stand together, and the line feed after them is passed over
    have hread : blockText? .between (['\n'] ++ '[' :: tail) = some (['"'], rest) := h
    have hcount := (blockText?_readFrom hread).count_lt (by decide)
    simp at hcount
  by_cases htwo : ∃ w', w = '"' :: '"' :: w'
  · obtain ⟨w, rfl⟩ := htwo
    obtain ⟨w', hstart, hlength, hbrackets⟩ :=
      blockStart_append w ('\n' :: '\n' :: '[' :: tail)
    have hread : blockText? .between (w' ++ ['"', '\n', '\n'] ++ '[' :: tail) =
        some ('"' :: '"' :: w, rest) := by
      rw [List.append_assoc]
      exact (congrArg _ hstart.symm).trans h
    have hcount := (blockText?_readFrom hread).count_lt (by simp; omega)
    simp [hbrackets] at hcount
  · rw [text?_line] at h
    · exact forall_of_lineText? h
    · intro more hmore
      obtain - | ⟨c, - | ⟨d, w⟩⟩ := w
      · simp at hmore
      · simp only [List.cons_append, List.cons.injEq] at hmore
        exact hone (by rw [hmore.1])
      · simp only [List.cons_append, List.cons.injEq] at hmore
        exact htwo ⟨w, by rw [hmore.1, hmore.2.1]⟩

end

end ClusterFence.Toml
