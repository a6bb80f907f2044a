import ClusterFence.Proofs.Records

namespace ClusterFence

/-- A fencing of a node: by whom, when and in which way. There was none at time zero. -/
structure FencingRecord where
  master : NodeId
  time : Seconds
  how : UInt32
deriving DecidableEq

/-- A fencing of a node outside the domain: when, and who told of it. There was none at time
    zero. -/
structure OutsideRecord where
  time : Seconds
  reporter : NodeId
deriving DecidableEq

def FencingRecord.isKnown (r : FencingRecord) : Bool := r.time != 0

def OutsideRecord.isKnown (r : OutsideRecord) : Bool := r.time != 0

/-- Of an old record and one that is told, the old one stays, unless only the other is known. -/
def firstKnown {α : Type} (known : α → Bool) (old told : α) : α :=
  if !known old && known told then told else old

section

variable {α : Type} {known : α → Bool} {old told : α}

theorem firstKnown_eq_left (h : known told = true → known old = true) :
    firstKnown known old told = old := by
  unfold firstKnown
  cases hold : known old
  · rw [hold] at h
    simp [show known told = false by simpa using h]
  · rfl

/-- What is told is known afterwards. -/
theorem known_firstKnown (h : known told = true) : known (firstKnown known old told) = true := by
  unfold firstKnown
  cases hold : known old <;> simp [hold, h]

theorem known_firstKnown_of_known (h : known old = true) (told : α) :
    known (firstKnown known old told) = true := by
  rwa [firstKnown_eq_left fun _ => h]

/-- Of several records that are told one after the other, the first known one counts. -/
theorem foldl_firstKnown (old : α) (told : List α) :
    told.foldl (firstKnown known) old =
      if known old then old else (told.find? known).getD old := by
  induction told generalizing old with
  | nil => simp
  | cons r rest ih =>
    rw [List.foldl_cons, ih]
    cases hold : known old
    · cases hr : known r <;> simp [firstKnown, hold, hr]
    · rw [firstKnown_eq_left fun _ => hold]
      simp [hold]

end

namespace NodeEntry

def fencing (e : NodeEntry) : FencingRecord := ⟨e.fenceMaster, e.fenceTime, e.fenceHow⟩

def outside (e : NodeEntry) : OutsideRecord := ⟨e.externalTime, e.externalNode⟩

end NodeEntry

namespace NodeHistory

def fencing (n : NodeHistory) : FencingRecord := ⟨n.fenceMaster, n.fenceTime, n.fenceHow⟩

def outside (n : NodeHistory) : OutsideRecord := ⟨n.externalTime, n.externalNode⟩

/-- The same history with other records of a fencing and of one outside the domain. -/
def withRecords (n : NodeHistory) (f : FencingRecord) (o : OutsideRecord) : NodeHistory :=
  { n with
    fenceMaster := f.master, fenceTime := f.time, fenceHow := f.how
    externalTime := o.time, externalNode := o.reporter }

/-- Takes a peer's records when there are none here. -/
def adopt (n : NodeHistory) (e : NodeEntry) : NodeHistory := (n.adoptFencing e).adoptExternal e

section

variable {n : NodeHistory} {f f' : FencingRecord} {o o' : OutsideRecord}

@[simp] theorem fencing_withRecords : (n.withRecords f o).fencing = f := rfl

@[simp] theorem outside_withRecords : (n.withRecords f o).outside = o := rfl

@[simp] theorem withRecords_withRecords :
    (n.withRecords f o).withRecords f' o' = n.withRecords f' o' := rfl

@[simp] theorem withRecords_self (n : NodeHistory) : n.withRecords n.fencing n.outside = n := rfl

/-- Neither of the two records has anything to do with the other. -/
theorem adopt_eq (n : NodeHistory) (e : NodeEntry) :
    n.adopt e =
      n.withRecords (firstKnown FencingRecord.isKnown n.fencing e.fencing)
        (firstKnown OutsideRecord.isKnown n.outside e.outside) := by
  have hfencing : n.adoptFencing e =
      n.withRecords (firstKnown FencingRecord.isKnown n.fencing e.fencing) n.outside := by
    simp only [adoptFencing, firstKnown, FencingRecord.isKnown, bne, Bool.not_not]
    split <;> (rename_i h; simp only [fencing, NodeEntry.fencing, h]; rfl)
  have houtside (n : NodeHistory) : n.adoptExternal e =
      n.withRecords n.fencing (firstKnown OutsideRecord.isKnown n.outside e.outside) := by
    simp only [adoptExternal, firstKnown, OutsideRecord.isKnown, bne, Bool.not_not]
    split <;> (rename_i h; simp only [outside, NodeEntry.outside, h]; rfl)
  rw [adopt, hfencing, houtside]
  rfl

theorem foldl_adopt (n : NodeHistory) (entries : List NodeEntry) :
    entries.foldl adopt n =
      n.withRecords
        ((entries.map (·.fencing)).foldl (firstKnown FencingRecord.isKnown) n.fencing)
        ((entries.map (·.outside)).foldl (firstKnown OutsideRecord.isKnown) n.outside) := by
  induction entries generalizing n with
  | nil => rfl
  | cons e rest ih =>
    rw [List.foldl_cons, ih, adopt_eq]
    rfl

/-- All that a line tells is known. -/
def Knows (n : NodeHistory) (e : NodeEntry) : Prop :=
  (e.fencing.isKnown = true → n.fencing.isKnown = true) ∧
    (e.outside.isKnown = true → n.outside.isKnown = true)

theorem Knows.adopt_eq_self {e : NodeEntry} (h : n.Knows e) : n.adopt e = n := by
  rw [adopt_eq, firstKnown_eq_left h.1, firstKnown_eq_left h.2, withRecords_self]

theorem knows_adopt (n : NodeHistory) (e : NodeEntry) : (n.adopt e).Knows e := by
  rw [adopt_eq]
  exact ⟨known_firstKnown, known_firstKnown⟩

/-- What is known stays known. -/
theorem Knows.adopt {e : NodeEntry} (h : n.Knows e) (other : NodeEntry) :
    (n.adopt other).Knows e := by
  rw [adopt_eq]
  exact ⟨fun htold => known_firstKnown_of_known (h.1 htold) _,
    fun htold => known_firstKnown_of_known (h.2 htold) _⟩

end

end NodeHistory

namespace History

/-- The lines of a report that are about a node. -/
def linesAbout (entries : List NodeEntry) (node : NodeId) : List NodeEntry :=
  entries.filter (·.node == node)

section

variable {h : History} {e : NodeEntry} {entries : List NodeEntry}

theorem get?_mergeEntry (h : History) (e : NodeEntry) (node : NodeId) :
    (h.mergeEntry e).get? node =
      if e.node = node then some ((h.lookup node).adopt e) else h.get? node := by
  rw [mergeEntry, get?_update, get?_ensure]
  split
  · rename_i hnode
    rw [hnode]
    rfl
  · rfl

theorem lookup_mergeEntry (h : History) (e : NodeEntry) (node : NodeId) :
    (h.mergeEntry e).lookup node =
      if e.node = node then (h.lookup node).adopt e else h.lookup node := by
  rw [lookup, get?_mergeEntry]
  split <;> rfl

theorem lookup_merge (h : History) (entries : List NodeEntry) (node : NodeId) :
    (h.merge entries).lookup node =
      (linesAbout entries node).foldl NodeHistory.adopt (h.lookup node) := by
  unfold merge linesAbout
  induction entries generalizing h with
  | nil => rfl
  | cons e rest ih =>
    rw [List.foldl_cons, ih, lookup_mergeEntry, List.filter_cons]
    by_cases hnode : e.node = node
    · simp [hnode]
    · simp [hnode]

/-- A history of the node that a line is about is there, and knows all that the line tells. -/
def Knows (h : History) (e : NodeEntry) : Prop := h.Holds e.node (·.Knows e)

theorem Knows.mergeEntry_eq_self (hknows : h.Knows e) : h.mergeEntry e = h := by
  obtain ⟨n, hn, hknows⟩ := hknows
  rw [eq_iff_get?]
  intro node
  rw [get?_mergeEntry]
  split
  · rename_i hnode
    rw [← hnode, lookup_of_get? hn, hknows.adopt_eq_self, hn]
  · rfl

theorem knows_mergeEntry (h : History) (e : NodeEntry) : (h.mergeEntry e).Knows e :=
  ⟨_, by rw [get?_mergeEntry, if_pos rfl], NodeHistory.knows_adopt _ _⟩

theorem Knows.mergeEntry (hknows : h.Knows e) (other : NodeEntry) :
    (h.mergeEntry other).Knows e := by
  obtain ⟨n, hn, hknows⟩ := hknows
  unfold Knows Holds
  rw [get?_mergeEntry]
  split
  · exact ⟨_, rfl, by rw [lookup_of_get? hn]; exact hknows.adopt other⟩
  · exact ⟨n, hn, hknows⟩

theorem Knows.merge (hknows : h.Knows e) (entries : List NodeEntry) :
    (h.merge entries).Knows e := by
  unfold History.merge
  induction entries generalizing h with
  | nil => exact hknows
  | cons other rest ih => exact ih (hknows.mergeEntry other)

theorem knows_merge (h : History) (he : e ∈ entries) : (h.merge entries).Knows e := by
  unfold merge
  induction entries generalizing h with
  | nil => cases he
  | cons other rest ih =>
    obtain rfl | hrest := List.mem_cons.1 he
    · exact (h.knows_mergeEntry e).merge rest
    · exact ih _ hrest

/-- A report that is known changes nothing. -/
theorem merge_eq_self (hknows : ∀ e ∈ entries, h.Knows e) : h.merge entries = h := by
  unfold merge
  induction entries with
  | nil => rfl
  | cons e rest ih =>
    rw [List.foldl_cons, (hknows e List.mem_cons_self).mergeEntry_eq_self]
    exact ih fun e he => hknows e (List.mem_cons_of_mem _ he)

theorem get?_merge_of_unnamed {node : NodeId} (hnone : ∀ e ∈ entries, e.node ≠ node)
    (h : History) : (h.merge entries).get? node = h.get? node := by
  unfold merge
  induction entries generalizing h with
  | nil => rfl
  | cons e rest ih =>
    rw [List.foldl_cons, ih fun e he => hnone e (List.mem_cons_of_mem _ he), get?_mergeEntry,
      if_neg (hnone e List.mem_cons_self)]

/-- The nodes that a report names have a history afterwards, and no others are touched. -/
theorem get?_merge (h : History) (entries : List NodeEntry) (node : NodeId) :
    (h.merge entries).get? node =
      if ∃ e ∈ entries, e.node = node then
        some ((linesAbout entries node).foldl NodeHistory.adopt (h.lookup node))
      else h.get? node := by
  split
  · rename_i hnamed
    obtain ⟨e, he, rfl⟩ := hnamed
    obtain ⟨n, hn, -⟩ := h.knows_merge he
    rw [hn, ← lookup_merge, lookup_of_get? hn]
  · rename_i hnone
    exact get?_merge_of_unnamed (fun e he hnode => hnone ⟨e, he, hnode⟩) h

end

/-- Merging goes line by line, so two reports may as well be one. Merging a report again adds
    nothing, whatever was merged in between. A node that the report names has a history afterwards,
    in which nothing but the records of a fencing and of one outside the domain can differ from what
    was there: a known record stays, and in place of an unknown one there is the first known one
    that the lines about the node tell, if there is any. No other node's history is touched. -/
theorem merge_keepsFirst (h : History) (a b : List NodeEntry) (others : List (List NodeEntry)) :
    h.merge (a ++ b) = (h.merge a).merge b ∧
    (others.foldl merge (h.merge a)).merge a = others.foldl merge (h.merge a) ∧
    ∀ node,
      let old := h.lookup node
      let told := linesAbout a node
      (h.merge a).get? node =
        if ∃ e ∈ a, e.node = node then
          some (old.withRecords
            (if old.fencing.isKnown then old.fencing
              else ((told.map (·.fencing)).find? (·.isKnown)).getD old.fencing)
            (if old.outside.isKnown then old.outside
              else ((told.map (·.outside)).find? (·.isKnown)).getD old.outside))
        else h.get? node := by
  refine ⟨List.foldl_append, ?_, fun node => ?_⟩
  · refine merge_eq_self fun e he => ?_
    have hknows : (h.merge a).Knows e := h.knows_merge he
    generalize h.merge a = h' at hknows
    induction others generalizing h' with
    | nil => exact hknows
    | cons other rest ih => exact ih _ (hknows.merge other)
  · rw [get?_merge, NodeHistory.foldl_adopt, foldl_firstKnown, foldl_firstKnown]

end History

end ClusterFence
