import ClusterFence.Document.Toml.Line

namespace ClusterFence.Toml

namespace Fields

/-- The value at a path through tables that are no rows. -/
def valueAt? : List String → Fields → Option Document
  | [], _ => none
  | name :: path, fields =>
    match fields.lookup name with
    | some (.value d) => if path.isEmpty then some d else none
    | some (.table _ inner) => valueAt? path inner
    | _ => none

/-- Every value is still there. -/
def Keeps (fields fields' : Fields) : Prop :=
  ∀ path d, valueAt? path fields = some d → valueAt? path fields' = some d

section

variable {fields fields' : Fields} {name : String} {e : Entry} {origin missing : Origin}
  {path header key : List String} {d : Document}

theorem Keeps.refl (fields : Fields) : Keeps fields fields := fun _ _ h => h

theorem Keeps.trans {fields'' : Fields} (h : Keeps fields fields') (h' : Keeps fields' fields'') :
    Keeps fields fields'' :=
  fun path d hvalue => h' path d (h path d hvalue)

theorem lookup_put (fields : Fields) (name other : String) (e : Entry) :
    (fields.put name e).lookup other = if other == name then some e else fields.lookup other := by
  induction fields with
  | nil =>
    rw [put, List.lookup_cons, List.lookup_nil]
    cases other == name <;> rfl
  | cons field rest ih =>
    obtain ⟨known, old⟩ := field
    rw [put]
    by_cases hknown : known = name
    · subst hknown
      rw [beq_self_eq_true, if_pos rfl, List.lookup_cons, List.lookup_cons]
      cases other == known <;> rfl
    · rw [if_neg (by simpa using hknown), List.lookup_cons, List.lookup_cons, ih]
      by_cases hother : other = known
      · simp [hother, hknown]
      · rw [beq_eq_false_iff_ne.2 hother]

theorem valueAt?_put_self (fields : Fields) (name : String) (e : Entry) (path : List String) :
    valueAt? (name :: path) (fields.put name e) = valueAt? (name :: path) [(name, e)] := by
  rw [valueAt?, valueAt?, lookup_put, beq_self_eq_true, if_pos rfl, List.lookup_cons_self]

theorem valueAt?_put_of_ne {first : String} (h : first ≠ name) (fields : Fields) (e : Entry)
    (path : List String) :
    valueAt? (first :: path) (fields.put name e) = valueAt? (first :: path) fields := by
  rw [valueAt?, valueAt?, lookup_put, beq_eq_false_iff_ne.2 h, if_neg Bool.false_ne_true]

/-- An entry that keeps what was there under its name keeps everything. -/
theorem keeps_put (h : ∀ path d, valueAt? (name :: path) fields = some d →
    valueAt? (name :: path) [(name, e)] = some d) : Keeps fields (fields.put name e) := by
  intro path d hvalue
  cases path with
  | nil => cases hvalue
  | cons first path =>
    by_cases hfirst : first = name
    · subst hfirst
      rw [valueAt?_put_self]
      exact h path d hvalue
    · rwa [valueAt?_put_of_ne hfirst]

/-- A new name takes nothing away. -/
theorem keeps_put_new (h : fields.lookup name = none) (e : Entry) :
    Keeps fields (fields.put name e) := by
  refine keeps_put fun path d hvalue => ?_
  rw [valueAt?, h] at hvalue
  cases hvalue

theorem keeps_put_table {origin' : Origin} {inner inner' : Fields}
    (h : fields.lookup name = some (.table origin inner)) (hinner : Keeps inner inner') :
    Keeps fields (fields.put name (.table origin' inner')) := by
  refine keeps_put fun path d hvalue => ?_
  rw [valueAt?, h] at hvalue
  rw [valueAt?, List.lookup_cons_self]
  exact hinner path d hvalue

/-- There are no values at paths through rows. -/
theorem keeps_put_tables {closed : List Document} {last : Fields}
    (h : fields.lookup name = some (.tables closed last)) (e : Entry) :
    Keeps fields (fields.put name e) := by
  refine keeps_put fun path d hvalue => ?_
  rw [valueAt?, h] at hvalue
  cases hvalue

/-- A change at the end of a path that keeps what is there keeps everything. -/
theorem keeps_changeAt {change : Origin → Fields → Option Fields}
    (hchange : ∀ {origin fields fields'}, change origin fields = some fields' →
      Keeps fields fields')
    (h : changeAt missing change path origin fields = some fields') : Keeps fields fields' := by
  induction path generalizing origin fields fields' with
  | nil => exact hchange h
  | cons name path ih =>
    rw [changeAt, Option.map_eq_some_iff] at h
    obtain ⟨e, hfound, rfl⟩ := h
    cases hlookup : fields.lookup name with
    | none => exact keeps_put_new hlookup e
    | some old =>
      rw [hlookup] at hfound
      cases old with
      | value => cases hfound
      | tables => exact keeps_put_tables hlookup e
      | table origin inner =>
        dsimp only at hfound
        split at hfound
        next => cases hfound
        next =>
          obtain ⟨inner', hinner, rfl⟩ := Option.map_eq_some_iff.1 hfound
          exact keeps_put_table hlookup (ih hinner)

theorem keeps_assign? (h : fields.assign? key d = some fields') : Keeps fields fields' := by
  rw [assign?, Option.bind_eq_bind, Option.bind_eq_some_iff] at h
  obtain ⟨name, -, h⟩ := h
  refine keeps_changeAt (fun {origin fields fields'} hassign => ?_) h
  split at hassign
  next => cases hassign
  next hnew =>
    cases hassign
    rw [Bool.or_eq_true, not_or, Option.not_isSome_iff_eq_none] at hnew
    exact keeps_put_new hnew.2 _

theorem keeps_assignUnder? (h : fields.assignUnder? header key d = some fields') :
    Keeps fields fields' :=
  keeps_changeAt keeps_assign? h

theorem keeps_openTable? (h : fields.openTable? header = some fields') : Keeps fields fields' := by
  rw [openTable?, Option.bind_eq_bind, Option.bind_eq_some_iff] at h
  obtain ⟨name, -, h⟩ := h
  refine keeps_changeAt (fun {origin fields fields'} hopen => ?_) h
  split at hopen
  next hnew =>
    cases hopen
    exact keeps_put_new hnew _
  next hpassed =>
    cases hopen
    exact keeps_put_table hpassed (.refl _)
  next => cases hopen

theorem keeps_openNext? (h : fields.openNext? header = some fields') : Keeps fields fields' := by
  rw [openNext?, Option.bind_eq_bind, Option.bind_eq_some_iff] at h
  obtain ⟨name, -, h⟩ := h
  refine keeps_changeAt (fun {origin fields fields'} hopen => ?_) h
  split at hopen
  next hnew =>
    cases hopen
    exact keeps_put_new hnew _
  next hrow =>
    cases hopen
    exact keeps_put_tables hrow _
  next => cases hopen

end

end Fields

section

variable {r r' : Reading} {line : Line} {lines : List Line}

theorem Reading.keeps_add? (h : r.add? line = some r') : Fields.Keeps r.fields r'.fields := by
  cases line with
  | blank =>
    cases h
    exact .refl _
  | header path =>
    obtain ⟨fields, hfields, rfl⟩ := Option.map_eq_some_iff.1 h
    exact Fields.keeps_openTable? hfields
  | rowHeader path =>
    obtain ⟨fields, hfields, rfl⟩ := Option.map_eq_some_iff.1 h
    exact Fields.keeps_openNext? hfields
  | field key d =>
    obtain ⟨fields, hfields, rfl⟩ := Option.map_eq_some_iff.1 h
    exact Fields.keeps_assignUnder? hfields

theorem Reading.keeps_foldlM (h : lines.foldlM Reading.add? r = some r') :
    Fields.Keeps r.fields r'.fields := by
  induction lines generalizing r with
  | nil =>
    cases h
    exact .refl _
  | cons line lines ih =>
    rw [List.foldlM_cons, Option.bind_eq_bind, Option.bind_eq_some_iff] at h
    obtain ⟨next, hnext, h⟩ := h
    exact (keeps_add? hnext).trans (ih h)

end

/-- The fields of a table that stand under its header. -/
def fieldLines (fields : List (String × Document)) : List Line :=
  fields.map fun field => .field [field.1] field.2

def valueFields (fields : List (String × Document)) : Fields :=
  fields.map fun field => (field.1, .value field.2)

/-- Tables one after the other, each under its header. -/
def sectionLines (sections : List (String × List (String × Document))) : List Line :=
  sections.flatMap fun s => .header [s.1] :: fieldLines s.2

def sectionTables (sections : List (String × List (String × Document))) : Fields :=
  sections.map fun s => (s.1, .table .header (valueFields s.2))

def Line.isBlank : Line → Bool
  | .blank => true
  | _ => false

section

variable {fields known : Fields} {name key : String} {d : Document} {e : Entry}

/-- A new name is put behind what is there. -/
theorem Fields.put_append (h : fields.lookup name = none) (more : Fields) :
    (fields ++ more).put name e = fields ++ more.put name e := by
  induction fields with
  | nil => rfl
  | cons field rest ih =>
    obtain ⟨other, old⟩ := field
    rw [List.lookup_cons] at h
    split at h
    next => cases h
    next hother =>
      have hne : other ≠ name := fun heq => by simp [heq] at hother
      rw [List.cons_append, put, if_neg (by simpa using hne), ih h, List.cons_append]

theorem Fields.put_of_lookup_none (h : fields.lookup name = none) :
    fields.put name e = fields ++ [(name, e)] := by
  simpa [put] using put_append (e := e) h []

theorem Fields.lookup_append_new (h : fields.lookup name = none) :
    (fields ++ [(name, e)]).lookup name = some e := by
  rw [List.lookup_append, h, Option.none_or, List.lookup_cons_self]

theorem Fields.put_append_new {new : Entry} (h : fields.lookup name = none) :
    (fields ++ [(name, e)]).put name new = fields ++ [(name, new)] := by
  rw [put_append h, put, beq_self_eq_true, if_pos rfl]

theorem Fields.lookup_eq_none (h : name ∉ fields.map (·.1)) : fields.lookup name = none := by
  rw [List.lookup_eq_none_iff]
  intro field hfield
  rw [bne_iff_ne]
  rintro rfl
  exact h (List.mem_map_of_mem hfield)

/-- A header for a new table. -/
theorem Reading.add?_header (header : List String) (h : fields.lookup name = none) :
    Reading.add? { header, fields } (.header [name]) =
      some { header := [name], fields := fields ++ [(name, .table .header [])] } := by
  have hopen : fields.openTable? [name] = some (fields ++ [(name, .table .header [])]) := by
    rw [← Fields.put_of_lookup_none h]
    simp [Fields.openTable?, Fields.changeAt, h]
  rw [add?, hopen]
  rfl

/-- A new field of the table with the last header. -/
theorem Reading.add?_field (h : fields.lookup name = none) (hkey : known.lookup key = none) :
    Reading.add? { header := [name], fields := fields ++ [(name, .table .header known)] }
        (.field [key] d) =
      some { header := [name],
             fields := fields ++ [(name, .table .header (known ++ [(key, .value d)]))] } := by
  have hassign : known.assign? [key] d = some (known ++ [(key, .value d)]) := by
    rw [← Fields.put_of_lookup_none hkey]
    simp [Fields.assign?, Fields.changeAt, hkey]
  have hchange : Fields.assignUnder? [name] [key] d (fields ++ [(name, .table .header known)]) =
      some (fields ++ [(name, .table .header (known ++ [(key, .value d)]))]) := by
    rw [Fields.assignUnder?, Fields.changeAt, Fields.lookup_append_new h]
    simp [Fields.changeAt, hassign, Fields.put_append_new h]
  rw [add?, hchange, Option.map_some]

theorem Reading.foldlM_notBlank (r : Reading) (lines : List Line) :
    (lines.filter (!·.isBlank)).foldlM Reading.add? r = lines.foldlM Reading.add? r := by
  induction lines generalizing r with
  | nil => rfl
  | cons line lines ih =>
    rw [List.filter_cons]
    split
    next => exact congrArg ((r.add? line).bind ·) (funext ih)
    next hblank =>
      cases line with
      | blank => exact ih r
      | _ => exact absurd rfl hblank

theorem Reading.foldlM_fieldLines {new : List (String × Document)} (h : fields.lookup name = none)
    (hnew : (known.map (·.1) ++ new.map (·.1)).Nodup) :
    (fieldLines new).foldlM Reading.add?
        { header := [name], fields := fields ++ [(name, .table .header known)] } =
      some { header := [name],
             fields := fields ++ [(name, .table .header (known ++ valueFields new))] } := by
  induction new generalizing known with
  | nil =>
    rw [valueFields, List.map_nil, List.append_nil]
    rfl
  | cons field new ih =>
    obtain ⟨key, d⟩ := field
    have hkey : known.lookup key = none := by
      refine Fields.lookup_eq_none fun hknown => ?_
      exact (List.nodup_append.1 hnew).2.2 key hknown key (by simp) rfl
    have hrest : ((known ++ [(key, Entry.value d)]).map (·.1) ++ new.map (·.1)).Nodup := by
      simpa using hnew
    rw [fieldLines, List.map_cons, List.foldlM_cons, add?_field h hkey, Option.bind_eq_bind,
      Option.bind_some, ← fieldLines, ih hrest, valueFields, valueFields, List.map_cons,
      List.append_assoc, List.singleton_append]

/-- Tables that are written one after the other are read as they are. -/
theorem Reading.foldlM_sectionLines (sections : List (String × List (String × Document)))
    (r : Reading) (hnames : (r.fields.map (·.1) ++ sections.map (·.1)).Nodup)
    (hkeys : ∀ s ∈ sections, (s.2.map (·.1)).Nodup) :
    ∃ header, (sectionLines sections).foldlM Reading.add? r =
      some { header, fields := r.fields ++ sectionTables sections } := by
  induction sections generalizing r with
  | nil =>
    exact ⟨r.header, by rw [sectionTables, List.map_nil, List.append_nil]; rfl⟩
  | cons s sections ih =>
    obtain ⟨name, new⟩ := s
    obtain ⟨hnew, hkeys⟩ := List.forall_mem_cons.1 hkeys
    have hname : r.fields.lookup name = none := by
      refine Fields.lookup_eq_none fun hknown => ?_
      exact (List.nodup_append.1 hnames).2.2 name hknown name (by simp) rfl
    have hrest : ((r.fields ++ [(name, Entry.table .header (valueFields new))]).map (·.1) ++
        sections.map (·.1)).Nodup := by
      simpa using hnames
    obtain ⟨header, hsections⟩ := ih { header := [name], fields := _ } hrest hkeys
    refine ⟨header, ?_⟩
    rw [sectionLines, List.flatMap_cons, List.cons_append, List.foldlM_cons, add?_header _ hname,
      Option.bind_eq_bind, Option.bind_some, List.foldlM_append,
      foldlM_fieldLines hname (by simpa using hnew), List.nil_append, Option.bind_eq_bind,
      Option.bind_some, ← sectionLines, hsections, sectionTables, sectionTables, List.map_cons,
      List.append_assoc, List.singleton_append]

end

theorem documentFields_valueFields (fields : List (String × Document)) :
    documentFields (valueFields fields) = fields := by
  induction fields with
  | nil => rfl
  | cons field rest ih => exact congrArg (field :: ·) ih

theorem toDocument_sectionTables (sections : List (String × List (String × Document))) :
    (sectionTables sections).toDocument = .table (sections.map fun s => (s.1, .table s.2)) := by
  have hfields : documentFields (sectionTables sections) =
      sections.map fun s => (s.1, .table s.2) := by
    induction sections with
    | nil => rfl
    | cons s sections ih =>
      rw [sectionTables, List.map_cons, List.map_cons, documentFields, Entry.toDocument,
        documentFields_valueFields, ← sectionTables, ih]
  exact congrArg Document.table hfields

/-- What is handed on of a table is found under the same name. -/
theorem lookup_documentFields (fields : Fields) (name : String) :
    (documentFields fields).lookup name = (fields.lookup name).map Entry.toDocument := by
  induction fields with
  | nil => rfl
  | cons field rest ih =>
    obtain ⟨known, e⟩ := field
    rw [documentFields, List.lookup_cons, List.lookup_cons, ih]
    cases name == known <;> rfl

end ClusterFence.Toml
