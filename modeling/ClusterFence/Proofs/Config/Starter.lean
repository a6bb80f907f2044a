import ClusterFence.Config.Starter
import ClusterFence.Proofs.Toml.Line

namespace ClusterFence

open Toml

theorem ConfiguredNode.ofDocument?_table {conv : Document.Convention}
    {fields : List (String × Document)} {id : NodeId} {name : String}
    (hid : fields.lookup "id" = some (.integer id.toNat))
    (hname : fields.lookup "name" = some (.text name)) :
    ConfiguredNode.ofDocument? conv (.table fields) = some { id, name } := by
  have hid32 : (Document.integer id.toNat).uint32? = some id := by
    have hlt : id.toNat < 4294967296 := id.toNat_lt
    have hle : (id.toNat : Int) ≤ 4294967295 := by omega
    simp [Document.uint32?, Document.integer?, hle]
  have hfields : (Document.table fields).fields? conv ConfiguredNode.fieldNames =
      some [some (.integer id.toNat), some (.text name)] := by
    simp [Document.fields?, ConfiguredNode.fieldNames, hid, hname]
  rw [ConfiguredNode.ofDocument?, hfields]
  simp [hid32, Document.text?]

namespace Config

/-- The configuration that is asked for: the node, the node in the domain, and nothing else. -/
def asked (id : NodeId) (name : String) : Config where
  node := { id, name }
  domain := { nodes := [{ id, name }] }

/-- The lines of the first configuration before the node's name. -/
def linesBefore (id : NodeId) : List (String × Line) :=
  [("# Fencekeeper Configuration", .blank),
    ("# Generated configuration file", .blank),
    ("", .blank),
    ("[node]", .header ["node"]),
    (s!"id = {id}", .field ["id"] (.integer id.toNat))]

/-- The list of nodes in the first configuration. -/
def nodesText (id : NodeId) (name : String) : String :=
  "nodes = [" ++ "\n" ++ s!"    \x7b id = {id}, name = \"{name}\" \x7d," ++ "\n" ++ "]"

/-- The lines of the first configuration after the node's name, which is read as `t`. -/
def linesAfter (id : NodeId) (name t : String) : List (String × Line) :=
  [("", .blank),
    ("[domain]", .header ["domain"]),
    ("name = \"default\"", .field ["name"] (.text "default")),
    ("clean_start = false", .field ["clean_start"] (.boolean false)),
    ("# every node in the cluster configuration", .blank),
    (nodesText id name,
      .field ["nodes"] (.list [.table [("id", .integer id.toNat), ("name", .text t)]])),
    ("", .blank),
    ("[fencing]", .header ["fencing"]),
    ("post_join_delay = 6", .field ["post_join_delay"] (.integer 6)),
    ("post_fail_delay = 0", .field ["post_fail_delay"] (.integer 0)),
    ("override_path = \"/var/run/cluster/fenced_override\"",
      .field ["override_path"] (.text "/var/run/cluster/fenced_override")),
    ("override_time = 3", .field ["override_time"] (.integer 3)),
    ("retry_interval_ms = 5000", .field ["retry_interval_ms"] (.integer 5000)),
    ("delay_poll_ms = 1000", .field ["delay_poll_ms"] (.integer 1000)),
    ("", .blank),
    ("[logging]", .header ["logging"]),
    ("level = \"info\"", .field ["level"] (.text "info"))]

section

variable {explain : String → String} {id : NodeId} {name t : String}

theorem toList_unlines (lines : List String) :
    (unlines lines).toList = lines.flatMap fun line => line.toList ++ ['\n'] := by
  simp [unlines, List.flatMap_map]

theorem toList_starterText (id : NodeId) (name t : String) :
    (starterText id name).toList =
      written (linesBefore id) ++
        keyed "name" ('"' :: (name.toList ++ '"' :: '\n' :: written (linesAfter id name t))) := by
  have hnewline : "\n".toList = ['\n'] := rfl
  rw [starterText, toList_unlines]
  simp only [written, linesBefore, linesAfter, nodesText, List.flatMap_cons, List.flatMap_nil,
    String.toList_append, List.append_assoc, hnewline, List.cons_append, List.nil_append]
  rfl

theorem toList_toString (id : NodeId) : (toString id).toList = Nat.toDigits 10 id.toNat :=
  Nat.toList_repr

theorem natCast_toNat_le (id : NodeId) : (id.toNat : Int) ≤ Int64.maxValue.toInt := by
  have hid : id.toNat < UInt32.size := id.toNat_lt_size
  have hmax : (UInt32.size : Int) ≤ Int64.maxValue.toInt := by decide
  omega

theorem skipBlanks_toDigits (n : Nat) (cs : List Char) :
    skipBlanks (Nat.toDigits 10 n ++ cs) = Nat.toDigits 10 n ++ cs := by
  cases hdigits : Nat.toDigits 10 n with
  | nil => exact absurd hdigits Nat.toDigits_ne_nil
  | cons d ds =>
    have hdigit : d.isDigit = true := isDigit_of_mem_toDigits (by rw [hdigits]; simp)
    exact skipBlanks_bare (by simp [isBare, Char.isAlphanum, hdigit]) _

/-- The id of the node. -/
theorem says_id (id : NodeId) : Says s!"id = {id}" (.field ["id"] (.integer id.toNat)) := by
  intro rest
  have htext : (s!"id = {id}").toList ++ '\n' :: rest =
      keyed "id" (Nat.toDigits 10 id.toNat ++ '\n' :: rest) := by
    change ("id = " ++ toString id).toList ++ '\n' :: rest = _
    rw [String.toList_append, toList_toString, List.append_assoc]
    rfl
  refine line?_of_content? ?_
  rw [htext, content?_keyed rfl, skipBlanks_toDigits, value?,
    valueWithin?_toDigits (natCast_toNat_le id) (.inl rfl)]
  rfl

theorem says_linesBefore (id : NodeId) : ∀ p ∈ linesBefore id, Says p.1 p.2 := by
  simp only [linesBefore, List.forall_mem_cons]
  exact ⟨fun _ => rfl, fun _ => rfl, fun _ => rfl, fun _ => rfl, says_id id, by simp⟩

/-- The line with the node's name. -/
theorem content?_name (cs : List Char) :
    content? (keyed "name" ('"' :: cs)) =
      (text? ('"' :: cs)).map fun read =>
        (.field ["name"] (.text (String.ofList read.1)), read.2) := by
  rw [content?_keyed rfl, skipBlanks_cons rfl, value?, valueWithin?_text, Option.map_map]
  rfl

/-- The table in braces that stands for the node, after the brace. -/
def nodeTable (id : NodeId) (name : String) (rest : List Char) : List Char :=
  keyed "id" (Nat.toDigits 10 id.toNat ++ ',' :: ' ' ::
    keyed "name" ('"' :: (name.toList ++ '"' :: ' ' :: '\x7d' :: rest)))

theorem toList_nodesText (id : NodeId) (name : String) (rest : List Char) :
    (nodesText id name).toList ++ '\n' :: rest =
      keyed "nodes" ('[' :: '\n' :: ' ' :: ' ' :: ' ' :: ' ' :: '\x7b' :: ' ' ::
        nodeTable id name (',' :: '\n' :: ']' :: '\n' :: rest)) := by
  have hline : (s!"    \x7b id = {id}, name = \"{name}\" \x7d,").toList =
      "    \x7b id = ".toList ++ (Nat.toDigits 10 id.toNat ++
        (", name = \"".toList ++ (name.toList ++ "\" \x7d,".toList))) := by
    change ("    \x7b id = " ++ toString id ++ ", name = \"" ++ name ++ "\" \x7d,").toList = _
    simp only [String.toList_append, toList_toString, List.append_assoc]
  simp only [nodesText, String.toList_append, hline, List.append_assoc]
  rfl

theorem valueWithin?_nodeTable (hname : ReadsAs name.toList t.toList) (id : NodeId) (depth : Nat)
    (rest : List Char) :
    valueWithin? (depth + 1) ('\x7b' :: ' ' :: nodeTable id name rest) =
      some (.table [("id", .integer id.toNat), ("name", .text t)], rest) := by
  have hnameField : field? (valueWithin? depth)
      (' ' :: keyed "name" ('"' :: (name.toList ++ '"' :: ' ' :: '\x7d' :: rest))) =
        some ((["name"], .text t), ' ' :: '\x7d' :: rest) := by
    rw [field?_blank, field?_keyed rfl, skipBlanks_cons rfl, valueWithin?_text,
      hname _ _ (by decide)]
    simp
  have hidField : field? (valueWithin? depth) (nodeTable id name rest) =
      some ((["id"], .integer id.toNat),
        ',' :: ' ' :: keyed "name" ('"' :: (name.toList ++ '"' :: ' ' :: '\x7d' :: rest))) := by
    rw [nodeTable, field?_keyed rfl, skipBlanks_toDigits,
      valueWithin?_toDigits (natCast_toNat_le id) (.inr rfl)]
    rfl
  obtain ⟨more, hcons⟩ : ∃ more, nodeTable id name rest = 'i' :: more := ⟨_, rfl⟩
  rw [hcons] at hidField ⊢
  have hfields : fields? (valueWithin? depth) (('i' :: more).length + 1) ('i' :: more) =
      some ([(["id"], .integer id.toNat), (["name"], .text t)], rest) := by
    rw [fields?_cons hidField rfl, List.length_cons, fields?_singleton hnameField rfl]
    rfl
  rw [valueWithin?]
  change ((fields? (valueWithin? depth) (('i' :: more).length + 1) ('i' :: more)).bind _) = _
  rw [hfields]
  rfl

theorem says_nodesText (hname : ReadsAs name.toList t.toList) :
    Says (nodesText id name)
      (.field ["nodes"] (.list [.table [("id", .integer id.toNat), ("name", .text t)]])) := by
  intro rest
  refine line?_of_content? ?_
  have hnode := valueWithin?_nodeTable hname id 77 (',' :: '\n' :: ']' :: '\n' :: rest)
  rw [toList_nodesText, content?_keyed rfl, skipBlanks_cons rfl, value?, nestingLimit]
  generalize nodeTable id name (',' :: '\n' :: ']' :: '\n' :: rest) = cs at hnode ⊢
  have hitems (fuel : Nat) : items? (valueWithin? 78) (fuel + 2)
      ('\n' :: ' ' :: ' ' :: ' ' :: ' ' :: '\x7b' :: ' ' :: cs) =
        some ([.table [("id", .integer id.toNat), ("name", .text t)]], '\n' :: rest) := by
    rw [items?_cons rfl (by decide) hnode]
    rfl
  have hlist : valueWithin? 79 ('[' :: '\n' :: ' ' :: ' ' :: ' ' :: ' ' :: '\x7b' :: ' ' :: cs) =
      some (.list [.table [("id", .integer id.toNat), ("name", .text t)]], '\n' :: rest) := by
    rw [valueWithin?]
    dsimp only
    rw [List.length_cons, hitems]
    rfl
  rw [hlist]
  rfl

theorem says_linesAfter (hname : ReadsAs name.toList t.toList) :
    ∀ p ∈ linesAfter id name t, Says p.1 p.2 := by
  simp only [linesAfter, List.forall_mem_cons]
  exact ⟨fun _ => rfl, fun _ => rfl, fun _ => rfl, fun _ => rfl, fun _ => rfl,
    says_nodesText hname, fun _ => rfl, fun _ => rfl, fun _ => rfl, fun _ => rfl, fun _ => rfl,
    fun _ => rfl, fun _ => rfl, fun _ => rfl, fun _ => rfl, fun _ => rfl, fun _ => rfl, by simp⟩

/-- The lines of the first configuration, the name's line aside. -/
theorem lines?_starterText (id : NodeId) (name t : String) :
    ∃ fuel, (written (linesAfter id name t)).length ≤ fuel ∧
      lines? (starterText id name).toList.length (starterText id name).toList =
        (line? (keyed "name"
          ('"' :: (name.toList ++ '"' :: '\n' :: written (linesAfter id name t))))).bind
            fun first => (lines? fuel first.2).map fun rest =>
              (linesBefore id).map (·.2) ++ first.1 :: rest := by
  rw [toList_starterText id name t]
  obtain ⟨fuel, hfuel, hlines⟩ := lines?_written (says_linesBefore id) (Nat.le_refl _)
  rw [hlines]
  simp only [keyed, List.length_append, List.length_cons] at hfuel
  obtain - | fuel := fuel
  · omega
  refine ⟨fuel, by omega, ?_⟩
  rw [lines?_succ (by simp [keyed]), Option.map_bind]
  refine congrArg (Option.bind _) (funext fun first => ?_)
  rw [Function.comp_apply, Option.map_map]
  rfl

/-- A name that is read as a text up to its end is read as that text in both places. -/
theorem lines?_of_readsAs (hname : ReadsAs name.toList t.toList) :
    lines? (starterText id name).toList.length (starterText id name).toList =
      some ((linesBefore id).map (·.2) ++
        .field ["name"] (.text t) :: (linesAfter id name t).map (·.2)) := by
  obtain ⟨fuel, hfuel, hlines⟩ := lines?_starterText id name t
  have hline : line? (keyed "name"
      ('"' :: (name.toList ++ '"' :: '\n' :: written (linesAfter id name t)))) =
        some (.field ["name"] (.text t), written (linesAfter id name t)) := by
    refine line?_of_content? ?_
    rw [content?_name, hname _ _ (by decide)]
    simp
  rw [hlines, hline, Option.bind_some]
  have hafter : lines? fuel (written (linesAfter id name t)) =
      some ((linesAfter id name t).map (·.2)) := by
    rw [← List.append_nil (written _)] at hfuel ⊢
    obtain ⟨fuel', -, hafter⟩ := lines?_written (says_linesAfter hname) hfuel
    rw [hafter]
    cases fuel' <;> simp [lines?]
  rw [hafter]
  rfl

theorem skipMark_starterText (id : NodeId) (name : String) :
    skipMark (starterText id name).toList = (starterText id name).toList := by
  rw [toList_starterText id name name]
  rfl

/-- What the first configuration says, table by table. -/
def starterSections (id : NodeId) (name : String) : List (String × List (String × Document)) :=
  [("node", [("id", .integer id.toNat), ("name", .text name)]),
    ("domain",
      [("name", .text "default"), ("clean_start", .boolean false),
        ("nodes", .list [.table [("id", .integer id.toNat), ("name", .text name)]])]),
    ("fencing",
      [("post_join_delay", .integer 6), ("post_fail_delay", .integer 0),
        ("override_path", .text "/var/run/cluster/fenced_override"),
        ("override_time", .integer 3), ("retry_interval_ms", .integer 5000),
        ("delay_poll_ms", .integer 1000)]),
    ("logging", [("level", .text "info")])]

theorem ofDocument?_starterSections (id : NodeId) (name : String) :
    ofDocument? .toml (.table ((starterSections id name).map fun s => (s.1, .table s.2))) =
      some (asked id name) := by
  have hnode : ConfiguredNode.ofDocument? .toml
      (.table [("id", .integer id.toNat), ("name", .text name)]) = some { id, name } :=
    ConfiguredNode.ofDocument?_table rfl rfl
  have hdomain : DomainConfig.ofDocument? .toml
      (.table [("name", .text "default"), ("clean_start", .boolean false),
        ("nodes", .list [.table [("id", .integer id.toNat), ("name", .text name)]])]) =
          some { nodes := [{ id, name }] } := by
    simp [DomainConfig.ofDocument?, Document.fields?, DomainConfig.fieldNames, List.lookup_cons,
      Document.orDefault, Document.text?, Document.boolean?, Document.list?, hnode]
  have hfencing : FencingConfig.ofDocument? .toml
      (.table [("post_join_delay", .integer 6), ("post_fail_delay", .integer 0),
        ("override_path", .text "/var/run/cluster/fenced_override"), ("override_time", .integer 3),
        ("retry_interval_ms", .integer 5000), ("delay_poll_ms", .integer 1000)]) = some {} := rfl
  have hlogging : LoggingConfig.ofDocument? .toml (.table [("level", .text "info")]) = some {} :=
    rfl
  simp [ofDocument?, Document.fields?, fieldNames, starterSections, List.lookup_cons,
    Document.orDefault, hnode, hdomain, hfencing, hlogging, asked]

theorem ofToml?_of_readsAs (hname : ReadsAs name.toList t.toList) :
    Document.ofToml? (starterText id name) =
      some (.table ((starterSections id t).map fun s => (s.1, .table s.2))) := by
  have hlines : ((linesBefore id).map (·.2) ++
      Line.field ["name"] (.text t) :: (linesAfter id name t).map (·.2)).filter (!·.isBlank) =
        sectionLines (starterSections id t) := rfl
  have hnames : ((starterSections id t).map (·.1)).Nodup := by
    change ["node", "domain", "fencing", "logging"].Nodup
    decide
  have hkeys : ∀ s ∈ starterSections id t, (s.2.map (·.1)).Nodup := by
    simp [starterSections]
  obtain ⟨header, hfields⟩ :=
    Reading.foldlM_sectionLines (starterSections id t) {} hnames hkeys
  rw [← hlines, Reading.foldlM_notBlank] at hfields
  rw [Document.ofToml?, skipMark_starterText, lines?_of_readsAs hname, Option.bind_eq_bind,
    Option.bind_some, hfields, Option.bind_eq_bind, Option.bind_some, List.nil_append,
    toDocument_sectionTables]
  rfl

/-- What is loaded is what would have been asked for with the name as it is read. -/
theorem ofToml_of_readsAs (hname : ReadsAs name.toList t.toList) :
    ofToml explain (starterText id name) = (asked id t).check := by
  rw [ofToml, ofToml?_of_readsAs hname, Option.bind_some, ofDocument?_starterSections]

/-- Without the name's line nothing is loaded. -/
theorem exists_text?_of_lines? {lines : List Line}
    (h : lines? (starterText id name).toList.length (starterText id name).toList = some lines) :
    ∃ t cs rest, text? ('"' :: (name.toList ++ '"' :: '\n' :: written (linesAfter id name name))) =
      some (t, cs) ∧
        lines = (linesBefore id).map (·.2) ++
          .field ["name"] (.text (String.ofList t)) :: rest := by
  obtain ⟨fuel, -, hlines⟩ := lines?_starterText id name name
  rw [hlines, Option.bind_eq_some_iff] at h
  obtain ⟨first, hfirst, h⟩ := h
  obtain ⟨rest, -, rfl⟩ := Option.map_eq_some_iff.1 h
  rw [line?, content?_name, Option.bind_eq_bind, Option.bind_eq_some_iff] at hfirst
  obtain ⟨content, hcontent, hfirst⟩ := hfirst
  obtain ⟨⟨t, cs⟩, htext, rfl⟩ := Option.map_eq_some_iff.1 hcontent
  obtain ⟨more, -, hfirst⟩ := Option.bind_eq_some_iff.1 hfirst
  cases hfirst
  exact ⟨t, cs, rest, htext, rfl⟩

/-- A name with a character that no text is made of is not loaded. -/
theorem ofToml_starterText_eq_error (hmeant : ∀ c ∈ name.toList, isMeant c = false) {c : Char}
    (hc : c ∈ name.toList) (hplain : isPlain c = false) :
    ofToml explain (starterText id name) =
      .error (.configUnreadable (explain (starterText id name))) := by
  have hread : Document.ofToml? (starterText id name) = none := by
    rw [Document.ofToml?, skipMark_starterText, Option.bind_eq_bind, Option.bind_eq_none_iff]
    intro lines hlines
    obtain ⟨t, cs, rest, htext, -⟩ := exists_text?_of_lines? hlines
    rw [text?_eq_none hmeant hc hplain] at htext
    cases htext
  rw [ofToml, hread]
  rfl

theorem valueAt?_pair {fields : Fields} {table key : String} {d : Document}
    (h : fields.valueAt? [table, key] = some d) :
    ∃ origin inner, fields.lookup table = some (.table origin inner) ∧
      inner.lookup key = some (.value d) := by
  rw [Fields.valueAt?] at h
  split at h
  next => cases h
  next origin inner hlookup =>
    refine ⟨origin, inner, hlookup, ?_⟩
    rw [Fields.valueAt?] at h
    split at h
    next hvalue =>
      cases h
      exact hvalue
    next => cases h
    next => cases h
  next => cases h

theorem node_of_ofDocument? {fields : List (String × Document)} {c : Config} {d : Document}
    (h : ofDocument? .toml (.table fields) = some c) (hnode : fields.lookup "node" = some d) :
    ConfiguredNode.ofDocument? .toml d = some c.node := by
  simp only [ofDocument?, Document.fields?, fieldNames, List.map_cons, List.map_nil, hnode,
    Option.bind_eq_bind, Option.bind_some, Option.bind_eq_some_iff] at h
  obtain ⟨node, hread, domain, -, fencing, -, logging, -, h⟩ := h
  cases h
  exact hread

theorem eq_of_check {c c' : Config} (h : c.check = .ok c') : c' = c := by
  unfold check at h
  split at h <;> cases h
  rfl

/-- After the name's line both fields of the node are there, and no later line takes them away. -/
theorem lookup_node_of_foldlM {later : List Line} {r : Reading}
    (h : ((linesBefore id).map (·.2) ++ Line.field ["name"] (.text t) :: later).foldlM
      Reading.add? {} = some r) :
    ∃ fields, (documentFields r.fields).lookup "node" = some (.table fields) ∧
      fields.lookup "id" = some (.integer id.toNat) ∧ fields.lookup "name" = some (.text t) := by
  have hbefore : ((linesBefore id).map (·.2) ++ [Line.field ["name"] (.text t)]).filter
      (!·.isBlank) =
        sectionLines [("node", [("id", .integer id.toNat), ("name", .text t)])] := rfl
  obtain ⟨header, hnode⟩ := Reading.foldlM_sectionLines
    [("node", [("id", .integer id.toNat), ("name", .text t)])] {} (by simp) (by simp)
  rw [← hbefore, Reading.foldlM_notBlank, List.nil_append] at hnode
  rw [List.append_cons, List.foldlM_append, hnode, Option.bind_eq_bind, Option.bind_some] at h
  have hkeeps := Reading.keeps_foldlM h
  obtain ⟨origin, inner, htable, hid⟩ := valueAt?_pair (hkeeps ["node", "id"] _ rfl)
  obtain ⟨origin', inner', htable', hname⟩ := valueAt?_pair (hkeeps ["node", "name"] _ rfl)
  obtain ⟨rfl, rfl⟩ := Entry.table.inj (Option.some.inj (htable.symm.trans htable'))
  refine ⟨documentFields inner, ?_, ?_, ?_⟩
  · rw [lookup_documentFields, htable]
    rfl
  · rw [lookup_documentFields, hid]
    rfl
  · rw [lookup_documentFields, hname]
    rfl

/-- Whatever is loaded has the id that was asked for, and the name that is read between the
    quotes. -/
theorem node_of_ofToml_starterText {c : Config} (h : ofToml explain (starterText id name) = .ok c) :
    ∃ t rest, text? ('"' :: (name.toList ++ '"' :: '\n' :: written (linesAfter id name name))) =
      some (t, rest) ∧ c.node = { id, name := String.ofList t } := by
  rw [ofToml] at h
  split at h
  next => cases h
  next c' hread =>
    obtain rfl := eq_of_check h
    obtain ⟨d, hd, hconfig⟩ := Option.bind_eq_some_iff.1 hread
    rw [Document.ofToml?, skipMark_starterText, Option.bind_eq_bind, Option.bind_eq_some_iff] at hd
    obtain ⟨lines, hlines, hd⟩ := hd
    obtain ⟨reading, hreading, hd⟩ := Option.bind_eq_some_iff.1 hd
    cases hd
    obtain ⟨t, cs, rest, htext, rfl⟩ := exists_text?_of_lines? hlines
    obtain ⟨fields, hnode, hid, hname⟩ := lookup_node_of_foldlM hreading
    have hloaded := node_of_ofDocument? hconfig hnode
    rw [ConfiguredNode.ofDocument?_table hid hname] at hloaded
    exact ⟨t, cs, htext, (Option.some.inj hloaded).symm⟩

theorem plain_of_ofToml_starterText {c : Config} (h : ofToml explain (starterText id name) = .ok c)
    (hmeant : ∀ d ∈ name.toList, isMeant d = false) :
    ∀ d ∈ name.toList, isPlain d = true ∧ isMeant d = false := by
  intro d hd
  refine ⟨?_, hmeant d hd⟩
  cases hplain : isPlain d with
  | true => rfl
  | false =>
    rw [ofToml_starterText_eq_error hmeant hd hplain] at h
    cases h

theorem check_asked (id : NodeId) (name : String) :
    (∃ c, (asked id name).check = .ok c) ↔ id ≠ 0 ∧ name ≠ "" := by
  by_cases hid : id = 0
  · simp [check, fault?, asked, hid]
  by_cases hname : name = ""
  · simp [check, fault?, asked, hid, hname]
  · have hfault : (asked id name).fault? = none := by
      simp [fault?, asked, nodeListFault?, overridePath?, hid, hname]
    rw [check, hfault]
    exact ⟨fun _ => ⟨hid, hname⟩, fun _ => ⟨_, rfl⟩⟩

/-- The first configuration is loaded under the name that was asked for exactly if every character
    of the name stands for itself. -/
theorem loads_starterText_iff {c : Config} (h : ofToml explain (starterText id name) = .ok c) :
    c.node.id = id ∧ (c.node.name = name ↔ ∀ d ∈ name.toList, isMeant d = false) ∧
      (c.node.name = name → c = asked id name) := by
  obtain ⟨t, rest, htext, hnode⟩ := node_of_ofToml_starterText h
  have hread (hname : c.node.name = name) :
      ∀ d ∈ name.toList, isPlain d = true ∧ isMeant d = false := by
    obtain rfl : t = name.toList := by
      rw [← hname, hnode, String.toList_ofList]
    exact forall_of_text? htext
  have hasked (hname : ∀ d ∈ name.toList, isPlain d = true ∧ isMeant d = false) :
      c = asked id name := by
    rw [ofToml_of_readsAs (readsAs_self hname)] at h
    exact eq_of_check h
  refine ⟨by rw [hnode], ⟨fun hname d hd => (hread hname d hd).2, fun hmeant => ?_⟩,
    fun hname => hasked (hread hname)⟩
  rw [hasked (plain_of_ofToml_starterText h hmeant)]
  rfl

end

end Config

end ClusterFence
