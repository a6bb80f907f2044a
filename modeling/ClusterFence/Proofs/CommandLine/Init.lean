import ClusterFence.CommandLine.Request
import ClusterFence.Proofs.Config.Starter

namespace ClusterFence

namespace CommandLine.Command

open Config Toml

theorem fromUTF8?_toUTF8 (s : String) : String.fromUTF8? s.toUTF8 = some s :=
  dif_pos s.isValidUTF8

theorem ofFile_toUTF8 (explain : String → String) (s : String) :
    Config.ofFile explain (.ok s.toUTF8) = Config.ofToml explain s := by
  unfold ofFile
  dsimp only
  rw [fromUTF8?_toUTF8]

section

variable (explain : String → String) (read : String → Except String ByteArray)

theorem starter_eq (id : NodeId) (name : String) :
    starter explain id name =
      (Config.ofToml explain (starterText id name)).map fun _ => starterText id name := by
  unfold starter
  cases Config.ofToml explain (starterText id name) <;> rfl

theorem outcome_init_of_ok (config output : String) {c : Config} {id : NodeId} {name : String}
    (h : Config.ofToml explain (starterText id name) = .ok c) :
    (init output id name).outcome explain read config =
      .write output (starterText id name) (createdText output) := by
  have hstarter : starter explain id name = .ok (starterText id name) := by
    rw [starter_eq, h]
    rfl
  unfold Command.outcome
  dsimp only
  rw [hstarter]

theorem outcome_init_of_error (config output : String) {id : NodeId} {name : String} {e : Error}
    (h : Config.ofToml explain (starterText id name) = .error e) :
    (init output id name).outcome explain read config = .fail e := by
  have hstarter : starter explain id name = .error e := by
    rw [starter_eq, h]
    rfl
  unfold Command.outcome
  dsimp only
  rw [hstarter]

theorem status_init_iff (config output : String) (id : NodeId) (name : String) :
    ((init output id name).outcome explain read config).status = 0 ↔
      ∃ c, Config.ofToml explain (starterText id name) = .ok c := by
  cases hload : Config.ofToml explain (starterText id name) with
  | error e => simp [outcome_init_of_error explain read config output hload, Outcome.status]
  | ok c => simp [outcome_init_of_ok explain read config output hload, Outcome.status]

/-- A first configuration is written only if it can be loaded. It is loaded as the node with the id
    that was asked for, and with the name that was asked for exactly if the name has neither quotes
    nor backslashes; then nothing else is told. A name without quotes and backslashes is refused
    if it is empty or has a character that no text is made of. -/
theorem outcome_init (config output : String) (id : NodeId) (name : String) :
    let made := (init output id name).outcome explain read config
    ((∃ e, Config.ofToml explain (starterText id name) = .error e ∧ made = .fail e) ∨
      ∃ content told c, made = .write output content told ∧
        Config.ofFile explain (.ok content.toUTF8) = .ok c ∧ c.node.id = id ∧
        (c.node.name = name ↔ ∀ d ∈ name.toList, isMeant d = false) ∧
        (c.node.name = name → c = asked id name)) ∧
      ((∀ d ∈ name.toList, isMeant d = false) →
        (made.status = 0 ↔ id ≠ 0 ∧ name ≠ "" ∧ ∀ d ∈ name.toList, isPlain d = true)) := by
  refine ⟨?_, fun hmeant => ?_⟩
  · cases hload : Config.ofToml explain (starterText id name) with
    | error e => exact .inl ⟨e, rfl, outcome_init_of_error explain read config output hload⟩
    | ok c =>
      refine .inr ⟨starterText id name, createdText output, c,
        outcome_init_of_ok explain read config output hload, ?_, loads_starterText_iff hload⟩
      rw [ofFile_toUTF8]
      exact hload
  · rw [status_init_iff]
    constructor
    · rintro ⟨c, hload⟩
      have hname : ∀ d ∈ name.toList, isPlain d = true ∧ isMeant d = false :=
        plain_of_ofToml_starterText hload hmeant
      rw [ofToml_of_readsAs (readsAs_self hname)] at hload
      obtain ⟨hid, hempty⟩ := (check_asked id name).1 ⟨c, hload⟩
      exact ⟨hid, hempty, fun d hd => (hname d hd).1⟩
    · rintro ⟨hid, hempty, hplain⟩
      rw [ofToml_of_readsAs (readsAs_self fun d hd => ⟨hplain d hd, hmeant d hd⟩)]
      exact (check_asked id name).2 ⟨hid, hempty⟩

end

/-- A backslash and a `t` are loaded as a tab. -/
theorem outcome_init_backslash :
    ∃ content told,
      (init "fencekeeper.toml" 7 "a\\tb").outcome id (fun _ => .ok .empty) "" =
        .write "fencekeeper.toml" content told ∧
      Config.ofFile id (.ok content.toUTF8) = .ok (asked 7 "a\tb") ∧ "a\tb" ≠ "a\\tb" := by
  have hread : ReadsAs "a\\tb".toList "a\tb".toList := fun _ _ _ => rfl
  have hload : Config.ofToml id (starterText 7 "a\\tb") = .ok (asked 7 "a\tb") := by
    rw [ofToml_of_readsAs hread]
    rfl
  refine ⟨starterText 7 "a\\tb", createdText "fencekeeper.toml", ?_, ?_, by decide⟩
  · exact outcome_init_of_ok _ _ _ _ hload
  · rw [ofFile_toUTF8]
    exact hload

end CommandLine.Command

end ClusterFence
