import ClusterFence.Config.Source

namespace ClusterFence

/-- Lines as one text. Every line is ended. -/
def unlines (lines : List String) : String := String.join (lines.map (· ++ "\n"))

namespace Config

/-- A configuration that tells a node's id and name, and says of everything else what holds by
    default. The name is put between quotes as it is. -/
def starterText (id : NodeId) (name : String) : String :=
  unlines
    ["# Fencekeeper Configuration",
      "# Generated configuration file",
      "",
      "[node]",
      s!"id = {id}",
      s!"name = \"{name}\"",
      "",
      "[domain]",
      "name = \"default\"",
      "clean_start = false",
      "# every node in the cluster configuration",
      "nodes = [",
      s!"    \x7b id = {id}, name = \"{name}\" \x7d,",
      "]",
      "",
      "[fencing]",
      "post_join_delay = 6",
      "post_fail_delay = 0",
      "override_path = \"/var/run/cluster/fenced_override\"",
      "override_time = 3",
      "retry_interval_ms = 5000",
      "delay_poll_ms = 1000",
      "",
      "[logging]",
      "level = \"info\""]

/-- The text of a first configuration, given that it can be loaded. -/
def starter (explain : String → String) (id : NodeId) (name : String) : Except Error String :=
  match ofToml explain (starterText id name) with
  | .ok _ => .ok (starterText id name)
  | .error e => .error e

end Config

end ClusterFence
