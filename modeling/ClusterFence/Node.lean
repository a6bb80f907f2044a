import Std.Data.ExtTreeMap

namespace ClusterFence

/-- A node's id in the cluster. Zero is never a configured node. -/
abbrev NodeId := UInt32

/-- A wall-clock reading in seconds; zero stands for "never". -/
abbrev Seconds := UInt64

/-- What is known per node, listed by ascending id. Two tables are equal when they hold
    the same value for every id. -/
abbrev NodeTable (α : Type) := Std.ExtTreeMap NodeId α

end ClusterFence
