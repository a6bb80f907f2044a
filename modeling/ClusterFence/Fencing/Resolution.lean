import ClusterFence.Node

namespace ClusterFence

/-- How a victim was dealt with: by a fencing agent, by rejoining cleanly, by an
    administrator's word, or by fencing outside the domain. -/
inductive Resolution where
  | agent
  | member
  | override
  | external
deriving DecidableEq, Repr, Inhabited

namespace Resolution

def code : Resolution → UInt32
  | .agent => 1
  | .member => 2
  | .override => 3
  | .external => 4

def ofCode? : UInt32 → Option Resolution
  | 1 => some .agent
  | 2 => some .member
  | 3 => some .override
  | 4 => some .external
  | _ => none

def text : Resolution → String
  | .agent => "AGENT"
  | .member => "MEMBER"
  | .override => "OVERRIDE"
  | .external => "EXTERNAL"

theorem ofCode?_code (r : Resolution) : ofCode? r.code = some r := by
  cases r <;> rfl

/-- A number is read as at most one way, the way that is written with it. -/
theorem code_of_ofCode? {n : UInt32} {r : Resolution} (h : ofCode? n = some r) : r.code = n := by
  unfold ofCode? at h
  split at h <;> simp_all [code]
  all_goals (subst h; rfl)

end Resolution

end ClusterFence
