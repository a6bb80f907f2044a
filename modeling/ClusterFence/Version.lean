import ClusterFence.Node

namespace ClusterFence

/-- A protocol version: three numbers compared for compatibility, and flag bits. -/
structure Version where
  major : UInt16 := 0
  minor : UInt16 := 0
  patch : UInt16 := 0
  flags : UInt16 := 0
deriving DecidableEq, Repr, Inhabited

namespace Version

/-- The flag bit of a daemon that has been through a domain change. -/
def statefulFlag : UInt16 := 1

/-- The highest version that this daemon speaks. -/
def highest : Version := { major := 1, minor := 1, patch := 1 }

/-- The same numbers without flags, as a message header carries them. -/
def withoutFlags (v : Version) : Version := { v with flags := 0 }

/-- A zero major number stands for "not set". -/
def isSet (v : Version) : Bool := v.major != 0

def isStateful (v : Version) : Bool := v.flags &&& statefulFlag != 0

/-- Messages can be exchanged between versions of one major and minor number. -/
def compatible (v w : Version) : Bool := v.major == w.major && v.minor == w.minor

/-- A daemon whose highest version is `max` can run `run` when the major numbers agree and
    the minor number is not above its own. -/
def runnableUnder (run max : Version) : Bool := run.major == max.major && run.minor ≤ max.minor

/-- The written form leaves the flags out. -/
def text (v : Version) : String := s!"{v.major}.{v.minor}.{v.patch}"

end Version

/-- What a daemon announces: the highest version it speaks and the one it runs. -/
structure Offer where
  max : Version := {}
  run : Version := {}
deriving DecidableEq, Repr, Inhabited

end ClusterFence
