import ClusterFence.Node

namespace ClusterFence.Bytes

/-- The `width` little-endian bytes of a number; higher bits are dropped. -/
def ofNat : Nat → Nat → List UInt8
  | 0, _ => []
  | width + 1, n => UInt8.ofNat n :: ofNat width (n / 256)

/-- The number with the given little-endian bytes. -/
def toNat : List UInt8 → Nat
  | [] => 0
  | b :: bs => b.toNat + 256 * toNat bs

def ofUInt16 (n : UInt16) : List UInt8 := ofNat 2 n.toNat

def ofUInt32 (n : UInt32) : List UInt8 := ofNat 4 n.toNat

def ofUInt64 (n : UInt64) : List UInt8 := ofNat 8 n.toNat

/-- A reader hands over a value and leaves the bytes behind it. Missing bytes read as zero,
    so callers compare lengths before they read. -/
abbrev Reader := StateM (List UInt8)

/-- The next `width` bytes as a number. -/
def word (width : Nat) : Reader Nat := fun bs => (toNat (bs.take width), bs.drop width)

def uint16 : Reader UInt16 := return UInt16.ofNat (← word 2)

def uint32 : Reader UInt32 := return UInt32.ofNat (← word 4)

def uint64 : Reader UInt64 := return UInt64.ofNat (← word 8)

/-- Passes over `count` bytes. -/
def skip (count : Nat) : Reader Unit := fun bs => ((), bs.drop count)

end ClusterFence.Bytes
