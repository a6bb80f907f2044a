import ClusterFence.Cluster
import ClusterFence.Config.Basic

namespace ClusterFence

/-- A node that waits to be fenced. An initial victim is only presumed to have failed, because it
    was absent when we joined; one that is resolved here waits for our own report to come back. -/
structure Victim where
  node : NodeId
  name : String
  initial : Bool := false
  resolvedHere : Bool := false
deriving DecidableEq, Repr, Inhabited

/-- The victims of the domain. -/
@[ext]
structure Victims where
  toList : List Victim := []
deriving DecidableEq, Repr, Inhabited

namespace Victims

def ids (v : Victims) : List NodeId := v.toList.map (·.node)

def size (v : Victims) : Nat := v.toList.length

def isEmpty (v : Victims) : Bool := v.toList.isEmpty

def get? (v : Victims) (node : NodeId) : Option Victim := v.toList.find? (·.node == node)

def contains (v : Victims) (node : NodeId) : Bool := v.toList.any (·.node == node)

/-- Adds a victim at the end, unless its node is one already. -/
def add (v : Victims) (victim : Victim) : Victims :=
  if v.contains victim.node then v else ⟨v.toList ++ [victim]⟩

def erase (v : Victims) (node : NodeId) : Victims := ⟨v.toList.eraseP (·.node == node)⟩

/-- The victim was dealt with here. -/
def markResolved (v : Victims) (node : NodeId) : Victims :=
  ⟨updateFirst (·.node == node) ({ · with resolvedHere := true }) v.toList⟩

/-- The failed nodes of a change become victims. -/
def addFailed (v : Victims) (c : Change) (name : NodeId → String) : Victims :=
  c.failedNodes.foldl (fun v node => v.add { node, name := name node }) v

/-- A node that joins without knowing anything presumes that every configured node has failed
    that is neither in the cluster nor in the change. -/
def addInitial (v : Victims) (c : Change) (configured : List ConfiguredNode)
    (cluster : ClusterView) : Victims :=
  configured.foldl (fun v n =>
    if cluster.isMember n.id || c.isMember n.id then v
    else v.add { node := n.id, name := n.name, initial := true }) v

/-- Keeps the victims that the test does not call safe. -/
def reduce (v : Victims) (safe : Victim → Bool) : Victims := ⟨v.toList.filter (!safe ·)⟩

end Victims

end ClusterFence
