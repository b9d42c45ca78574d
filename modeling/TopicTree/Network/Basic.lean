import TopicTree.Site.Tick

/-!
# Networks

A network is a number of trees on one medium. Each tree draws its slots from a pool, which trees may
share, and slots can be held for a tree so that nothing passes through them. At any moment one tree
is acting: it does so as a site, and what it leaves behind is put back.
-/

namespace TopicTree

/-- A tree of a network. -/
structure Station where
  tree : Tree
  /-- Which pool the tree draws from. -/
  pool : Nat
  /-- The slots held for the tree. -/
  held : List Nat

/-- Trees on one medium. -/
structure Network (M : Type) where
  medium : M
  pools : List Pool
  stations : List Station

namespace Network

variable {M : Type}

/-- A network without trees. -/
def ofMedium (medium : M) : Network M :=
  ⟨medium, [], []⟩

/-- Adds a tree without entries, with a pool of its own. -/
def addStation (network : Network M) (capacity timeout : Nat) : Network M :=
  { network with
    pools := network.pools ++ [Pool.ofSize capacity]
    stations := network.stations ++ [⟨Tree.empty timeout, network.pools.length, []⟩] }

/-- Adds a tree without entries that shares the pool of another one. -/
def addSharing (network : Network M) (other : Station) (timeout : Nat) : Network M :=
  { network with
    stations := network.stations ++ [⟨Tree.empty timeout, other.pool, []⟩] }

/-- The tree with a given number. -/
def station? (network : Network M) (index : Nat) : Option Station :=
  network.stations[index]?

/-- The pool that a tree draws from. -/
def poolOf (network : Network M) (station : Station) : Pool :=
  network.pools.getD station.pool (Pool.ofSize 0)

/-- A tree as a site at which nothing has happened yet. -/
def siteOf (network : Network M) (station : Station) : Site M :=
  ⟨station.tree, network.poolOf station, network.medium, []⟩

/-- Puts a site back where its tree stands. -/
def putBack (network : Network M) (index : Nat) (station : Station) (site : Site M) : Network M :=
  { medium := site.medium
    pools := network.pools.set station.pool site.pool
    stations := network.stations.set index { station with tree := site.tree } }

/-- Holds up to `count` more slots for a tree. -/
def hold (network : Network M) (index : Nat) (station : Station) (count : Nat) : Network M :=
  let (slots, pool) := (network.poolOf station).acquireUpTo count
  { network with
    pools := network.pools.set station.pool pool
    stations := network.stations.set index { station with held := station.held ++ slots } }

/-- Gives back all slots held for a tree. -/
def letGo (network : Network M) (index : Nat) (station : Station) : Network M :=
  { network with
    pools :=
      network.pools.set station.pool ((network.poolOf station).releaseAll station.held)
    stations := network.stations.set index { station with held := [] } }

end Network
end TopicTree
