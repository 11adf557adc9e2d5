/-!
# Counts of a workload

How many operations of each kind a workload holds. A write is fresh when its key and value were
drawn for it, and reused when it repeats an earlier write.
-/

namespace StoreTrial.Workload

/-- The operations of a workload, counted by kind. -/
structure Stats where
  /-- The reads. -/
  reads : Nat
  /-- The writes of a key and value drawn for them. -/
  freshWrites : Nat
  /-- The writes that repeat an earlier write. -/
  reusedWrites : Nat
  /-- The deletions. -/
  deletes : Nat
deriving DecidableEq

namespace Stats

/-- The counts of a workload without operations. -/
def zero : Stats := ⟨0, 0, 0, 0⟩

/-- All writes. -/
def writes (stats : Stats) : Nat := stats.freshWrites + stats.reusedWrites

/-- All operations. -/
def total (stats : Stats) : Nat := stats.reads + stats.writes + stats.deletes

end Stats

end StoreTrial.Workload
