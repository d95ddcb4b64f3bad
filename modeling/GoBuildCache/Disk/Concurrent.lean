import GoBuildCache.Disk.Refinement

/-!
# Concurrent calls on the disk backend

The broker runs each request in its own goroutine, and its singleflight keys `put:A` and `get:A`
let one `Put(A)` and one `Get(A)` be in flight at once: the `Backend` interface promises only
that there are never two in-flight calls of the same kind on one action id.  A `World` is the
file system and every call started on it; `worldStep` starts a call or runs one step of any call,
so the runs of `worldStep` are all the interleavings.  `ContractStep` is a step after which the
promise of the interface holds.

`Put` writes the body file in place: `os.Create` empties the file of an earlier `Put` before
`io.Copy` refills it, and the metadata file still describes the earlier body meanwhile.
`get_hit_during_put_is_torn` is a run that keeps the promise, has no fault, and in which a
`Get` returns a hit of size 2 while its path holds no byte.
-/

namespace GoBuildCache

namespace Disk

open Os

/-- A call in flight. -/
inductive Thread
  | put (c : PutCall) (pc : PutPc)
  | get (a : Bytes) (pc : GetPc)
  | clear (pc : ClearPc)

/-- The file system and every call started on it, in the order they started. -/
structure World where
  fs : FileSystem
  threads : List Thread

/-- One step of the world: a call starts, or one call takes one step. -/
inductive worldStep (d : Disk) (faults : Bool) : World → World → Prop
  /-- `Put` is called. -/
  | spawnPut (w : World) (c : PutCall) : worldStep d faults w ⟨w.fs, w.threads ++ [.put c .start]⟩
  /-- `Get` is called. -/
  | spawnGet (w : World) (a : Bytes) : worldStep d faults w ⟨w.fs, w.threads ++ [.get a .start]⟩
  /-- `Clear` is called. -/
  | spawnClear (w : World) : worldStep d faults w ⟨w.fs, w.threads ++ [.clear .start]⟩
  /-- The `Put` at position `i` takes a step. -/
  | put (w : World) (i : Nat) (c : PutCall) (pc pc' : PutPc) (fs' : FileSystem)
      (ht : w.threads[i]? = some (.put c pc)) (h : putStep d faults c pc w.fs pc' fs') :
      worldStep d faults w ⟨fs', w.threads.set i (.put c pc')⟩
  /-- The `Get` at position `i` takes a step. -/
  | get (w : World) (i : Nat) (a : Bytes) (pc pc' : GetPc)
      (ht : w.threads[i]? = some (.get a pc)) (h : getStep d faults a pc w.fs pc') :
      worldStep d faults w ⟨w.fs, w.threads.set i (.get a pc')⟩
  /-- The `Clear` at position `i` takes a step. -/
  | clear (w : World) (i : Nat) (pc pc' : ClearPc) (fs' : FileSystem)
      (ht : w.threads[i]? = some (.clear pc)) (h : clearStep d faults pc w.fs pc' fs') :
      worldStep d faults w ⟨fs', w.threads.set i (.clear pc')⟩

/-- The action id of a `Put` in flight. -/
def Thread.putInFlight : Thread → Option Bytes
  | .put _ (.returned _) => none
  | .put c _ => some c.actionID
  | _ => none

/-- The action id of a `Get` in flight. -/
def Thread.getInFlight : Thread → Option Bytes
  | .get _ (.returned _) => none
  | .get a _ => some a
  | _ => none

/-- The promise of the `Backend` interface: no two `Put` calls and no two `Get` calls on one
action id are in flight at once. -/
def Contract (w : World) : Prop :=
  (w.threads.filterMap Thread.putInFlight).Nodup ∧ (w.threads.filterMap Thread.getInFlight).Nodup

instance (w : World) : Decidable (Contract w) := inferInstanceAs (Decidable (_ ∧ _))

/-- A step without faults after which the promise holds. -/
def ContractStep (d : Disk) (w w' : World) : Prop := worldStep d false w w' ∧ Contract w'

/-- `Put([1], "aa", 2)` at time 0. -/
def firstPut : PutCall := samplePut (some ⟨ascii "aa", false⟩) (Int64.ofInt 2)

/-- `Put([1], "bb", 2)` at time 0. -/
def secondPut : PutCall := samplePut (some ⟨ascii "bb", false⟩) (Int64.ofInt 2)

/-- On a new directory, `Put([1], "aa", 2)` returns; `Put([1], "bb", 2)` then runs `os.Create`,
which empties the body file, and a `Get([1])` stats the file and reads the metadata of the first
put.  The `Get` returns a hit of size 2, and its path holds no byte: neither body of a put, and
not of the returned size.  At each step at most one `Put` and one `Get` are in flight. -/
theorem get_hit_during_put_is_torn :
    ∃ w : World, Relation.ReflTransGen (ContractStep sampleDisk) ⟨sampleDisk.fresh, []⟩ w ∧
      w.threads.map (fun t => match t with
        | .put c _ => c.body.map Body.data
        | _ => none) = [some (ascii "aa"), some (ascii "bb"), none] ∧
      w.threads[2]? = some (.get [1] (.returned (some
        ⟨[1], sampleDisk.proc.abs (sampleDisk.actionIDToPath [1]), Int64.ofInt 2,
          GoTime.ofUnix sampleDisk.proc.loc Int64.zero⟩))) ∧
      w.fs.readFile (sampleDisk.actionIDToPath [1]) = .ok [] := by
  have hrun : Relation.ReflTransGen (ContractStep sampleDisk) ⟨sampleDisk.fresh, []⟩ _ :=
    .tail (.tail (.tail (.tail (.tail (.tail (.tail (.tail (.tail (.tail (.tail .refl
      ⟨.spawnPut _ firstPut, by decide⟩)
      ⟨.put _ 0 firstPut .start _ _ rfl (.create _ _ 0 rfl), by decide⟩)
      ⟨.put _ 0 firstPut (.copying ⟨ascii "aa", false⟩ 0 (ascii "aa")) _ _ rfl
        (.copyChunk _ _ 0 _ 2 (by decide)), by decide⟩)
      ⟨.put _ 0 firstPut (.copying ⟨ascii "aa", false⟩ 0 []) _ _ rfl (.copyDone _ _ 0), by decide⟩)
      ⟨.put _ 0 firstPut .openingMeta _ _ rfl (.openMeta _ _ 1 rfl), by decide⟩)
      ⟨.put _ 0 firstPut (.writingMeta 1) _ _ rfl (.writeMeta _ 1), by decide⟩)
      ⟨.spawnPut _ secondPut, by decide⟩)
      ⟨.put _ 1 secondPut .start _ _ rfl (.create _ _ 0 rfl), by decide⟩)
      ⟨.spawnGet _ [1], by decide⟩)
      ⟨.get _ 2 [1] .start _ rfl (.statHit _ rfl), by decide⟩)
      ⟨.get _ 2 [1] .reading _ rfl (.read _ _ rfl), by decide⟩
  exact ⟨_, hrun, rfl, rfl, rfl⟩

end Disk

end GoBuildCache
