import GoBuildCache.LocalCache.Sidecar
import Mathlib.Logic.Relation

/-!
# The disk backend: `Put`, `Get` and `Clear` as steps over the file system

`Disk` keeps the body of an action id `A` in `filepath.Join(baseDir, hex(A))` and its metadata
in `filepath.Join(baseDir, hex(A) + ".meta")`, in the text format of the local cache's sidecar.
Unlike `LocalCache.Write`, `Put` writes both files in place:

1. `os.Create(diskPath)` truncates the body file or creates it;
2. when `bodySize > 0 && body != nil`, `io.Copy` writes the body in one or more `write(2)`
   calls; a read error, or a count other than `bodySize`, removes the body file and fails;
3. `os.WriteFile(metaPath, …)` opens, truncates and writes the metadata; its failure removes the
   body file too.

`Get` stats the body, reads the metadata and parses it; every failure is a miss.  `Clear` lists
the directory and removes each entry.

Each call has its program counter (`PutPc`, `GetPc`, `ClearPc`) and its step relation.  A step
that fails with an error the state does not explain (`EIO`, a full disk, a reader that yields
fewer bytes before failing) carries `faults = true`.  `Put` and a hit of `Get` return
`filepath.Abs(diskPath)` in the backend's process, `diskPath` itself when that fails
(`Process.abs`), and `Get` reads the time with `time.Unix` in `time.Local`.

A call run alone and without faults computes a function of the file system: `putFrom`,
`getFrom` and `removeEntries`, from each program counter.  `putRun_putFrom` and `getRun_getFrom`
say that every such run ends there, and `putRun_exists` and `getRun_exists` that the call does
get there.
-/

namespace GoBuildCache

open Path Os

/-- `Disk`: the directory of the backend, which `NewDisk` has created with `os.MkdirAll`, so it
is not empty, and the process it runs in. -/
structure Disk where
  baseDir : Bytes
  baseDir_ne : baseDir ≠ []
  proc : Process

namespace Disk

/-- `actionIDToPath`: `filepath.Join(baseDir, hex.EncodeToString(actionID))`. -/
def actionIDToPath (d : Disk) (actionID : Bytes) : Bytes :=
  join d.baseDir (Hex.encodeToString actionID)

/-- `metadataPath`: `filepath.Join(baseDir, hexID + ".meta")`. -/
def metadataPath (d : Disk) (actionID : Bytes) : Bytes :=
  join d.baseDir (Hex.encodeToString actionID ++ ascii ".meta")

/-- The clean base directory. -/
def root (d : Disk) : Bytes := clean d.baseDir

/-! ## The paths of an entry -/

theorem actionIDToPath_nil (d : Disk) : d.actionIDToPath [] = d.root :=
  LocalCache.join_nil_right _ d.baseDir_ne

theorem actionIDToPath_of_ne (d : Disk) {a : Bytes} (ha : a ≠ []) :
    d.actionIDToPath a = child d.root (Hex.encodeToString a) :=
  join_name d.baseDir_ne (LocalCache.encodeToString_isName ha)

/-- The name of a metadata file is a name, and it starts with a dot only for the empty id. -/
theorem metaName_isName (a : Bytes) :
    IsName (Hex.encodeToString a ++ ascii ".meta") := by
  by_cases ha : a = []
  · subst ha
    decide
  · exact (LocalCache.hex_append_isName ha (s := ascii ".meta") (by decide)).1

theorem metadataPath_eq (d : Disk) (a : Bytes) :
    d.metadataPath a = child d.root (Hex.encodeToString a ++ ascii ".meta") :=
  join_name d.baseDir_ne (metaName_isName a)

theorem actionIDToPath_injective (d : Disk) : Function.Injective d.actionIDToPath := by
  intro a b h
  by_cases ha : a = [] <;> by_cases hb : b = []
  · rw [ha, hb]
  · rw [ha, actionIDToPath_nil, actionIDToPath_of_ne d hb] at h
    exact absurd h.symm (LocalCache.child_ne_self (LocalCache.encodeToString_isName hb))
  · rw [hb, actionIDToPath_nil, actionIDToPath_of_ne d ha] at h
    exact absurd h (LocalCache.child_ne_self (LocalCache.encodeToString_isName ha))
  · rw [actionIDToPath_of_ne d ha, actionIDToPath_of_ne d hb] at h
    exact Hex.encodeToString_injective (LocalCache.child_inj h)

theorem metadataPath_injective (d : Disk) : Function.Injective d.metadataPath := fun a b h => by
  rw [metadataPath_eq, metadataPath_eq] at h
  exact Hex.encodeToString_injective (List.append_cancel_right (LocalCache.child_inj h))

/-- No body path is a metadata path. -/
theorem actionIDToPath_ne_metadataPath (d : Disk) (a b : Bytes) :
    d.actionIDToPath a ≠ d.metadataPath b := by
  rw [metadataPath_eq]
  by_cases ha : a = []
  · rw [ha, actionIDToPath_nil]
    exact (LocalCache.child_ne_self (metaName_isName b)).symm
  · rw [actionIDToPath_of_ne d ha]
    intro h
    have hdot : (46 : UInt8) ∈ Hex.encodeToString a := by
      rw [LocalCache.child_inj h]
      exact List.mem_append_right _ (by decide)
    exact (LocalCache.dot_slash_not_mem_encodeToString a).1 hdot

/-! ## Calls, results and program counters -/

/-- A body reader: it yields `data` and then `io.EOF`, or a read error when `fails`. -/
structure Body where
  data : Bytes
  fails : Bool

/-- The errors of `Put`. -/
inductive PutError
  /-- `failed to create cache file: %w`. -/
  | create (e : Errno)
  /-- `failed to write cache file: %w`, the error of `io.Copy`. -/
  | write
  /-- `size mismatch: expected %d, wrote %d`. -/
  | sizeMismatch (expected : Int64) (wrote : Nat)
  /-- `failed to write metadata: %w`. -/
  | writeMetadata (e : Errno)

/-- The errors of `Clear`. -/
inductive ClearError
  /-- `failed to read cache directory: %w`. -/
  | readDir (e : Errno)
  /-- `failed to remove %s: %w`. -/
  | remove (path : Bytes) (e : Errno)

/-- What a hit of `Get` returns besides `miss = false`.  `Get` never returns an error. -/
structure GetReply where
  outputID : Bytes
  diskPath : Bytes
  size : Int64
  putTime : GoTime

/-- `Put(actionID, outputID, body, bodySize)`; `now` is `time.Now().Unix()` when it formats the
metadata, and `body` is `none` for a nil reader. -/
structure PutCall where
  actionID : Bytes
  outputID : Bytes
  body : Option Body
  bodySize : Int64
  now : Int64

/-- The metadata text of `Put`:
`fmt.Sprintf("outputID:%s\nsize:%d\ntime:%d\n", hex(outputID), bodySize, now.Unix())`. -/
def PutCall.meta (c : PutCall) : Bytes :=
  LocalCache.formatFields c.outputID c.bodySize c.now

/-- The bytes `Put` copies into the body file: the body, when `bodySize > 0 && body != nil`. -/
def PutCall.copied (c : PutCall) : Bytes :=
  match c.body with
  | some b => if 0 < c.bodySize.val then b.data else []
  | none => []

/-- Where a `Put` is. -/
inductive PutPc
  /-- Not started. -/
  | start
  /-- `io.Copy` from the reader `b` into inode `ino` of the body file, with `rest` still to copy. -/
  | copying (b : Body) (ino : Nat) (rest : Bytes)
  /-- `os.WriteFile(metaPath)` opens and truncates the metadata file. -/
  | openingMeta
  /-- `os.WriteFile` writes the text into inode `ino`. -/
  | writingMeta (ino : Nat)
  /-- `os.Remove(diskPath)`, before returning `e`. -/
  | removing (e : PutError)
  /-- The call has returned. -/
  | returned (r : Except PutError Bytes)

/-- Where a `Get` is. -/
inductive GetPc
  /-- Not started: `os.Stat(diskPath)`. -/
  | start
  /-- `os.ReadFile(metaPath)`. -/
  | reading
  /-- The call has returned; `none` is a miss. -/
  | returned (r : Option GetReply)

/-- Where a `Clear` is. -/
inductive ClearPc
  /-- Not started: `os.ReadDir(baseDir)`. -/
  | start
  /-- `os.Remove` of each listed name still to remove. -/
  | removingEntries (names : List Bytes)
  /-- The call has returned. -/
  | returned (r : Except ClearError Unit)

/-- Where `Put` goes after `os.Create` opened inode `ino`: it copies when
`bodySize > 0 && body != nil`, and writes the metadata otherwise. -/
def PutCall.afterCreate (c : PutCall) (ino : Nat) : PutPc :=
  match c.body with
  | some b => if 0 < c.bodySize.val then .copying b ino b.data else .openingMeta
  | none => .openingMeta

/-- Where `Put` goes when `io.Copy` has written all of `b`: the copy's error, the size check
`written != bodySize`, or the metadata. -/
def PutCall.afterCopy (c : PutCall) (b : Body) : PutPc :=
  if b.fails then .removing .write
  else if (b.data.length : Int) ≠ c.bodySize.val then
    .removing (.sizeMismatch c.bodySize b.data.length)
  else .openingMeta

/-- `Get`'s parse of the metadata: the line loop of the local cache's sidecar, then
`hex.DecodeString`, whose failure is a miss, and `time.Unix(putTimeUnix, 0)` in `loc`. -/
def parseReply (loc : Location) (diskPath data : Bytes) : Option GetReply :=
  let f := (data.splitOn 10).foldl LocalCache.scanLine ⟨[], Int64.zero, Int64.zero⟩
  match Hex.decodeString f.outputIDHex with
  | .ok outputID => some ⟨outputID, diskPath, f.size, GoTime.ofUnix loc f.putTimeUnix⟩
  | .error _ => none

/-! ## The steps -/

section Step

variable (d : Disk) (faults : Bool)

/-- One step of a `Put`. -/
inductive putStep (c : PutCall) : PutPc → FileSystem → PutPc → FileSystem → Prop
  /-- `os.Create(diskPath)` opens the file, emptied. -/
  | create (fs fs' : FileSystem) (ino : Nat)
      (h : fs.openTrunc (d.actionIDToPath c.actionID) = .ok (fs', ino)) :
      putStep c .start fs (c.afterCreate ino) fs'
  /-- `os.Create` fails on the state (a directory has the name). -/
  | createFail (fs : FileSystem) (e : Errno)
      (h : fs.openTrunc (d.actionIDToPath c.actionID) = .error e) :
      putStep c .start fs (.returned (.error (.create e))) fs
  /-- `os.Create` fails. -/
  | createFault (fs : FileSystem) (e : Errno) (hf : faults = true) :
      putStep c .start fs (.returned (.error (.create e))) fs
  /-- One `write(2)` of the first `k` bytes still to copy. -/
  | copyChunk (fs : FileSystem) (b : Body) (ino : Nat) (rest : Bytes) (k : Nat) (hk : 0 < k) :
      putStep c (.copying b ino rest) fs (.copying b ino (rest.drop k)) (fs.write ino (rest.take k))
  /-- The reader is at its end. -/
  | copyDone (fs : FileSystem) (b : Body) (ino : Nat) :
      putStep c (.copying b ino []) fs (c.afterCopy b) fs
  /-- A `write(2)` fails after writing the first `k` bytes still to copy. -/
  | copyFault (fs : FileSystem) (b : Body) (ino : Nat) (rest : Bytes) (k : Nat)
      (hf : faults = true) :
      putStep c (.copying b ino rest) fs (.removing .write) (fs.write ino (rest.take k))
  /-- `os.WriteFile` opens the metadata file, emptied. -/
  | openMeta (fs fs' : FileSystem) (ino : Nat)
      (h : fs.openTrunc (d.metadataPath c.actionID) = .ok (fs', ino)) :
      putStep c .openingMeta fs (.writingMeta ino) fs'
  /-- `os.WriteFile` fails to open on the state. -/
  | openMetaFail (fs : FileSystem) (e : Errno)
      (h : fs.openTrunc (d.metadataPath c.actionID) = .error e) :
      putStep c .openingMeta fs (.removing (.writeMetadata e)) fs
  /-- `os.WriteFile` fails to open. -/
  | openMetaFault (fs : FileSystem) (e : Errno) (hf : faults = true) :
      putStep c .openingMeta fs (.removing (.writeMetadata e)) fs
  /-- `os.WriteFile` writes the text; `Put` returns the body's path. -/
  | writeMeta (fs : FileSystem) (ino : Nat) :
      putStep c (.writingMeta ino) fs (.returned (.ok (d.proc.abs (d.actionIDToPath c.actionID))))
        (fs.write ino c.meta)
  /-- `os.WriteFile` fails after writing the first `k` bytes of the text. -/
  | writeMetaFault (fs : FileSystem) (ino : Nat) (k : Nat) (e : Errno) (hf : faults = true) :
      putStep c (.writingMeta ino) fs (.removing (.writeMetadata e)) (fs.write ino (c.meta.take k))
  /-- `os.Remove(diskPath)`. -/
  | remove (fs fs' : FileSystem) (e : PutError)
      (h : fs.remove (d.actionIDToPath c.actionID) = .ok fs') :
      putStep c (.removing e) fs (.returned (.error e)) fs'
  /-- `os.Remove` fails on the state; its error is ignored. -/
  | removeFail (fs : FileSystem) (e : PutError) (e' : Errno)
      (h : fs.remove (d.actionIDToPath c.actionID) = .error e') :
      putStep c (.removing e) fs (.returned (.error e)) fs
  /-- `os.Remove` fails; its error is ignored. -/
  | removeFault (fs : FileSystem) (e : PutError) (hf : faults = true) :
      putStep c (.removing e) fs (.returned (.error e)) fs

/-- One step of a `Get` of `a`; none writes. -/
inductive getStep (a : Bytes) : GetPc → FileSystem → GetPc → Prop
  /-- `os.Stat(diskPath)` reports that the file does not exist: a miss. -/
  | statMiss (fs : FileSystem) (h : fs.stat (d.actionIDToPath a) = false) :
      getStep a .start fs (.returned none)
  /-- `os.Stat` finds the file. -/
  | statHit (fs : FileSystem) (h : fs.stat (d.actionIDToPath a) = true) :
      getStep a .start fs .reading
  /-- `os.Stat` fails with an error other than not-exist, and `Get` goes on. -/
  | statFault (fs : FileSystem) (hf : faults = true) : getStep a .start fs .reading
  /-- `os.ReadFile(metaPath)` and the parse. -/
  | read (fs : FileSystem) (data : Bytes) (h : fs.readFile (d.metadataPath a) = .ok data) :
      getStep a .reading fs (.returned (parseReply d.proc.loc (d.proc.abs (d.actionIDToPath a)) data))
  /-- `os.ReadFile` fails on the state: a miss. -/
  | readFail (fs : FileSystem) (e : Errno) (h : fs.readFile (d.metadataPath a) = .error e) :
      getStep a .reading fs (.returned none)
  /-- `os.ReadFile` fails: a miss. -/
  | readFault (fs : FileSystem) (hf : faults = true) : getStep a .reading fs (.returned none)

/-- One step of a `Clear`. -/
inductive clearStep : ClearPc → FileSystem → ClearPc → FileSystem → Prop
  /-- `os.ReadDir(baseDir)` lists every name in the directory once. -/
  | listDir (fs : FileSystem) (names : List Bytes) (hd : fs.entries d.root = some .dir)
      (hn : names.Nodup) (h : ∀ n, n ∈ names ↔ IsName n ∧ fs.entries (child d.root n) ≠ none) :
      clearStep .start fs (.removingEntries names) fs
  /-- The directory does not exist: nothing to clear. -/
  | listMissing (fs : FileSystem) (h : fs.entries d.root = none) :
      clearStep .start fs (.returned (.ok ())) fs
  /-- `baseDir` is a file. -/
  | listNotDir (fs : FileSystem) (i : Nat) (h : fs.entries d.root = some (.file i)) :
      clearStep .start fs (.returned (.error (.readDir .enotdir))) fs
  /-- `os.ReadDir` fails. -/
  | listFault (fs : FileSystem) (e : Errno) (hf : faults = true) :
      clearStep .start fs (.returned (.error (.readDir e))) fs
  /-- `os.Remove(filepath.Join(baseDir, name))`. -/
  | removeEntry (fs fs' : FileSystem) (n : Bytes) (names : List Bytes)
      (h : fs.remove (join d.baseDir n) = .ok fs') :
      clearStep (.removingEntries (n :: names)) fs (.removingEntries names) fs'
  /-- `os.Remove` fails on the state, and `Clear` returns its error. -/
  | removeEntryFail (fs : FileSystem) (n : Bytes) (names : List Bytes) (e : Errno)
      (h : fs.remove (join d.baseDir n) = .error e) :
      clearStep (.removingEntries (n :: names)) fs (.returned (.error (.remove (join d.baseDir n) e))) fs
  /-- `os.Remove` fails. -/
  | removeEntryFault (fs : FileSystem) (n : Bytes) (names : List Bytes) (e : Errno)
      (hf : faults = true) :
      clearStep (.removingEntries (n :: names)) fs (.returned (.error (.remove (join d.baseDir n) e))) fs
  /-- Every listed name is removed. -/
  | cleared (fs : FileSystem) : clearStep (.removingEntries []) fs (.returned (.ok ())) fs

end Step

/-! ## A call run alone and without faults -/

section Solo

variable (d : Disk) (c : PutCall)

/-- `os.Remove(diskPath)` after an error, whose own error is ignored. -/
def PutCall.removeDone (e : PutError) (fs : FileSystem) : Except PutError Bytes × FileSystem :=
  (.error e, match fs.remove (d.actionIDToPath c.actionID) with
    | .ok fs' => fs'
    | .error _ => fs)

/-- `os.WriteFile(metaPath)` and the return. -/
def PutCall.metaDone (fs : FileSystem) : Except PutError Bytes × FileSystem :=
  match fs.openTrunc (d.metadataPath c.actionID) with
  | .ok (fs', ino) => (.ok (d.proc.abs (d.actionIDToPath c.actionID)), fs'.write ino c.meta)
  | .error e => c.removeDone d (.writeMetadata e) fs

/-- What follows a copy of all of `b`. -/
def PutCall.copyDone (b : Body) (fs : FileSystem) : Except PutError Bytes × FileSystem :=
  if b.fails then c.removeDone d .write fs
  else if (b.data.length : Int) ≠ c.bodySize.val then
    c.removeDone d (.sizeMismatch c.bodySize b.data.length) fs
  else c.metaDone d fs

/-- What a `Put` at `pc` returns, and the file system it leaves, when it runs alone without
faults. -/
def putFrom : PutPc → FileSystem → Except PutError Bytes × FileSystem
  | .start, fs =>
    match fs.openTrunc (d.actionIDToPath c.actionID) with
    | .error e => (.error (.create e), fs)
    | .ok (fs', ino) =>
      match c.body with
      | some b => if 0 < c.bodySize.val then c.copyDone d b (fs'.write ino b.data) else c.metaDone d fs'
      | none => c.metaDone d fs'
  | .copying b ino rest, fs => c.copyDone d b (fs.write ino rest)
  | .openingMeta, fs => c.metaDone d fs
  | .writingMeta ino, fs => (.ok (d.proc.abs (d.actionIDToPath c.actionID)), fs.write ino c.meta)
  | .removing e, fs => c.removeDone d e fs
  | .returned r, fs => (r, fs)

/-- Writing nothing changes nothing. -/
@[simp] theorem write_nil (fs : FileSystem) (i : Nat) : fs.write i [] = fs := by
  cases fs
  simp [FileSystem.write]

/-- Two writes to one inode are one write of both. -/
@[simp] theorem write_write (fs : FileSystem) (i : Nat) (x y : Bytes) :
    (fs.write i x).write i y = fs.write i (x ++ y) := by
  cases fs
  simp [FileSystem.write, Function.update_idem, List.append_assoc]

theorem putFrom_afterCreate (fs : FileSystem) (ino : Nat) :
    putFrom d c (c.afterCreate ino) fs =
      match c.body with
      | some b => if 0 < c.bodySize.val then c.copyDone d b (fs.write ino b.data) else c.metaDone d fs
      | none => c.metaDone d fs := by
  unfold PutCall.afterCreate
  rcases c.body with _ | b
  · rfl
  · by_cases h : 0 < c.bodySize.val <;> simp [h, putFrom]

theorem putFrom_afterCopy (fs : FileSystem) (b : Body) :
    putFrom d c (c.afterCopy b) fs = c.copyDone d b fs := by
  unfold PutCall.afterCopy PutCall.copyDone
  split_ifs <;> rfl

/-- A step without faults keeps what the call will return and leave. -/
theorem putFrom_step {pc pc' : PutPc} {fs fs' : FileSystem} (h : putStep d false c pc fs pc' fs') :
    putFrom d c pc' fs' = putFrom d c pc fs := by
  cases h with
  | create _ _ ino h => rw [putFrom_afterCreate]; simp only [putFrom, h]
  | createFail _ e h => simp only [putFrom, h]
  | copyChunk _ b ino rest k _ => simp only [putFrom, write_write, List.take_append_drop]
  | copyDone _ b ino => rw [putFrom_afterCopy]; simp only [putFrom, write_nil]
  | openMeta _ _ ino h => simp only [putFrom, PutCall.metaDone, h]
  | openMetaFail _ e h => simp only [putFrom, PutCall.metaDone, h]
  | writeMeta => rfl
  | remove _ _ e h => simp only [putFrom, PutCall.removeDone, h]
  | removeFail _ e _ h => simp only [putFrom, PutCall.removeDone, h]
  | createFault _ _ hf | copyFault _ _ _ _ _ hf | openMetaFault _ _ hf | writeMetaFault _ _ _ _ hf
  | removeFault _ _ hf => cases hf

/-- The runs of one `Put` alone. -/
def PutRun (faults : Bool) : PutPc × FileSystem → PutPc × FileSystem → Prop :=
  Relation.ReflTransGen fun x y => putStep d faults c x.1 x.2 y.1 y.2

theorem putRun_head {faults : Bool} {pc pc' : PutPc} {fs fs' : FileSystem} {z : PutPc × FileSystem}
    (h : putStep d faults c pc fs pc' fs') (hz : PutRun d c faults (pc', fs') z) :
    PutRun d c faults (pc, fs) z :=
  .head h hz

theorem putRun_single {faults : Bool} {pc pc' : PutPc} {fs fs' : FileSystem}
    (h : putStep d faults c pc fs pc' fs') : PutRun d c faults (pc, fs) (pc', fs') :=
  .single h

/-- Every run of a `Put` alone and without faults that returns, returns what `putFrom` says. -/
theorem putRun_putFrom {pc : PutPc} {fs fs' : FileSystem} {r : Except PutError Bytes}
    (h : PutRun d c false (pc, fs) (.returned r, fs')) : putFrom d c pc fs = (r, fs') := by
  have key : ∀ y, PutRun d c false (pc, fs) y → putFrom d c y.1 y.2 = putFrom d c pc fs :=
    fun y hy => by
      induction hy with
      | refl => rfl
      | tail _ hs ih => exact (putFrom_step d c hs).trans ih
  exact (key _ h).symm

theorem putRun_removing (e : PutError) (fs : FileSystem) :
    PutRun d c false (.removing e, fs) (.returned (c.removeDone d e fs).1, (c.removeDone d e fs).2) := by
  unfold PutCall.removeDone
  split
  · exact putRun_single d c (putStep.remove _ _ _ ‹_›)
  · exact putRun_single d c (putStep.removeFail _ _ _ ‹_›)

theorem putRun_openingMeta (fs : FileSystem) :
    PutRun d c false (.openingMeta, fs) (.returned (c.metaDone d fs).1, (c.metaDone d fs).2) := by
  unfold PutCall.metaDone
  split
  · exact putRun_head d c (putStep.openMeta _ _ _ ‹_›) (putRun_single d c (putStep.writeMeta _ _))
  · exact putRun_head d c (putStep.openMetaFail _ _ ‹_›) (putRun_removing d c _ _)

theorem putRun_copying (b : Body) (ino : Nat) (rest : Bytes) (fs : FileSystem) :
    PutRun d c false (.copying b ino rest, fs)
      (.returned (c.copyDone d b (fs.write ino rest)).1, (c.copyDone d b (fs.write ino rest)).2) := by
  have hdone : PutRun d c false (.copying b ino [], fs.write ino rest)
      (.returned (c.copyDone d b (fs.write ino rest)).1, (c.copyDone d b (fs.write ino rest)).2) := by
    refine putRun_head d c (putStep.copyDone _ b ino) ?_
    unfold PutCall.afterCopy PutCall.copyDone
    split_ifs
    · exact putRun_removing d c _ _
    · exact putRun_removing d c _ _
    · exact putRun_openingMeta d c _
  rcases rest with _ | ⟨x, rest⟩
  · simpa using hdone
  · refine putRun_head d c (putStep.copyChunk _ b ino (x :: rest) (x :: rest).length (by simp)) ?_
    simpa using hdone

theorem putRun_afterCreate (ino : Nat) (fs : FileSystem) :
    PutRun d c false (c.afterCreate ino, fs)
      (.returned (putFrom d c (c.afterCreate ino) fs).1, (putFrom d c (c.afterCreate ino) fs).2) := by
  unfold PutCall.afterCreate
  split
  · split
    · exact putRun_copying d c _ _ _ fs
    · exact putRun_openingMeta d c fs
  · exact putRun_openingMeta d c fs

/-- A `Put` alone and without faults returns: it has a run to what `putFrom` says. -/
theorem putRun_exists (pc : PutPc) (fs : FileSystem) :
    PutRun d c false (pc, fs) (.returned (putFrom d c pc fs).1, (putFrom d c pc fs).2) := by
  cases pc with
  | start =>
    have hs : ∀ fs' ino, fs.openTrunc (d.actionIDToPath c.actionID) = .ok (fs', ino) →
        putFrom d c .start fs = putFrom d c (c.afterCreate ino) fs' := fun fs' ino h => by
      rw [putFrom_afterCreate]
      simp only [putFrom, h]
    rcases ho : fs.openTrunc (d.actionIDToPath c.actionID) with e | ⟨fs', ino⟩
    · have : putFrom d c .start fs = (.error (.create e), fs) := by simp only [putFrom, ho]
      rw [this]
      exact putRun_single d c (putStep.createFail _ _ ho)
    · rw [hs fs' ino ho]
      exact putRun_head d c (putStep.create _ _ ino ho) (putRun_afterCreate d c ino fs')
  | copying b ino rest => exact putRun_copying d c b ino rest fs
  | openingMeta => exact putRun_openingMeta d c fs
  | writingMeta ino => exact putRun_single d c (putStep.writeMeta _ _)
  | removing e => exact putRun_removing d c e fs
  | returned r => exact .refl

/-- `os.ReadFile(metaPath)` and the parse, a miss when the file cannot be read. -/
def getRead (a : Bytes) (fs : FileSystem) : Option GetReply :=
  match fs.readFile (d.metadataPath a) with
  | .ok data => parseReply d.proc.loc (d.proc.abs (d.actionIDToPath a)) data
  | .error _ => none

/-- What a `Get` of `a` returns when it runs alone without faults: a miss when `diskPath` does
not exist, and otherwise the parse of the metadata file, a miss when it cannot be read. -/
def getFrom (a : Bytes) : GetPc → FileSystem → Option GetReply
  | .start, fs => if fs.stat (d.actionIDToPath a) then getRead d a fs else none
  | .reading, fs => getRead d a fs
  | .returned r, _ => r

/-- The runs of one `Get` alone. -/
def GetRun (faults : Bool) (a : Bytes) (fs : FileSystem) : GetPc → GetPc → Prop :=
  Relation.ReflTransGen fun x y => getStep d faults a x fs y

theorem getFrom_step {a : Bytes} {pc pc' : GetPc} {fs : FileSystem} (h : getStep d false a pc fs pc') :
    getFrom d a pc' fs = getFrom d a pc fs := by
  cases h with
  | statMiss _ h => simp [getFrom, h]
  | statHit _ h => simp [getFrom, h]
  | read _ data h => simp [getFrom, getRead, h]
  | readFail _ e h => simp [getFrom, getRead, h]
  | statFault _ hf | readFault _ hf => cases hf

/-- Every run of a `Get` alone and without faults that returns, returns what `getFrom` says. -/
theorem getRun_getFrom {a : Bytes} {pc : GetPc} {fs : FileSystem} {r : Option GetReply}
    (h : GetRun d false a fs pc (.returned r)) : getFrom d a pc fs = r := by
  have key : ∀ y, GetRun d false a fs pc y → getFrom d a y fs = getFrom d a pc fs := fun y hy => by
    induction hy with
    | refl => rfl
    | tail _ hs ih => exact (getFrom_step d hs).trans ih
  exact (key _ h).symm

theorem getRun_reading (a : Bytes) (fs : FileSystem) :
    GetRun d false a fs .reading (.returned (getRead d a fs)) := by
  unfold getRead
  split
  · exact .single (getStep.read _ _ ‹_›)
  · exact .single (getStep.readFail _ _ ‹_›)

/-- A `Get` alone and without faults returns what `getFrom` says. -/
theorem getRun_exists (a : Bytes) (pc : GetPc) (fs : FileSystem) :
    GetRun d false a fs pc (.returned (getFrom d a pc fs)) := by
  cases pc with
  | start =>
    by_cases h : fs.stat (d.actionIDToPath a) = true
    · rw [getFrom, if_pos h]
      exact .head (getStep.statHit _ h) (getRun_reading d a fs)
    · rw [getFrom, if_neg h]
      exact .single (getStep.statMiss _ (by simpa using h))
  | reading => exact getRun_reading d a fs
  | returned r => exact .refl

/-- What the `os.Remove` loop of `Clear` returns and leaves when it runs alone without faults. -/
def removeEntries : List Bytes → FileSystem → Except ClearError Unit × FileSystem
  | [], fs => (.ok (), fs)
  | n :: names, fs =>
    match fs.remove (join d.baseDir n) with
    | .ok fs' => removeEntries names fs'
    | .error e => (.error (.remove (join d.baseDir n) e), fs)

/-- The runs of one `Clear` alone. -/
def ClearRun (faults : Bool) : ClearPc × FileSystem → ClearPc × FileSystem → Prop :=
  Relation.ReflTransGen fun x y => clearStep d faults x.1 x.2 y.1 y.2

/-- The `os.Remove` loop alone and without faults returns what `removeEntries` says. -/
theorem clearRun_removeEntries {names : List Bytes} {fs fs' : FileSystem}
    {r : Except ClearError Unit} (h : ClearRun d false (.removingEntries names, fs) (.returned r, fs')) :
    removeEntries d names fs = (r, fs') := by
  induction names generalizing fs with
  | nil =>
    rcases Relation.ReflTransGen.cases_head h with heq | ⟨⟨pc1, fs1⟩, hs, hrest⟩
    · cases heq
    · cases hs
      rcases Relation.ReflTransGen.cases_head hrest with heq | ⟨_, hs', _⟩
      · cases heq
        rfl
      · cases hs'
  | cons n names ih =>
    rcases Relation.ReflTransGen.cases_head h with heq | ⟨⟨pc1, fs1⟩, hs, hrest⟩
    · cases heq
    · cases hs with
      | removeEntry _ _ _ _ hr => rw [removeEntries, hr]; exact ih hrest
      | removeEntryFail _ _ _ e hr =>
        rw [removeEntries, hr]
        rcases Relation.ReflTransGen.cases_head hrest with heq | ⟨_, hs', _⟩
        · cases heq
          rfl
        · cases hs'
      | removeEntryFault _ _ _ _ hf => cases hf

end Solo

end Disk

end GoBuildCache
