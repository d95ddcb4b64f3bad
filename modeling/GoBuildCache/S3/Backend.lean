import GoBuildCache.S3.Bucket
import GoBuildCache.Os.FileSystem
import Mathlib.Logic.Relation

/-!
# `S3Backend.Put`, `Get` and `Clear` as steps over the bucket and the local files

Each call is a small program whose steps are S3 requests and system calls on the local
download directory.  Every S3 request is atomic, and any of them may fail.  The calls of one
process run concurrently (the broker handles each request in its own goroutine), other
processes may write the same bucket, and a step on the local files may fail: `Env` says which
of the last two a run allows.

* `callStep` is one step of one call: `Put` reads its body (`readBody`), uploads, creates the
  local directory and writes the local copy; `Get` heads the object and parses its metadata
  (`parseObjectMeta`), stats the local copy and, when it is missing, runs `downloadFromS3`;
  `Clear` lists, deletes in batches of 1000, and empties `tmpDir`.
* `worldStep` starts a call, runs a step of one, or lets another process write the bucket.

Each local-file failure step carries `env.localFaults = true`, and each write by another
process carries `env.otherWriters = true`, so a run of `worldStep` under an `Env` with either
flag off has none of them.
-/

namespace GoBuildCache.S3

open Os Path

/-- What the environment of a run may do besides answering each request or failing it. -/
structure Env where
  /-- Other processes write objects of the bucket. -/
  otherWriters : Bool
  /-- A step on the local files may fail. -/
  localFaults : Bool

/-- The errors `downloadFromS3` returns. -/
inductive DownloadError
  /-- `failed to get object from S3: %w`. -/
  | getObject
  /-- `failed to create local directory: %w`. -/
  | createLocalDir (e : Errno)
  /-- `failed to create local file: %w`. -/
  | createLocalFile (e : Errno)
  /-- `failed to write local file: %w`, after `io.Copy` failed. -/
  | writeLocalFile

/-- The errors of `Put`, `Get` and `Clear`. -/
inductive S3Error
  /-- `failed to read body: %w`, with `io.ErrUnexpectedEOF`. -/
  | readBody
  /-- `size mismatch: expected %d, read %d`. -/
  | sizeMismatch (expected : Int64) (read : Nat)
  /-- `failed to upload to S3: %w`. -/
  | upload
  /-- `failed to create local directory: %w`. -/
  | createLocalDir (e : Errno)
  /-- `failed to write local file: %w`. -/
  | writeLocal (e : Errno)
  /-- `failed to check S3 object: %w`, for an error other than not found. -/
  | checkObject
  /-- `failed to download from S3: %w`. -/
  | download (e : DownloadError)
  /-- `failed to list S3 objects: %w`. -/
  | list
  /-- `failed to delete S3 objects: %w`. -/
  | delete

/-- What a hit of `Get` returns besides `miss = false`. -/
structure GetReply where
  outputID : Bytes
  diskPath : Bytes
  size : Int64
  putTime : GoTime

/-- The hit as `Get` returns it once the local copy is in place: `filepath.Abs(diskPath)` in the
process `pr`, or `diskPath` when that fails. -/
def GetReply.withAbs (pr : Process) (r : GetReply) : GetReply := { r with diskPath := pr.abs r.diskPath }

/-- What a call returns.  A `Get` returns `none` for a miss. -/
inductive S3Result
  | put (r : Except S3Error Bytes)
  | get (r : Except S3Error (Option GetReply))
  | clear (r : Except S3Error Unit)

/-- The calls of the backend.  `body` is what the body reader yields, `none` for a nil
reader. -/
inductive S3Call
  | put (actionID outputID : Bytes) (body : Option Bytes) (bodySize : Int64)
  | get (actionID : Bytes)
  | clear

/-- `Put`'s reading of the body: `io.ReadFull` into a buffer of `bodySize` bytes, when
`bodySize > 0` and the reader is not nil. -/
def readBody (body : Option Bytes) (bodySize : Int64) : Except S3Error Bytes :=
  match body with
  | some src =>
    if 0 < bodySize.val then
      if bodySize.val.toNat ≤ src.length then .ok (src.take bodySize.val.toNat)
      else if src = [] then .error (.sizeMismatch bodySize 0)
      else .error .readBody
    else .ok []
  | none => .ok []

/-- The metadata map of `Put`: `hex.EncodeToString(outputID)`, and `strconv.FormatInt` of the
size and of the time. -/
def putMetadata (outputID : Bytes) (bodySize now : Int64) : ObjectMeta :=
  ⟨Hex.encodeToString outputID, Decimal.formatInt bodySize.val, Decimal.formatInt now.val⟩

/-- `Get`'s parse of the metadata: `hex.DecodeString` and two `strconv.ParseInt`; any failure
is a miss. -/
def parseObjectMeta (m : ObjectMeta) : Option (Bytes × Int64 × Int64) :=
  match Hex.decodeString m.outputid, Decimal.parseInt m.size, Decimal.parseInt m.time with
  | .ok o, .ok size, .ok t => some (o, size, t)
  | _, _, _ => none

/-- Where a call is. -/
inductive S3Pc
  /-- Not started. -/
  | start
  /-- `Put`: `PutObject` of the bytes read. -/
  | uploading (bodyData : Bytes)
  /-- `Put`: `os.MkdirAll(filepath.Dir(diskPath))`. -/
  | mkdirPut (bodyData : Bytes)
  /-- `Put`: `os.WriteFile(diskPath, bodyData)`. -/
  | writingLocal (bodyData : Bytes)
  /-- `Get`: `os.Stat(diskPath)`, with the reply parsed from the metadata. -/
  | statting (reply : GetReply)
  /-- `downloadFromS3`: `GetObject`. -/
  | getting (reply : GetReply)
  /-- `downloadFromS3`: `os.MkdirAll`, with the object's content. -/
  | mkdirGet (reply : GetReply) (body : Bytes)
  /-- `downloadFromS3`: `os.Create(localPath)`. -/
  | creating (reply : GetReply) (body : Bytes)
  /-- `downloadFromS3`: `io.Copy` into inode `ino`, with `rest` still to copy. -/
  | copying (reply : GetReply) (ino : Nat) (rest : Bytes)
  /-- `downloadFromS3`: `os.Remove(localPath)` after `io.Copy` failed. -/
  | removingLocal (path : Bytes)
  /-- `Clear`: `DeleteObjects` of the next batch of `keys`. -/
  | deleting (keys : List Bytes)
  /-- `Clear`: `os.RemoveAll(tmpDir)`. -/
  | removingAll
  /-- `Clear`: `os.MkdirAll(tmpDir)`. -/
  | mkdirClear
  /-- The call has returned. -/
  | returned (result : S3Result)

/-- The keys `Clear` lists: those that start with the prefix. -/
def S3Backend.listKeys (s : S3Backend) (b : Bucket) : List Bytes :=
  b.keys.filter fun k => s.keyPrefix.isPrefixOf k

/-- Where `Clear` goes after a batch: the next batch, or `os.RemoveAll` after the last. -/
def afterBatch (keys : List Bytes) : S3Pc :=
  if keys.drop 1000 = [] then .removingAll else .deleting (keys.drop 1000)

/-! ## The batches of `Clear`

`Clear` deletes the listed keys with `for i := 0; i < len(deleteObjects); i += 1000`, one
`DeleteObjects` of `deleteObjects[i:end]` per value of `i`, where `end` is `i + 1000` cut down to
the length.  `deleteBatches` is that loop.  `deleteBatches_cons` peels off its first batch, which
is what the `deleting` steps of `callStep` do (`deleteBatches_afterBatch`). -/

section Batches

variable {α : Type}

/-- The values `0, 1000, 2000, …` that `i` takes below `n`, one per iteration of the loop. -/
def batchStarts (n : Nat) : List Nat := (List.range ((n + 999) / 1000)).map (1000 * ·)

/-- `deleteObjects[i:end]`, with `end := i + 1000` and `if end > len(deleteObjects) { end = len }`. -/
def batchAt (d : List α) (i : Nat) : List α :=
  (d.drop i).take ((if i + 1000 > d.length then d.length else i + 1000) - i)

/-- The `DeleteObjects` batches of `Clear`, in the order it sends them. -/
def deleteBatches (d : List α) : List (List α) := (batchStarts d.length).map (batchAt d)

theorem mem_batchStarts {n i : Nat} : i ∈ batchStarts n ↔ i < n ∧ i % 1000 = 0 := by
  simp only [batchStarts, List.mem_map, List.mem_range]
  constructor
  · rintro ⟨j, hj, rfl⟩
    omega
  · rintro ⟨hi, hm⟩
    exact ⟨i / 1000, by omega, by omega⟩

theorem batchAt_eq (d : List α) (i : Nat) : batchAt d i = (d.drop i).take 1000 :=
  List.take_eq_take.2 (by simp only [List.length_drop]; split <;> omega)

@[simp] theorem deleteBatches_nil : deleteBatches ([] : List α) = [] := by
  simp [deleteBatches, batchStarts]

theorem deleteBatches_eq_nil {d : List α} : deleteBatches d = [] ↔ d = [] := by
  rw [← List.length_eq_zero, ← List.length_eq_zero (l := d)]
  simp only [deleteBatches, batchStarts, List.length_map, List.length_range]
  omega

/-- The first iteration sends the first 1000 keys; the rest of the loop is the loop on the rest. -/
theorem deleteBatches_cons {d : List α} (h : d ≠ []) :
    deleteBatches d = d.take 1000 :: deleteBatches (d.drop 1000) := by
  have hc : (d.length + 999) / 1000 = ((d.drop 1000).length + 999) / 1000 + 1 := by
    have := List.length_pos.2 h
    simp only [List.length_drop]
    omega
  simp only [deleteBatches, batchStarts, hc, List.range_succ_eq_map, List.map_cons, List.map_map]
  simp [Function.comp_def, batchAt_eq, List.drop_drop, Nat.mul_succ, Nat.add_comm]

theorem flatten_deleteBatches (d : List α) : (deleteBatches d).flatten = d := by
  induction' h : d.length using Nat.strong_induction_on with n ih generalizing d
  by_cases hd : d = []
  · simp [hd]
  · have hlt : (d.drop 1000).length < n := by
      have := List.length_pos.2 hd
      simp only [List.length_drop]
      omega
    rw [deleteBatches_cons hd, List.flatten_cons, ih _ hlt _ rfl, List.take_append_drop]

/-- The batches of `Clear` cut the listing into pieces of 1 to 1000 keys, which together are the
listing, each key once and in order; there is no batch when nothing was listed. -/
theorem deleteBatches_partition (d : List α) :
    (∀ b ∈ deleteBatches d, b ≠ [] ∧ b.length ≤ 1000) ∧ (deleteBatches d).flatten = d ∧
      (deleteBatches d = [] ↔ d = []) := by
  refine ⟨fun b hb => ?_, flatten_deleteBatches d, deleteBatches_eq_nil⟩
  obtain ⟨i, hi, rfl⟩ := List.mem_map.1 hb
  have hlt := (mem_batchStarts.1 hi).1
  simp only [batchAt_eq, ← List.length_pos, List.length_take, List.length_drop]
  omega

end Batches

/-- The batches a `Clear` at `pc` has still to send. -/
def S3Pc.batchesLeft : S3Pc → List (List Bytes)
  | .deleting keys => deleteBatches keys
  | _ => []

/-- After the listing, the batches left are those of the listed keys. -/
theorem batchesLeft_listed (keys : List Bytes) :
    (if keys = [] then S3Pc.returned (.clear (.ok ())) else .deleting keys).batchesLeft =
      deleteBatches keys := by
  split <;> simp_all [S3Pc.batchesLeft]

/-- A `deleting` step sends the first batch left, and the batches left after it are the rest. -/
theorem deleteBatches_afterBatch {keys : List Bytes} (h : keys ≠ []) :
    deleteBatches keys = keys.take 1000 :: (afterBatch keys).batchesLeft := by
  rw [deleteBatches_cons h, afterBatch]
  split <;> simp_all [S3Pc.batchesLeft, deleteBatches_eq_nil]

section Step

variable (s : S3Backend) (env : Env)

/-- One step of one call on the bucket and the local files. -/
inductive callStep : S3Call → S3Pc → Bucket → FileSystem → S3Pc → Bucket → FileSystem → Prop
  /-- `Put` reads its body. -/
  | putRead (a o : Bytes) (body : Option Bytes) (size : Int64) (b : Bucket) (fs : FileSystem)
      (bd : Bytes) (h : readBody body size = .ok bd) :
      callStep (.put a o body size) .start b fs (.uploading bd) b fs
  /-- `Put` fails to read its body. -/
  | putReadFail (a o : Bytes) (body : Option Bytes) (size : Int64) (b : Bucket) (fs : FileSystem)
      (e : S3Error) (h : readBody body size = .error e) :
      callStep (.put a o body size) .start b fs (.returned (.put (.error e))) b fs
  /-- `PutObject` at `time.Now()` = `now` succeeds. -/
  | upload (a o : Bytes) (body : Option Bytes) (size now : Int64) (b : Bucket) (fs : FileSystem)
      (bd : Bytes) :
      callStep (.put a o body size) (.uploading bd) b fs (.mkdirPut bd)
        (b.put (s.actionIDToKey a) ⟨bd, putMetadata o size now⟩) fs
  /-- `PutObject` fails. -/
  | uploadFail (a o : Bytes) (body : Option Bytes) (size : Int64) (b : Bucket) (fs : FileSystem)
      (bd : Bytes) :
      callStep (.put a o body size) (.uploading bd) b fs (.returned (.put (.error .upload))) b fs
  /-- `os.MkdirAll` of the local directory. -/
  | mkdirPut (a o : Bytes) (body : Option Bytes) (size : Int64) (b : Bucket) (fs fs' : FileSystem)
      (bd : Bytes) (h : fs.mkdirAll (dir (s.actionIDToLocalPath a)) = .ok fs') :
      callStep (.put a o body size) (.mkdirPut bd) b fs (.writingLocal bd) b fs'
  /-- `os.MkdirAll` fails. -/
  | mkdirPutFail (a o : Bytes) (body : Option Bytes) (size : Int64) (b : Bucket) (fs : FileSystem)
      (bd : Bytes) (e : Errno) (hl : env.localFaults = true) :
      callStep (.put a o body size) (.mkdirPut bd) b fs
        (.returned (.put (.error (.createLocalDir e)))) b fs
  /-- `os.WriteFile` of the local copy; `Put` returns `filepath.Abs` of its path. -/
  | writeLocal (a o : Bytes) (body : Option Bytes) (size : Int64) (b : Bucket) (fs fs' : FileSystem)
      (bd : Bytes) (h : fs.writeFile (s.actionIDToLocalPath a) bd = .ok fs') :
      callStep (.put a o body size) (.writingLocal bd) b fs
        (.returned (.put (.ok (s.proc.abs (s.actionIDToLocalPath a))))) b fs'
  /-- `os.WriteFile` fails, before opening or after writing the first `k` bytes. -/
  | writeLocalFail (a o : Bytes) (body : Option Bytes) (size : Int64) (b : Bucket)
      (fs fs' : FileSystem) (bd : Bytes) (e : Errno) (k : Nat) (hl : env.localFaults = true)
      (h : fs' = fs ∨ fs.writeFile (s.actionIDToLocalPath a) (bd.take k) = .ok fs') :
      callStep (.put a o body size) (.writingLocal bd) b fs
        (.returned (.put (.error (.writeLocal e)))) b fs'
  /-- `HeadObject` finds the object and its metadata parses; the time is `time.Unix(t, 0)`. -/
  | head (a : Bytes) (b : Bucket) (fs : FileSystem) (obj : Object) (o : Bytes) (size t : Int64)
      (hb : b.get (s.actionIDToKey a) = some obj)
      (hp : parseObjectMeta obj.metadata = some (o, size, t)) :
      callStep (.get a) .start b fs
        (.statting ⟨o, s.actionIDToLocalPath a, size, GoTime.ofUnix s.proc.loc t⟩) b fs
  /-- The metadata does not parse: a miss. -/
  | headUnparsed (a : Bytes) (b : Bucket) (fs : FileSystem) (obj : Object)
      (hb : b.get (s.actionIDToKey a) = some obj) (hp : parseObjectMeta obj.metadata = none) :
      callStep (.get a) .start b fs (.returned (.get (.ok none))) b fs
  /-- `HeadObject` finds no object: a miss. -/
  | headNotFound (a : Bytes) (b : Bucket) (fs : FileSystem) (hb : b.get (s.actionIDToKey a) = none) :
      callStep (.get a) .start b fs (.returned (.get (.ok none))) b fs
  /-- `HeadObject` fails. -/
  | headFail (a : Bytes) (b : Bucket) (fs : FileSystem) :
      callStep (.get a) .start b fs (.returned (.get (.error .checkObject))) b fs
  /-- The local copy exists: a hit. -/
  | statHit (a : Bytes) (b : Bucket) (fs : FileSystem) (r : GetReply)
      (h : fs.stat r.diskPath = true) :
      callStep (.get a) (.statting r) b fs (.returned (.get (.ok (some (r.withAbs s.proc))))) b fs
  /-- `os.Stat` fails with an error other than not-exist: a hit as well. -/
  | statError (a : Bytes) (b : Bucket) (fs : FileSystem) (r : GetReply)
      (hl : env.localFaults = true) :
      callStep (.get a) (.statting r) b fs (.returned (.get (.ok (some (r.withAbs s.proc))))) b fs
  /-- The local copy does not exist: `downloadFromS3`. -/
  | statMiss (a : Bytes) (b : Bucket) (fs : FileSystem) (r : GetReply)
      (h : fs.stat r.diskPath = false) :
      callStep (.get a) (.statting r) b fs (.getting r) b fs
  /-- `GetObject` returns the object's content. -/
  | getObject (a : Bytes) (b : Bucket) (fs : FileSystem) (r : GetReply) (obj : Object)
      (hb : b.get (s.actionIDToKey a) = some obj) :
      callStep (.get a) (.getting r) b fs (.mkdirGet r obj.body) b fs
  /-- `GetObject` fails, the object being gone among others. -/
  | getObjectFail (a : Bytes) (b : Bucket) (fs : FileSystem) (r : GetReply) :
      callStep (.get a) (.getting r) b fs (.returned (.get (.error (.download .getObject)))) b fs
  /-- `os.MkdirAll` of the local directory. -/
  | mkdirGet (a : Bytes) (b : Bucket) (fs fs' : FileSystem) (r : GetReply) (body : Bytes)
      (h : fs.mkdirAll (dir r.diskPath) = .ok fs') :
      callStep (.get a) (.mkdirGet r body) b fs (.creating r body) b fs'
  /-- `os.MkdirAll` fails. -/
  | mkdirGetFail (a : Bytes) (b : Bucket) (fs : FileSystem) (r : GetReply) (body : Bytes)
      (e : Errno) (hl : env.localFaults = true) :
      callStep (.get a) (.mkdirGet r body) b fs
        (.returned (.get (.error (.download (.createLocalDir e))))) b fs
  /-- `os.Create` of the local copy. -/
  | create (a : Bytes) (b : Bucket) (fs fs' : FileSystem) (r : GetReply) (body : Bytes) (ino : Nat)
      (h : fs.openTrunc r.diskPath = .ok (fs', ino)) :
      callStep (.get a) (.creating r body) b fs (.copying r ino body) b fs'
  /-- `os.Create` fails. -/
  | createFail (a : Bytes) (b : Bucket) (fs : FileSystem) (r : GetReply) (body : Bytes) (e : Errno)
      (hl : env.localFaults = true) :
      callStep (.get a) (.creating r body) b fs
        (.returned (.get (.error (.download (.createLocalFile e))))) b fs
  /-- One `write(2)` of `io.Copy`. -/
  | copyChunk (a : Bytes) (b : Bucket) (fs : FileSystem) (r : GetReply) (ino : Nat) (rest : Bytes)
      (k : Nat) (hk : 0 < k) :
      callStep (.get a) (.copying r ino rest) b fs (.copying r ino (rest.drop k)) b
        (fs.write ino (rest.take k))
  /-- `io.Copy` has copied everything: a hit. -/
  | copyDone (a : Bytes) (b : Bucket) (fs : FileSystem) (r : GetReply) (ino : Nat) :
      callStep (.get a) (.copying r ino []) b fs (.returned (.get (.ok (some (r.withAbs s.proc))))) b fs
  /-- `io.Copy` fails after `k` more bytes, reading the object's stream or writing the file. -/
  | copyFail (a : Bytes) (b : Bucket) (fs : FileSystem) (r : GetReply) (ino : Nat) (rest : Bytes)
      (k : Nat) :
      callStep (.get a) (.copying r ino rest) b fs (.removingLocal r.diskPath) b
        (fs.write ino (rest.take k))
  /-- `os.Remove(localPath)` after the failed copy. -/
  | removeLocal (a : Bytes) (b : Bucket) (fs fs' : FileSystem) (p : Bytes)
      (h : fs.remove p = .ok fs') :
      callStep (.get a) (.removingLocal p) b fs
        (.returned (.get (.error (.download .writeLocalFile)))) b fs'
  /-- `os.Remove` fails; its error is ignored. -/
  | removeLocalFail (a : Bytes) (b : Bucket) (fs : FileSystem) (p : Bytes)
      (hl : env.localFaults = true) :
      callStep (.get a) (.removingLocal p) b fs
        (.returned (.get (.error (.download .writeLocalFile)))) b fs
  /-- `ListObjectsV2` of every page; nothing to delete returns at once. -/
  | listObjects (b : Bucket) (fs : FileSystem) :
      callStep .clear .start b fs
        (if s.listKeys b = [] then .returned (.clear (.ok ())) else .deleting (s.listKeys b)) b fs
  /-- A page of `ListObjectsV2` fails. -/
  | listFail (b : Bucket) (fs : FileSystem) :
      callStep .clear .start b fs (.returned (.clear (.error .list))) b fs
  /-- `DeleteObjects` of the next batch; the keys `sel` does not select fail one by one, and the
  code does not look at those errors. -/
  | deleteBatch (b : Bucket) (fs : FileSystem) (keys : List Bytes) (sel : Bytes → Bool) :
      callStep .clear (.deleting keys) b fs (afterBatch keys)
        (b.deleteIf fun k => (keys.take 1000).contains k && sel k) fs
  /-- `DeleteObjects` fails, after deleting the keys `sel` selects. -/
  | deleteFail (b : Bucket) (fs : FileSystem) (keys : List Bytes) (sel : Bytes → Bool) :
      callStep .clear (.deleting keys) b fs (.returned (.clear (.error .delete)))
        (b.deleteIf fun k => (keys.take 1000).contains k && sel k) fs
  /-- `os.RemoveAll(tmpDir)`. -/
  | removeAll (b : Bucket) (fs : FileSystem) :
      callStep .clear .removingAll b fs .mkdirClear b
        (fs.removeAll (within (clean s.tmpDir)) fun _ => false)
  /-- `os.RemoveAll` fails after removing all but the paths `kept` selects; its error is
  ignored. -/
  | removeAllPartial (b : Bucket) (fs : FileSystem) (kept : Bytes → Bool)
      (hl : env.localFaults = true) :
      callStep .clear .removingAll b fs .mkdirClear b (fs.removeAll (within (clean s.tmpDir)) kept)
  /-- `os.MkdirAll(tmpDir)`. -/
  | mkdirClear (b : Bucket) (fs fs' : FileSystem) (h : fs.mkdirAll (clean s.tmpDir) = .ok fs') :
      callStep .clear .mkdirClear b fs (.returned (.clear (.ok ()))) b fs'
  /-- `os.MkdirAll` fails; its error is ignored. -/
  | mkdirClearFail (b : Bucket) (fs : FileSystem) (hl : env.localFaults = true) :
      callStep .clear .mkdirClear b fs (.returned (.clear (.ok ()))) b fs

end Step

/-- A call in flight. -/
structure Thread where
  call : S3Call
  pc : S3Pc

/-- The bucket, the local files of one process, and the calls that process has started. -/
structure World where
  bucket : Bucket
  fs : FileSystem
  threads : List Thread

/-- One step of the world. -/
inductive worldStep (s : S3Backend) (env : Env) : World → World → Prop
  /-- The process starts a call. -/
  | spawn (w : World) (c : S3Call) : worldStep s env w ⟨w.bucket, w.fs, w.threads ++ [⟨c, .start⟩]⟩
  /-- Call `i` takes a step. -/
  | step (w : World) (i : Nat) (t : Thread) (pc' : S3Pc) (b' : Bucket) (fs' : FileSystem)
      (ht : w.threads[i]? = some t) (h : callStep s env t.call t.pc w.bucket w.fs pc' b' fs') :
      worldStep s env w ⟨b', fs', w.threads.set i ⟨t.call, pc'⟩⟩
  /-- Another process's `PutObject`. -/
  | otherPut (w : World) (k : Bytes) (o : Object) (h : env.otherWriters = true) :
      worldStep s env w ⟨w.bucket.put k o, w.fs, w.threads⟩
  /-- Another process's `DeleteObjects`. -/
  | otherDelete (w : World) (p : Bytes → Bool) (h : env.otherWriters = true) :
      worldStep s env w ⟨w.bucket.deleteIf p, w.fs, w.threads⟩

end GoBuildCache.S3
