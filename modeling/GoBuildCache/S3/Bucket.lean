import GoBuildCache.LocalCache.Basic
import GoBuildCache.Strings.Decimal

/-!
# The S3 backend's objects, bucket, keys and local paths

`S3Backend` stores each entry as one object of the bucket, under the key `prefix ++ hex(A)`, with
the body as the object's content and three metadata entries, `outputid`, `size` and `time`, all
strings.  It keeps a copy of each body it has uploaded or downloaded in its own `tmpDir`, at
`tmpDir/hex(A)`, for the toolchain to open.

* `Object` and `ObjectMeta` are what one `PutObject` stores.  `Bucket` is the objects by key,
  with `get`, `put` (replace or create) and `deleteIf` (remove the keys a predicate selects);
  `get_put` and `get_deleteIf` are the two facts every later proof uses.
* `S3Backend.actionIDToKey` and `S3Backend.actionIDToLocalPath` are the two names of an entry.
  Both are injective in the action id (`actionIDToKey_injective`,
  `actionIDToLocalPath_injective`): calls on distinct action ids touch distinct objects and
  distinct local files.
-/

namespace GoBuildCache.S3

open Path

/-- The three entries of the metadata map that `Put` attaches to an object. -/
structure ObjectMeta where
  outputid : Bytes
  size : Bytes
  time : Bytes
  deriving DecidableEq

/-- An object of the bucket: its content and its metadata. -/
structure Object where
  body : Bytes
  metadata : ObjectMeta
  deriving DecidableEq

/-- A bucket: its objects with their keys, the most recently written first. -/
structure Bucket where
  objects : List (Bytes × Object)

namespace Bucket

/-- `HeadObject` and `GetObject` of key `k`. -/
def get (b : Bucket) (k : Bytes) : Option Object := (b.objects.find? fun e => e.1 = k).map (·.2)

/-- `PutObject` of key `k`: `o` replaces whatever object had that key. -/
def put (b : Bucket) (k : Bytes) (o : Object) : Bucket :=
  ⟨(k, o) :: b.objects.filter fun e => e.1 ≠ k⟩

/-- The bucket after deleting the keys `p` selects. -/
def deleteIf (b : Bucket) (p : Bytes → Bool) : Bucket := ⟨b.objects.filter fun e => !p e.1⟩

/-- The keys of the bucket, as `ListObjectsV2` returns them. -/
def keys (b : Bucket) : List Bytes := b.objects.map (·.1)

/-- The empty bucket. -/
def empty : Bucket := ⟨[]⟩

private theorem find_filter_keep (l : List (Bytes × Object)) (p : Bytes × Object → Bool)
    {k : Bytes} (hk : ∀ e : Bytes × Object, e.1 = k → p e = true) :
    ((l.filter p).find? fun e => e.1 = k) = l.find? fun e => e.1 = k := by
  induction l with
  | nil => rfl
  | cons e l ih =>
    by_cases he : e.1 = k
    · simp [List.filter_cons, hk e he, he]
    · rw [List.filter_cons]
      split <;> simp [List.find?_cons, he, ih]

@[simp] theorem get_put (b : Bucket) (k k' : Bytes) (o : Object) :
    (b.put k o).get k' = if k = k' then some o else b.get k' := by
  unfold get put
  by_cases h : k = k'
  · simp [h]
  · rw [List.find?_cons, find_filter_keep _ _ fun e he => by simpa [he] using Ne.symm h]
    simp [h]

@[simp] theorem get_deleteIf (b : Bucket) (p : Bytes → Bool) (k : Bytes) :
    (b.deleteIf p).get k = if p k then none else b.get k := by
  unfold get deleteIf
  split
  · rename_i hp
    have hnone : (b.objects.filter fun e => !p e.1).find? (fun e => e.1 = k) = none := by
      rw [List.find?_eq_none]
      intro e he hek
      have hkeep := (List.mem_filter.1 he).2
      rw [of_decide_eq_true hek, hp] at hkeep
      exact absurd hkeep (by decide)
    rw [hnone]
    rfl
  · rename_i hp
    rw [find_filter_keep _ _ fun e he => by simpa [he] using hp]

@[simp] theorem get_empty (k : Bytes) : empty.get k = none := rfl

end Bucket

/-- An `S3Backend`: the key prefix and the local download directory, which `NewS3Backend` never
leaves empty, and the process it runs in.  The client, the context and the bucket name are left
out: every request goes to the one bucket of the model. -/
structure S3Backend where
  keyPrefix : Bytes
  tmpDir : Bytes
  tmpDir_ne : tmpDir ≠ []
  proc : Os.Process

namespace S3Backend

/-- `actionIDToKey`: the hex action id after the prefix. -/
def actionIDToKey (s : S3Backend) (actionID : Bytes) : Bytes :=
  if s.keyPrefix ≠ [] then s.keyPrefix ++ Hex.encodeToString actionID
  else Hex.encodeToString actionID

/-- `actionIDToLocalPath`: `filepath.Join(tmpDir, hexID)`. -/
def actionIDToLocalPath (s : S3Backend) (actionID : Bytes) : Bytes :=
  join s.tmpDir (Hex.encodeToString actionID)

/-- The download directory lays out its files as a local cache directory lays out its bodies. -/
def asLocalCache (s : S3Backend) : LocalCache := ⟨s.tmpDir, s.tmpDir_ne, s.proc⟩

theorem actionIDToLocalPath_eq (s : S3Backend) (a : Bytes) :
    s.actionIDToLocalPath a = s.asLocalCache.actionIDToPath a := rfl

theorem actionIDToKey_eq (s : S3Backend) (a : Bytes) :
    s.actionIDToKey a = s.keyPrefix ++ Hex.encodeToString a := by
  unfold actionIDToKey
  split_ifs with h
  · rfl
  · rw [not_not.1 h, List.nil_append]

theorem actionIDToKey_injective (s : S3Backend) : Function.Injective s.actionIDToKey := by
  intro a b h
  rw [actionIDToKey_eq, actionIDToKey_eq] at h
  exact Hex.encodeToString_injective (List.append_cancel_left h)

theorem actionIDToLocalPath_injective (s : S3Backend) :
    Function.Injective s.actionIDToLocalPath := by
  intro a b h
  cases s.asLocalCache.place_injective
    (show s.asLocalCache.place (.body a) = s.asLocalCache.place (.body b) from h)
  rfl

theorem actionIDToLocalPath_nil (s : S3Backend) : s.actionIDToLocalPath [] = clean s.tmpDir :=
  join_nil s.tmpDir_ne

theorem actionIDToLocalPath_of_ne (s : S3Backend) {a : Bytes} (ha : a ≠ []) :
    s.actionIDToLocalPath a = child (clean s.tmpDir) (Hex.encodeToString a) :=
  join_name s.tmpDir_ne (LocalCache.encodeToString_isName ha)

/-- The directory `os.MkdirAll` creates for an entry is never longer than `tmpDir`. -/
theorem length_dir_actionIDToLocalPath (s : S3Backend) (a : Bytes) :
    (dir (s.actionIDToLocalPath a)).length ≤ (clean s.tmpDir).length := by
  by_cases ha : a = []
  · subst ha
    rw [actionIDToLocalPath_nil]
    exact length_dir_le (clean_ne_nil _)
  · rw [actionIDToLocalPath_of_ne s ha,
      dir_child (clean_ne_nil _) (LocalCache.encodeToString_isName ha).2.1]
    exact length_clean_le (clean_ne_nil _)

/-- The local copy of a non-empty action id lies strictly below `tmpDir`. -/
theorem length_lt_actionIDToLocalPath (s : S3Backend) {a : Bytes} (ha : a ≠ []) :
    (clean s.tmpDir).length < (s.actionIDToLocalPath a).length := by
  rw [actionIDToLocalPath_of_ne s ha]
  apply length_lt_child
  rw [Hex.encodeToString_length]
  have := List.length_pos.2 ha
  omega

/-- No directory that `Put`, `Get` or `Clear` creates is the local copy of a non-empty action
id. -/
theorem dir_ne_actionIDToLocalPath (s : S3Backend) (a : Bytes) {a' : Bytes} (ha' : a' ≠ []) :
    dir (s.actionIDToLocalPath a) ≠ s.actionIDToLocalPath a' ∧
      clean s.tmpDir ≠ s.actionIDToLocalPath a' := by
  have h1 := s.length_dir_actionIDToLocalPath a
  have h2 := s.length_lt_actionIDToLocalPath ha'
  exact ⟨fun h => by rw [h] at h1; omega, fun h => by rw [h] at h2; omega⟩

/-- `os.RemoveAll(tmpDir)` removes every local copy. -/
theorem within_actionIDToLocalPath (s : S3Backend) (a : Bytes) :
    within (clean s.tmpDir) (s.actionIDToLocalPath a) = true := by
  by_cases ha : a = []
  · subst ha
    rw [actionIDToLocalPath_nil]
    exact within_self _
  · rw [actionIDToLocalPath_of_ne s ha]
    exact within_child _ (LocalCache.encodeToString_isName ha)

end S3Backend

end GoBuildCache.S3
