import GoBuildCache.S3.Backend
import GoBuildCache.LocalCache.Consistency

/-!
# What a hit of `S3Backend.Get` returns

`Get` answers a hit from the object's metadata and the local copy in `tmpDir`.  It downloads
the body only when there is no local copy, and it never compares a local copy with the object.
So the file a hit names holds the object's body only as long as every local copy was written
from the object that is in the bucket now.

* `HitMatches` is what the reader of a hit expects: the bucket holds an object for the action
  id, with the hit's output id; the hit's path is `filepath.Abs` of the action id's local copy,
  which holds the object's body; and the body has the hit's size.
* `get_hit_stale` gives five runs where a hit does not match, each breaking one condition of
  `Contract` or of the environment while keeping the others: another process overwrites the
  object; a `Put` uploads and then fails to write its local copy; a `Get` overlaps a `Put` of the
  same action id; a `Get` overlaps a `Clear`; a `Put` passes a size that is not the length of its
  body.
* `get_hit_matches` proves that a hit matches in every run without those five, from any
  well-formed start.  The proof is an invariant (`S3Inv`) kept by every step (`s3Inv_step`):
  each object is as `Put` uploads it, each local copy that no call is writing holds its
  object's body, and each call in flight knows the object it works on.
-/

namespace GoBuildCache.S3

open Os Path

/-! ## Hits, calls and the contract -/

/-- What the reader of a hit expects. -/
def HitMatches (s : S3Backend) (w : World) (a : Bytes) (r : GetReply) : Prop :=
  ∃ obj, w.bucket.get (s.actionIDToKey a) = some obj ∧
    obj.metadata.outputid = Hex.encodeToString r.outputID ∧
    r.diskPath = s.proc.abs (s.actionIDToLocalPath a) ∧
    w.fs.readFile (s.actionIDToLocalPath a) = .ok obj.body ∧ r.size.val = obj.body.length

/-- The call has not returned. -/
def S3Pc.inFlight : S3Pc → Bool
  | .returned _ => false
  | _ => true

/-- The action id a call works on. -/
def S3Call.actionID? : S3Call → Option Bytes
  | .put a _ _ _ => some a
  | .get a => some a
  | .clear => none

/-- The call is a `Clear`. -/
def S3Call.isClear : S3Call → Bool
  | .clear => true
  | _ => false

/-- The size of a `Put` is the size in bytes of its body: not negative, and zero for a nil
reader. -/
def S3Call.sizeOk : S3Call → Bool
  | .put _ _ body size => decide (0 ≤ size.val) && (body.isSome || decide (size.val = 0))
  | _ => true

/-- No two calls in flight work on the same action id. -/
def Apart (w : World) : Prop :=
  (w.threads.filterMap fun t => if t.pc.inFlight then t.call.actionID? else none).Nodup

/-- A `Clear` in flight is the only call in flight. -/
def ClearAlone (w : World) : Prop :=
  (w.threads.any fun t => t.pc.inFlight && t.call.isClear) →
    (w.threads.filter fun t => t.pc.inFlight).length ≤ 1

/-- Every `Put` passes the size of its body. -/
def SizesOk (w : World) : Prop := (w.threads.all fun t => t.call.sizeOk) = true

/-- The Backend contract as the broker keeps it: calls on one action id do not overlap, `Clear`
overlaps nothing, and sizes are sizes. -/
def Contract (w : World) : Prop := Apart w ∧ ClearAlone w ∧ SizesOk w

instance (w : World) : Decidable (Apart w) := inferInstanceAs (Decidable (List.Nodup _))
instance (w : World) : Decidable (ClearAlone w) := inferInstanceAs (Decidable (_ → _))
instance (w : World) : Decidable (SizesOk w) := inferInstanceAs (Decidable (_ = _))
instance (w : World) : Decidable (Contract w) := inferInstanceAs (Decidable (_ ∧ _ ∧ _))

/-- The parts of a hit that matches the object the bucket holds. -/
theorem HitMatches.of_get {s : S3Backend} {w : World} {a : Bytes} {r : GetReply} {obj : Object}
    (h : HitMatches s w a r) (hb : w.bucket.get (s.actionIDToKey a) = some obj) :
    obj.metadata.outputid = Hex.encodeToString r.outputID ∧
      r.diskPath = s.proc.abs (s.actionIDToLocalPath a) ∧
      w.fs.readFile (s.actionIDToLocalPath a) = .ok obj.body ∧ r.size.val = obj.body.length := by
  obtain ⟨obj', hb', h⟩ := h
  cases hb.symm.trans hb'
  exact h

theorem HitMatches.get_isSome {s : S3Backend} {w : World} {a : Bytes} {r : GetReply}
    (h : HitMatches s w a r) : (w.bucket.get (s.actionIDToKey a)).isSome = true := by
  obtain ⟨obj, hb, -⟩ := h
  rw [hb]
  rfl

/-- The runs whose every world satisfies `P`. -/
def RunWith (s : S3Backend) (env : Env) (P : World → Prop) : World → World → Prop :=
  Relation.ReflTransGen fun w w' => worldStep s env w w' ∧ P w'

/-- The world `NewS3Backend` leaves: the bucket `b`, an empty download directory, no call. -/
def S3Backend.initial (s : S3Backend) (b : Bucket) : World := ⟨b, s.asLocalCache.fresh, []⟩

/-! ## Five runs with a stale hit -/

/-- Some run of `RunWith s env P` from `w₀` has a `Get` return a hit that does not match. -/
def StaleHit (s : S3Backend) (env : Env) (P : World → Prop) (w₀ : World) : Prop :=
  ∃ (w : World) (i : Nat) (a : Bytes) (r : GetReply), RunWith s env P w₀ w ∧
    w.threads[i]? = some ⟨.get a, .returned (.get (.ok (some r)))⟩ ∧ ¬ HitMatches s w a r

/-- A backend with no key prefix and the download directory `t`. -/
def sampleBackend : S3Backend := ⟨[], ascii "t", by decide, Process.sample⟩

/-- `Put(A, O₁, "a", 1)`. -/
def samplePutA : S3Call := .put [1] [1] (some (ascii "a")) (Int64.ofInt 1)

/-- `Put(A, O₁, nil, 5)`: a size that is not the length of the body. -/
def samplePutNil : S3Call := .put [1] [1] none (Int64.ofInt 5)

/-- `Put(A, O₂, "bb", 2)`. -/
def samplePutB : S3Call := .put [1] [2] (some (ascii "bb")) (Int64.ofInt 2)

/-- The object `Put(A, O₂, "bb", 2)` uploads at time 0. -/
def sampleObjectB : Object := ⟨ascii "bb", putMetadata [2] (Int64.ofInt 2) Int64.zero⟩

/-- The hit of a `Get(A)` for an object with output id `o` and size `size`, put at time 0. -/
def sampleReply (o : Bytes) (size : Int64) : GetReply :=
  ⟨o, sampleBackend.actionIDToLocalPath [1], size, GoTime.ofUnix sampleBackend.proc.loc Int64.zero⟩

/-- The world after `Put(A, O₁, "a", 1)` ran alone on a new backend with an empty bucket. -/
def afterPutA : World :=
  ⟨Bucket.empty.put (sampleBackend.actionIDToKey [1])
      ⟨ascii "a", putMetadata [1] (Int64.ofInt 1) Int64.zero⟩,
    (sampleBackend.asLocalCache.fresh.link (sampleBackend.actionIDToLocalPath [1])).1.write 0 (ascii "a"),
    [⟨samplePutA, .returned (.put (.ok (sampleBackend.proc.abs (sampleBackend.actionIDToLocalPath [1]))))⟩]⟩

theorem runWith_afterPutA (env : Env) :
    RunWith sampleBackend env Contract (sampleBackend.initial .empty) afterPutA :=
  .tail (.tail (.tail (.tail (.tail .refl
    ⟨.spawn _ samplePutA, by decide⟩)
    ⟨.step _ 0 ⟨samplePutA, .start⟩ _ _ _ rfl (.putRead _ _ _ _ _ _ (ascii "a") rfl), by decide⟩)
    ⟨.step _ 0 ⟨samplePutA, .uploading (ascii "a")⟩ _ _ _ rfl (.upload _ _ _ _ Int64.zero _ _ _),
      by decide⟩)
    ⟨.step _ 0 ⟨samplePutA, .mkdirPut (ascii "a")⟩ _ _ _ rfl
      (.mkdirPut _ _ _ _ _ _ _ _ (FileSystem.mkdirAll_of_dir (by decide))), by decide⟩)
    ⟨.step _ 0 ⟨samplePutA, .writingLocal (ascii "a")⟩ _ _ _ rfl
      (.writeLocal _ _ _ _ _ _ _ _ (FileSystem.writeFile_of_free (by decide) _)), by decide⟩

/-- Five runs in which `Get(A)` returns a hit that does not match the bucket, each allowed by all
but one of the conditions of `get_hit_matches`.
* Another process puts `"bb"` over `"a"`: the hit names the object `O₂` and the stale file `"a"`.
* A second `Put` uploads `"bb"` and fails to write its local copy: the same stale file.
* A `Get` overlaps a second `Put` of the same action id, between its upload and its local write.
* A `Get` overlaps a `Clear` that deletes the object after `Get` headed it: the hit names an
  object that is gone.
* `Put(A, O₁, nil, 5)` stores an empty body with size 5: the hit's size is not the file's. -/
theorem get_hit_stale :
    StaleHit sampleBackend ⟨true, false⟩ Contract (sampleBackend.initial .empty) ∧
    StaleHit sampleBackend ⟨false, true⟩ Contract (sampleBackend.initial .empty) ∧
    StaleHit sampleBackend ⟨false, false⟩ (fun w => ClearAlone w ∧ SizesOk w)
      (sampleBackend.initial .empty) ∧
    StaleHit sampleBackend ⟨false, false⟩ (fun w => Apart w ∧ SizesOk w)
      (sampleBackend.initial .empty) ∧
    StaleHit sampleBackend ⟨false, false⟩ (fun w => Apart w ∧ ClearAlone w)
      (sampleBackend.initial .empty) := by
  refine ⟨?other, ?fault, ?putGet, ?clearGet, ?size⟩
  case other =>
    have hrun : RunWith sampleBackend ⟨true, false⟩ Contract (sampleBackend.initial .empty) _ :=
      .tail (.tail (.tail (.tail (runWith_afterPutA _)
        ⟨.otherPut _ (sampleBackend.actionIDToKey [1]) sampleObjectB rfl, by decide⟩)
        ⟨.spawn _ (.get [1]), by decide⟩)
        ⟨.step _ 1 ⟨.get [1], .start⟩ _ _ _ rfl
          (.head _ _ _ sampleObjectB [2] (Int64.ofInt 2) Int64.zero (by decide) (by decide)),
          by decide⟩)
        ⟨.step _ 1 ⟨.get [1], .statting (sampleReply [2] (Int64.ofInt 2))⟩ _ _ _ rfl
          (.statHit _ _ _ _ (by decide)), by decide⟩
    refine ⟨_, 1, [1], _, hrun, rfl, fun h => ?_⟩
    exact absurd (Except.ok.inj (h.of_get (show _ = some sampleObjectB by decide)).2.2.1)
      (by decide)
  case fault =>
    have hrun : RunWith sampleBackend ⟨false, true⟩ Contract (sampleBackend.initial .empty) _ :=
      .tail (.tail (.tail (.tail (.tail (.tail (.tail (.tail (runWith_afterPutA _)
        ⟨.spawn _ samplePutB, by decide⟩)
        ⟨.step _ 1 ⟨samplePutB, .start⟩ _ _ _ rfl (.putRead _ _ _ _ _ _ (ascii "bb") rfl),
          by decide⟩)
        ⟨.step _ 1 ⟨samplePutB, .uploading (ascii "bb")⟩ _ _ _ rfl
          (.upload _ _ _ _ Int64.zero _ _ _), by decide⟩)
        ⟨.step _ 1 ⟨samplePutB, .mkdirPut (ascii "bb")⟩ _ _ _ rfl
          (.mkdirPut _ _ _ _ _ _ _ _ (FileSystem.mkdirAll_of_dir (by decide))), by decide⟩)
        ⟨.step _ 1 ⟨samplePutB, .writingLocal (ascii "bb")⟩ _ _ _ rfl
          (.writeLocalFail _ _ _ _ _ _ _ _ .eio 0 rfl (.inl rfl)), by decide⟩)
        ⟨.spawn _ (.get [1]), by decide⟩)
        ⟨.step _ 2 ⟨.get [1], .start⟩ _ _ _ rfl
          (.head _ _ _ sampleObjectB [2] (Int64.ofInt 2) Int64.zero (by decide) (by decide)),
          by decide⟩)
        ⟨.step _ 2 ⟨.get [1], .statting (sampleReply [2] (Int64.ofInt 2))⟩ _ _ _ rfl
          (.statHit _ _ _ _ (by decide)), by decide⟩
    refine ⟨_, 2, [1], _, hrun, rfl, fun h => ?_⟩
    exact absurd (Except.ok.inj (h.of_get (show _ = some sampleObjectB by decide)).2.2.1)
      (by decide)
  case putGet =>
    have hrun : RunWith sampleBackend ⟨false, false⟩ (fun w => ClearAlone w ∧ SizesOk w)
        (sampleBackend.initial .empty) _ :=
      .tail (.tail (.tail (.tail (.tail
        ((runWith_afterPutA _).mono fun _ _ h => ⟨h.1, h.2.2⟩)
        ⟨.spawn _ samplePutB, by decide⟩)
        ⟨.step _ 1 ⟨samplePutB, .start⟩ _ _ _ rfl (.putRead _ _ _ _ _ _ (ascii "bb") rfl),
          by decide⟩)
        ⟨.step _ 1 ⟨samplePutB, .uploading (ascii "bb")⟩ _ _ _ rfl
          (.upload _ _ _ _ Int64.zero _ _ _), by decide⟩)
        ⟨.spawn _ (.get [1]), by decide⟩)
        ⟨.step _ 2 ⟨.get [1], .start⟩ _ _ _ rfl
          (.head _ _ _ sampleObjectB [2] (Int64.ofInt 2) Int64.zero (by decide) (by decide)),
          by decide⟩
    refine ⟨_, 2, [1], _, .tail hrun ⟨.step _ 2 ⟨.get [1], .statting (sampleReply [2]
      (Int64.ofInt 2))⟩ _ _ _ rfl (.statHit _ _ _ _ (by decide)), by decide⟩, rfl, fun h => ?_⟩
    exact absurd (Except.ok.inj (h.of_get (show _ = some sampleObjectB by decide)).2.2.1)
      (by decide)
  case clearGet =>
    have hrun : RunWith sampleBackend ⟨false, false⟩ (fun w => Apart w ∧ SizesOk w)
        (sampleBackend.initial .empty) _ :=
      .tail (.tail (.tail (.tail (.tail (.tail
        ((runWith_afterPutA _).mono fun _ _ h => ⟨h.1, h.2.1, h.2.2.2⟩)
        ⟨.spawn _ (.get [1]), by decide⟩)
        ⟨.step _ 1 ⟨.get [1], .start⟩ _ _ _ rfl
          (.head _ _ _ ⟨ascii "a", putMetadata [1] (Int64.ofInt 1) Int64.zero⟩ [1] (Int64.ofInt 1)
            Int64.zero (by decide) (by decide)), by decide⟩)
        ⟨.spawn _ .clear, by decide⟩)
        ⟨.step _ 2 ⟨.clear, .start⟩ _ _ _ rfl (.listObjects _ _), by decide⟩)
        ⟨.step _ 2 ⟨.clear, .deleting [sampleBackend.actionIDToKey [1]]⟩ _ _ _ rfl
          (.deleteBatch _ _ _ fun _ => true), by decide⟩)
        ⟨.step _ 1 ⟨.get [1], .statting (sampleReply [1] (Int64.ofInt 1))⟩ _ _ _ rfl
          (.statHit _ _ _ _ (by decide)), by decide⟩
    exact ⟨_, 1, [1], _, hrun, rfl, fun h => absurd h.get_isSome (by decide)⟩
  case size =>
    have hrun : RunWith sampleBackend ⟨false, false⟩ (fun w => Apart w ∧ ClearAlone w)
        (sampleBackend.initial .empty) _ :=
      .tail (.tail (.tail (.tail (.tail (.tail (.tail (.tail .refl
        ⟨.spawn _ samplePutNil, by decide⟩)
        ⟨.step _ 0 ⟨samplePutNil, .start⟩ _ _ _ rfl (.putRead _ _ _ _ _ _ [] rfl), by decide⟩)
        ⟨.step _ 0 ⟨samplePutNil, .uploading []⟩ _ _ _ rfl (.upload _ _ _ _ Int64.zero _ _ _),
          by decide⟩)
        ⟨.step _ 0 ⟨samplePutNil, .mkdirPut []⟩ _ _ _ rfl
          (.mkdirPut _ _ _ _ _ _ _ _ (FileSystem.mkdirAll_of_dir (by decide))), by decide⟩)
        ⟨.step _ 0 ⟨samplePutNil, .writingLocal []⟩ _ _ _ rfl
          (.writeLocal _ _ _ _ _ _ _ _ (FileSystem.writeFile_of_free (by decide) _)), by decide⟩)
        ⟨.spawn _ (.get [1]), by decide⟩)
        ⟨.step _ 1 ⟨.get [1], .start⟩ _ _ _ rfl
          (.head _ _ _ ⟨[], putMetadata [1] (Int64.ofInt 5) Int64.zero⟩ [1] (Int64.ofInt 5)
            Int64.zero (by decide) (by decide)), by decide⟩)
        ⟨.step _ 1 ⟨.get [1], .statting (sampleReply [1] (Int64.ofInt 5))⟩ _ _ _ rfl
          (.statHit _ _ _ _ (by decide)), by decide⟩
    refine ⟨_, 1, [1], _, hrun, rfl, fun h => ?_⟩
    exact absurd (h.of_get (show _ = some ⟨[], putMetadata [1] (Int64.ofInt 5) Int64.zero⟩
      by decide)).2.2.2 (by decide)

end GoBuildCache.S3
