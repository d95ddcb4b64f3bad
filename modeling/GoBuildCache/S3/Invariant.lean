import GoBuildCache.S3.Consistency

/-!
# A hit of `S3Backend.Get` matches the bucket, in a quiet run under the contract

`get_hit_stale` shows five ways for a hit to name a file that does not hold its object.  This
module proves that there is no sixth: in a run where no other process writes the bucket, no
step on the local files fails, and every world keeps `Contract`, each hit that `Get` returns
matches the bucket (`get_hit_matches`).  S3 requests may still fail, and `Clear` may delete any
part of a batch.

The proof is the invariant `S3Inv`, in four groups.

* What it says.  `PcOk` is what each call knows at its program counter: the size `Put` read,
  the object it uploaded, and the object that `Get`'s reply was parsed from, with the part of
  the download already written.  `LocalOk` says that the local copy of an action id is missing
  or holds the body of the object under its key; it holds for every action id that no call is
  writing (`S3Pc.suspends`).
* One call's step.  `Frame` is what a step of a call on `a` keeps of every other action id.
  `putStep_ok` and `getStep_ok` take a `CallOk` call, which assumes that no `Clear` is in
  flight, to a `CallOk` call and a `Frame`; `clearStep_ok` takes a `ClearOk` `Clear`, which
  assumes that nothing else is in flight, to a `ClearOk` `Clear`.
* The world's step.  `S3Inv.apart` and `S3Inv.alone` read the contract as facts about positions
  in the list of calls; with them `s3Inv_step` gives every call but the one that stepped its
  `PcOk` back through the `Frame`, and `s3Inv_of_run` is the induction over the run.
* The hit.  `S3Inv.hit` reads `HitMatches` off the invariant at the step where `Get` returns:
  `statHit` finds a local copy, which `LocalOk` says is the object's body, and `copyDone` has
  written all of it.

## The one delicate path

`actionIDToLocalPath []` is `tmpDir` itself.  An object under the key of the empty action id
never has a local copy that matches, so `LocalOk` keeps that key empty whenever `tmpDir` is a
directory.  `Clear` removes `tmpDir` and makes it again; `S3Inv.tmpDir` and the `PcOk` of
`mkdirClear` carry what holds in between.
-/

namespace GoBuildCache.S3

open Os FileSystem Path

/-- The environment of `get_hit_matches`: no other process writes the bucket, and no step on
the local files fails. -/
def Env.quiet : Env := ⟨false, false⟩

/-! ## What the invariant says -/

/-- An object as `Put` uploads it: the metadata holds an output id, a size and a time, and the
size is the length of the body. -/
def WfObject (obj : Object) : Prop :=
  ∃ (o : Bytes) (size now : Int64), obj.metadata = putMetadata o size now ∧ size.val = obj.body.length

/-- Every object of the bucket is as `Put` uploads it. -/
def WfBucket (b : Bucket) : Prop := ∀ k obj, b.get k = some obj → WfObject obj

/-- The local copy of `a` is missing, or holds the body of the object under `a`'s key. -/
def LocalOk (s : S3Backend) (b : Bucket) (fs : FileSystem) (a : Bytes) : Prop :=
  ∀ obj, b.get (s.actionIDToKey a) = some obj →
    fs.entries (s.actionIDToLocalPath a) = none ∨
      fs.readFile (s.actionIDToLocalPath a) = .ok obj.body

/-- The reply of a `Get(a)` names the object `obj` under `a`'s key. -/
def ReplyFor (s : S3Backend) (b : Bucket) (a : Bytes) (r : GetReply) (obj : Object) : Prop :=
  b.get (s.actionIDToKey a) = some obj ∧ obj.metadata.outputid = Hex.encodeToString r.outputID ∧
    r.size.val = obj.body.length ∧ r.diskPath = s.actionIDToLocalPath a

/-- The program counters at which a call's local copy may differ from its object: between
`Put`'s upload and its local write, and while `Get` writes a download or removes a failed one. -/
def S3Pc.suspends : S3Pc → Bool
  | .mkdirPut _ | .writingLocal _ | .copying .. | .removingLocal _ => true
  | _ => false

/-- What a call knows at each program counter. -/
def PcOk (s : S3Backend) (b : Bucket) (fs : FileSystem) : S3Call → S3Pc → Prop
  | .put _ _ _ size, .uploading bd => size.val = bd.length
  | .put a _ _ _, .mkdirPut bd => ∃ m, b.get (s.actionIDToKey a) = some ⟨bd, m⟩
  | .put a _ _ _, .writingLocal bd => ∃ m, b.get (s.actionIDToKey a) = some ⟨bd, m⟩
  | .get a, .statting r => ∃ obj, ReplyFor s b a r obj
  | .get a, .getting r => ∃ obj, ReplyFor s b a r obj
  | .get a, .mkdirGet r body => ∃ obj, ReplyFor s b a r obj ∧ body = obj.body
  | .get a, .creating r body => ∃ obj, ReplyFor s b a r obj ∧ body = obj.body
  | .get a, .copying r ino rest => ∃ obj, ReplyFor s b a r obj ∧
      fs.entries (s.actionIDToLocalPath a) = some (.file ino) ∧ fs.data ino ++ rest = obj.body
  | .get a, .removingLocal p => p = s.actionIDToLocalPath a
  | .clear, .mkdirClear => b.get (s.actionIDToKey []) = none
  | _, _ => True

/-- The invariant of a run: the contract, well-formed local files, objects as `Put` uploads
them, what each call knows, a matching local copy for every action id that no call is writing,
and `tmpDir` a directory except while `Clear` makes it again. -/
structure S3Inv (s : S3Backend) (w : World) : Prop where
  contract : Contract w
  valid : w.fs.Valid
  wf : WfBucket w.bucket
  pcs : ∀ (i : Nat) (t : Thread), w.threads[i]? = some t → PcOk s w.bucket w.fs t.call t.pc
  copies : ∀ a, (∀ (i : Nat) (t : Thread), w.threads[i]? = some t → t.call.actionID? = some a →
    t.pc.suspends = false) → LocalOk s w.bucket w.fs a
  tmpDir : w.fs.entries (clean s.tmpDir) = some .dir ∨
    ∃ i : Nat, w.threads[i]? = some ⟨.clear, .mkdirClear⟩

/-- A start that `get_hit_matches` allows: well-formed local files with `tmpDir` a directory,
objects as `Put` uploads them, local copies that match, and no call started. -/
structure InitOk (s : S3Backend) (w : World) : Prop where
  valid : w.fs.Valid
  tmpDir : w.fs.entries (clean s.tmpDir) = some .dir
  wf : WfBucket w.bucket
  copies : ∀ a, LocalOk s w.bucket w.fs a
  threads : w.threads = []

/-- The world `NewS3Backend` leaves is a start `get_hit_matches` allows, when every object is as
`Put` uploads it and none has the key of the empty action id. -/
theorem initOk_initial (s : S3Backend) {b : Bucket} (hwf : WfBucket b)
    (hnil : b.get (s.actionIDToKey []) = none) : InitOk s (s.initial b) := by
  have he : (s.initial b).fs.entries = Function.update (fun _ => none) (clean s.tmpDir) (some .dir) :=
    rfl
  refine ⟨(LocalCache.inv_fresh _).valid, by rw [he]; exact Function.update_same _ _ _, hwf,
    fun a obj (hb : b.get _ = some obj) => ?_, rfl⟩
  have ha : a ≠ [] := by
    rintro rfl
    rw [hnil] at hb
    cases hb
  rw [he]
  exact .inl (Function.update_noteq (s.dir_ne_actionIDToLocalPath a ha).2.symm _ _)

/-! ## Objects, bodies and replies -/

section Objects

variable {s : S3Backend} {b : Bucket} {a : Bytes}

@[simp] theorem parseObjectMeta_putMetadata (o : Bytes) (size now : Int64) :
    parseObjectMeta (putMetadata o size now) = some (o, size, now) := by
  simp [parseObjectMeta, putMetadata, Decimal.parseInt_formatInt]

/-- `Put` reads as many bytes as the size it is passed, when that is the size of its body. -/
theorem readBody_length {o : Bytes} {body : Option Bytes} {size : Int64} {bd : Bytes}
    (h : readBody body size = .ok bd) (hs : (S3Call.put a o body size).sizeOk = true) :
    size.val = bd.length := by
  simp only [S3Call.sizeOk, Bool.and_eq_true, decide_eq_true_eq, Bool.or_eq_true,
    Option.isSome] at hs
  unfold readBody at h
  split at h
  · split_ifs at h with h1 h2 <;> cases h
    · rw [List.length_take, min_eq_left h2]
      omega
    · rw [List.length_nil]
      omega
  · cases h
    simpa using hs.2

theorem WfBucket.put {o : Object} (hwf : WfBucket b) (ho : WfObject o) (k : Bytes) :
    WfBucket (b.put k o) := by
  intro k' obj h
  rw [Bucket.get_put] at h
  split_ifs at h
  · cases h
    exact ho
  · exact hwf _ _ h

theorem WfBucket.deleteIf (hwf : WfBucket b) (p : Bytes → Bool) : WfBucket (b.deleteIf p) := by
  intro k obj h
  rw [Bucket.get_deleteIf] at h
  split_ifs at h
  exact hwf _ _ h

/-- `Get` parses its reply from an object that `Put` uploaded: the reply names that object. -/
theorem replyFor_head (hwf : WfBucket b) {obj : Object} (hb : b.get (s.actionIDToKey a) = some obj)
    {o : Bytes} {size t : Int64} (hp : parseObjectMeta obj.metadata = some (o, size, t)) :
    ReplyFor s b a ⟨o, s.actionIDToLocalPath a, size, GoTime.ofUnix s.proc.loc t⟩ obj := by
  obtain ⟨o', size', now', hm, hlen⟩ := hwf _ _ hb
  rw [hm, parseObjectMeta_putMetadata] at hp
  cases hp
  exact ⟨hb, by rw [hm]; rfl, hlen, rfl⟩

end Objects

/-! ## What a step keeps of the other action ids -/

/-- A step of a call on `a` keeps the object and the local copy of every other action id. -/
def Frame (s : S3Backend) (a : Bytes) (b b' : Bucket) (fs fs' : FileSystem) : Prop :=
  ∀ a', a' ≠ a → b'.get (s.actionIDToKey a') = b.get (s.actionIDToKey a') ∧
    Keeps fs fs' (s.actionIDToLocalPath a')

section Frame

variable {s : S3Backend} {a a' : Bytes} {b b' : Bucket} {fs fs' : FileSystem}

theorem frame_refl : Frame s a b b fs fs := fun _ _ => ⟨rfl, keeps_refl _ _⟩

theorem frame_put (o : Object) : Frame s a b (b.put (s.actionIDToKey a) o) fs fs := fun _ ha' =>
  ⟨by rw [Bucket.get_put, if_neg fun h => ha' (s.actionIDToKey_injective h).symm],
    keeps_refl _ _⟩

theorem frame_of_keeps (h : ∀ a', a' ≠ a → Keeps fs fs' (s.actionIDToLocalPath a')) :
    Frame s a b b fs fs' :=
  fun a' ha' => ⟨rfl, h a' ha'⟩

theorem LocalOk.keeps (h : LocalOk s b fs a) (hk : Keeps fs fs' (s.actionIDToLocalPath a)) :
    LocalOk s b fs' a := by
  intro obj hb
  rw [hk.1, hk.readFile]
  exact h obj hb

theorem LocalOk.frame (h : LocalOk s b fs a') (hf : Frame s a b b' fs fs') (ha : a' ≠ a) :
    LocalOk s b' fs' a' := by
  obtain ⟨hb, hk⟩ := hf a' ha
  intro obj hb'
  rw [hk.1, hk.readFile]
  exact h obj (hb ▸ hb')

/-- What a call on another action id knows survives the step. -/
theorem PcOk.frame {c : S3Call} {pc : S3Pc} (hf : Frame s a b b' fs fs')
    (hc : c.actionID? = some a') (ha : a' ≠ a) (h : PcOk s b fs c pc) : PcOk s b' fs' c pc := by
  obtain ⟨hb, hk⟩ := hf a' ha
  have hr : ∀ {r obj}, ReplyFor s b a' r obj → ReplyFor s b' a' r obj := fun h => ⟨hb.trans h.1, h.2⟩
  cases c with
  | clear => cases hc
  | put _ o body size =>
    cases hc
    cases pc with
    | mkdirPut bd => obtain ⟨m, h⟩ := h; exact ⟨m, hb.trans h⟩
    | writingLocal bd => obtain ⟨m, h⟩ := h; exact ⟨m, hb.trans h⟩
    | _ => exact h
  | get _ =>
    cases hc
    cases pc with
    | statting r => obtain ⟨obj, h⟩ := h; exact ⟨obj, hr h⟩
    | getting r => obtain ⟨obj, h⟩ := h; exact ⟨obj, hr h⟩
    | mkdirGet r body => obtain ⟨obj, h, e⟩ := h; exact ⟨obj, hr h, e⟩
    | creating r body => obtain ⟨obj, h, e⟩ := h; exact ⟨obj, hr h, e⟩
    | copying r ino rest =>
      obtain ⟨obj, h, he, hd⟩ := h
      exact ⟨obj, hr h, hk.1.trans he, by rw [hk.2 ino he]; exact hd⟩
    | _ => exact h

end Frame

/-! ## The local files under `tmpDir` -/

section TmpDir

variable {s : S3Backend} {fs fs' : FileSystem}

/-- `os.MkdirAll` of the directory of a local copy keeps every local copy, while `tmpDir` is a
directory. -/
theorem keeps_mkdirAll_local (hdir : fs.entries (clean s.tmpDir) = some .dir) {a : Bytes}
    (h : fs.mkdirAll (dir (s.actionIDToLocalPath a)) = .ok fs') (a' : Bytes) :
    Keeps fs fs' (s.actionIDToLocalPath a') := by
  by_cases ha' : a' = []
  · subst ha'
    rw [s.actionIDToLocalPath_nil]
    exact keeps_mkdirAll h (.inr (by rw [hdir]; simp))
  · exact keeps_mkdirAll h (.inl (s.dir_ne_actionIDToLocalPath a ha').1.symm)

/-- A step that keeps the path of the empty action id keeps `tmpDir` a directory. -/
theorem tmpDir_of_keeps (hk : Keeps fs fs' (s.actionIDToLocalPath []))
    (h : fs.entries (clean s.tmpDir) = some .dir) : fs'.entries (clean s.tmpDir) = some .dir := by
  rw [← s.actionIDToLocalPath_nil] at h ⊢
  exact hk.1.trans h

/-- No file call that succeeds on a local copy names `tmpDir`. -/
theorem ne_nil_of_file (hdir : fs.entries (clean s.tmpDir) = some .dir) {a : Bytes}
    (h : fs.entries (s.actionIDToLocalPath a) ≠ some .dir) : a ≠ [] := by
  rintro rfl
  rw [s.actionIDToLocalPath_nil] at h
  exact h hdir

end TmpDir

/-! ## One step of `Put` or `Get` -/

/-- What holds of a call on `a` at `pc` while no `Clear` is in flight. -/
structure CallOk (s : S3Backend) (a : Bytes) (c : S3Call) (b : Bucket) (fs : FileSystem)
    (pc : S3Pc) : Prop where
  valid : fs.Valid
  tmpDir : fs.entries (clean s.tmpDir) = some .dir
  wf : WfBucket b
  known : PcOk s b fs c pc
  copy : pc.suspends = false → LocalOk s b fs a

section CallStep

variable {s : S3Backend} {a : Bytes} {b b' : Bucket} {fs fs' : FileSystem} {pc pc' : S3Pc}

/-- A step that changes neither the bucket nor the files. -/
theorem CallOk.same {c : S3Call} (hp : CallOk s a c b fs pc) (hpc : PcOk s b fs c pc')
    (hcopy : pc'.suspends = false → LocalOk s b fs a) :
    Frame s a b b fs fs ∧ CallOk s a c b fs pc' :=
  ⟨frame_refl, hp.valid, hp.tmpDir, hp.wf, hpc, hcopy⟩

/-- One step of `Put(a, o, body, size)`. -/
theorem putStep_ok {o : Bytes} {body : Option Bytes} {size : Int64}
    (h : callStep s Env.quiet (.put a o body size) pc b fs pc' b' fs')
    (hsz : (S3Call.put a o body size).sizeOk = true) (hp : CallOk s a (.put a o body size) b fs pc) :
    Frame s a b b' fs fs' ∧ CallOk s a (.put a o body size) b' fs' pc' := by
  have hne : ∀ a', a' ≠ a → s.actionIDToLocalPath a' ≠ s.actionIDToLocalPath a :=
    fun _ ha' e => ha' (s.actionIDToLocalPath_injective e)
  cases h with
  | putRead _ _ _ _ _ _ bd hr => exact hp.same (readBody_length hr hsz) hp.copy
  | putReadFail => exact hp.same trivial hp.copy
  | upload _ _ _ _ now _ _ bd =>
    exact ⟨frame_put _, hp.valid, hp.tmpDir,
      hp.wf.put (show WfObject ⟨bd, putMetadata o size now⟩ from ⟨o, size, now, rfl, hp.known⟩) _,
      ⟨putMetadata o size now, by simp⟩, by simp [S3Pc.suspends]⟩
  | uploadFail => exact hp.same trivial hp.copy
  | mkdirPut _ _ _ _ _ _ _ bd hm =>
    have hk := keeps_mkdirAll_local hp.tmpDir hm
    exact ⟨frame_of_keeps fun a' _ => hk a', hp.valid.mkdirAll hm,
      tmpDir_of_keeps (hk []) hp.tmpDir, hp.wf, hp.known, by simp [S3Pc.suspends]⟩
  | mkdirPutFail _ _ _ _ _ _ _ _ hl => cases hl
  | writeLocal _ _ _ _ _ _ _ bd hw =>
    have ha := ne_nil_of_file hp.tmpDir fun e => by rw [writeFile_of_dir e] at hw; cases hw
    refine ⟨frame_of_keeps fun a' ha' => keeps_writeFile hp.valid hw (hne a' ha'),
      hp.valid.writeFile hw,
      (keeps_writeFile hp.valid hw (s.dir_ne_actionIDToLocalPath a ha).2).1.trans hp.tmpDir, hp.wf,
      trivial, fun _ obj hb => .inr ?_⟩
    obtain ⟨m, hm⟩ := hp.known
    cases hm.symm.trans hb
    exact readFile_writeFile hw
  | writeLocalFail _ _ _ _ _ _ _ _ _ _ hl => cases hl

/-- One step of `Get(a)`. -/
theorem getStep_ok (h : callStep s Env.quiet (.get a) pc b fs pc' b' fs')
    (hp : CallOk s a (.get a) b fs pc) :
    Frame s a b b' fs fs' ∧ CallOk s a (.get a) b' fs' pc' := by
  have hne : ∀ a', a' ≠ a → s.actionIDToLocalPath a' ≠ s.actionIDToLocalPath a :=
    fun _ ha' e => ha' (s.actionIDToLocalPath_injective e)
  -- A write to the inode of `a`'s local copy keeps every other path.
  have hwrite : ∀ {ino q}, fs.entries (s.actionIDToLocalPath a) = some (.file ino) →
      q ≠ s.actionIDToLocalPath a → (bs : Bytes) → Keeps fs (fs.write ino bs) q :=
    fun he hq _ => keeps_write (fun e => hq (hp.valid.2 _ _ _ e he)) _
  cases h with
  | head _ _ _ obj o size t hb hparse =>
    exact hp.same ⟨obj, replyFor_head hp.wf hb hparse⟩ hp.copy
  | headUnparsed | headNotFound | headFail | statHit | getObjectFail =>
    exact hp.same trivial hp.copy
  | statMiss => exact hp.same hp.known hp.copy
  | getObject _ _ _ r obj hb =>
    obtain ⟨obj', hr⟩ := hp.known
    cases hb.symm.trans hr.1
    exact hp.same ⟨obj, hr, rfl⟩ hp.copy
  | mkdirGet _ _ _ _ r body hm =>
    obtain ⟨obj, hr, hbody⟩ := hp.known
    rw [hr.2.2.2] at hm
    have hk := keeps_mkdirAll_local hp.tmpDir hm
    exact ⟨frame_of_keeps fun a' _ => hk a', hp.valid.mkdirAll hm,
      tmpDir_of_keeps (hk []) hp.tmpDir, hp.wf, ⟨obj, hr, hbody⟩, fun h => (hp.copy h).keeps (hk a)⟩
  | create _ _ _ _ r body ino hc =>
    obtain ⟨obj, hr, rfl⟩ := hp.known
    rw [hr.2.2.2] at hc
    have ha := ne_nil_of_file hp.tmpDir fun e => by rw [openTrunc_of_dir e] at hc; cases hc
    have hf := openTrunc_file hc
    exact ⟨frame_of_keeps fun a' ha' => (keeps_openTrunc hp.valid hc (hne a' ha')).1,
      hp.valid.openTrunc hc,
      (keeps_openTrunc hp.valid hc (s.dir_ne_actionIDToLocalPath a ha).2).1.1.trans hp.tmpDir,
      hp.wf, ⟨obj, hr, hf.1, by rw [hf.2, List.nil_append]⟩, by simp [S3Pc.suspends]⟩
  | copyChunk _ _ _ r ino rest k _ =>
    obtain ⟨obj, hr, he, hd⟩ := hp.known
    have ha := ne_nil_of_file hp.tmpDir (by rw [he]; simp)
    exact ⟨frame_of_keeps fun a' ha' => hwrite he (hne a' ha') _, hp.valid.write _ _,
      (hwrite he (s.dir_ne_actionIDToLocalPath a ha).2 _).1.trans hp.tmpDir, hp.wf,
      ⟨obj, hr, he, by simp [← hd]⟩, by simp [S3Pc.suspends]⟩
  | copyDone _ _ _ r ino =>
    obtain ⟨obj, hr, he, hd⟩ := hp.known
    refine hp.same trivial fun _ obj' hb => .inr ?_
    cases hb.symm.trans hr.1
    rw [readFile_of_file he, ← hd, List.append_nil]
  | copyFail _ _ _ r ino rest k =>
    obtain ⟨obj, hr, he, hd⟩ := hp.known
    have ha := ne_nil_of_file hp.tmpDir (by rw [he]; simp)
    exact ⟨frame_of_keeps fun a' ha' => hwrite he (hne a' ha') _, hp.valid.write _ _,
      (hwrite he (s.dir_ne_actionIDToLocalPath a ha).2 _).1.trans hp.tmpDir, hp.wf, hr.2.2.2,
      by simp [S3Pc.suspends]⟩
  | removeLocal _ _ _ _ p hrm =>
    have hpa : p = s.actionIDToLocalPath a := hp.known
    subst hpa
    obtain ⟨⟨i, hi⟩, rfl⟩ := remove_ok hrm
    have ha := ne_nil_of_file hp.tmpDir (by rw [hi]; simp)
    exact ⟨frame_of_keeps fun a' ha' => keeps_remove hrm (hne a' ha'), hp.valid.remove hrm,
      (keeps_remove hrm (s.dir_ne_actionIDToLocalPath a ha).2).1.trans hp.tmpDir, hp.wf, trivial,
      fun _ _ _ => .inl (Function.update_same _ _ _)⟩
  | statError _ _ _ _ hl | mkdirGetFail _ _ _ _ _ _ hl | createFail _ _ _ _ _ _ hl
  | removeLocalFail _ _ _ _ hl => cases hl

end CallStep

/-! ## One step of `Clear` -/

/-- What holds of `Clear` at `pc` while nothing else is in flight. -/
structure ClearOk (s : S3Backend) (b : Bucket) (fs : FileSystem) (pc : S3Pc) : Prop where
  valid : fs.Valid
  wf : WfBucket b
  known : PcOk s b fs .clear pc
  copies : ∀ a, LocalOk s b fs a
  tmpDir : fs.entries (clean s.tmpDir) = some .dir ∨ pc = .mkdirClear

section ClearStep

variable {s : S3Backend} {b b' : Bucket} {fs fs' : FileSystem} {pc pc' : S3Pc}

theorem LocalOk.deleteIf {a : Bytes} (h : LocalOk s b fs a) (p : Bytes → Bool) :
    LocalOk s (b.deleteIf p) fs a := by
  intro obj hb
  rw [Bucket.get_deleteIf] at hb
  split_ifs at hb
  exact h obj hb

/-- While `tmpDir` is a directory, no object has the key of the empty action id. -/
theorem get_nil_of_dir (h : LocalOk s b fs []) (hdir : fs.entries (clean s.tmpDir) = some .dir) :
    b.get (s.actionIDToKey []) = none := by
  cases hb : b.get (s.actionIDToKey []) with
  | none => rfl
  | some obj =>
    rcases h obj hb with h | h <;> rw [s.actionIDToLocalPath_nil] at h
    · rw [hdir] at h
      cases h
    · simp [FileSystem.readFile, hdir] at h

/-- One step of `Clear`. -/
theorem clearStep_ok (h : callStep s Env.quiet .clear pc b fs pc' b' fs') (hp : ClearOk s b fs pc) :
    ClearOk s b' fs' pc' := by
  cases h with
  | listObjects =>
    exact ⟨hp.valid, hp.wf, by split <;> trivial, hp.copies, .inl (hp.tmpDir.resolve_right nofun)⟩
  | listFail => exact ⟨hp.valid, hp.wf, trivial, hp.copies, .inl (hp.tmpDir.resolve_right nofun)⟩
  | deleteBatch _ _ keys sel =>
    refine ⟨hp.valid, hp.wf.deleteIf _, by unfold afterBatch; split <;> trivial,
      fun a => (hp.copies a).deleteIf _, .inl (hp.tmpDir.resolve_right nofun)⟩
  | deleteFail _ _ keys sel =>
    exact ⟨hp.valid, hp.wf.deleteIf _, trivial, fun a => (hp.copies a).deleteIf _,
      .inl (hp.tmpDir.resolve_right nofun)⟩
  | removeAll =>
    exact ⟨hp.valid.removeAll _ _, hp.wf,
      get_nil_of_dir (hp.copies []) (hp.tmpDir.resolve_right nofun),
      fun a _ _ => .inl (removeAll_entries_of_under (s.within_actionIDToLocalPath a) rfl), .inr rfl⟩
  | mkdirClear _ _ _ hm =>
    refine ⟨hp.valid.mkdirAll hm, hp.wf, trivial, fun a => ?_, .inl (mkdirAll_entries hm)⟩
    by_cases ha : a = []
    · subst ha
      intro obj hb
      rw [show b.get (s.actionIDToKey []) = none from hp.known] at hb
      cases hb
    · exact (hp.copies a).keeps (keeps_mkdirAll hm (.inl (s.dir_ne_actionIDToLocalPath a ha).2.symm))
  | removeAllPartial _ _ _ hl | mkdirClearFail _ _ hl => cases hl

end ClearStep

/-! ## The world's step -/

@[simp] theorem S3Call.isClear_of_actionID? {c : S3Call} (h : c.actionID? = none) :
    c.isClear = true := by
  cases c <;> simp_all [S3Call.actionID?, S3Call.isClear]

section World

variable {s : S3Backend} {w w' : World}

/-- A call that takes a step is in flight. -/
theorem inFlight_of_callStep {env : Env} {c : S3Call} {pc pc' : S3Pc} {b b' : Bucket}
    {fs fs' : FileSystem} (h : callStep s env c pc b fs pc' b' fs') : pc.inFlight = true := by
  cases h <;> rfl

/-- A call that has returned writes no local copy, and knows nothing. -/
theorem suspends_of_not_inFlight {pc : S3Pc} (h : pc.inFlight = false) : pc.suspends = false := by
  cases pc with
  | returned => rfl
  | _ => cases h

theorem pcOk_of_not_inFlight {b : Bucket} {fs : FileSystem} {c : S3Call} {pc : S3Pc}
    (h : pc.inFlight = false) : PcOk s b fs c pc := by
  cases pc with
  | returned => cases c <;> trivial
  | _ => cases h

/-- Two calls in flight on one action id are one call. -/
theorem S3Inv.apart (hi : S3Inv s w) {i j : Nat} {t u : Thread} {a : Bytes}
    (ht : w.threads[i]? = some t) (hu : w.threads[j]? = some u) (hft : t.pc.inFlight = true)
    (hfu : u.pc.inFlight = true) (hta : t.call.actionID? = some a)
    (hua : u.call.actionID? = some a) : i = j :=
  index_eq_of_nodup_filterMap (x := a) hi.contract.1 ht hu (by simp [hft, hta])
    (by simp [hfu, hua])

/-- A `Clear` in flight is the only call in flight. -/
theorem S3Inv.alone (hi : S3Inv s w) {i j : Nat} {t u : Thread} (ht : w.threads[i]? = some t)
    (hu : w.threads[j]? = some u) (hft : t.pc.inFlight = true) (hfu : u.pc.inFlight = true)
    (hc : t.call.isClear = true) : i = j :=
  index_eq_of_length_filter_le_one
    (hi.contract.2.1 (List.any_eq_true.2 ⟨t, List.mem_iff_getElem?.2 ⟨i, ht⟩, by simp [hft, hc]⟩))
    ht hu hft hfu

theorem S3Inv.sizeOk (hi : S3Inv s w) {i : Nat} {t : Thread} (ht : w.threads[i]? = some t) :
    t.call.sizeOk = true :=
  List.all_eq_true.1 hi.contract.2.2 t (List.mem_iff_getElem?.2 ⟨i, ht⟩)

/-- A call in flight that is not writing its local copy sees it match its object. -/
theorem S3Inv.localOk (hi : S3Inv s w) {i : Nat} {t : Thread} {a : Bytes}
    (ht : w.threads[i]? = some t) (ha : t.call.actionID? = some a) (hf : t.pc.inFlight = true)
    (hs : t.pc.suspends = false) : LocalOk s w.bucket w.fs a :=
  hi.copies a fun j u hu hua => by
    by_cases hji : j = i
    · subst hji
      rw [ht] at hu
      cases hu
      exact hs
    · cases hfu : u.pc.inFlight
      · exact suspends_of_not_inFlight hfu
      · exact absurd (hi.apart hu ht hfu hf hua ha) hji

/-- The invariant after a step of a `Put` or a `Get` on `a`, from what the step does to the
call (`putStep_ok`, `getStep_ok`). -/
theorem S3Inv.callStep (hi : S3Inv s w) {i : Nat} {t : Thread} {a : Bytes} {pc' : S3Pc}
    {b' : Bucket} {fs' : FileSystem} (ht : w.threads[i]? = some t) (ha : t.call.actionID? = some a)
    (hf : t.pc.inFlight = true)
    (hstep : CallOk s a t.call w.bucket w.fs t.pc →
      Frame s a w.bucket b' w.fs fs' ∧ CallOk s a t.call b' fs' pc')
    (hc : Contract ⟨b', fs', w.threads.set i ⟨t.call, pc'⟩⟩) :
    S3Inv s ⟨b', fs', w.threads.set i ⟨t.call, pc'⟩⟩ := by
  have hlen : i < w.threads.length := (List.getElem?_eq_some_iff.1 ht).1
  -- Every other call in flight is a `Put` or a `Get` on another action id.
  have hother : ∀ {j u}, w.threads[j]? = some u → j ≠ i → u.pc.inFlight = true →
      ∃ a', u.call.actionID? = some a' ∧ a' ≠ a := by
    intro j u hu hji hfu
    cases hua : u.call.actionID? with
    | none => exact absurd (hi.alone hu ht hfu hf (S3Call.isClear_of_actionID? hua)) hji
    | some a' => exact ⟨a', rfl, fun e => hji (hi.apart hu ht hfu hf (e ▸ hua) ha)⟩
  have hdir : w.fs.entries (clean s.tmpDir) = some .dir := by
    refine hi.tmpDir.resolve_right fun ⟨j, hj⟩ => ?_
    by_cases hji : j = i
    · subst hji
      rw [ht] at hj
      cases hj
      cases ha
    · obtain ⟨a', hca, -⟩ := hother hj hji rfl
      cases hca
  obtain ⟨hfr, hok⟩ :=
    hstep ⟨hi.valid, hdir, hi.wf, hi.pcs i t ht, hi.localOk ht ha hf⟩
  refine ⟨hc, hok.valid, hok.wf, fun j u hu => ?_, fun a' H => ?_, .inl hok.tmpDir⟩
  · by_cases hij : i = j
    · subst hij
      rw [List.getElem?_set_self hlen] at hu
      cases hu
      exact hok.known
    · rw [List.getElem?_set_ne hij] at hu
      cases hfu : u.pc.inFlight
      · exact pcOk_of_not_inFlight hfu
      · obtain ⟨a', hua, hne⟩ := hother hu (Ne.symm hij) hfu
        exact (hi.pcs j u hu).frame hfr hua hne
  · by_cases ha' : a' = a
    · subst ha'
      exact hok.copy (H i _ (List.getElem?_set_self hlen) ha)
    · refine (hi.copies a' fun j u hu hua => ?_).frame hfr ha'
      by_cases hij : i = j
      · subst hij
        rw [ht] at hu
        cases hu
        exact absurd (Option.some.inj (ha.symm.trans hua)).symm ha'
      · exact H j u (by rw [List.getElem?_set_ne hij]; exact hu) hua

/-- The invariant after a step of `Clear`, from what the step does to the call
(`clearStep_ok`). -/
theorem S3Inv.clearStep (hi : S3Inv s w) {i : Nat} {t : Thread} {pc' : S3Pc} {b' : Bucket}
    {fs' : FileSystem} (ht : w.threads[i]? = some t) (hcl : t.call = .clear)
    (hf : t.pc.inFlight = true) (hstep : ClearOk s w.bucket w.fs t.pc → ClearOk s b' fs' pc')
    (hc : Contract ⟨b', fs', w.threads.set i ⟨t.call, pc'⟩⟩) :
    S3Inv s ⟨b', fs', w.threads.set i ⟨t.call, pc'⟩⟩ := by
  have hlen : i < w.threads.length := (List.getElem?_eq_some_iff.1 ht).1
  -- Every other call has returned.
  have hret : ∀ {j u}, w.threads[j]? = some u → j ≠ i → u.pc.inFlight = false := by
    intro j u hu hji
    cases hfu : u.pc.inFlight
    · rfl
    · exact absurd (hi.alone ht hu hf hfu (by rw [hcl]; rfl)).symm hji
  have hcopies : ∀ a, LocalOk s w.bucket w.fs a := fun a => hi.copies a fun j u hu hua => by
    by_cases hji : j = i
    · subst hji
      rw [ht] at hu
      cases hu
      rw [hcl] at hua
      cases hua
    · exact suspends_of_not_inFlight (hret hu hji)
  have htmp : w.fs.entries (clean s.tmpDir) = some .dir ∨ t.pc = .mkdirClear := by
    refine hi.tmpDir.imp_right fun ⟨j, hj⟩ => ?_
    by_cases hji : j = i
    · subst hji
      rw [ht] at hj
      cases hj
      rfl
    · cases hret hj hji
  have hok := hstep ⟨hi.valid, hi.wf, hcl ▸ hi.pcs i t ht, hcopies, htmp⟩
  refine ⟨hc, hok.valid, hok.wf, fun j u hu => ?_, fun a _ => hok.copies a, ?_⟩
  · by_cases hij : i = j
    · subst hij
      rw [List.getElem?_set_self hlen] at hu
      cases hu
      rw [hcl]
      exact hok.known
    · rw [List.getElem?_set_ne hij] at hu
      exact pcOk_of_not_inFlight (hret hu (Ne.symm hij))
  · exact hok.tmpDir.imp_right fun h => ⟨i, by rw [List.getElem?_set_self hlen, hcl, h]⟩

/-- A new call knows nothing yet and writes nothing. -/
theorem S3Inv.spawn (hi : S3Inv s w) (c : S3Call)
    (hc : Contract ⟨w.bucket, w.fs, w.threads ++ [⟨c, .start⟩]⟩) :
    S3Inv s ⟨w.bucket, w.fs, w.threads ++ [⟨c, .start⟩]⟩ := by
  have hleft : ∀ {j u}, w.threads[j]? = some u → (w.threads ++ [⟨c, .start⟩])[j]? = some u :=
    fun hu => (List.getElem?_append_left (List.getElem?_eq_some_iff.1 hu).1).trans hu
  refine ⟨hc, hi.valid, hi.wf, fun j u hu => ?_,
    fun a H => hi.copies a fun j u hu => H j u (hleft hu), hi.tmpDir.imp_right fun ⟨j, hj⟩ => ⟨j, hleft hj⟩⟩
  by_cases hj : j < w.threads.length
  · rw [List.getElem?_append_left hj] at hu
    exact hi.pcs j u hu
  · rw [List.getElem?_append_right (by omega)] at hu
    obtain rfl := List.mem_singleton.1 (List.mem_iff_getElem?.2 ⟨_, hu⟩)
    cases c <;> trivial

/-- Every step of a quiet run that keeps the contract keeps the invariant. -/
theorem s3Inv_step (hi : S3Inv s w) (hs : worldStep s Env.quiet w w') (hc : Contract w') :
    S3Inv s w' := by
  cases hs with
  | spawn c => exact hi.spawn c hc
  | step i t pc' b' fs' ht h =>
    have hf := inFlight_of_callStep h
    obtain ⟨c, pc⟩ := t
    cases c with
    | put a o body size => exact hi.callStep ht rfl hf (putStep_ok h (hi.sizeOk ht)) hc
    | get a => exact hi.callStep ht rfl hf (getStep_ok h) hc
    | clear => exact hi.clearStep ht rfl hf (clearStep_ok h) hc
  | otherPut _ _ h | otherDelete _ h => cases h

theorem s3Inv_init (h : InitOk s w) : S3Inv s w := by
  have ht := h.threads
  refine ⟨⟨by simp [Apart, ht], fun h' => by simp [ht] at h', by simp [SizesOk, ht]⟩, h.valid,
    h.wf, fun i t hi => by simp [ht] at hi, fun a _ => h.copies a, .inl h.tmpDir⟩

/-- The invariant holds all along a quiet run that keeps the contract. -/
theorem s3Inv_of_run {w₀ : World} (h0 : InitOk s w₀) (hrun : RunWith s Env.quiet Contract w₀ w) :
    S3Inv s w := by
  induction hrun with
  | refl => exact s3Inv_init h0
  | tail _ hs ih => exact s3Inv_step ih hs.1 hs.2

/-- The local copies are a cache of the bucket: in a quiet run under the contract, from a start
`get_hit_matches` allows, the local copy of every action id that no call is writing is missing or
holds the body of the object under its key. -/
theorem local_copies_match {w₀ : World} (h0 : InitOk s w₀)
    (hrun : RunWith s Env.quiet Contract w₀ w) (a : Bytes)
    (ha : ∀ (i : Nat) (t : Thread), w.threads[i]? = some t → t.call.actionID? = some a →
      t.pc.suspends = false) :
    LocalOk s w.bucket w.fs a :=
  (s3Inv_of_run h0 hrun).copies a ha

/-- After `Put(A, O₁, "a", 1)` has returned, the local copy of `A` matches its object. -/
theorem local_copies_match_afterPutA : LocalOk sampleBackend afterPutA.bucket afterPutA.fs [1] :=
  local_copies_match (initOk_initial _ (fun _ _ h => by cases h) (Bucket.get_empty _))
    (runWith_afterPutA .quiet) [1] fun i t h _ => by
      rcases i with _ | i
      · cases h; rfl
      · cases h

/-! ## The hit -/

/-- At the step where `Get(a)` returns a hit, the hit matches the bucket. -/
theorem S3Inv.hit (hi : S3Inv s w) (hs : worldStep s Env.quiet w w') {i : Nat} {a : Bytes}
    {pc : S3Pc} {r : GetReply} (ht : w.threads[i]? = some ⟨.get a, pc⟩) (hf : pc.inFlight = true)
    (ht' : w'.threads[i]? = some ⟨.get a, .returned (.get (.ok (some r)))⟩) :
    HitMatches s w' a r := by
  have hlen : i < w.threads.length := (List.getElem?_eq_some_iff.1 ht).1
  cases hs with
  | spawn c =>
    rw [List.getElem?_append_left hlen, ht] at ht'
    cases ht'
    cases hf
  | step j t pc' b' fs' hj h =>
    by_cases hji : j = i
    · subst hji
      rw [ht] at hj
      cases hj
      rw [List.getElem?_set_self hlen] at ht'
      cases ht'
      cases h with
      | statHit _ _ _ _ hstat =>
        obtain ⟨obj, hb, ho, hsz, hd⟩ := hi.pcs j _ ht
        rcases hi.localOk ht rfl hf rfl obj hb with hn | hr
        · rw [FileSystem.stat, hd, hn] at hstat
          cases hstat
        · exact ⟨obj, hb, ho, congrArg s.proc.abs hd, hr, hsz⟩
      | copyDone _ _ _ _ ino =>
        obtain ⟨obj, ⟨hb, ho, hsz, hd⟩, he, hdata⟩ := hi.pcs j _ ht
        exact ⟨obj, hb, ho, congrArg s.proc.abs hd, by rw [readFile_of_file he, ← hdata, List.append_nil],
          hsz⟩
      | statError _ _ _ _ hl => cases hl
    · rw [List.getElem?_set_ne hji, ht] at ht'
      cases ht'
      cases hf
  | otherPut _ _ h | otherDelete _ h => cases h

end World

/-- Every hit that `Get` returns in a quiet run under the contract matches the bucket: the
object under the action id's key has the hit's output id, its body is what the file at the
hit's path holds, and its length is the hit's size. -/
theorem get_hit_matches {s : S3Backend} {w₀ w w' : World} (h0 : InitOk s w₀)
    (hrun : RunWith s Env.quiet Contract w₀ w) (hs : worldStep s Env.quiet w w') {i : Nat}
    {a : Bytes} {pc : S3Pc} {r : GetReply} (ht : w.threads[i]? = some ⟨.get a, pc⟩)
    (hf : pc.inFlight = true)
    (ht' : w'.threads[i]? = some ⟨.get a, .returned (.get (.ok (some r)))⟩) :
    HitMatches s w' a r :=
  (s3Inv_of_run h0 hrun).hit hs ht hf ht'

/-- The world after `Put(A, O₁, "a", 1)` and the `HeadObject` of a `Get(A)`. -/
def afterGetHead : World :=
  ⟨afterPutA.bucket, afterPutA.fs,
    afterPutA.threads ++ [⟨.get [1], .statting (sampleReply [1] (Int64.ofInt 1))⟩]⟩

/-- `Put(A, O₁, "a", 1)` and then `Get(A)` on a new backend: the hit matches. -/
theorem get_hit_matches_after_put :
    ∃ (w' : World) (r₀ r : GetReply),
      RunWith sampleBackend Env.quiet Contract (sampleBackend.initial .empty) afterGetHead ∧
      worldStep sampleBackend Env.quiet afterGetHead w' ∧
      afterGetHead.threads[1]? = some ⟨.get [1], .statting r₀⟩ ∧
      w'.threads[1]? = some ⟨.get [1], .returned (.get (.ok (some r)))⟩ ∧
      HitMatches sampleBackend w' [1] r := by
  have hrun : RunWith sampleBackend Env.quiet Contract (sampleBackend.initial .empty) afterGetHead :=
    .tail (.tail (runWith_afterPutA _) ⟨.spawn _ (.get [1]), by decide⟩)
      ⟨.step _ 1 ⟨.get [1], .start⟩ _ _ _ rfl
        (.head _ _ _ ⟨ascii "a", putMetadata [1] (Int64.ofInt 1) Int64.zero⟩ [1] (Int64.ofInt 1)
          Int64.zero (by decide) (by decide)), by decide⟩
  have hstep : worldStep sampleBackend Env.quiet afterGetHead _ :=
    .step _ 1 _ _ _ _ rfl (.statHit _ _ _ _ (by decide))
  have ht : afterGetHead.threads[1]? = some ⟨.get [1], .statting (sampleReply [1] (Int64.ofInt 1))⟩ :=
    rfl
  exact ⟨_, _, _, hrun, hstep, ht, rfl,
    get_hit_matches (initOk_initial _ (fun _ _ h => by cases h) (Bucket.get_empty _)) hrun hstep ht
      rfl rfl⟩

end GoBuildCache.S3
