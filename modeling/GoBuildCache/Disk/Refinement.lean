import GoBuildCache.Disk.Backend

/-!
# The disk backend against the map it stands for

A backend is meant to be a map from action ids to the last put of each (`specStore`): a put
that succeeds sets the entry of its action id, and a successful `Clear` empties the map.  This
module runs calls of one process one after another, each alone from its start to its return and
without faults (`SeqRun`), on a base directory that starts empty, and compares `Get` with the
map.

* `Inv` is the invariant that relates the directory to the map: every entry of the map has its
  body file holding what its `Put` copied and its metadata file holding what its `Put` wrote,
  and an action id without an entry has no body file.
* `putFrom_cases` is what one `Put` does: it writes both files, or it fails after the copy and
  removes the body file; every other path keeps its file.  `removeEntries_spec` is the same for
  the loop of `Clear`.  `Inv.put`, `Inv.clear` and `seqRun_inv` carry the invariant over calls
  and over whole runs.
* `get_of_seqRun` is the result: `Get(A)` returns the entry of `A` in the map, and the body file
  holds the bytes its `Put` copied, whose number is `bodySize` when `Put` copied the body and 0
  when it did not.

A `Put` that fails removes the body file, so its action id has no entry any more, and a `Put`
that does not copy (a nil reader, or `bodySize ≤ 0`) stores `bodySize` beside an empty file:
`put_failure_and_nil_body` shows both on a new directory.
-/

namespace GoBuildCache

namespace Disk

open Path Os

/-! ## The map the backend stands for -/

/-- One call of a sequential run, with what it returned. -/
inductive Event
  | put (c : PutCall) (r : Except PutError Bytes)
  | get (a : Bytes) (r : Option GetReply)
  | clear (r : Except ClearError Unit)

/-- What a call does to the map from action ids to the put that stored them: a put sets its
action id when it succeeds and removes it when it fails, and a successful clear empties the
map. -/
def Event.store (M : Bytes → Option PutCall) : Event → Bytes → Option PutCall
  | .put c (.ok _) => Function.update M c.actionID (some c)
  | .put c (.error _) => Function.update M c.actionID none
  | .get _ _ => M
  | .clear (.ok ()) => fun _ => none
  | .clear (.error _) => M

/-- The map after a history of calls, from the empty map. -/
def specStore (h : List Event) : Bytes → Option PutCall := h.foldl Event.store fun _ => none

@[simp] theorem specStore_append (h : List Event) (e : Event) :
    specStore (h ++ [e]) = e.store (specStore h) := by
  simp [specStore]

/-- What `Get` returns for the entry stored by `c`. -/
def PutCall.reply (d : Disk) (c : PutCall) : GetReply :=
  ⟨c.outputID, d.proc.abs (d.actionIDToPath c.actionID), c.bodySize, GoTime.ofUnix d.proc.loc c.now⟩

/-- `Put` copies the body: `bodySize > 0 && body != nil`. -/
def PutCall.copies (c : PutCall) : Prop := 0 < c.bodySize.val ∧ c.body.isSome

instance (c : PutCall) : Decidable c.copies := inferInstanceAs (Decidable (_ ∧ _))

/-- The number of bytes a successful `Put` leaves in the body file. -/
def PutCall.CopiedLength (c : PutCall) : Prop :=
  (c.copied.length : Int) = if c.copies then c.bodySize.val else 0

/-! ## Sequential runs -/

/-- A base directory that exists and holds nothing. -/
structure Empty (d : Disk) (fs : FileSystem) : Prop where
  valid : fs.Valid
  root : fs.entries d.root = some .dir
  noChild : ∀ n, IsName n → fs.entries (child d.root n) = none

/-- A file system with nothing but the base directory. -/
def fresh (d : Disk) : FileSystem := ⟨Function.update (fun _ => none) d.root (some .dir), fun _ => [], 0⟩

theorem empty_fresh (d : Disk) : Empty d d.fresh := by
  refine ⟨⟨fun p i h => ?_, fun p q i h _ => ?_⟩, by simp [fresh], fun n hn => ?_⟩
  · by_cases hp : p = d.root <;> simp [fresh, hp] at h
  · by_cases hp : p = d.root <;> simp [fresh, hp] at h
  · simp [fresh, LocalCache.child_ne_self hn]

/-- Calls run one after another, each alone from its start to its return and without faults. -/
inductive SeqRun (d : Disk) (fs₀ : FileSystem) : List Event → FileSystem → Prop
  | nil : SeqRun d fs₀ [] fs₀
  | put {h : List Event} {fs fs' : FileSystem} {c : PutCall} {r : Except PutError Bytes} :
      SeqRun d fs₀ h fs → PutRun d c false (.start, fs) (.returned r, fs') →
        SeqRun d fs₀ (h ++ [.put c r]) fs'
  | get {h : List Event} {fs : FileSystem} {a : Bytes} {r : Option GetReply} :
      SeqRun d fs₀ h fs → GetRun d false a fs .start (.returned r) → SeqRun d fs₀ (h ++ [.get a r]) fs
  | clear {h : List Event} {fs fs' : FileSystem} {r : Except ClearError Unit} :
      SeqRun d fs₀ h fs → ClearRun d false (.start, fs) (.returned r, fs') →
        SeqRun d fs₀ (h ++ [.clear r]) fs'

/-! ## The invariant -/

/-- The directory stands for the map `M`. -/
structure Inv (d : Disk) (fs : FileSystem) (M : Bytes → Option PutCall) : Prop where
  valid : fs.Valid
  root : fs.entries d.root = some .dir
  notDir : ∀ n, IsName n → fs.entries (child d.root n) ≠ some .dir
  metaNil : fs.entries (d.metadataPath []) = none
  miss : ∀ a, a ≠ [] → M a = none → fs.entries (d.actionIDToPath a) = none
  hit : ∀ a c, M a = some c → c.actionID = a ∧ c.CopiedLength ∧
    fs.readFile (d.actionIDToPath a) = .ok c.copied ∧ fs.readFile (d.metadataPath a) = .ok c.meta

theorem Empty.inv {d : Disk} {fs : FileSystem} (h : Empty d fs) : Inv d fs fun _ => none where
  valid := h.valid
  root := h.root
  notDir n hn := by simp [h.noChild n hn]
  metaNil := by rw [metadataPath_eq]; exact h.noChild _ (metaName_isName [])
  miss a ha _ := by
    rw [actionIDToPath_of_ne d ha]; exact h.noChild _ (LocalCache.encodeToString_isName ha)
  hit _ _ h := by cases h

section Inv

variable {d : Disk} {fs : FileSystem} {M : Bytes → Option PutCall}

/-- The empty action id has no entry: its body path is the directory itself. -/
theorem Inv.nil_none (hi : Inv d fs M) : M [] = none := by
  rcases hM : M [] with _ | c
  · rfl
  · obtain ⟨-, -, hb, -⟩ := hi.hit [] c hM
    rw [actionIDToPath_nil, FileSystem.readFile, hi.root] at hb
    cases hb

/-- `Get`'s parse of the text `Put` wrote gives back what `Put` was called with. -/
theorem parseReply_meta (loc : Location) (p : Bytes) (c : PutCall) :
    parseReply loc p c.meta = some ⟨c.outputID, p, c.bodySize, GoTime.ofUnix loc c.now⟩ := by
  simp only [parseReply, PutCall.meta, LocalCache.scanLines_formatFields,
    Hex.decodeString_encodeToString, GoTime.ofUnix_unix]

/-- A `Get` alone and without faults returns the entry of the map. -/
theorem Inv.getFrom (hi : Inv d fs M) (a : Bytes) :
    getFrom d a .start fs = (M a).map (PutCall.reply d) := by
  rcases hM : M a with _ | c
  · by_cases ha : a = []
    · subst ha
      simp [Disk.getFrom, getRead, FileSystem.stat, FileSystem.readFile, actionIDToPath_nil, hi.root,
        hi.metaNil]
    · simp [Disk.getFrom, FileSystem.stat, hi.miss a ha hM]
  · obtain ⟨rfl, -, hb, hm⟩ := hi.hit a c hM
    obtain ⟨i, hi'⟩ := FileSystem.entries_of_readFile_ok hb
    simp [Disk.getFrom, getRead, FileSystem.stat, hi', hm, parseReply_meta, PutCall.reply]

end Inv

/-! ## What one `Put` does -/

section Put

variable (d : Disk) (c : PutCall) {fs : FileSystem}

theorem removeDone_spec {e : PutError} (hv : fs.Valid)
    (hb : ∃ i, fs.entries (d.actionIDToPath c.actionID) = some (.file i)) :
    (c.removeDone d e fs).1 = .error e ∧ (c.removeDone d e fs).2.Valid ∧
      (c.removeDone d e fs).2.entries (d.actionIDToPath c.actionID) = none ∧
      ∀ q, q ≠ d.actionIDToPath c.actionID → FileSystem.Keeps fs (c.removeDone d e fs).2 q := by
  obtain ⟨i, hi⟩ := hb
  have hr := FileSystem.remove_of_file hi
  have hd : (c.removeDone d e fs).2 =
      FileSystem.mk (Function.update fs.entries (d.actionIDToPath c.actionID) none) fs.data fs.nextIno := by
    simp only [PutCall.removeDone, hr]
  rw [hd]
  exact ⟨rfl, hv.remove hr, by simp, fun q hq => FileSystem.keeps_remove hr hq⟩

theorem metaDone_spec (hv : fs.Valid) (hm : fs.entries (d.metadataPath c.actionID) ≠ some .dir) :
    (c.metaDone d fs).1 = .ok (d.proc.abs (d.actionIDToPath c.actionID)) ∧ (c.metaDone d fs).2.Valid ∧
      (c.metaDone d fs).2.readFile (d.metadataPath c.actionID) = .ok c.meta ∧
      ∀ q, q ≠ d.metadataPath c.actionID → FileSystem.Keeps fs (c.metaDone d fs).2 q := by
  obtain ⟨fs', j, ho⟩ := FileSystem.exists_openTrunc hm
  obtain ⟨he, hd⟩ := FileSystem.openTrunc_file ho
  have hm : c.metaDone d fs = (.ok (d.proc.abs (d.actionIDToPath c.actionID)), fs'.write j c.meta) := by
    simp only [PutCall.metaDone, ho]
  rw [hm]
  refine ⟨rfl, (hv.openTrunc ho).write _ _, by simp [FileSystem.readFile, he, hd], fun q hq => ?_⟩
  obtain ⟨hk, hne⟩ := FileSystem.keeps_openTrunc hv ho hq
  exact hk.trans (FileSystem.keeps_write hne _)

/-- The size check of `Put`: when it returns, the body file holds `bodySize` bytes if it copied
and none if it did not. -/
theorem copiedLength_of_ok {p : Bytes} (h : (putFrom d c .start fs).1 = .ok p) : c.CopiedLength := by
  simp only [putFrom] at h
  split at h
  · cases h
  · split at h <;> rename_i hb
    · by_cases hn : 0 < c.bodySize.val
      · rw [if_pos hn] at h
        simp only [PutCall.copyDone] at h
        split_ifs at h with hf hl
        · cases h
        · cases h
        · simpa [PutCall.CopiedLength, PutCall.copied, PutCall.copies, hb, hn] using hl
      · simp [PutCall.CopiedLength, PutCall.copied, PutCall.copies, hb, hn]
    · simp [PutCall.CopiedLength, PutCall.copied, PutCall.copies, hb]

/-- What one `Put` of a non-empty action id does on a directory that stands for a map: it
returns the body's path after writing what it copied and its metadata, or it fails after the
copy and leaves no body file.  Every other path keeps its file. -/
theorem putFrom_cases {M : Bytes → Option PutCall} (hi : Inv d fs M) (ha : c.actionID ≠ []) :
    (putFrom d c .start fs).2.Valid ∧
      (((putFrom d c .start fs).1 = .ok (d.proc.abs (d.actionIDToPath c.actionID)) ∧
          (putFrom d c .start fs).2.readFile (d.actionIDToPath c.actionID) = .ok c.copied ∧
          (putFrom d c .start fs).2.readFile (d.metadataPath c.actionID) = .ok c.meta ∧
          ∀ q, q ≠ d.actionIDToPath c.actionID → q ≠ d.metadataPath c.actionID →
            FileSystem.Keeps fs (putFrom d c .start fs).2 q) ∨
        ((∃ e, (putFrom d c .start fs).1 = .error e) ∧
          (putFrom d c .start fs).2.entries (d.actionIDToPath c.actionID) = none ∧
          ∀ q, q ≠ d.actionIDToPath c.actionID → FileSystem.Keeps fs (putFrom d c .start fs).2 q)) := by
  have hbody : fs.entries (d.actionIDToPath c.actionID) ≠ some .dir := by
    rw [actionIDToPath_of_ne d ha]; exact hi.notDir _ (LocalCache.encodeToString_isName ha)
  have hmeta : fs.entries (d.metadataPath c.actionID) ≠ some .dir := by
    rw [metadataPath_eq]; exact hi.notDir _ (metaName_isName _)
  have hbm := actionIDToPath_ne_metadataPath d c.actionID c.actionID
  obtain ⟨fs1, ino, ho⟩ := FileSystem.exists_openTrunc hbody
  obtain ⟨he, hd⟩ := FileSystem.openTrunc_file ho
  have hv1 := hi.valid.openTrunc ho
  have hk1 : ∀ q, q ≠ d.actionIDToPath c.actionID → FileSystem.Keeps fs fs1 q ∧
      fs1.entries q ≠ some (.file ino) := fun q hq => FileSystem.keeps_openTrunc hi.valid ho hq
  -- the metadata step after the body file holds `bs`
  have meta : ∀ fs2 : FileSystem, fs2.Valid → fs2.readFile (d.actionIDToPath c.actionID) = .ok c.copied →
      (∀ q, q ≠ d.actionIDToPath c.actionID → FileSystem.Keeps fs fs2 q) →
      (c.metaDone d fs2).2.Valid ∧
        ((c.metaDone d fs2).1 = .ok (d.proc.abs (d.actionIDToPath c.actionID)) ∧
          (c.metaDone d fs2).2.readFile (d.actionIDToPath c.actionID) = .ok c.copied ∧
          (c.metaDone d fs2).2.readFile (d.metadataPath c.actionID) = .ok c.meta ∧
          ∀ q, q ≠ d.actionIDToPath c.actionID → q ≠ d.metadataPath c.actionID →
            FileSystem.Keeps fs (c.metaDone d fs2).2 q) := fun fs2 hv2 hb2 hk2 => by
    have hm2 : fs2.entries (d.metadataPath c.actionID) ≠ some .dir := by
      rw [(hk2 _ hbm.symm).1]; exact hmeta
    obtain ⟨hr, hv3, hrm, hk3⟩ := metaDone_spec d c hv2 hm2
    exact ⟨hv3, hr, by rw [(hk3 _ hbm).readFile, hb2], hrm, fun q hq hq' => (hk2 q hq).trans (hk3 q hq')⟩
  -- the removal after a failed copy
  have remove : ∀ (fs2 : FileSystem) (e : PutError), fs2.Valid →
      fs2.entries (d.actionIDToPath c.actionID) = some (.file ino) →
      (∀ q, q ≠ d.actionIDToPath c.actionID → FileSystem.Keeps fs fs2 q) →
      (c.removeDone d e fs2).2.Valid ∧ ((∃ e', (c.removeDone d e fs2).1 = .error e') ∧
        (c.removeDone d e fs2).2.entries (d.actionIDToPath c.actionID) = none ∧
        ∀ q, q ≠ d.actionIDToPath c.actionID → FileSystem.Keeps fs (c.removeDone d e fs2).2 q) :=
    fun fs2 e hv2 he2 hk2 => by
      obtain ⟨hr, hv3, hn, hk3⟩ := removeDone_spec d c (e := e) hv2 ⟨ino, he2⟩
      exact ⟨hv3, ⟨e, hr⟩, hn, fun q hq => (hk2 q hq).trans (hk3 q hq)⟩
  have hk1' : ∀ q, q ≠ d.actionIDToPath c.actionID → FileSystem.Keeps fs fs1 q := fun q hq => (hk1 q hq).1
  simp only [putFrom, ho]
  split <;> rename_i b hb
  · by_cases hn : 0 < c.bodySize.val
    · rw [if_pos hn]
      have hv2 := hv1.write ino b.data
      have he2 : (fs1.write ino b.data).entries (d.actionIDToPath c.actionID) = some (.file ino) := he
      have hk2 : ∀ q, q ≠ d.actionIDToPath c.actionID → FileSystem.Keeps fs (fs1.write ino b.data) q :=
        fun q hq => (hk1 q hq).1.trans (FileSystem.keeps_write (hk1 q hq).2 _)
      simp only [PutCall.copyDone]
      split_ifs
      · exact (fun h => ⟨h.1, .inr h.2⟩) (remove _ _ hv2 he2 hk2)
      · exact (fun h => ⟨h.1, .inr h.2⟩) (remove _ _ hv2 he2 hk2)
      · have := meta _ hv2 (by simp [FileSystem.readFile, he, hd, PutCall.copied, hb, hn]) hk2
        exact ⟨this.1, .inl this.2⟩
    · rw [if_neg hn]
      have := meta fs1 hv1 (by simp [FileSystem.readFile, he, hd, PutCall.copied, hb, hn]) hk1'
      exact ⟨this.1, .inl this.2⟩
  · have := meta fs1 hv1 (by simp [FileSystem.readFile, he, hd, PutCall.copied, hb]) hk1'
    exact ⟨this.1, .inl this.2⟩

end Put

section Step

variable {d : Disk} {fs : FileSystem} {M : Bytes → Option PutCall}

/-- A `Put` alone and without faults keeps the invariant, for the map the put leaves. -/
theorem Inv.put (hi : Inv d fs M) (c : PutCall) :
    Inv d (putFrom d c .start fs).2 ((Event.put c (putFrom d c .start fs).1).store M) := by
  by_cases ha : c.actionID = []
  · have hres : putFrom d c .start fs = (.error (.create .eisdir), fs) := by
      simp [putFrom, ha, actionIDToPath_nil, FileSystem.openTrunc_of_dir hi.root]
    rw [hres]
    refine ⟨hi.valid, hi.root, hi.notDir, hi.metaNil, fun a ha' hM => ?_, fun a c' hM => ?_⟩
    · rw [Event.store, ha, Function.update_noteq ha'] at hM
      exact hi.miss a ha' hM
    · rw [Event.store, ha] at hM
      by_cases hb : a = []
      · subst hb; simp at hM
      · rw [Function.update_noteq hb] at hM
        exact hi.hit a c' hM
  · obtain ⟨hv, hcase⟩ := putFrom_cases d c hi ha
    -- what a path other than the two of `c` keeps
    have other : ∀ q, q ≠ d.actionIDToPath c.actionID → q ≠ d.metadataPath c.actionID →
        FileSystem.Keeps fs (putFrom d c .start fs).2 q := by
      rcases hcase with ⟨-, -, -, hk⟩ | ⟨-, -, hk⟩
      exacts [hk, fun q hq _ => hk q hq]
    have bodyNe : ∀ a, a ≠ c.actionID → d.actionIDToPath a ≠ d.actionIDToPath c.actionID :=
      fun a h h' => h (actionIDToPath_injective d h')
    have metaNe : ∀ a, a ≠ c.actionID → d.metadataPath a ≠ d.metadataPath c.actionID :=
      fun a h h' => h (metadataPath_injective d h')
    have hmetaNil := other _ (actionIDToPath_ne_metadataPath d c.actionID []).symm
      (metaNe [] (Ne.symm ha))
    have hrb : d.root ≠ d.actionIDToPath c.actionID := by
      rw [actionIDToPath_of_ne d ha]
      exact (LocalCache.child_ne_self (LocalCache.encodeToString_isName ha)).symm
    have hrm : d.root ≠ d.metadataPath c.actionID := by
      rw [metadataPath_eq]
      exact (LocalCache.child_ne_self (metaName_isName _)).symm
    have hroot := other d.root hrb hrm
    refine ⟨hv, hroot.1.trans hi.root, fun n hn => ?_, hmetaNil.1.trans hi.metaNil,
      fun a ha' hM => ?_, fun a c' hM => ?_⟩
    · by_cases h1 : child d.root n = d.actionIDToPath c.actionID
      · rw [h1]
        rcases hcase with ⟨-, hb, -⟩ | ⟨-, hn', -⟩
        · obtain ⟨i, hi'⟩ := FileSystem.entries_of_readFile_ok hb
          simp [hi']
        · simp [hn']
      · by_cases h2 : child d.root n = d.metadataPath c.actionID
        · rw [h2]
          rcases hcase with ⟨-, -, hm, -⟩ | ⟨-, -, hk⟩
          · obtain ⟨i, hi'⟩ := FileSystem.entries_of_readFile_ok hm
            simp [hi']
          · rw [(hk _ (actionIDToPath_ne_metadataPath d _ _).symm).1, ← h2]
            exact hi.notDir n hn
        · rw [(other _ h1 h2).1]
          exact hi.notDir n hn
    · by_cases hac : a = c.actionID
      · subst hac
        rcases hcase with ⟨hr, -⟩ | ⟨-, hn', -⟩
        · simp [Event.store, hr] at hM
        · exact hn'
      · have hM' : M a = none := by
          rcases hcase with ⟨hr, -⟩ | ⟨⟨e, hr⟩, -⟩ <;>
            simpa [Event.store, hr, Function.update_noteq hac] using hM
        rw [(other _ (bodyNe a hac) (actionIDToPath_ne_metadataPath d _ _)).1]
        exact hi.miss a ha' hM'
    · by_cases hac : a = c.actionID
      · subst hac
        rcases hcase with ⟨hr, hb, hm, -⟩ | ⟨⟨e, hr⟩, -⟩
        · simp only [Event.store, hr, Function.update_same, Option.some.injEq] at hM
          rw [← hM]
          exact ⟨rfl, copiedLength_of_ok d c hr, hb, hm⟩
        · simp [Event.store, hr] at hM
      · have hM' : M a = some c' := by
          rcases hcase with ⟨hr, -⟩ | ⟨⟨e, hr⟩, -⟩ <;>
            simpa [Event.store, hr, Function.update_noteq hac] using hM
        obtain ⟨h1, h2, h3, h4⟩ := hi.hit a c' hM'
        refine ⟨h1, h2, ?_, ?_⟩
        · rw [(other _ (bodyNe a hac) (actionIDToPath_ne_metadataPath d _ _)).readFile, h3]
        · rw [(other _ (actionIDToPath_ne_metadataPath d _ _).symm (metaNe a hac)).readFile, h4]

end Step

/-! ## What `Clear` does -/

section Clear

variable {d : Disk}

/-- The `os.Remove` loop over names of files in the directory, each listed once, removes each of
them and keeps every other path. -/
theorem removeEntries_spec {names : List Bytes} {fs : FileSystem} (hn : names.Nodup)
    (hf : ∀ n ∈ names, IsName n ∧ ∃ i, fs.entries (child d.root n) = some (.file i)) (hv : fs.Valid) :
    ∃ fs', d.removeEntries names fs = (.ok (), fs') ∧ fs'.Valid ∧
      (∀ n ∈ names, fs'.entries (child d.root n) = none) ∧
      ∀ q, (∀ n ∈ names, q ≠ child d.root n) → FileSystem.Keeps fs fs' q := by
  induction names generalizing fs with
  | nil => exact ⟨fs, rfl, hv, by simp, fun q _ => FileSystem.keeps_refl fs q⟩
  | cons n names ih =>
    obtain ⟨hname, i, hi⟩ := hf n (.head _)
    obtain ⟨hnn, hnd⟩ := List.nodup_cons.1 hn
    have hr := FileSystem.remove_of_file hi
    have hne : ∀ m ∈ names, child d.root m ≠ child d.root n := fun m hm h =>
      hnn (LocalCache.child_inj h ▸ hm)
    have hf' : ∀ m ∈ names, IsName m ∧ ∃ j, (FileSystem.mk (Function.update fs.entries (child d.root n) none)
        fs.data fs.nextIno).entries (child d.root m) = some (.file j) := fun m hm => by
      obtain ⟨h1, j, hj⟩ := hf m (.tail _ hm)
      exact ⟨h1, j, by simp [Function.update_noteq (hne m hm), hj]⟩
    obtain ⟨fs', hres, hv', hnone, hk⟩ := ih hnd hf' (hv.remove hr)
    refine ⟨fs', ?_, hv', fun m hm => ?_, fun q hq => ?_⟩
    · rw [removeEntries, join_name d.baseDir_ne hname]
      exact (congrArg (fun x => match x with
        | Except.ok fs' => d.removeEntries names fs'
        | Except.error e => (Except.error (ClearError.remove (child (clean d.baseDir) n) e), fs)) hr).trans hres
    · rcases List.mem_cons.1 hm with rfl | hm
      · rw [(hk _ fun m hm => (hne m hm).symm).1]
        simp
      · exact hnone m hm
    · exact (FileSystem.keeps_remove hr (hq n (.head _))).trans (hk q fun m hm => hq m (.tail _ hm))

/-- A `Clear` alone and without faults on a directory that stands for a map returns success and
leaves a directory that stands for the empty map. -/
theorem Inv.clear {fs fs' : FileSystem} {M : Bytes → Option PutCall} {r : Except ClearError Unit}
    (hi : Inv d fs M) (h : ClearRun d false (.start, fs) (.returned r, fs')) :
    r = .ok () ∧ Inv d fs' fun _ => none := by
  rcases Relation.ReflTransGen.cases_head h with heq | ⟨⟨pc1, fs1⟩, hs, hrest⟩
  · cases heq
  · cases hs with
    | listDir _ names _ hn hl =>
      have hf : ∀ n ∈ names, IsName n ∧ ∃ i, fs.entries (child d.root n) = some (.file i) :=
        fun n hm => by
          obtain ⟨hname, hne⟩ := (hl n).1 hm
          refine ⟨hname, ?_⟩
          rcases he : fs.entries (child d.root n) with _ | _ | i
          · exact absurd he hne
          · exact absurd he (hi.notDir n hname)
          · exact ⟨i, rfl⟩
      obtain ⟨fs'', hres, hv, hnone, hk⟩ := removeEntries_spec hn hf hi.valid
      rw [clearRun_removeEntries d hrest] at hres
      obtain ⟨rfl, rfl⟩ := Prod.mk.inj hres
      -- every name inside the directory is gone
      have gone : ∀ n, IsName n → fs'.entries (child d.root n) = none := fun n hname => by
        by_cases hm : n ∈ names
        · exact hnone n hm
        · rw [(hk _ fun m hm' h => hm (by rw [LocalCache.child_inj h]; exact hm')).1]
          by_contra hne
          exact hm ((hl n).2 ⟨hname, hne⟩)
      refine ⟨rfl, hv, ?_, fun n hn => by simp [gone n hn], ?_, fun a ha _ => ?_, fun _ _ h => by cases h⟩
      · rw [(hk _ fun m hm h => LocalCache.child_ne_self (hf m hm).1 h.symm).1]
        exact hi.root
      · rw [metadataPath_eq]; exact gone _ (metaName_isName [])
      · rw [actionIDToPath_of_ne d ha]; exact gone _ (LocalCache.encodeToString_isName ha)
    | listMissing _ h' => rw [hi.root] at h'; cases h'
    | listNotDir _ _ h' => rw [hi.root] at h'; cases h'
    | listFault _ _ hf => cases hf

end Clear

/-! ## Whole runs -/

/-- Over every sequential run without faults from an empty directory, the directory stands for
the map of the history, and every `Clear` has succeeded. -/
theorem seqRun_inv {d : Disk} {fs₀ fs : FileSystem} {h : List Event} (h0 : Empty d fs₀)
    (hr : SeqRun d fs₀ h fs) : Inv d fs (specStore h) ∧ ∀ r, Event.clear r ∈ h → r = .ok () := by
  induction hr with
  | nil => exact ⟨h0.inv, fun _ h => by cases h⟩
  | @put _ _ _ c _ _ hc ih =>
    obtain ⟨hi, hcl⟩ := ih
    have hp := putRun_putFrom d _ hc
    refine ⟨?_, fun r hm => ?_⟩
    · have := hi.put c
      rw [hp] at this
      simpa using this
    · rcases List.mem_append.1 hm with hm | hm
      · exact hcl r hm
      · simp at hm
  | get _ _ ih =>
    obtain ⟨hi, hcl⟩ := ih
    refine ⟨by simpa [Event.store] using hi, fun r hm => ?_⟩
    rcases List.mem_append.1 hm with hm | hm
    · exact hcl r hm
    · simp at hm
  | clear _ hc ih =>
    obtain ⟨hi, hcl⟩ := ih
    obtain ⟨rfl, hi'⟩ := hi.clear hc
    refine ⟨by simpa [Event.store] using hi', fun r hm => ?_⟩
    rcases List.mem_append.1 hm with hm | hm
    · exact hcl r hm
    · simp only [List.mem_singleton, Event.clear.injEq] at hm
      exact hm

/-- Over every sequential run of `Put`, `Get` and `Clear` calls from an empty base directory, each
call alone and without faults: every `Clear` succeeds, and a `Get(A)` returns a miss when `A` has
no entry in the map of the history, and otherwise the output id, path, size and time of the put
`c` that stored it, whose body file holds the bytes `c` copied, `bodySize` of them when `c`
copied the body and none when it did not. -/
theorem get_of_seqRun {d : Disk} {fs₀ fs : FileSystem} {h : List Event} (h0 : Empty d fs₀)
    (hr : SeqRun d fs₀ h fs) (a : Bytes) :
    (∀ r, Event.clear r ∈ h → r = .ok ()) ∧
      (∀ r, GetRun d false a fs .start (.returned r) → r = (specStore h a).map (PutCall.reply d)) ∧
      ∀ c, specStore h a = some c →
        fs.readFile (d.actionIDToPath a) = .ok c.copied ∧ c.CopiedLength := by
  obtain ⟨hi, hcl⟩ := seqRun_inv h0 hr
  refine ⟨hcl, fun r hg => ?_, fun c hc => ?_⟩
  · rw [← getRun_getFrom d hg, hi.getFrom]
  · obtain ⟨-, hl, hb, -⟩ := hi.hit a c hc
    exact ⟨hb, hl⟩

/-! ## On a new directory -/

/-- A backend in the directory `c`. -/
def sampleDisk : Disk := ⟨ascii "c", by decide, Process.sample⟩

/-- `Put([1], [1], body, bodySize)` at time 0. -/
def samplePut (body : Option Body) (bodySize : Int64) : PutCall := ⟨[1], [1], body, bodySize, Int64.zero⟩

/-- After one put, `Get([1])` hits. -/
theorem get_of_seqRun_samplePut :
    Empty sampleDisk sampleDisk.fresh ∧
      SeqRun sampleDisk sampleDisk.fresh
        [.put (samplePut (some ⟨ascii "aa", false⟩) (Int64.ofInt 2)) (.ok (sampleDisk.proc.abs (sampleDisk.actionIDToPath [1])))]
        (putFrom sampleDisk (samplePut (some ⟨ascii "aa", false⟩) (Int64.ofInt 2)) .start sampleDisk.fresh).2 ∧
      (∀ r, Event.clear r ∈ [Event.put (samplePut (some ⟨ascii "aa", false⟩) (Int64.ofInt 2))
          (.ok (sampleDisk.proc.abs (sampleDisk.actionIDToPath [1])))] → r = .ok ()) ∧
        (∀ r, GetRun sampleDisk false [1]
            (putFrom sampleDisk (samplePut (some ⟨ascii "aa", false⟩) (Int64.ofInt 2)) .start
              sampleDisk.fresh).2 .start (.returned r) →
          r = (specStore [.put (samplePut (some ⟨ascii "aa", false⟩) (Int64.ofInt 2))
            (.ok (sampleDisk.proc.abs (sampleDisk.actionIDToPath [1])))] [1]).map (PutCall.reply sampleDisk)) ∧
        ∀ c, specStore [.put (samplePut (some ⟨ascii "aa", false⟩) (Int64.ofInt 2))
            (.ok (sampleDisk.proc.abs (sampleDisk.actionIDToPath [1])))] [1] = some c →
          (putFrom sampleDisk (samplePut (some ⟨ascii "aa", false⟩) (Int64.ofInt 2)) .start
            sampleDisk.fresh).2.readFile (sampleDisk.actionIDToPath [1]) = .ok c.copied ∧
            c.CopiedLength := by
  have hrun : SeqRun sampleDisk sampleDisk.fresh
      [.put (samplePut (some ⟨ascii "aa", false⟩) (Int64.ofInt 2)) (.ok (sampleDisk.proc.abs (sampleDisk.actionIDToPath [1])))]
      (putFrom sampleDisk (samplePut (some ⟨ascii "aa", false⟩) (Int64.ofInt 2)) .start sampleDisk.fresh).2 :=
    .put .nil (putRun_exists sampleDisk _ .start sampleDisk.fresh)
  exact ⟨empty_fresh _, hrun, get_of_seqRun (empty_fresh _) hrun [1]⟩

/-- Two sequential runs on a new directory.  A put of `"aa"` with `bodySize` 2 is a hit; a
second put whose reader yields one byte fails the size check and removes the body file, and
`Get` then misses where before the failed put it hit.  A put with a nil reader and `bodySize` 5
succeeds, and `Get` then returns `Size` 5 for a file that holds nothing. -/
theorem put_failure_and_nil_body :
    (∃ fs1 fs2, SeqRun sampleDisk sampleDisk.fresh
        [.put (samplePut (some ⟨ascii "aa", false⟩) (Int64.ofInt 2)) (.ok (sampleDisk.proc.abs (sampleDisk.actionIDToPath [1])))]
        fs1 ∧
      GetRun sampleDisk false [1] fs1 .start
        (.returned (some ⟨[1], sampleDisk.proc.abs (sampleDisk.actionIDToPath [1]), Int64.ofInt 2, GoTime.ofUnix sampleDisk.proc.loc Int64.zero⟩)) ∧
      SeqRun sampleDisk sampleDisk.fresh
        [.put (samplePut (some ⟨ascii "aa", false⟩) (Int64.ofInt 2)) (.ok (sampleDisk.proc.abs (sampleDisk.actionIDToPath [1]))),
          .put (samplePut (some ⟨ascii "a", false⟩) (Int64.ofInt 2)) (.error (.sizeMismatch (Int64.ofInt 2) 1))]
        fs2 ∧
      GetRun sampleDisk false [1] fs2 .start (.returned none)) ∧
    ∃ fs3, SeqRun sampleDisk sampleDisk.fresh
        [.put (samplePut none (Int64.ofInt 5)) (.ok (sampleDisk.proc.abs (sampleDisk.actionIDToPath [1])))] fs3 ∧
      GetRun sampleDisk false [1] fs3 .start
        (.returned (some ⟨[1], sampleDisk.proc.abs (sampleDisk.actionIDToPath [1]), Int64.ofInt 5, GoTime.ofUnix sampleDisk.proc.loc Int64.zero⟩)) ∧
      fs3.readFile (sampleDisk.actionIDToPath [1]) = .ok [] := by
  have run1 : SeqRun sampleDisk sampleDisk.fresh
      [.put (samplePut (some ⟨ascii "aa", false⟩) (Int64.ofInt 2)) (.ok (sampleDisk.proc.abs (sampleDisk.actionIDToPath [1])))] _ :=
    .put .nil (putRun_exists sampleDisk _ .start sampleDisk.fresh)
  have run2 : SeqRun sampleDisk sampleDisk.fresh
      [.put (samplePut (some ⟨ascii "aa", false⟩) (Int64.ofInt 2)) (.ok (sampleDisk.proc.abs (sampleDisk.actionIDToPath [1]))),
        .put (samplePut (some ⟨ascii "a", false⟩) (Int64.ofInt 2)) (.error (.sizeMismatch (Int64.ofInt 2) 1))] _ :=
    .put run1 (putRun_exists sampleDisk _ .start _)
  have run3 : SeqRun sampleDisk sampleDisk.fresh
      [.put (samplePut none (Int64.ofInt 5)) (.ok (sampleDisk.proc.abs (sampleDisk.actionIDToPath [1])))] _ :=
    .put .nil (putRun_exists sampleDisk _ .start sampleDisk.fresh)
  have get : ∀ {h fs}, SeqRun sampleDisk sampleDisk.fresh h fs →
      GetRun sampleDisk false [1] fs .start (.returned ((specStore h [1]).map (PutCall.reply sampleDisk))) :=
    fun hr => (seqRun_inv (empty_fresh _) hr).1.getFrom [1] ▸ getRun_exists sampleDisk [1] .start _
  refine ⟨⟨_, _, run1, get run1, run2, get run2⟩, _, run3, get run3, ?_⟩
  exact ((seqRun_inv (empty_fresh _) run3).1.hit [1] (samplePut none (Int64.ofInt 5))
    (by simp [specStore, Event.store, samplePut])).2.2.1

end Disk

end GoBuildCache
