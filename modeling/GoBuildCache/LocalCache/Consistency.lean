import GoBuildCache.LocalCache.Write

/-!
# Body and sidecar of an entry, over sequences of calls

`WriteWithMetadata(A, body, m)` renames the body into place first and writes the sidecar after,
and a failure of `writeMetadata` is only logged.  So when a call renames its body and then does
not get its sidecar renamed (a failed `WriteFile` or `Rename`, or a process that stops between
the two renames), the entry pairs the new body with the sidecar of an earlier call, and `Check`
returns that older metadata.

This module runs calls one after another (`SeqRun`), each from its start until it returns or its
process stops (`CallRun`), with every failure of `writeStep` allowed.  A ghost record `Ghost`
follows what the file system does not say: for each action id, the body and metadata of the last
call that renamed a sidecar (`lastMeta`), and whether that call is also the last call that
renamed a body (`paired`).  The ghost is a function of the steps (`Ghost.record`), so it adds no
behaviour.

* `Inv` is the invariant between calls, `PcInv` what holds inside a call at each program counter,
  and `inv_step` the step lemma; `callRun_inv` and `seqRun_inv` carry them over whole runs.
* `check_stale_sidecar` is a run where `Check` pairs the metadata of one call with the body of a
  later call whose sidecar write failed.
* `check_of_seqRun` is what does hold: `Check` returns the metadata of the last call that renamed
  a sidecar, and the body of that same call is in place whenever no later call renamed a body.
-/

namespace GoBuildCache

namespace LocalCache

open Os

/-! ## The ghost record and the runs -/

/-- What the last calls on each action id did. -/
structure Ghost where
  /-- The body and metadata of the last call that renamed a sidecar. -/
  lastMeta : Bytes → Option (Bytes × Metadata)
  /-- The last call that renamed a sidecar is also the last call that renamed a body. -/
  paired : Bytes → Bool

/-- Nothing has been written. -/
def Ghost.empty : Ghost := ⟨fun _ => none, fun _ => false⟩

/-- The ghost record of a step of call `c` from `pc` to `pc'`: a body rename unpairs the action
id, and a sidecar rename records the call and pairs it. -/
def Ghost.record (g : Ghost) (c : Call) : WritePc → WritePc → Ghost
  | .renaming _, .cleanup _ (.ok _) => { g with paired := Function.update g.paired c.actionID false }
  | .renamingMeta _, .returned _ =>
    match c.meta with
    | some m =>
      { lastMeta := Function.update g.lastMeta c.actionID (some (c.body, m))
        paired := Function.update g.paired c.actionID true }
    | none => g
  | _, _ => g

/-- A call run step by step from `pc₀`; it may stop at any point. -/
inductive CallRun (lc : LocalCache) (c : Call) (pc₀ : WritePc) (fs₀ : FileSystem) (g₀ : Ghost) :
    WritePc → FileSystem → Ghost → Prop
  | refl : CallRun lc c pc₀ fs₀ g₀ pc₀ fs₀ g₀
  | step {pc pc' : WritePc} {fs fs' : FileSystem} {g : Ghost} :
      CallRun lc c pc₀ fs₀ g₀ pc fs g → writeStep lc c pc fs pc' fs' →
        CallRun lc c pc₀ fs₀ g₀ pc' fs' (g.record c pc pc')

/-- Calls one after another, each run from its start until it returns or its process stops. -/
inductive SeqRun (lc : LocalCache) (fs₀ : FileSystem) (g₀ : Ghost) : FileSystem → Ghost → Prop
  | refl : SeqRun lc fs₀ g₀ fs₀ g₀
  | call {fs fs' : FileSystem} {g g' : Ghost} (c : Call) (pc : WritePc) :
      SeqRun lc fs₀ g₀ fs g → CallRun lc c .start fs g pc fs' g' → SeqRun lc fs₀ g₀ fs' g'

/-! ## The invariant -/

/-- What reading the sidecar of `a` gives when the ghost says `g`. -/
def sidecarOf (g : Ghost) (a : Bytes) : Except Errno Bytes :=
  match g.lastMeta a with
  | some (_, m) => .ok (formatMetadata m)
  | none => .error .enoent

/-- The invariant between calls: the sidecar of each action id is the one the ghost recorded,
and when the ghost says paired, the body is that call's body. -/
structure Inv (lc : LocalCache) (fs : FileSystem) (g : Ghost) : Prop where
  valid : fs.Valid
  meta_eq : ∀ a, fs.readFile (lc.metadataPath a) = sidecarOf g a
  body_eq : ∀ a b m, g.lastMeta a = some (b, m) → g.paired a = true →
    fs.readFile (lc.actionIDToPath a) = .ok b

/-- A temporary file of `Write`. -/
def IsTemp (lc : LocalCache) (tmp : Bytes) : Prop := ∃ n, tmp = lc.tempPath n

/-- What holds inside a call at each program counter. -/
def PcInv (lc : LocalCache) (c : Call) : WritePc → FileSystem → Prop
  | .start, _ => True
  | .copying tmp i rest, fs =>
    IsTemp lc tmp ∧ fs.entries tmp = some (.file i) ∧ fs.data i ++ rest = c.body
  | .closing tmp i none, fs => IsTemp lc tmp ∧ fs.entries tmp = some (.file i) ∧ fs.data i = c.body
  | .closing tmp _ (some _), _ => IsTemp lc tmp
  | .renaming tmp, fs => IsTemp lc tmp ∧ ∃ i, fs.entries tmp = some (.file i) ∧ fs.data i = c.body
  | .cleanup tmp (.ok p), fs =>
    IsTemp lc tmp ∧ p = lc.proc.abs (lc.actionIDToPath c.actionID) ∧
      fs.readFile (lc.actionIDToPath c.actionID) = .ok c.body
  | .cleanup tmp (.error _), _ => IsTemp lc tmp
  | .writingMeta p, fs =>
    p = lc.proc.abs (lc.actionIDToPath c.actionID) ∧ fs.readFile (lc.actionIDToPath c.actionID) = .ok c.body
  | .renamingMeta p, fs =>
    p = lc.proc.abs (lc.actionIDToPath c.actionID) ∧ fs.readFile (lc.actionIDToPath c.actionID) = .ok c.body ∧
    ∃ m, c.meta = some m ∧ fs.readFile (lc.metadataTmpPath c.actionID) = .ok (formatMetadata m)
  | .removingMetaTmp _, _ => True
  | .returned _, _ => True

section Frames

variable {lc : LocalCache}

theorem temp_ne_meta {tmp : Bytes} (ht : IsTemp lc tmp) (a : Bytes) : lc.metadataPath a ≠ tmp := by
  obtain ⟨n, rfl⟩ := ht
  exact lc.place_ne (show Place.meta a ≠ .temp n by simp)

theorem temp_ne_body {tmp : Bytes} (ht : IsTemp lc tmp) (a : Bytes) : lc.actionIDToPath a ≠ tmp := by
  obtain ⟨n, rfl⟩ := ht
  exact lc.place_ne (show Place.body a ≠ .temp n by simp)

theorem body_ne_meta (a b : Bytes) : lc.metadataPath a ≠ lc.actionIDToPath b :=
  lc.place_ne (show Place.meta a ≠ .body b by simp)

theorem metaTmp_ne_meta (a b : Bytes) : lc.metadataPath a ≠ lc.metadataTmpPath b :=
  lc.place_ne (show Place.meta a ≠ .metaTmp b by simp)

theorem metaTmp_ne_body (a b : Bytes) : lc.actionIDToPath a ≠ lc.metadataTmpPath b :=
  lc.place_ne (show Place.body a ≠ .metaTmp b by simp)

theorem body_ne_body {a b : Bytes} (h : a ≠ b) : lc.actionIDToPath a ≠ lc.actionIDToPath b :=
  lc.place_ne (show Place.body a ≠ .body b by simpa using h)

theorem meta_ne_meta {a b : Bytes} (h : a ≠ b) : lc.metadataPath a ≠ lc.metadataPath b :=
  lc.place_ne (show Place.meta a ≠ .meta b by simpa using h)

/-- A step that only changes files other than the entries' bodies and sidecars keeps the
invariant. -/
theorem Inv.frame {fs fs' : FileSystem} {g : Ghost} (hi : Inv lc fs g) (hv : fs'.Valid)
    (hm : ∀ a, fs'.readFile (lc.metadataPath a) = fs.readFile (lc.metadataPath a))
    (hb : ∀ a, fs'.readFile (lc.actionIDToPath a) = fs.readFile (lc.actionIDToPath a)) :
    Inv lc fs' g :=
  ⟨hv, fun a => (hm a).trans (hi.meta_eq a), fun a b m h1 h2 => (hb a).trans (hi.body_eq a b m h1 h2)⟩

/-- A write to the inode of a temporary file changes no entry. -/
theorem Inv.write_temp {fs : FileSystem} {g : Ghost} (hi : Inv lc fs g) {tmp : Bytes} {i : Nat}
    (ht : IsTemp lc tmp) (he : fs.entries tmp = some (.file i)) (bs : Bytes) :
    Inv lc (fs.write i bs) g := by
  have hq : ∀ q, q ≠ tmp → fs.entries q ≠ some (.file i) := fun q hq h' =>
    hq (hi.valid.2 q tmp i h' he)
  exact hi.frame (hi.valid.write i bs)
    (fun a => FileSystem.readFile_write_other (hq _ (temp_ne_meta ht a)) bs)
    (fun a => FileSystem.readFile_write_other (hq _ (temp_ne_body ht a)) bs)

theorem Inv.remove_other {fs fs' : FileSystem} {g : Ghost} (hi : Inv lc fs g) {p : Bytes}
    (h : fs.remove p = .ok fs') (hm : ∀ a, lc.metadataPath a ≠ p) (hb : ∀ a, lc.actionIDToPath a ≠ p) :
    Inv lc fs' g :=
  hi.frame (hi.valid.remove h) (fun a => FileSystem.readFile_remove_other h (hm a))
    (fun a => FileSystem.readFile_remove_other h (hb a))

theorem Inv.writeFile_metaTmp {fs fs' : FileSystem} {g : Ghost} (hi : Inv lc fs g) {a : Bytes}
    {bs : Bytes} (h : fs.writeFile (lc.metadataTmpPath a) bs = .ok fs') : Inv lc fs' g :=
  hi.frame (hi.valid.writeFile h)
    (fun b => FileSystem.readFile_writeFile_other hi.valid h (metaTmp_ne_meta b a))
    (fun b => FileSystem.readFile_writeFile_other hi.valid h (metaTmp_ne_body b a))

end Frames

/-! ## One step, one call, a sequence of calls -/

section Steps

variable {lc : LocalCache} {c : Call}

theorem PcInv.cleanup_isTemp {tmp : Bytes} {r : Except WriteError Bytes} {fs : FileSystem}
    (hp : PcInv lc c (.cleanup tmp r) fs) : IsTemp lc tmp := by
  cases r
  · exact hp
  · exact hp.1

/-- After the deferred `os.Remove`, a call that goes on to `writeMetadata` still finds its body in
place. -/
theorem PcInv.afterWrite {tmp : Bytes} {r : Except WriteError Bytes} {fs fs' : FileSystem}
    (hp : PcInv lc c (.cleanup tmp r) fs)
    (hb : fs'.readFile (lc.actionIDToPath c.actionID) = fs.readFile (lc.actionIDToPath c.actionID)) :
    PcInv lc c (c.afterWrite r) fs' := by
  unfold Call.afterWrite
  split
  · obtain ⟨-, rfl, hr⟩ := hp
    exact ⟨rfl, hb.trans hr⟩
  · trivial

/-- The step lemma: every step of a call keeps the invariant and moves the call's own facts
along. -/
theorem inv_step {pc pc' : WritePc} {fs fs' : FileSystem} {g : Ghost} (hi : Inv lc fs g)
    (hp : PcInv lc c pc fs) (hs : writeStep lc c pc fs pc' fs') :
    Inv lc fs' (g.record c pc pc') ∧ PcInv lc c pc' fs' := by
  cases hs with
  | createTemp fs fs' n ino h =>
    obtain ⟨hfree, rfl, rfl⟩ := FileSystem.createExcl_ok h
    have ht : IsTemp lc (lc.tempPath n) := ⟨n, rfl⟩
    exact ⟨hi.frame (hi.valid.link hfree)
      (fun a => FileSystem.readFile_link_other hi.valid (temp_ne_meta ht a))
      (fun a => FileSystem.readFile_link_other hi.valid (temp_ne_body ht a)), ht, by simp, by simp⟩
  | createTempFail fs e => exact ⟨hi, trivial⟩
  | copyChunk fs tmp ino rest k hk =>
    obtain ⟨ht, he, hd⟩ := hp
    refine ⟨hi.write_temp ht he _, ht, he, ?_⟩
    rw [FileSystem.write_data, Function.update_same, List.append_assoc, List.take_append_drop, hd]
  | copyDone fs tmp ino =>
    obtain ⟨ht, he, hd⟩ := hp
    exact ⟨hi, ht, he, by simpa using hd⟩
  | copyFail fs tmp ino rest k e => exact ⟨hi.write_temp hp.1 hp.2.1 _, hp.1⟩
  | closeOk fs tmp ino =>
    obtain ⟨ht, he, hd⟩ := hp
    exact ⟨hi, ht, ino, he, hd⟩
  | closeFail fs tmp ino e => exact ⟨hi, hp.1⟩
  | closeAfterCopyFail fs tmp ino e => exact ⟨hi, hp⟩
  | renameOk fs fs' tmp h =>
    obtain ⟨ht, i, he, hd⟩ := hp
    refine ⟨⟨hi.valid.rename h, fun a => ?_, fun a b m h1 h2 => ?_⟩, ht, rfl, ?_⟩
    · rw [FileSystem.readFile_rename_other h (temp_ne_meta ht a) (body_ne_meta a _)]
      exact hi.meta_eq a
    · simp only [Ghost.record] at h1 h2
      by_cases ha : a = c.actionID
      · subst ha; simp at h2
      · rw [Function.update_noteq ha] at h2
        rw [FileSystem.readFile_rename_other h (temp_ne_body ht a) (body_ne_body ha)]
        exact hi.body_eq a b m h1 h2
    · rw [FileSystem.readFile_rename h]
      simp [FileSystem.readFile, he, hd]
  | renameFail fs tmp e => exact ⟨hi, hp.1⟩
  | cleanupRemove fs fs' tmp r h =>
    have ht := hp.cleanup_isTemp
    exact ⟨hi.remove_other h (temp_ne_meta ht) (temp_ne_body ht),
      hp.afterWrite (FileSystem.readFile_remove_other h (temp_ne_body ht _))⟩
  | cleanupFail fs tmp r => exact ⟨hi, hp.afterWrite rfl⟩
  | metaWriteOk fs fs' path m hm h =>
    obtain ⟨rfl, hr⟩ := hp
    exact ⟨hi.writeFile_metaTmp h, rfl,
      (FileSystem.readFile_writeFile_other hi.valid h (metaTmp_ne_body _ _)).trans hr, m, hm,
      FileSystem.readFile_writeFile h⟩
  | metaOpenFail fs path => exact ⟨hi, trivial⟩
  | metaWriteFail fs fs' path m k hm h => exact ⟨hi.writeFile_metaTmp h, trivial⟩
  | metaRenameOk fs fs' path h =>
    obtain ⟨rfl, hr, m, hm, hmt⟩ := hp
    have hbody : fs'.readFile (lc.actionIDToPath c.actionID) = .ok c.body :=
      (FileSystem.readFile_rename_other h (metaTmp_ne_body _ _) (body_ne_meta _ _).symm).trans hr
    refine ⟨⟨hi.valid.rename h, fun a => ?_, fun a b m' h1 h2 => ?_⟩, trivial⟩
    · by_cases ha : a = c.actionID
      · subst ha
        simp only [Ghost.record, hm, sidecarOf, Function.update_same]
        exact (FileSystem.readFile_rename h).trans hmt
      · simp only [Ghost.record, hm, sidecarOf, Function.update_noteq ha]
        rw [FileSystem.readFile_rename_other h (metaTmp_ne_meta a _) (meta_ne_meta ha)]
        exact hi.meta_eq a
    · by_cases ha : a = c.actionID
      · subst ha
        simp only [Ghost.record, hm, Function.update_same, Option.some.injEq, Prod.mk.injEq] at h1
        rw [← h1.1]
        exact hbody
      · simp only [Ghost.record, hm, Function.update_noteq ha] at h1 h2
        rw [FileSystem.readFile_rename_other h (metaTmp_ne_body a _) (body_ne_meta _ _).symm]
        exact hi.body_eq a b m' h1 h2
  | metaRenameFail fs path => exact ⟨hi, trivial⟩
  | metaRemove fs fs' path h =>
    exact ⟨hi.remove_other h (fun a => metaTmp_ne_meta a _) (fun a => metaTmp_ne_body a _), trivial⟩
  | metaRemoveFail fs path => exact ⟨hi, trivial⟩

/-- The run lemma of one call. -/
theorem callRun_inv {pc₀ pc : WritePc} {fs₀ fs : FileSystem} {g₀ g : Ghost}
    (h : CallRun lc c pc₀ fs₀ g₀ pc fs g) (hi : Inv lc fs₀ g₀) (hp : PcInv lc c pc₀ fs₀) :
    Inv lc fs g ∧ PcInv lc c pc fs := by
  induction h with
  | refl => exact ⟨hi, hp⟩
  | step _ hs ih => exact inv_step ih.1 ih.2 hs

end Steps

/-- The run lemma of a sequence of calls. -/
theorem seqRun_inv {lc : LocalCache} {fs₀ fs : FileSystem} {g₀ g : Ghost}
    (h : SeqRun lc fs₀ g₀ fs g) (hi : Inv lc fs₀ g₀) : Inv lc fs g := by
  induction h with
  | refl => exact hi
  | call c pc _ hc ih => exact (callRun_inv hc ih trivial).1

/-- A new cache satisfies the invariant. -/
theorem inv_fresh (lc : LocalCache) : Inv lc lc.fresh Ghost.empty := by
  have hdir : ∀ p i, lc.fresh.entries p ≠ some (.file i) := by
    intro p i
    by_cases hp : p = lc.root <;> simp [fresh, hp]
  refine ⟨⟨fun p i h => absurd h (hdir p i), fun p _ i h => absurd h (hdir p i)⟩, fun a => ?_,
    fun a b m h => by cases h⟩
  have hne : lc.metadataPath a ≠ lc.root := lc.actionIDToPath_nil ▸ body_ne_meta a []
  simp [FileSystem.readFile, fresh, hne, sidecarOf, Ghost.empty]

/-! ## What `Check` returns -/

/-- Over every sequence of `Write` and `WriteWithMetadata` calls, each run alone until it returns
or its process stops, with any step failing: when `Check(A)` returns `m'`, `m'` is the
metadata `m` of the last call on `A` that renamed a sidecar (time cut to whole seconds), and
when that call is also the last call on `A` that renamed a body, `ROOT/hex(A)` holds exactly the
body passed with `m`. -/
theorem check_of_seqRun {lc : LocalCache} {fs : FileSystem} {g : Ghost}
    (h : SeqRun lc lc.fresh Ghost.empty fs g) {a : Bytes} {m' : Metadata}
    (hc : check lc fs a = some m') :
    ∃ b m, g.lastMeta a = some (b, m) ∧ m' = m.truncate lc.proc.loc ∧
      (g.paired a = true → fs.readFile (lc.actionIDToPath a) = .ok b) := by
  have hi := seqRun_inv h (inv_fresh lc)
  unfold check at hc
  split at hc
  · rw [readMetadata, hi.meta_eq a] at hc
    unfold sidecarOf at hc
    rcases hl : g.lastMeta a with _ | ⟨b, m⟩ <;> rw [hl] at hc
    · cases hc
    · refine ⟨b, m, rfl, ?_, hi.body_eq a b m hl⟩
      simp only [parseMetadata_formatMetadata] at hc
      split_ifs at hc
      · cases hc
      · exact (Option.some.inj hc).symm
  · cases hc

/-- A cache where one call of `WriteWithMetadata` ran to the end: `Check` returns its metadata,
and the theorem above holds of it. -/
theorem check_of_seqRun_one_call :
    ∃ (lc : LocalCache) (fs : FileSystem) (g : Ghost) (m' : Metadata),
      SeqRun lc lc.fresh Ghost.empty fs g ∧ check lc fs [1] = some m' ∧
        ∃ b m, g.lastMeta [1] = some (b, m) ∧ m' = m.truncate lc.proc.loc ∧
          (g.paired [1] = true → fs.readFile (lc.actionIDToPath [1]) = .ok b) := by
  let lc : LocalCache := ⟨ascii "c", by decide, Process.sample⟩
  let c : Call := ⟨[1], ascii "hello", some ⟨[1], Int64.ofInt 5, GoTime.ofUnix (fun _ => 0) Int64.zero⟩⟩
  have hrun : SeqRun lc lc.fresh Ghost.empty _ _ :=
    .call c (.returned (.ok (lc.proc.abs (lc.actionIDToPath [1])))) .refl
      (.step (.step (.step (.step (.step (.step (.step (.step .refl
        (.createTemp _ _ 0 _ (FileSystem.createExcl_of_free (by decide))))
        (.copyChunk _ _ _ _ 5 (by decide)))
        (.copyDone _ _ _))
        (.closeOk _ _ _))
        (.renameOk _ _ _ (FileSystem.rename_of_file (i := 0) (by decide) (by decide) (by decide))))
        (.cleanupFail _ _ _))
        (.metaWriteOk _ _ _ _ rfl (FileSystem.writeFile_of_free (by decide) _)))
        (.metaRenameOk _ _ _ (FileSystem.rename_of_file (i := 1) (by decide) (by decide) (by decide))))
  refine ⟨lc, _, _, ⟨[1], Int64.ofInt 5, GoTime.ofUnix (fun _ => 0) Int64.zero⟩, hrun, ?hc,
    check_of_seqRun hrun ?hc⟩
  decide

/-- `Check` pairs a sidecar with the body of a later call.  `WriteWithMetadata(A, "hello", m₁)`
with `m₁.Size = 5` runs to the end; `WriteWithMetadata(A, "hi", m₂)` with `m₂.Size = 2` renames
its body into place, then `os.WriteFile` of the sidecar fails and the call still succeeds.
`Check(A)` returns `m₁` while `ROOT/hex(A)` holds the two bytes `hi`. -/
theorem check_stale_sidecar :
    ∃ (lc : LocalCache) (fs : FileSystem) (g : Ghost), SeqRun lc lc.fresh Ghost.empty fs g ∧
      check lc fs [1] = some ⟨[1], Int64.ofInt 5, GoTime.ofUnix lc.proc.loc Int64.zero⟩ ∧
      fs.readFile (lc.actionIDToPath [1]) = .ok (ascii "hi") := by
  let lc : LocalCache := ⟨ascii "c", by decide, Process.sample⟩
  let c₁ : Call := ⟨[1], ascii "hello", some ⟨[1], Int64.ofInt 5, GoTime.ofUnix (fun _ => 0) Int64.zero⟩⟩
  let c₂ : Call := ⟨[1], ascii "hi", some ⟨[2], Int64.ofInt 2, GoTime.ofUnix (fun _ => 0) Int64.zero⟩⟩
  have hrun : SeqRun lc lc.fresh Ghost.empty _ _ :=
    .call c₂ (.returned (.ok (lc.proc.abs (lc.actionIDToPath [1]))))
      (.call c₁ (.returned (.ok (lc.proc.abs (lc.actionIDToPath [1])))) .refl
        (.step (.step (.step (.step (.step (.step (.step (.step .refl
          (.createTemp _ _ 0 _ (FileSystem.createExcl_of_free (by decide))))
          (.copyChunk _ _ _ _ 5 (by decide)))
          (.copyDone _ _ _))
          (.closeOk _ _ _))
          (.renameOk _ _ _ (FileSystem.rename_of_file (i := 0) (by decide) (by decide) (by decide))))
          (.cleanupFail _ _ _))
          (.metaWriteOk _ _ _ _ rfl (FileSystem.writeFile_of_free (by decide) _)))
          (.metaRenameOk _ _ _ (FileSystem.rename_of_file (i := 1) (by decide) (by decide) (by decide)))))
      (.step (.step (.step (.step (.step (.step (.step .refl
        (.createTemp _ _ 0 _ (FileSystem.createExcl_of_free (by decide))))
        (.copyChunk _ _ _ _ 2 (by decide)))
        (.copyDone _ _ _))
        (.closeOk _ _ _))
        (.renameOk _ _ _ (FileSystem.rename_of_file (i := 2) (by decide) (by decide) (by decide))))
        (.cleanupFail _ _ _))
        (.metaOpenFail _ _))
  exact ⟨lc, _, _, hrun, by decide, rfl⟩

end LocalCache

end GoBuildCache
