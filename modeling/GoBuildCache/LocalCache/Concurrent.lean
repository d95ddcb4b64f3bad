import GoBuildCache.LocalCache.Consistency
import Mathlib.Logic.Relation

/-!
# Concurrent calls of `Write` on one cache directory

Several processes, or several goroutines of one, may call `Write` and `WriteWithMetadata` on the
same cache directory at once.  A `World` is the shared file system and every call started on it,
each with its own program counter; a `worldStep` starts a call or runs one step of any call, so
the runs of `worldStep` are all the interleavings.  Readers read a path at any instant: a read is
`readFile` in some reachable world.

`Write` renames its temporary file into place, so a reader of `ROOT/hex(A)` sees whole files only.
But the deferred `os.Remove(tmpPath)` runs also after the rename has succeeded, when the name
`tmpPath` is free again and `os.CreateTemp` of another call may have taken it.  The remove then
unlinks the other call's temporary file, a third call can create the name once more, and the
second call renames the third call's half-written file into place.

* `write_removes_other_call_temp` is the first half, on two calls: the remove of one call
  unlinks the temporary file the other holds, whose rename can then only fail.  Both runs start
  from `reachable_reusedWorld`.
* `write_reused_temp_name_tears_body` is that interleaving of three calls.
* `TempsDistinct` says that no two calls in flight hold the same temporary name.  Over every run
  in which that holds after each step, `read_body_of_distinctRun` proves what the atomic rename
  is for: `ROOT/hex(A)` holds what it held before the calls, or the whole body of a `Write(A)`
  that renamed it into place.  The proof is a world invariant `WInv` kept by each step
  (`wInv_step`), built on what one call's step keeps of every path it does not name
  (`writeStep_keeps`).
-/

namespace GoBuildCache

namespace LocalCache

open Os

/-! ## The world and its steps -/

/-- A call in flight. -/
structure Thread where
  call : Call
  pc : WritePc

/-- The shared file system and every call started on it, in the order they started. -/
structure World where
  fs : FileSystem
  threads : List Thread

/-- One step of the world: a process starts a call, or one call takes one step. -/
inductive worldStep (lc : LocalCache) : World → World → Prop
  /-- A process calls `Write` or `WriteWithMetadata`. -/
  | spawn (w : World) (c : Call) : worldStep lc w ⟨w.fs, w.threads ++ [⟨c, .start⟩]⟩
  /-- Call `i` takes a step. -/
  | step (w : World) (i : Nat) (t : Thread) (pc' : WritePc) (fs' : FileSystem)
      (ht : w.threads[i]? = some t) (h : writeStep lc t.call t.pc w.fs pc' fs') :
      worldStep lc w ⟨fs', w.threads.set i ⟨t.call, pc'⟩⟩

/-- The worlds some interleaving reaches. -/
def Reachable (lc : LocalCache) : World → World → Prop := Relation.ReflTransGen (worldStep lc)

/-! ## A reused temporary name -/

/-- A cache in the directory `c`, for the runs below. -/
def sampleCache : LocalCache := ⟨ascii "c", by decide, Process.sample⟩

/-- `Write(A, "aa")`. -/
def sampleCallA : Call := ⟨[1], ascii "aa", none⟩

/-- `Write(B, "bb")`. -/
def sampleCallB : Call := ⟨[2], ascii "bb", none⟩

/-- `Write(C, "cccc")`. -/
def sampleCallC : Call := ⟨[3], ascii "cccc", none⟩

/-- The file system after `Write(A, "aa")` has renamed `.tmp-0` to `ROOT/01` and `Write(B, "bb")`
has created `.tmp-0` again and written its body into it. -/
def reusedFs : FileSystem :=
  ((((sampleCache.fresh.link (sampleCache.tempPath 0)).1.write 0 (ascii "aa")).move
    (sampleCache.tempPath 0) (sampleCache.actionIDToPath [1]) 0).link
      (sampleCache.tempPath 0)).1.write 1 (ascii "bb")

/-- `Write(A)` before its deferred `os.Remove`, and `Write(B)` before its rename, both of
`.tmp-0`. -/
def reusedWorld : World :=
  ⟨reusedFs, [⟨sampleCallA, .cleanup (sampleCache.tempPath 0) (.ok (sampleCache.proc.abs (sampleCache.actionIDToPath [1])))⟩,
    ⟨sampleCallB, .renaming (sampleCache.tempPath 0)⟩]⟩

/-- `Write(A, "aa")` runs up to its deferred `os.Remove`; `Write(B, "bb")` then finds `.tmp-0`
free, creates it, copies and closes. -/
theorem reachable_reusedWorld : Reachable sampleCache ⟨sampleCache.fresh, []⟩ reusedWorld :=
  .tail (.tail (.tail (.tail (.tail (.tail (.tail (.tail (.tail (.tail (.tail .refl
    (.spawn _ sampleCallA))
    (.spawn _ sampleCallB))
    (.step _ 0 ⟨sampleCallA, .start⟩ _ _ rfl
      (.createTemp _ _ 0 _ (FileSystem.createExcl_of_free (by decide)))))
    (.step _ 0 ⟨sampleCallA, .copying (sampleCache.tempPath 0) 0 sampleCallA.body⟩ _ _ rfl
      (.copyChunk _ _ _ _ 2 (by decide))))
    (.step _ 0 ⟨sampleCallA, .copying (sampleCache.tempPath 0) 0 []⟩ _ _ rfl (.copyDone _ _ _)))
    (.step _ 0 ⟨sampleCallA, .closing (sampleCache.tempPath 0) 0 none⟩ _ _ rfl (.closeOk _ _ _)))
    (.step _ 0 ⟨sampleCallA, .renaming (sampleCache.tempPath 0)⟩ _ _ rfl
      (.renameOk _ _ _ (FileSystem.rename_of_file (i := 0) (by decide) (by decide) (by decide)))))
    (.step _ 1 ⟨sampleCallB, .start⟩ _ _ rfl
      (.createTemp _ _ 0 _ (FileSystem.createExcl_of_free (by decide)))))
    (.step _ 1 ⟨sampleCallB, .copying (sampleCache.tempPath 0) 1 sampleCallB.body⟩ _ _ rfl
      (.copyChunk _ _ _ _ 2 (by decide))))
    (.step _ 1 ⟨sampleCallB, .copying (sampleCache.tempPath 0) 1 []⟩ _ _ rfl (.copyDone _ _ _)))
    (.step _ 1 ⟨sampleCallB, .closing (sampleCache.tempPath 0) 1 none⟩ _ _ rfl (.closeOk _ _ _))

/-- Three calls on a new cache: `Write(A, "aa")`, `Write(B, "bb")` and `Write(C, "cccc")`.  The
first renames `.tmp-0` into place, the second then creates `.tmp-0` again, and the first's
deferred `os.Remove` unlinks it.  The third creates `.tmp-0` and writes `"cc"`, and the second
renames that file to `ROOT/hex(B)`.  A reader of `ROOT/hex(B)` then gets `"cc"`: not what the
path held before (no file), and not the body of the one `Write(B)`. -/
theorem write_reused_temp_name_tears_body :
    ∃ (lc : LocalCache) (w : World), Reachable lc ⟨lc.fresh, []⟩ w ∧
      lc.fresh.readFile (lc.actionIDToPath [2]) = .error .enoent ∧
      (w.threads.filter (fun t => t.call.actionID = [2])).map (fun t => t.call.body) =
        [ascii "bb"] ∧
      w.fs.readFile (lc.actionIDToPath [2]) = .ok (ascii "cc") := by
  have hrun : Relation.ReflTransGen (worldStep sampleCache) ⟨sampleCache.fresh, []⟩ _ :=
    .tail (.tail (.tail (.tail (.tail reachable_reusedWorld
      (.step _ 0 ⟨sampleCallA, .cleanup (sampleCache.tempPath 0) (.ok (sampleCache.proc.abs (sampleCache.actionIDToPath [1])))⟩
        _ _ rfl (.cleanupRemove _ _ _ _ (FileSystem.remove_of_file (i := 1) (by decide)))))
      (.spawn _ sampleCallC))
      (.step _ 2 ⟨sampleCallC, .start⟩ _ _ rfl
        (.createTemp _ _ 0 _ (FileSystem.createExcl_of_free (by decide)))))
      (.step _ 2 ⟨sampleCallC, .copying (sampleCache.tempPath 0) 2 sampleCallC.body⟩ _ _ rfl
        (.copyChunk _ _ _ _ 2 (by decide))))
      (.step _ 1 ⟨sampleCallB, .renaming (sampleCache.tempPath 0)⟩ _ _ rfl
        (.renameOk _ _ _ (FileSystem.rename_of_file (i := 2) (by decide) (by decide) (by decide))))
  exact ⟨sampleCache, _, hrun, rfl, by decide, rfl⟩

/-- `Write(A)`'s deferred `os.Remove(tmpPath)` removes the temporary file that `Write(B)` created
and filled under the same name, while `Write(B)` still holds it; `Write(B)`, whose create, copy
and close have succeeded, then has no rename that succeeds. -/
theorem write_removes_other_call_temp :
    Reachable sampleCache ⟨sampleCache.fresh, []⟩ reusedWorld ∧
      reusedWorld.fs.readFile (sampleCache.tempPath 0) = .ok sampleCallB.body ∧
      ∃ w', worldStep sampleCache reusedWorld w' ∧
        w'.threads = [⟨sampleCallA, .returned (.ok (sampleCache.proc.abs (sampleCache.actionIDToPath [1])))⟩,
          ⟨sampleCallB, .renaming (sampleCache.tempPath 0)⟩] ∧
        w'.fs.readFile (sampleCache.tempPath 0) = .error .enoent ∧
        ∀ pc' fs', writeStep sampleCache sampleCallB (.renaming (sampleCache.tempPath 0)) w'.fs pc' fs' →
          ∃ e, pc' = .cleanup (sampleCache.tempPath 0) (.error (.rename e)) := by
  refine ⟨reachable_reusedWorld, rfl, _,
    .step _ 0 _ _ _ rfl (.cleanupRemove _ _ _ _ (FileSystem.remove_of_file (i := 1) (by decide))),
    rfl, rfl, fun pc' fs' h => ?_⟩
  cases h with
  | renameOk _ _ _ h => exact absurd h (by simp [FileSystem.rename])
  | renameFail _ _ e => exact ⟨e, rfl⟩

/-! ## Calls that hold distinct temporary names -/

/-- The temporary file a call holds, from `os.CreateTemp` until its deferred `os.Remove` has
run. -/
def WritePc.heldTemp : WritePc → Option Bytes
  | .copying tmp _ _ => some tmp
  | .closing tmp _ _ => some tmp
  | .renaming tmp => some tmp
  | .cleanup tmp _ => some tmp
  | _ => none

/-- The call has renamed its body into place.  No call that returns an error has. -/
def WritePc.renamed : WritePc → Bool
  | .cleanup _ (.ok _) => true
  | .writingMeta _ => true
  | .renamingMeta _ => true
  | .removingMetaTmp _ => true
  | .returned (.ok _) => true
  | _ => false

/-- No two calls in flight hold the same temporary name. -/
def TempsDistinct (w : World) : Prop := (w.threads.filterMap fun t => t.pc.heldTemp).Nodup

instance (w : World) : Decidable (TempsDistinct w) := inferInstanceAs (Decidable (List.Nodup _))

/-- A step of the world after which no two calls in flight hold the same temporary name. -/
def distinctStep (lc : LocalCache) (w w' : World) : Prop := worldStep lc w w' ∧ TempsDistinct w'

/-- Two calls that hold the same temporary name are the same call. -/
theorem TempsDistinct.eq {w : World} (hd : TempsDistinct w) {i j : Nat} {t u : Thread}
    {tmp : Bytes} (ht : w.threads[i]? = some t) (hu : w.threads[j]? = some u)
    (h1 : t.pc.heldTemp = some tmp) (h2 : u.pc.heldTemp = some tmp) : i = j :=
  index_eq_of_nodup_filterMap (f := fun t : Thread => t.pc.heldTemp) hd ht hu h1 h2

/-! ## What one call's step keeps -/

/-- What a call's own temporary file holds at each program counter. -/
def TempInv (lc : LocalCache) (c : Call) : WritePc → FileSystem → Prop
  | .copying tmp i rest, fs =>
    IsTemp lc tmp ∧ fs.entries tmp = some (.file i) ∧ fs.data i ++ rest = c.body
  | .closing tmp i none, fs => IsTemp lc tmp ∧ fs.entries tmp = some (.file i) ∧ fs.data i = c.body
  | .closing tmp _ (some _), _ => IsTemp lc tmp
  | .renaming tmp, fs => IsTemp lc tmp ∧ ∃ i, fs.entries tmp = some (.file i) ∧ fs.data i = c.body
  | .cleanup tmp _, _ => IsTemp lc tmp
  | _, _ => True

section Step

variable {lc : LocalCache} {c : Call} {pc pc' : WritePc} {fs fs' : FileSystem}

theorem temp_ne_metaTmp {tmp : Bytes} (ht : IsTemp lc tmp) (a : Bytes) :
    lc.metadataTmpPath a ≠ tmp := by
  obtain ⟨n, rfl⟩ := ht
  exact lc.place_ne (show Place.metaTmp a ≠ .temp n by simp)

/-- Temporary files and bodies are not sidecars. -/
theorem ne_sidecar {q : Bytes} (hq : IsTemp lc q ∨ ∃ a, q = lc.actionIDToPath a) (b : Bytes) :
    q ≠ lc.metadataTmpPath b ∧ q ≠ lc.metadataPath b := by
  rcases hq with ht | ⟨a, rfl⟩
  · exact ⟨(temp_ne_metaTmp ht b).symm, (temp_ne_meta ht b).symm⟩
  · exact ⟨metaTmp_ne_body a b, (body_ne_meta b a).symm⟩

theorem TempInv.isTemp {q : Bytes} (ht : TempInv lc c pc fs) (hq : pc.heldTemp = some q) :
    IsTemp lc q := by
  rcases pc with _ | ⟨tmp, i, rest⟩ | ⟨tmp, i, _ | e⟩ | tmp | ⟨tmp, r⟩ <;> cases hq
  · exact ht.1
  · exact ht.1
  · exact ht
  · exact ht.1
  · exact ht

/-- A call's facts about its temporary file stay true when another call keeps that file. -/
theorem TempInv.keeps (ht : TempInv lc c pc fs)
    (hk : ∀ q, pc.heldTemp = some q → FileSystem.Keeps fs fs' q) : TempInv lc c pc fs' := by
  rcases pc with _ | ⟨tmp, i, rest⟩ | ⟨tmp, i, _ | e⟩ | tmp
  · trivial
  · obtain ⟨h1, he, hd⟩ := ht
    obtain ⟨k1, k2⟩ := hk tmp rfl
    exact ⟨h1, k1.trans he, by rw [k2 i he, hd]⟩
  · obtain ⟨h1, he, hd⟩ := ht
    obtain ⟨k1, k2⟩ := hk tmp rfl
    exact ⟨h1, k1.trans he, by rw [k2 i he, hd]⟩
  · exact ht
  · obtain ⟨h1, i, he, hd⟩ := ht
    obtain ⟨k1, k2⟩ := hk tmp rfl
    exact ⟨h1, i, k1.trans he, by rw [k2 i he, hd]⟩
  all_goals exact ht

theorem tempInv_afterWrite (r : Except WriteError Bytes) : TempInv lc c (c.afterWrite r) fs := by
  unfold Call.afterWrite
  split <;> trivial

/-- The step lemma of a call's own temporary file. -/
theorem tempInv_step (hs : writeStep lc c pc fs pc' fs') (ht : TempInv lc c pc fs) :
    TempInv lc c pc' fs' := by
  cases hs with
  | createTemp fs fs' n ino h =>
    obtain ⟨-, rfl, rfl⟩ := FileSystem.createExcl_ok h
    exact ⟨⟨n, rfl⟩, by simp, by simp⟩
  | copyChunk fs tmp ino rest k hk =>
    obtain ⟨h1, he, hd⟩ := ht
    refine ⟨h1, he, ?_⟩
    rw [FileSystem.write_data, Function.update_same, List.append_assoc, List.take_append_drop, hd]
  | copyDone fs tmp ino => exact ⟨ht.1, ht.2.1, by simpa using ht.2.2⟩
  | copyFail fs tmp ino rest k e => exact ht.1
  | closeOk fs tmp ino => exact ⟨ht.1, ino, ht.2⟩
  | closeFail fs tmp ino e => exact ht.1
  | closeAfterCopyFail fs tmp ino e => exact ht
  | renameOk fs fs' tmp h => exact ht.1
  | renameFail fs tmp e => exact ht.1
  | cleanupRemove fs fs' tmp r h => exact tempInv_afterWrite r
  | cleanupFail fs tmp r => exact tempInv_afterWrite r
  | _ => trivial

/-- Every step keeps the file system well formed. -/
theorem writeStep_valid (hs : writeStep lc c pc fs pc' fs') (hv : fs.Valid) : fs'.Valid := by
  cases hs with
  | createTemp fs fs' n ino h => exact hv.createExcl h
  | copyChunk => exact hv.write _ _
  | copyFail => exact hv.write _ _
  | renameOk fs fs' tmp h => exact hv.rename h
  | cleanupRemove fs fs' tmp r h => exact hv.remove h
  | metaWriteOk fs fs' path m hm h => exact hv.writeFile h
  | metaWriteFail fs fs' path m k hm h => exact hv.writeFile h
  | metaRenameOk fs fs' path h => exact hv.rename h
  | metaRemove fs fs' path h => exact hv.remove h
  | _ => exact hv

theorem renamed_afterWrite (p : Bytes) : (c.afterWrite (.ok p)).renamed = true := by
  unfold Call.afterWrite
  split <;> rfl

/-- A renamed call stays renamed. -/
theorem renamed_step (hs : writeStep lc c pc fs pc' fs') (hr : pc.renamed = true) :
    pc'.renamed = true := by
  cases hs with
  | cleanupRemove fs fs' tmp r h => cases r <;> first | exact renamed_afterWrite _ | cases hr
  | cleanupFail fs tmp r => cases r <;> first | exact renamed_afterWrite _ | cases hr
  | _ => first | rfl | cases hr

/-- The frame lemma of a step: a temporary file or body that the call does not hold before or
after the step keeps its inode and bytes, except the body the step renames into place. -/
theorem writeStep_keeps (hs : writeStep lc c pc fs pc' fs') (ht : TempInv lc c pc fs)
    (hv : fs.Valid) {q : Bytes} (hq : IsTemp lc q ∨ ∃ a, q = lc.actionIDToPath a)
    (h1 : pc.heldTemp ≠ some q) (h2 : pc'.heldTemp ≠ some q) :
    FileSystem.Keeps fs fs' q ∨ (q = lc.actionIDToPath c.actionID ∧ pc'.renamed = true ∧
      fs'.readFile q = .ok c.body) := by
  have other : ∀ {tmp : Bytes}, some tmp ≠ some q → q ≠ tmp := fun h e => h (by rw [e])
  cases hs with
  | createTemp fs fs' n ino h => exact .inl (FileSystem.keeps_createExcl hv h (other h2))
  | copyChunk fs tmp ino rest k hk =>
    exact .inl (FileSystem.keeps_write (fun h => other h1 (hv.2 q tmp ino h ht.2.1)) _)
  | copyFail fs tmp ino rest k e =>
    exact .inl (FileSystem.keeps_write (fun h => other h1 (hv.2 q tmp ino h ht.2.1)) _)
  | renameOk fs fs' tmp h =>
    obtain ⟨-, i, he, hd⟩ := ht
    by_cases hb : q = lc.actionIDToPath c.actionID
    · subst hb
      refine .inr ⟨rfl, rfl, ?_⟩
      rw [FileSystem.readFile_rename h]
      simp [FileSystem.readFile, he, hd]
    · exact .inl (FileSystem.keeps_rename h (other h1) hb)
  | cleanupRemove fs fs' tmp r h => exact .inl (FileSystem.keeps_remove h (other h1))
  | metaWriteOk fs fs' path m hm h =>
    exact .inl (FileSystem.keeps_writeFile hv h (ne_sidecar hq _).1)
  | metaWriteFail fs fs' path m k hm h =>
    exact .inl (FileSystem.keeps_writeFile hv h (ne_sidecar hq _).1)
  | metaRenameOk fs fs' path h =>
    exact .inl (FileSystem.keeps_rename h (ne_sidecar hq _).1 (ne_sidecar hq _).2)
  | metaRemove fs fs' path h => exact .inl (FileSystem.keeps_remove h (ne_sidecar hq _).1)
  | _ => exact .inl (FileSystem.keeps_refl _ _)

end Step

/-! ## Every interleaving with distinct temporary names -/

/-- What a reader of a body path sees: what it held in `fs₀`, or the whole body of a call on
its action id that renamed its temporary file into place. -/
def BodyOk (lc : LocalCache) (fs₀ : FileSystem) (w : World) (a : Bytes) : Prop :=
  w.fs.readFile (lc.actionIDToPath a) = fs₀.readFile (lc.actionIDToPath a) ∨
    ∃ t ∈ w.threads, t.call.actionID = a ∧ t.pc.renamed = true ∧
      w.fs.readFile (lc.actionIDToPath a) = .ok t.call.body

/-- The world invariant of the runs from `fs₀`. -/
structure WInv (lc : LocalCache) (fs₀ : FileSystem) (w : World) : Prop where
  valid : w.fs.Valid
  distinct : TempsDistinct w
  temps : ∀ (i : Nat) (t : Thread), w.threads[i]? = some t → TempInv lc t.call t.pc w.fs
  body : ∀ a, BodyOk lc fs₀ w a

private theorem mem_set_or_eq {α : Type} {l : List α} {i : Nat} {t u : α} (x : α)
    (ht : l[i]? = some t) (hu : u ∈ l) : u ∈ l.set i x ∨ u = t := by
  obtain ⟨j, hj⟩ := List.mem_iff_getElem?.1 hu
  by_cases hij : i = j
  · subst hij
    exact .inr (Option.some.inj (hj.symm.trans ht))
  · exact .inl (List.mem_iff_getElem?.2 ⟨j, (List.getElem?_set_ne hij).trans hj⟩)

section World

variable {lc : LocalCache} {fs₀ : FileSystem}

theorem wInv_init (hv : fs₀.Valid) : WInv lc fs₀ ⟨fs₀, []⟩ :=
  ⟨hv, List.nodup_nil, fun _ _ h => by simp at h, fun _ => .inl rfl⟩

theorem WInv.spawn {w : World} (hi : WInv lc fs₀ w) (c : Call)
    (hd : TempsDistinct ⟨w.fs, w.threads ++ [⟨c, .start⟩]⟩) :
    WInv lc fs₀ ⟨w.fs, w.threads ++ [⟨c, .start⟩]⟩ := by
  refine ⟨hi.valid, hd, fun i t h => ?_, fun a => ?_⟩
  · rcases Nat.lt_or_ge i w.threads.length with hl | hl
    · rw [List.getElem?_append_left hl] at h
      exact hi.temps i t h
    · rw [List.getElem?_append_right hl] at h
      obtain rfl : t = ⟨c, .start⟩ := List.mem_singleton.1 (List.mem_iff_getElem?.2 ⟨_, h⟩)
      trivial
  · rcases hi.body a with h | ⟨t, ht, h⟩
    · exact .inl h
    · exact .inr ⟨t, List.mem_append_left _ ht, h⟩

/-- The step lemma of the world: a step of call `i` keeps the invariant when no two calls hold
the same temporary name after it. -/
theorem WInv.step {w : World} (hi : WInv lc fs₀ w) {i : Nat} {t : Thread} {pc' : WritePc}
    {fs' : FileSystem} (ht : w.threads[i]? = some t) (hs : writeStep lc t.call t.pc w.fs pc' fs')
    (hd : TempsDistinct ⟨fs', w.threads.set i ⟨t.call, pc'⟩⟩) :
    WInv lc fs₀ ⟨fs', w.threads.set i ⟨t.call, pc'⟩⟩ := by
  have hti := hi.temps i t ht
  have hti' := tempInv_step hs hti
  have hself : (w.threads.set i ⟨t.call, pc'⟩)[i]? = some ⟨t.call, pc'⟩ :=
    List.getElem?_set_self (List.getElem?_eq_some_iff.1 ht).1
  refine ⟨writeStep_valid hs hi.valid, hd, fun j u hu => ?_, fun a => ?_⟩
  · by_cases hij : i = j
    · subst hij
      rw [hself] at hu
      cases hu
      exact hti'
    · have hu' := hu
      rw [List.getElem?_set_ne hij] at hu
      have htu := hi.temps j u hu
      refine htu.keeps fun q hq => ?_
      have h1 : t.pc.heldTemp ≠ some q := fun h => hij (hi.distinct.eq ht hu h hq)
      have h2 : pc'.heldTemp ≠ some q := fun h => hij (hd.eq hself hu' h hq)
      rcases writeStep_keeps hs hti hi.valid (.inl (htu.isTemp hq)) h1 h2 with hk | ⟨hb, -⟩
      · exact hk
      · exact absurd hb.symm (temp_ne_body (htu.isTemp hq) _)
  · have hmem : (⟨t.call, pc'⟩ : Thread) ∈ w.threads.set i ⟨t.call, pc'⟩ :=
      List.mem_iff_getElem?.2 ⟨i, hself⟩
    have h1 : t.pc.heldTemp ≠ some (lc.actionIDToPath a) :=
      fun h => temp_ne_body (hti.isTemp h) a rfl
    have h2 : pc'.heldTemp ≠ some (lc.actionIDToPath a) :=
      fun h => temp_ne_body (hti'.isTemp h) a rfl
    rcases writeStep_keeps hs hti hi.valid (.inr ⟨a, rfl⟩) h1 h2 with hk | ⟨hb, hr, hread⟩
    · rcases hi.body a with h | ⟨v, hv, hva, hvr, hvb⟩
      · exact .inl (hk.readFile.trans h)
      · rcases mem_set_or_eq ⟨t.call, pc'⟩ ht hv with hv' | rfl
        · exact .inr ⟨v, hv', hva, hvr, hk.readFile.trans hvb⟩
        · exact .inr ⟨_, hmem, hva, renamed_step hs hvr, hk.readFile.trans hvb⟩
    · have ha : t.call.actionID = a := by
        by_contra hne
        exact body_ne_body hne hb.symm
      exact .inr ⟨_, hmem, ha, hr, hread⟩

/-- The run lemma of the world. -/
theorem wInv_of_run (hv : fs₀.Valid) {w : World}
    (h : Relation.ReflTransGen (distinctStep lc) ⟨fs₀, []⟩ w) : WInv lc fs₀ w := by
  induction h with
  | refl => exact wInv_init hv
  | tail _ hs ih =>
    obtain ⟨hs, hd⟩ := hs
    cases hs with
    | spawn c => exact ih.spawn c hd
    | step i t pc' fs' ht h => exact ih.step ht h hd

/-- Over every interleaving of `Write` and `WriteWithMetadata` calls on a well-formed directory
in which no two calls in flight hold the same temporary name, a reader of `ROOT/hex(A)` gets what
the path held before the calls, or the whole body of a call on `A` that renamed it into place:
never a prefix or a mixture, and never the body of a call that returned an error. -/
theorem read_body_of_distinctRun {w : World} (hv : fs₀.Valid)
    (h : Relation.ReflTransGen (distinctStep lc) ⟨fs₀, []⟩ w) (a : Bytes) :
    w.fs.readFile (lc.actionIDToPath a) = fs₀.readFile (lc.actionIDToPath a) ∨
      ∃ t ∈ w.threads, t.call.actionID = a ∧ t.pc.renamed = true ∧
        w.fs.readFile (lc.actionIDToPath a) = .ok t.call.body :=
  (wInv_of_run hv h).body a

end World

/-- One `Write(A, "aa")` on a new cache, run until its rename: the reader of `ROOT/hex(A)` gets
its body. -/
theorem read_body_of_distinctRun_one_write :
    ∃ w, Relation.ReflTransGen (distinctStep sampleCache) ⟨sampleCache.fresh, []⟩ w ∧
      (w.fs.readFile (sampleCache.actionIDToPath [1]) =
          sampleCache.fresh.readFile (sampleCache.actionIDToPath [1]) ∨
        ∃ t ∈ w.threads, t.call.actionID = [1] ∧ t.pc.renamed = true ∧
          w.fs.readFile (sampleCache.actionIDToPath [1]) = .ok t.call.body) := by
  have hrun : Relation.ReflTransGen (distinctStep sampleCache) ⟨sampleCache.fresh, []⟩ _ :=
    .tail (.tail (.tail (.tail (.tail (.tail .refl
      ⟨.spawn _ sampleCallA, by decide⟩)
      ⟨.step _ 0 ⟨sampleCallA, .start⟩ _ _ rfl
        (.createTemp _ _ 0 _ (FileSystem.createExcl_of_free (by decide))), by decide⟩)
      ⟨.step _ 0 ⟨sampleCallA, .copying (sampleCache.tempPath 0) 0 sampleCallA.body⟩ _ _ rfl
        (.copyChunk _ _ _ _ 2 (by decide)), by decide⟩)
      ⟨.step _ 0 ⟨sampleCallA, .copying (sampleCache.tempPath 0) 0 []⟩ _ _ rfl
        (.copyDone _ _ _), by decide⟩)
      ⟨.step _ 0 ⟨sampleCallA, .closing (sampleCache.tempPath 0) 0 none⟩ _ _ rfl
        (.closeOk _ _ _), by decide⟩)
      ⟨.step _ 0 ⟨sampleCallA, .renaming (sampleCache.tempPath 0)⟩ _ _ rfl
        (.renameOk _ _ _ (FileSystem.rename_of_file (i := 0) (by decide) (by decide) (by decide))),
        by decide⟩
  exact ⟨_, hrun, read_body_of_distinctRun (inv_fresh _).valid hrun [1]⟩

end LocalCache

end GoBuildCache
