import GoBuildCache.LocalCache.Sidecar

/-!
# `LocalCache.Write`, `WriteWithMetadata` and `Check` as a step relation

A call of `Write(actionID, body)` or `WriteWithMetadata(actionID, body, meta)` is a small program
over the file system:

1. `os.CreateTemp(cacheDir, ".tmp-*")` creates a fresh temporary file (`createTemp`);
2. `io.Copy` writes the body to its inode in one or more `write(2)` calls (`copyChunk`);
3. `Close`, then `os.Rename(tmpPath, diskPath)` (`renameOk`);
4. the deferred `os.Remove(tmpPath)` runs on every return after `CreateTemp`, the successful one
   included (`cleanup`);
5. `WriteWithMetadata` then runs `writeMetadata`, whose failure it only logs.

`WritePc` is the program counter of one call and `writeStep` its steps.  Every system call may
fail with an error that does not depend on the state (a full disk, `EIO`): each has a step
that fails, and a failed write may have written a prefix of its bytes.  A process may also stop
between any two steps: nothing forces a call to go on.  A successful call returns
`filepath.Abs(diskPath)` in the cache's process, or `diskPath` when that fails
(`Process.abs`).

`check` is `Check`: the entry's path exists and its sidecar reads back.
-/

namespace GoBuildCache

namespace LocalCache

open Os

/-- The errors `Write` returns, each wrapping the error of the system call. -/
inductive WriteError
  /-- `failed to create temp file: %w`. -/
  | createTemp (e : Errno)
  /-- `failed to write to temp file: %w`. -/
  | copy (e : Errno)
  /-- `failed to close temp file: %w`. -/
  | close (e : Errno)
  /-- `failed to rename cache file: %w`. -/
  | rename (e : Errno)
  deriving DecidableEq

/-- One call: `Write(actionID, body)` when `meta` is `none`, `WriteWithMetadata(actionID, body,
meta)` otherwise.  The body is the bytes its reader yields. -/
structure Call where
  actionID : Bytes
  body : Bytes
  meta : Option Metadata

/-- Where a call is. -/
inductive WritePc
  /-- Not started. -/
  | start
  /-- `io.Copy` into inode `ino` of the temporary file `tmp`, with `rest` still to write. -/
  | copying (tmp : Bytes) (ino : Nat) (rest : Bytes)
  /-- `tmpFile.Close()`, after `io.Copy` returned `copyErr`. -/
  | closing (tmp : Bytes) (ino : Nat) (copyErr : Option Errno)
  /-- `os.Rename(tmpPath, diskPath)`. -/
  | renaming (tmp : Bytes)
  /-- The deferred `os.Remove(tmpPath)`, before `Write` returns `result`. -/
  | cleanup (tmp : Bytes) (result : Except WriteError Bytes)
  /-- `writeMetadata`'s `os.WriteFile` of the sidecar's temporary file. -/
  | writingMeta (path : Bytes)
  /-- `writeMetadata`'s `os.Rename` of the sidecar's temporary file. -/
  | renamingMeta (path : Bytes)
  /-- `writeMetadata`'s `os.Remove(tmpPath)` after a failed rename. -/
  | removingMetaTmp (path : Bytes)
  /-- The call has returned `result`. -/
  | returned (result : Except WriteError Bytes)

/-- Where a call goes after the deferred `os.Remove`: `WriteWithMetadata` goes on to
`writeMetadata` when `Write` succeeded, and every other call returns. -/
def Call.afterWrite (c : Call) (result : Except WriteError Bytes) : WritePc :=
  match c.meta, result with
  | some _, .ok path => .writingMeta path
  | _, _ => .returned result

section Step

variable (lc : LocalCache) (c : Call)

/-- One step of a call on the file system. -/
inductive writeStep : WritePc → FileSystem → WritePc → FileSystem → Prop
  /-- `os.CreateTemp` opens the free name of random part `n` with `O_EXCL`. -/
  | createTemp (fs fs' : FileSystem) (n : UInt32) (ino : Nat)
      (h : fs.createExcl (lc.tempPath n) = .ok (fs', ino)) :
      writeStep .start fs (.copying (lc.tempPath n) ino c.body) fs'
  /-- `os.CreateTemp` fails. -/
  | createTempFail (fs : FileSystem) (e : Errno) :
      writeStep .start fs (.returned (.error (.createTemp e))) fs
  /-- One `write(2)` of the first `k` bytes still to copy. -/
  | copyChunk (fs : FileSystem) (tmp : Bytes) (ino : Nat) (rest : Bytes) (k : Nat) (hk : 0 < k) :
      writeStep (.copying tmp ino rest) fs (.copying tmp ino (rest.drop k)) (fs.write ino (rest.take k))
  /-- `io.Copy` has written everything. -/
  | copyDone (fs : FileSystem) (tmp : Bytes) (ino : Nat) :
      writeStep (.copying tmp ino []) fs (.closing tmp ino none) fs
  /-- `io.Copy` fails after writing the first `k` bytes still to copy. -/
  | copyFail (fs : FileSystem) (tmp : Bytes) (ino : Nat) (rest : Bytes) (k : Nat) (e : Errno) :
      writeStep (.copying tmp ino rest) fs (.closing tmp ino (some e)) (fs.write ino (rest.take k))
  /-- `Close` succeeds after a complete copy. -/
  | closeOk (fs : FileSystem) (tmp : Bytes) (ino : Nat) :
      writeStep (.closing tmp ino none) fs (.renaming tmp) fs
  /-- `Close` fails after a complete copy. -/
  | closeFail (fs : FileSystem) (tmp : Bytes) (ino : Nat) (e : Errno) :
      writeStep (.closing tmp ino none) fs (.cleanup tmp (.error (.close e))) fs
  /-- After a failed copy, the copy's error is returned whatever `Close` does. -/
  | closeAfterCopyFail (fs : FileSystem) (tmp : Bytes) (ino : Nat) (e : Errno) :
      writeStep (.closing tmp ino (some e)) fs (.cleanup tmp (.error (.copy e))) fs
  /-- `os.Rename(tmpPath, diskPath)` succeeds, and `Write` returns `filepath.Abs(diskPath)`. -/
  | renameOk (fs fs' : FileSystem) (tmp : Bytes)
      (h : fs.rename tmp (lc.actionIDToPath c.actionID) = .ok fs') :
      writeStep (.renaming tmp) fs (.cleanup tmp (.ok (lc.proc.abs (lc.actionIDToPath c.actionID)))) fs'
  /-- `os.Rename` fails: the kernel's error, or one of its own. -/
  | renameFail (fs : FileSystem) (tmp : Bytes) (e : Errno) :
      writeStep (.renaming tmp) fs (.cleanup tmp (.error (.rename e))) fs
  /-- The deferred `os.Remove(tmpPath)` removes whatever file has that name now. -/
  | cleanupRemove (fs fs' : FileSystem) (tmp : Bytes) (r : Except WriteError Bytes)
      (h : fs.remove tmp = .ok fs') :
      writeStep (.cleanup tmp r) fs (c.afterWrite r) fs'
  /-- The deferred `os.Remove` fails; its error is ignored. -/
  | cleanupFail (fs : FileSystem) (tmp : Bytes) (r : Except WriteError Bytes) :
      writeStep (.cleanup tmp r) fs (c.afterWrite r) fs
  /-- `os.WriteFile` of the sidecar's temporary file succeeds. -/
  | metaWriteOk (fs fs' : FileSystem) (path : Bytes) (m : Metadata) (hm : c.meta = some m)
      (h : lc.writeMetadataTmp fs c.actionID m = .ok fs') :
      writeStep (.writingMeta path) fs (.renamingMeta path) fs'
  /-- `os.WriteFile` fails to open the file; `WriteWithMetadata` logs it and succeeds. -/
  | metaOpenFail (fs : FileSystem) (path : Bytes) :
      writeStep (.writingMeta path) fs (.returned (.ok path)) fs
  /-- `os.WriteFile` fails after opening and writing the first `k` bytes of the content. -/
  | metaWriteFail (fs fs' : FileSystem) (path : Bytes) (m : Metadata) (k : Nat)
      (hm : c.meta = some m)
      (h : fs.writeFile (lc.metadataTmpPath c.actionID) ((formatMetadata m).take k) = .ok fs') :
      writeStep (.writingMeta path) fs (.returned (.ok path)) fs'
  /-- `os.Rename` of the sidecar succeeds. -/
  | metaRenameOk (fs fs' : FileSystem) (path : Bytes) (h : lc.renameMetadata fs c.actionID = .ok fs') :
      writeStep (.renamingMeta path) fs (.returned (.ok path)) fs'
  /-- `os.Rename` of the sidecar fails. -/
  | metaRenameFail (fs : FileSystem) (path : Bytes) :
      writeStep (.renamingMeta path) fs (.removingMetaTmp path) fs
  /-- `os.Remove` of the sidecar's temporary file. -/
  | metaRemove (fs fs' : FileSystem) (path : Bytes)
      (h : fs.remove (lc.metadataTmpPath c.actionID) = .ok fs') :
      writeStep (.removingMetaTmp path) fs (.returned (.ok path)) fs'
  /-- `os.Remove` of the sidecar's temporary file fails. -/
  | metaRemoveFail (fs : FileSystem) (path : Bytes) :
      writeStep (.removingMetaTmp path) fs (.returned (.ok path)) fs

end Step

/-- `Check`: `nil` when the entry's path does not exist or its sidecar does not read back. -/
def check (lc : LocalCache) (fs : FileSystem) (actionID : Bytes) : Option Metadata :=
  if fs.stat (lc.actionIDToPath actionID) then (lc.readMetadata fs actionID).toOption else none

end LocalCache

end GoBuildCache
