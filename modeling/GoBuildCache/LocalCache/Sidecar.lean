import GoBuildCache.LocalCache.Basic
import GoBuildCache.Strings.Scan

/-!
# The sidecar of an entry: `writeMetadata` and `readMetadata`

Next to the body of an entry, `LocalCache` keeps its metadata as three text lines:
`outputID:<hex>`, `size:<decimal>` and `time:<unix seconds>`.

* `formatMetadata` is the `fmt.Sprintf` of `writeMetadata`; `writeMetadata` writes it to the
  sidecar's temporary file with `os.WriteFile` and renames that file over the sidecar, and on a
  failed rename removes the temporary file.  The two system calls are `writeMetadataTmp` and
  `renameMetadata`, so that the step relation of `WriteWithMetadata` can let each of them fail
  on its own.
* `parseMetadata` is the loop of `readMetadata` after `os.ReadFile`: split at `\n`, trim, pick
  the line by its key, `Sscanf` the value (ignoring the error, so that a bad value leaves the
  variable as it was), then reject a missing output id and decode the hex.

The result is the round trip `readMetadata_after_writeMetadata`: the text written for any
metadata with a non-empty output id parses back to it with the time cut to whole seconds, and
after a `writeMetadata` that succeeds, `readMetadata` returns exactly that.
-/

namespace GoBuildCache

namespace LocalCache

open Scan Os

/-- `localCacheMetadata`. -/
structure Metadata where
  outputID : Bytes
  size : Int64
  putTime : GoTime
  deriving DecidableEq

/-- What `readMetadata` returns for the sidecar of `m`: the time is `time.Unix(m.PutTime.Unix(), 0)`,
in the location `loc` of `time.Local`. -/
def Metadata.truncate (loc : Location) (m : Metadata) : Metadata :=
  { m with putTime := GoTime.ofUnix loc m.putTime.unix }

/-- The text of a sidecar,
`fmt.Sprintf("outputID:%s\nsize:%d\ntime:%d\n", hex(outputID), size, unix)`, which
`writeMetadata` and `Disk.Put` both write. -/
def formatFields (outputID : Bytes) (size unix : Int64) : Bytes :=
  ascii "outputID:" ++ Hex.encodeToString outputID ++ ascii "\nsize:" ++
    Decimal.formatInt size.val ++ ascii "\ntime:" ++ Decimal.formatInt unix.val ++ ascii "\n"

/-- The `content` of `writeMetadata`, with `PutTime.Unix()`. -/
def formatMetadata (m : Metadata) : Bytes := formatFields m.outputID m.size m.putTime.unix

/-- The three variables of the line loop of `readMetadata`. -/
structure MetaFields where
  outputIDHex : Bytes
  size : Int64
  putTimeUnix : Int64

/-- The body of the line loop on a trimmed line: the first key that is a prefix of the line
selects the `Sscanf` that runs. -/
def scanTrimmed (f : MetaFields) (line : Bytes) : MetaFields :=
  if (ascii "outputID:").isPrefixOf line then
    { f with outputIDHex := sscanfString (ascii "outputID:") line f.outputIDHex }
  else if (ascii "size:").isPrefixOf line then
    { f with size := sscanfInt (ascii "size:") line f.size }
  else if (ascii "time:").isPrefixOf line then
    { f with putTimeUnix := sscanfInt (ascii "time:") line f.putTimeUnix }
  else f

/-- One line of the loop: `line = strings.TrimSpace(line)`, then the keys. -/
def scanLine (f : MetaFields) (line : Bytes) : MetaFields := scanTrimmed f (trimSpace line)

/-- The errors of `readMetadata`. -/
inductive MetaError
  /-- `metadata file not found`. -/
  | notFound
  /-- `failed to read metadata: %w`. -/
  | readFailed (e : Errno)
  /-- `metadata missing outputID field`. -/
  | missingOutputID
  /-- `failed to decode outputID: %w`. -/
  | decodeFailed (e : Hex.HexError)
  deriving DecidableEq

/-- The end of `readMetadata`: the checks after the loop, and `time.Unix(putTimeUnix, 0)` in the
location `loc` of `time.Local`. -/
def finishMetadata (loc : Location) (f : MetaFields) : Except MetaError Metadata :=
  if f.outputIDHex = [] then .error .missingOutputID
  else match Hex.decodeString f.outputIDHex with
    | .error e => .error (.decodeFailed e)
    | .ok outputID => .ok ⟨outputID, f.size, GoTime.ofUnix loc f.putTimeUnix⟩

/-- `readMetadata` after `os.ReadFile`: the loop over `strings.Split(string(data), "\n")` from
zero values, then the checks. -/
def parseMetadata (loc : Location) (data : Bytes) : Except MetaError Metadata :=
  finishMetadata loc ((data.splitOn 10).foldl scanLine ⟨[], Int64.zero, Int64.zero⟩)

/-- `readMetadata`. -/
def readMetadata (lc : LocalCache) (fs : FileSystem) (actionID : Bytes) :
    Except MetaError Metadata :=
  match fs.readFile (lc.metadataPath actionID) with
  | .error .enoent => .error .notFound
  | .error e => .error (.readFailed e)
  | .ok data => parseMetadata lc.proc.loc data

/-- The `os.WriteFile(tmpPath, content, 0644)` of `writeMetadata`. -/
def writeMetadataTmp (lc : LocalCache) (fs : FileSystem) (actionID : Bytes) (meta : Metadata) :
    Except Errno FileSystem :=
  fs.writeFile (lc.metadataTmpPath actionID) (formatMetadata meta)

/-- The `os.Rename(tmpPath, metaPath)` of `writeMetadata`. -/
def renameMetadata (lc : LocalCache) (fs : FileSystem) (actionID : Bytes) :
    Except Errno FileSystem :=
  fs.rename (lc.metadataTmpPath actionID) (lc.metadataPath actionID)

/-- `writeMetadata` when the kernel reports no failure of its own: the file system afterwards
and the error, if any.  A failed rename removes the temporary file and ignores the result. -/
def writeMetadata (lc : LocalCache) (fs : FileSystem) (actionID : Bytes) (meta : Metadata) :
    FileSystem × Option Errno :=
  match lc.writeMetadataTmp fs actionID meta with
  | .error e => (fs, some e)
  | .ok fs1 =>
    match lc.renameMetadata fs1 actionID with
    | .ok fs2 => (fs2, none)
    | .error e =>
      match fs1.remove (lc.metadataTmpPath actionID) with
      | .ok fs2 => (fs2, some e)
      | .error _ => (fs1, some e)

/-! ## The lines of a sidecar -/

theorem plain_encodeToString (a : Bytes) : Plain (Hex.encodeToString a) :=
  plain_of_printable fun c hc => by
    obtain ⟨n, hn, rfl⟩ := Hex.mem_encodeToString hc
    rcases Hex.hextable_range hn with h | h <;> omega

/-- The text of a sidecar is its three lines, each ended by a newline. -/
theorem splitOn_formatFields (o : Bytes) (size unix : Int64) :
    (formatFields o size unix).splitOn 10 =
      [ascii "outputID:" ++ Hex.encodeToString o, ascii "size:" ++ Decimal.formatInt size.val,
        ascii "time:" ++ Decimal.formatInt unix.val, []] := by
  have h1 : Plain (ascii "outputID:" ++ Hex.encodeToString o) :=
    (show Plain (ascii "outputID:") by decide).append (plain_encodeToString _)
  have h2 : Plain (ascii "size:" ++ Decimal.formatInt size.val) :=
    (show Plain (ascii "size:") by decide).append (plain_formatInt _)
  have h3 : Plain (ascii "time:" ++ Decimal.formatInt unix.val) :=
    (show Plain (ascii "time:") by decide).append (plain_formatInt _)
  have hf : formatFields o size unix = (((ascii "outputID:" ++ Hex.encodeToString o) ++
      10 :: (ascii "size:" ++ Decimal.formatInt size.val)) ++
      10 :: (ascii "time:" ++ Decimal.formatInt unix.val)) ++ 10 :: [] := by
    simp only [formatFields, List.append_assoc, List.cons_append]
    rfl
  rw [hf, Path.splitOn_append_sep _ (List.not_mem_nil _), Path.splitOn_append_sep _ h3.not_mem_newline,
    Path.splitOn_append_sep _ h2.not_mem_newline, List.splitOn,
    List.splitOnP_eq_single (· == (10 : UInt8)) _ fun c hc hb =>
      h1.not_mem_newline (by rw [← beq_iff_eq.1 hb]; exact hc)]
  rfl

/-- The line loop over the text written for metadata ends with the hex of its output id, its
size and its Unix time.  With an empty output id the `outputID:` line holds no token, `%s`
fails, and the variable keeps its empty zero value, which is that hex. -/
theorem scanLines_formatFields (o : Bytes) (size unix : Int64) :
    ((formatFields o size unix).splitOn 10).foldl scanLine ⟨[], Int64.zero, Int64.zero⟩ =
      ⟨Hex.encodeToString o, size, unix⟩ := by
  have h1 : Plain (ascii "outputID:" ++ Hex.encodeToString o) :=
    (show Plain (ascii "outputID:") by decide).append (plain_encodeToString _)
  have h2 : Plain (ascii "size:" ++ Decimal.formatInt size.val) :=
    (show Plain (ascii "size:") by decide).append (plain_formatInt _)
  have h3 : Plain (ascii "time:" ++ Decimal.formatInt unix.val) :=
    (show Plain (ascii "time:") by decide).append (plain_formatInt _)
  have pre : ∀ p s : Bytes, p.isPrefixOf (p ++ s) = true := fun p s =>
    List.isPrefixOf_iff_prefix.2 (List.prefix_append _ _)
  have s1 : scanLine ⟨[], Int64.zero, Int64.zero⟩ (ascii "outputID:" ++ Hex.encodeToString o) =
      ⟨Hex.encodeToString o, Int64.zero, Int64.zero⟩ := by
    rw [scanLine, trimSpace_of_plain h1, scanTrimmed, if_pos (pre _ _)]
    by_cases hhex : Hex.encodeToString o = []
    · rw [hhex, List.append_nil, sscanfString_lit (by decide)]
    · rw [sscanfString_plain (by decide) (plain_encodeToString _) hhex]
  have s2 : ∀ f : MetaFields, scanLine f (ascii "size:" ++ Decimal.formatInt size.val) =
      { f with size := size } := by
    intro f
    have hn : (ascii "outputID:").isPrefixOf (ascii "size:" ++ Decimal.formatInt size.val) = false := rfl
    rw [scanLine, trimSpace_of_plain h2, scanTrimmed, hn, if_neg Bool.false_ne_true, if_pos (pre _ _),
      sscanfInt_formatInt (by decide)]
  have s3 : ∀ f : MetaFields, scanLine f (ascii "time:" ++ Decimal.formatInt unix.val) =
      { f with putTimeUnix := unix } := by
    intro f
    have hn1 : (ascii "outputID:").isPrefixOf (ascii "time:" ++ Decimal.formatInt unix.val) =
      false := rfl
    have hn2 : (ascii "size:").isPrefixOf (ascii "time:" ++ Decimal.formatInt unix.val) =
      false := rfl
    rw [scanLine, trimSpace_of_plain h3, scanTrimmed, hn1, if_neg Bool.false_ne_true, hn2,
      if_neg Bool.false_ne_true, if_pos (pre _ _), sscanfInt_formatInt (by decide)]
  have s4 : ∀ f : MetaFields, scanLine f [] = f := fun f => rfl
  rw [splitOn_formatFields]
  simp only [List.foldl_cons, List.foldl_nil, s1, s2, s3, s4]

/-- The text written for metadata reads back as that metadata with the time cut to whole
seconds, unless the output id is empty: then the sidecar counts as missing its output id. -/
theorem parseMetadata_formatMetadata (loc : Location) (m : Metadata) :
    parseMetadata loc (formatMetadata m) =
      if m.outputID = [] then .error .missingOutputID else .ok (m.truncate loc) := by
  rw [parseMetadata, formatMetadata, scanLines_formatFields, finishMetadata]
  by_cases hm : m.outputID = []
  · simp only [hm, if_true]
    rfl
  · rw [if_neg (mt Hex.encodeToString_eq_nil.1 hm), Hex.decodeString_encodeToString, if_neg hm]
    rfl

/-- The sidecar round trip: the text that `writeMetadata` formats for metadata with a non-empty
output id parses back to that metadata with the time cut to whole seconds, so after a
`writeMetadata` that succeeds, `readMetadata` returns exactly that value. -/
theorem readMetadata_after_writeMetadata (m : Metadata) (hm : m.outputID ≠ []) :
    (∀ loc, parseMetadata loc (formatMetadata m) = .ok (m.truncate loc)) ∧
      ∀ (lc : LocalCache) (fs : FileSystem) (actionID : Bytes),
        (lc.writeMetadata fs actionID m).2 = none →
          lc.readMetadata (lc.writeMetadata fs actionID m).1 actionID = .ok (m.truncate lc.proc.loc) := by
  have hp : ∀ loc, parseMetadata loc (formatMetadata m) = .ok (m.truncate loc) := fun loc => by
    rw [parseMetadata_formatMetadata, if_neg hm]
  refine ⟨hp, fun lc fs actionID h => ?_⟩
  unfold writeMetadata at h ⊢
  split at h
  · cases h
  · rename_i fs1 hw
    split at h
    · rename_i fs2 hr
      rw [readMetadata, FileSystem.readFile_rename hr, FileSystem.readFile_writeFile hw]
      exact hp _
    · split at h <;> cases h

/-- The round trip in a new cache `c`, for a sidecar of the action id `[1]` that `writeMetadata`
writes without an error. -/
theorem readMetadata_after_writeMetadata_one :
    let lc : LocalCache := ⟨ascii "c", by decide, Process.sample⟩
    let m : Metadata := ⟨[1], Int64.zero, GoTime.ofUnix (fun _ => 0) Int64.zero⟩
    m.outputID ≠ [] ∧ (lc.writeMetadata lc.fresh [1] m).2 = none ∧
      lc.readMetadata (lc.writeMetadata lc.fresh [1] m).1 [1] = .ok (m.truncate lc.proc.loc) :=
  have hw : (LocalCache.writeMetadata ⟨ascii "c", by decide, Process.sample⟩
      (LocalCache.fresh ⟨ascii "c", by decide, Process.sample⟩) [1]
      ⟨[1], Int64.zero, GoTime.ofUnix (fun _ => 0) Int64.zero⟩).2 = none := by decide
  ⟨by decide, hw, (readMetadata_after_writeMetadata _ (by decide)).2 _ _ _ hw⟩

end LocalCache

end GoBuildCache
