import GoBuildCache.Os.Path

/-!
# A file system of directory entries and inodes

The local cache, the disk backend and the S3 backend's download directory all rely on what a
POSIX file system guarantees: `rename(2)` replaces a directory entry in one step, a file that
was opened keeps its inode when its name is renamed or removed, and `O_EXCL` creation fails on
an existing name.  The model keeps exactly that:

* `entries` maps a path to a `Node`, a directory or the inode of a regular file;
* `data` holds the bytes of each inode, and `nextIno` is the next fresh inode number;
* each system call the program makes is one function here, returning the new file system or
  an `Errno`.  Writes go to an inode, not to a name, so a writer that lost its name to a
  concurrent `rename` or `remove` keeps writing to the same inode.

Paths are the clean spellings of `Path.clean`; the callers pass their paths in that spelling.
A failure that the kernel may report at any time (`EIO`, `ENOSPC`, a full quota) is not a
function of the state: the step relations of the callers add it as a step of its own.
-/

namespace GoBuildCache.Os

/-- What a directory entry names. -/
inductive Node
  /-- A directory. -/
  | dir
  /-- A regular file, by its inode number. -/
  | file (ino : Nat)
  deriving DecidableEq

/-- The `syscall.Errno` values the model's system calls return. -/
inductive Errno
  /-- `ENOENT`: no such file or directory. -/
  | enoent
  /-- `EEXIST`: file exists. -/
  | eexist
  /-- `EISDIR`: is a directory. -/
  | eisdir
  /-- `ENOTDIR`: not a directory. -/
  | enotdir
  /-- `EIO` and every other failure that does not depend on the state. -/
  | eio
  deriving DecidableEq

/-- What the process reports that no call of the cache changes: the working directory of
`os.Getwd()`, `none` when it fails, and `time.Local`. -/
structure Process where
  wd : Option Bytes
  loc : Location

/-- `filepath.Abs(p)` in the process, or `p` itself when it fails. -/
def Process.abs (pr : Process) (p : Bytes) : Bytes := Path.abs pr.wd p

/-- A process in `/w` whose `time.Local` is UTC. -/
def Process.sample : Process := ⟨some (ascii "/w"), fun _ => 0⟩

/-- A file system: directory entries, inode contents, and the next free inode number. -/
structure FileSystem where
  entries : Bytes → Option Node
  data : Nat → Bytes
  nextIno : Nat

namespace FileSystem

/-- `os.Stat(p)` succeeds. -/
def stat (fs : FileSystem) (p : Bytes) : Bool := (fs.entries p).isSome

/-- `os.ReadFile(p)`. -/
def readFile (fs : FileSystem) (p : Bytes) : Except Errno Bytes :=
  match fs.entries p with
  | some (.file i) => .ok (fs.data i)
  | some .dir => .error .eisdir
  | none => .error .enoent

/-- A fresh empty inode linked at `p`. -/
def link (fs : FileSystem) (p : Bytes) : FileSystem × Nat :=
  ({ entries := Function.update fs.entries p (some (.file fs.nextIno))
     data := Function.update fs.data fs.nextIno []
     nextIno := fs.nextIno + 1 }, fs.nextIno)

/-- `open(p, O_RDWR|O_CREATE|O_EXCL)`, as `os.CreateTemp` calls it: a new empty file, or
`EEXIST`. -/
def createExcl (fs : FileSystem) (p : Bytes) : Except Errno (FileSystem × Nat) :=
  match fs.entries p with
  | none => .ok (fs.link p)
  | some _ => .error .eexist

/-- `open(p, O_WRONLY|O_CREATE|O_TRUNC)`, as `os.WriteFile` calls it: the file at `p` emptied,
or a new empty file. -/
def openTrunc (fs : FileSystem) (p : Bytes) : Except Errno (FileSystem × Nat) :=
  match fs.entries p with
  | none => .ok (fs.link p)
  | some (.file i) => .ok ({ fs with data := Function.update fs.data i [] }, i)
  | some .dir => .error .eisdir

/-- `write(2)` of `bs` at the end of inode `i`. -/
def write (fs : FileSystem) (i : Nat) (bs : Bytes) : FileSystem :=
  { fs with data := Function.update fs.data i (fs.data i ++ bs) }

/-- `rename(2)` of a regular file: `dst` names the inode of `src` and `src` is unlinked, in one
step.  Renaming onto a directory is `EISDIR`, and renaming a file to itself does nothing. -/
def rename (fs : FileSystem) (src dst : Bytes) : Except Errno FileSystem :=
  match fs.entries src, fs.entries dst with
  | none, _ => .error .enoent
  | some .dir, _ => .error .eisdir
  | some (.file _), some .dir => .error .eisdir
  | some (.file i), _ =>
    if src = dst then .ok fs
    else .ok { fs with
      entries := Function.update (Function.update fs.entries src none) dst (some (.file i)) }

/-- `os.Remove(p)` of a regular file. -/
def remove (fs : FileSystem) (p : Bytes) : Except Errno FileSystem :=
  match fs.entries p with
  | some (.file _) => .ok { fs with entries := Function.update fs.entries p none }
  | some .dir => .error .eisdir
  | none => .error .enoent

/-- `os.WriteFile(p, bs)`: truncate or create, then write everything. -/
def writeFile (fs : FileSystem) (p : Bytes) (bs : Bytes) : Except Errno FileSystem :=
  match fs.openTrunc p with
  | .ok (fs', i) => .ok (fs'.write i bs)
  | .error e => .error e

/-- `os.MkdirAll(p)`: nothing to do for a directory, `ENOTDIR` on a file, a new directory
otherwise.  The model keeps no parent links, so the parents need nothing. -/
def mkdirAll (fs : FileSystem) (p : Bytes) : Except Errno FileSystem :=
  match fs.entries p with
  | some .dir => .ok fs
  | some (.file _) => .error .enotdir
  | none => .ok { fs with entries := Function.update fs.entries p (some .dir) }

/-- `os.RemoveAll` of the paths `under` selects, except those `kept`: a failed `RemoveAll` may
have removed any part of the tree. -/
def removeAll (fs : FileSystem) (under kept : Bytes → Bool) : FileSystem :=
  { fs with entries := fun q => if under q && !kept q then none else fs.entries q }

/-! ## What each call changes -/

@[simp] theorem link_entries (fs : FileSystem) (p : Bytes) :
    (fs.link p).1.entries = Function.update fs.entries p (some (.file fs.nextIno)) := rfl

@[simp] theorem link_data (fs : FileSystem) (p : Bytes) :
    (fs.link p).1.data = Function.update fs.data fs.nextIno [] := rfl

@[simp] theorem link_nextIno (fs : FileSystem) (p : Bytes) :
    (fs.link p).1.nextIno = fs.nextIno + 1 := rfl

@[simp] theorem link_ino (fs : FileSystem) (p : Bytes) : (fs.link p).2 = fs.nextIno := rfl

@[simp] theorem write_entries (fs : FileSystem) (i : Nat) (bs : Bytes) :
    (fs.write i bs).entries = fs.entries := rfl

@[simp] theorem write_data (fs : FileSystem) (i : Nat) (bs : Bytes) :
    (fs.write i bs).data = Function.update fs.data i (fs.data i ++ bs) := rfl

@[simp] theorem write_nextIno (fs : FileSystem) (i : Nat) (bs : Bytes) :
    (fs.write i bs).nextIno = fs.nextIno := rfl

/-- The cases of a successful `rename`. -/
theorem rename_ok {fs fs' : FileSystem} {src dst : Bytes} (h : fs.rename src dst = .ok fs') :
    ∃ i, fs.entries src = some (.file i) ∧ fs.entries dst ≠ some .dir ∧ fs'.data = fs.data ∧
      fs'.nextIno = fs.nextIno ∧
      fs'.entries = if src = dst then fs.entries
        else Function.update (Function.update fs.entries src none) dst (some (.file i)) := by
  unfold rename at h
  split at h
  · cases h
  · cases h
  · cases h
  · rename_i i hs hd
    refine ⟨i, hs, hd, ?_⟩
    split_ifs at h ⊢ <;> cases h <;> exact ⟨rfl, rfl, rfl⟩

/-- The cases of a successful `os.Remove`. -/
theorem remove_ok {fs fs' : FileSystem} {p : Bytes} (h : fs.remove p = .ok fs') :
    (∃ i, fs.entries p = some (.file i)) ∧ fs' = { fs with entries := Function.update fs.entries p none } := by
  unfold remove at h
  split at h
  · rename_i i _
    cases h
    exact ⟨⟨i, ‹_›⟩, rfl⟩
  · cases h
  · cases h

/-- A successful `createExcl` links a fresh inode at a free name. -/
theorem createExcl_ok {fs fs' : FileSystem} {p : Bytes} {i : Nat}
    (h : fs.createExcl p = .ok (fs', i)) : fs.entries p = none ∧ fs' = (fs.link p).1 ∧ i = fs.nextIno := by
  unfold createExcl at h
  split at h
  · cases h; exact ⟨‹_›, rfl, rfl⟩
  · cases h

/-- `createExcl` of a free name succeeds. -/
theorem createExcl_of_free {fs : FileSystem} {p : Bytes} (h : fs.entries p = none) :
    fs.createExcl p = .ok (fs.link p) := by
  simp [createExcl, h]

/-- `os.WriteFile` of a free name creates the file with its content. -/
theorem writeFile_of_free {fs : FileSystem} {p : Bytes} (h : fs.entries p = none) (bs : Bytes) :
    fs.writeFile p bs = .ok ((fs.link p).1.write fs.nextIno bs) := by
  simp [writeFile, openTrunc, h]

/-- `os.ReadFile` of a file reads its inode. -/
theorem readFile_of_file {fs : FileSystem} {p : Bytes} {i : Nat} (h : fs.entries p = some (.file i)) :
    fs.readFile p = .ok (fs.data i) := by
  simp [readFile, h]

/-- `open(2)` of a directory for writing fails, and so does `os.WriteFile`. -/
theorem openTrunc_of_dir {fs : FileSystem} {p : Bytes} (h : fs.entries p = some .dir) :
    fs.openTrunc p = .error .eisdir := by
  simp [openTrunc, h]

/-- `open(p, O_TRUNC)` of a name that is not a directory succeeds. -/
theorem exists_openTrunc {fs : FileSystem} {p : Bytes} (h : fs.entries p ≠ some .dir) :
    ∃ fs' i, fs.openTrunc p = .ok (fs', i) := by
  unfold openTrunc
  split
  · exact ⟨_, _, rfl⟩
  · exact ⟨_, _, rfl⟩
  · exact absurd ‹_› h

/-- A path that `os.ReadFile` reads names a regular file. -/
theorem entries_of_readFile_ok {fs : FileSystem} {p bs : Bytes} (h : fs.readFile p = .ok bs) :
    ∃ i, fs.entries p = some (.file i) := by
  unfold readFile at h
  split at h
  · exact ⟨_, ‹_›⟩
  · cases h
  · cases h

theorem writeFile_of_dir {fs : FileSystem} {p : Bytes} (h : fs.entries p = some .dir) (bs : Bytes) :
    fs.writeFile p bs = .error .eisdir := by
  simp [writeFile, openTrunc_of_dir h]

/-- The file system after moving the inode `i` from `src` to `dst`. -/
def move (fs : FileSystem) (src dst : Bytes) (i : Nat) : FileSystem :=
  { fs with entries := Function.update (Function.update fs.entries src none) dst (some (.file i)) }

/-- `rename` of a file to another name that is not a directory succeeds. -/
theorem rename_of_file {fs : FileSystem} {src dst : Bytes} {i : Nat}
    (hs : fs.entries src = some (.file i)) (hd : fs.entries dst ≠ some .dir) (hne : src ≠ dst) :
    fs.rename src dst = .ok (fs.move src dst i) := by
  rcases hdst : fs.entries dst with _ | _ | j
  · simp [rename, hs, hdst, hne, move]
  · exact absurd hdst hd
  · simp [rename, hs, hdst, hne, move]

/-- The cases of a successful `openTrunc`. -/
theorem openTrunc_ok {fs fs' : FileSystem} {p : Bytes} {i : Nat}
    (h : fs.openTrunc p = .ok (fs', i)) :
    (fs.entries p = none ∧ (fs', i) = fs.link p) ∨
      (fs.entries p = some (.file i) ∧ fs' = { fs with data := Function.update fs.data i [] }) := by
  unfold openTrunc at h
  split at h
  · exact .inl ⟨‹_›, (Except.ok.inj h).symm⟩
  · cases h
    exact .inr ⟨‹_›, rfl⟩
  · cases h

/-- After `open(p, O_TRUNC)`, `p` names the inode it returned, and that inode is empty. -/
theorem openTrunc_file {fs fs' : FileSystem} {p : Bytes} {i : Nat} (h : fs.openTrunc p = .ok (fs', i)) :
    fs'.entries p = some (.file i) ∧ fs'.data i = [] := by
  rcases openTrunc_ok h with ⟨-, hl⟩ | ⟨hi, rfl⟩
  · obtain ⟨rfl, rfl⟩ := Prod.ext_iff.1 hl
    simp
  · simp [hi]

/-! ## Reading after each call -/

/-- `os.ReadFile` of the destination of a `rename` reads what the source held. -/
theorem readFile_rename {fs fs' : FileSystem} {src dst : Bytes} (h : fs.rename src dst = .ok fs') :
    fs'.readFile dst = fs.readFile src := by
  obtain ⟨i, hs, -, hd, -, he⟩ := rename_ok h
  unfold readFile
  rw [he, hd]
  split_ifs with heq
  · subst heq; rfl
  · rw [Function.update_same, hs]

/-- `os.ReadFile` after a successful `os.WriteFile` reads what was written. -/
theorem readFile_writeFile {fs fs' : FileSystem} {p bs : Bytes} (h : fs.writeFile p bs = .ok fs') :
    fs'.readFile p = .ok bs := by
  unfold writeFile at h
  split at h
  · rename_i fs1 i ho
    cases h
    rcases openTrunc_ok ho with ⟨-, hl⟩ | ⟨hi, rfl⟩
    · cases hl
      simp [readFile]
    · simp [readFile, hi]
  · cases h

/-- A `rename` leaves every path but its source and destination as it was. -/
theorem entries_rename_other {fs fs' : FileSystem} {src dst q : Bytes}
    (h : fs.rename src dst = .ok fs') (h1 : q ≠ src) (h2 : q ≠ dst) : fs'.entries q = fs.entries q := by
  obtain ⟨i, -, -, -, -, he⟩ := rename_ok h
  rw [he]
  split_ifs
  · rfl
  · rw [Function.update_noteq h2, Function.update_noteq h1]

theorem readFile_rename_other {fs fs' : FileSystem} {src dst q : Bytes}
    (h : fs.rename src dst = .ok fs') (h1 : q ≠ src) (h2 : q ≠ dst) : fs'.readFile q = fs.readFile q := by
  unfold readFile
  rw [entries_rename_other h h1 h2, (rename_ok h).choose_spec.2.2.1]

/-! ## Well-formed file systems -/

/-- Every linked inode is below `nextIno`, and no inode has two names (the program makes no
hard links). -/
def Valid (fs : FileSystem) : Prop :=
  (∀ p i, fs.entries p = some (.file i) → i < fs.nextIno) ∧
    ∀ p q i, fs.entries p = some (.file i) → fs.entries q = some (.file i) → p = q

theorem Valid.link {fs : FileSystem} (hv : fs.Valid) {p : Bytes} (hp : fs.entries p = none) :
    (fs.link p).1.Valid := by
  obtain ⟨h1, h2⟩ := hv
  constructor
  · intro q i hq
    simp only [link_entries, link_nextIno] at hq ⊢
    by_cases hqp : q = p
    · subst hqp; simp at hq; omega
    · rw [Function.update_noteq hqp] at hq; exact Nat.lt_succ_of_lt (h1 q i hq)
  · intro q r i hq hr
    simp only [link_entries] at hq hr
    by_cases hqp : q = p <;> by_cases hrp : r = p
    · rw [hqp, hrp]
    · subst hqp
      rw [Function.update_noteq hrp] at hr
      simp only [Function.update_same, Option.some.injEq, Node.file.injEq] at hq
      exact absurd (h1 r i hr) (by omega)
    · subst hrp
      rw [Function.update_noteq hqp] at hq
      simp only [Function.update_same, Option.some.injEq, Node.file.injEq] at hr
      exact absurd (h1 q i hq) (by omega)
    · rw [Function.update_noteq hqp] at hq
      rw [Function.update_noteq hrp] at hr
      exact h2 q r i hq hr

theorem Valid.write {fs : FileSystem} (hv : fs.Valid) (i : Nat) (bs : Bytes) :
    (fs.write i bs).Valid := hv

theorem Valid.createExcl {fs fs' : FileSystem} {p : Bytes} {i : Nat} (hv : fs.Valid)
    (h : fs.createExcl p = .ok (fs', i)) : fs'.Valid := by
  unfold FileSystem.createExcl at h
  split at h
  · cases h; exact hv.link ‹_›
  · cases h

theorem Valid.openTrunc {fs fs' : FileSystem} {p : Bytes} {i : Nat} (hv : fs.Valid)
    (h : fs.openTrunc p = .ok (fs', i)) : fs'.Valid := by
  rcases openTrunc_ok h with ⟨hp, hl⟩ | ⟨-, rfl⟩
  · rw [show fs' = (fs.link p).1 from congrArg Prod.fst hl]; exact hv.link hp
  · exact hv

theorem Valid.writeFile {fs fs' : FileSystem} {p bs : Bytes} (hv : fs.Valid)
    (h : fs.writeFile p bs = .ok fs') : fs'.Valid := by
  unfold FileSystem.writeFile at h
  split at h
  · cases h; exact (hv.openTrunc ‹_›).write _ _
  · cases h

theorem Valid.rename {fs fs' : FileSystem} {src dst : Bytes} (hv : fs.Valid)
    (h : fs.rename src dst = .ok fs') : fs'.Valid := by
  obtain ⟨i, hs, -, -, hn, he⟩ := rename_ok h
  obtain ⟨h1, h2⟩ := hv
  split_ifs at he with heq
  · exact ⟨fun p j hp => hn ▸ h1 p j (he ▸ hp), fun p q j hp hq => h2 p q j (he ▸ hp) (he ▸ hq)⟩
  · have look : ∀ p j, fs'.entries p = some (.file j) → (p = dst ∧ j = i) ∨ (p ≠ dst ∧ p ≠ src ∧
        fs.entries p = some (.file j)) := by
      intro p j hp
      rw [he] at hp
      by_cases hpd : p = dst
      · subst hpd; simp at hp; exact .inl ⟨rfl, hp.symm⟩
      · rw [Function.update_noteq hpd] at hp
        by_cases hps : p = src
        · subst hps; simp at hp
        · rw [Function.update_noteq hps] at hp; exact .inr ⟨hpd, hps, hp⟩
    constructor
    · intro p j hp
      rw [hn]
      rcases look p j hp with ⟨-, rfl⟩ | ⟨-, -, hp⟩
      · exact h1 src _ hs
      · exact h1 p j hp
    · intro p q j hp hq
      rcases look p j hp with ⟨rfl, rfl⟩ | ⟨hpd, hps, hp⟩ <;>
        rcases look q j hq with ⟨rfl, hj⟩ | ⟨hqd, hqs, hq⟩
      · rfl
      · exact absurd (h2 q src _ hq hs) hqs
      · subst hj; exact absurd (h2 p src _ hp hs) hps
      · exact h2 p q j hp hq

theorem Valid.remove {fs fs' : FileSystem} {p : Bytes} (hv : fs.Valid)
    (h : fs.remove p = .ok fs') : fs'.Valid := by
  obtain ⟨-, rfl⟩ := remove_ok h
  obtain ⟨h1, h2⟩ := hv
  have look : ∀ q j, Function.update fs.entries p none q = some (.file j) → fs.entries q = some (.file j) := by
    intro q j hq
    by_cases hqp : q = p
    · subst hqp; simp at hq
    · rwa [Function.update_noteq hqp] at hq
  exact ⟨fun q j hq => h1 q j (look q j hq), fun q r j hq hr => h2 q r j (look q j hq) (look r j hr)⟩

/-! ## What each call leaves as it was

`Keeps fs fs' q` says that `q` names the same inode after a call as before and that the inode
holds the same bytes: what a reader of `q` sees, and what a writer that holds `q`'s inode relies
on.  Each call keeps every path it does not name. -/

/-- `q` names the same inode in `fs'` as in `fs`, and that inode holds the same bytes. -/
def Keeps (fs fs' : FileSystem) (q : Bytes) : Prop :=
  fs'.entries q = fs.entries q ∧ ∀ i, fs.entries q = some (.file i) → fs'.data i = fs.data i

theorem Keeps.readFile {fs fs' : FileSystem} {q : Bytes} (h : Keeps fs fs' q) :
    fs'.readFile q = fs.readFile q := by
  unfold FileSystem.readFile
  rw [h.1]
  split
  · rename_i i hi
    rw [h.2 i hi]
  · rfl
  · rfl

theorem Keeps.trans {fs fs1 fs2 : FileSystem} {q : Bytes} (h1 : Keeps fs fs1 q)
    (h2 : Keeps fs1 fs2 q) : Keeps fs fs2 q :=
  ⟨h2.1.trans h1.1, fun i hi => (h2.2 i (h1.1 ▸ hi)).trans (h1.2 i hi)⟩

theorem keeps_refl (fs : FileSystem) (q : Bytes) : Keeps fs fs q := ⟨rfl, fun _ _ => rfl⟩

/-- A write to an inode that `q` does not name keeps `q`. -/
theorem keeps_write {fs : FileSystem} {i : Nat} {q : Bytes} (hq : fs.entries q ≠ some (.file i))
    (bs : Bytes) : Keeps fs (fs.write i bs) q :=
  ⟨rfl, fun j hj => Function.update_noteq (by rintro rfl; exact hq hj) _ _⟩

theorem keeps_link {fs : FileSystem} (hv : fs.Valid) {p q : Bytes} (hq : q ≠ p) :
    Keeps fs (fs.link p).1 q :=
  ⟨Function.update_noteq hq _ _, fun j hj => Function.update_noteq (Nat.ne_of_lt (hv.1 q j hj)) _ _⟩

theorem keeps_createExcl {fs fs' : FileSystem} {p q : Bytes} {i : Nat} (hv : fs.Valid)
    (h : fs.createExcl p = .ok (fs', i)) (hq : q ≠ p) : Keeps fs fs' q := by
  obtain ⟨-, rfl, -⟩ := createExcl_ok h
  exact keeps_link hv hq

/-- `openTrunc` of `p` keeps every other path, and no other path names the inode it returns. -/
theorem keeps_openTrunc {fs fs1 : FileSystem} {p q : Bytes} {i : Nat} (hv : fs.Valid)
    (h : fs.openTrunc p = .ok (fs1, i)) (hq : q ≠ p) :
    Keeps fs fs1 q ∧ fs1.entries q ≠ some (.file i) := by
  rcases openTrunc_ok h with ⟨-, hl⟩ | ⟨hi, rfl⟩
  · obtain ⟨rfl, rfl⟩ := Prod.ext_iff.1 hl
    refine ⟨keeps_link hv hq, ?_⟩
    simp only [link_entries, link_ino, Function.update_noteq hq]
    exact fun h' => Nat.lt_irrefl _ (hv.1 q _ h')
  · have hne : fs.entries q ≠ some (.file i) := fun h' => hq (hv.2 q p i h' hi)
    exact ⟨⟨rfl, fun j hj => Function.update_noteq (by rintro rfl; exact hne hj) _ _⟩, hne⟩

theorem keeps_writeFile {fs fs' : FileSystem} {p q bs : Bytes} (hv : fs.Valid)
    (h : fs.writeFile p bs = .ok fs') (hq : q ≠ p) : Keeps fs fs' q := by
  unfold FileSystem.writeFile at h
  split at h
  · cases h
    obtain ⟨h1, h2⟩ := keeps_openTrunc hv ‹_› hq
    exact h1.trans (keeps_write h2 bs)
  · cases h

theorem keeps_rename {fs fs' : FileSystem} {src dst q : Bytes} (h : fs.rename src dst = .ok fs')
    (h1 : q ≠ src) (h2 : q ≠ dst) : Keeps fs fs' q :=
  ⟨entries_rename_other h h1 h2, fun _ _ => by rw [(rename_ok h).choose_spec.2.2.1]⟩

theorem keeps_remove {fs fs' : FileSystem} {p q : Bytes} (h : fs.remove p = .ok fs') (hq : q ≠ p) :
    Keeps fs fs' q := by
  obtain ⟨-, rfl⟩ := remove_ok h
  exact ⟨Function.update_noteq hq _ _, fun _ _ => rfl⟩

/-- `os.Remove` of a file unlinks its name. -/
theorem remove_of_file {fs : FileSystem} {p : Bytes} {i : Nat} (h : fs.entries p = some (.file i)) :
    fs.remove p = .ok { fs with entries := Function.update fs.entries p none } := by
  simp [remove, h]

theorem readFile_write_other {fs : FileSystem} {i : Nat} {q : Bytes}
    (hq : fs.entries q ≠ some (.file i)) (bs : Bytes) : (fs.write i bs).readFile q = fs.readFile q :=
  (keeps_write hq bs).readFile

theorem readFile_link_other {fs : FileSystem} (hv : fs.Valid) {p q : Bytes} (hq : q ≠ p) :
    (fs.link p).1.readFile q = fs.readFile q :=
  (keeps_link hv hq).readFile

theorem readFile_createExcl_other {fs fs' : FileSystem} {p q : Bytes} {i : Nat} (hv : fs.Valid)
    (h : fs.createExcl p = .ok (fs', i)) (hq : q ≠ p) : fs'.readFile q = fs.readFile q :=
  (keeps_createExcl hv h hq).readFile

theorem readFile_writeFile_other {fs fs' : FileSystem} {p q bs : Bytes} (hv : fs.Valid)
    (h : fs.writeFile p bs = .ok fs') (hq : q ≠ p) : fs'.readFile q = fs.readFile q :=
  (keeps_writeFile hv h hq).readFile

theorem readFile_remove_other {fs fs' : FileSystem} {p q : Bytes} (h : fs.remove p = .ok fs')
    (hq : q ≠ p) : fs'.readFile q = fs.readFile q :=
  (keeps_remove h hq).readFile

/-! ## Directories -/

theorem mkdirAll_of_dir {fs : FileSystem} {p : Bytes} (h : fs.entries p = some .dir) :
    fs.mkdirAll p = .ok fs := by
  simp [mkdirAll, h]

/-- The cases of a successful `os.MkdirAll`. -/
theorem mkdirAll_ok {fs fs' : FileSystem} {p : Bytes} (h : fs.mkdirAll p = .ok fs') :
    (fs.entries p = some .dir ∧ fs' = fs) ∨
      (fs.entries p = none ∧ fs' = { fs with entries := Function.update fs.entries p (some .dir) }) := by
  unfold mkdirAll at h
  split at h
  · exact .inl ⟨‹_›, (Except.ok.inj h).symm⟩
  · cases h
  · exact .inr ⟨‹_›, (Except.ok.inj h).symm⟩

/-- After `os.MkdirAll(p)`, `p` is a directory. -/
theorem mkdirAll_entries {fs fs' : FileSystem} {p : Bytes} (h : fs.mkdirAll p = .ok fs') :
    fs'.entries p = some .dir := by
  rcases mkdirAll_ok h with ⟨hp, rfl⟩ | ⟨-, rfl⟩
  · exact hp
  · exact Function.update_same _ _ _

/-- `os.MkdirAll` keeps every path but a free one it makes a directory. -/
theorem keeps_mkdirAll {fs fs' : FileSystem} {p q : Bytes} (h : fs.mkdirAll p = .ok fs')
    (hq : q ≠ p ∨ fs.entries q ≠ none) : Keeps fs fs' q := by
  rcases mkdirAll_ok h with ⟨-, rfl⟩ | ⟨hp, rfl⟩
  · exact keeps_refl _ _
  · refine ⟨?_, fun _ _ => rfl⟩
    rcases hq with hq | hq
    · exact Function.update_noteq hq _ _
    · exact Function.update_noteq (fun e => hq (by rw [e]; exact hp)) _ _

theorem Valid.mkdirAll {fs fs' : FileSystem} {p : Bytes} (hv : fs.Valid)
    (h : fs.mkdirAll p = .ok fs') : fs'.Valid := by
  rcases mkdirAll_ok h with ⟨-, rfl⟩ | ⟨-, rfl⟩
  · exact hv
  · have look : ∀ q j, Function.update fs.entries p (some .dir) q = some (.file j) →
        fs.entries q = some (.file j) := by
      intro q j hq
      by_cases hqp : q = p
      · subst hqp; simp at hq
      · rwa [Function.update_noteq hqp] at hq
    exact ⟨fun q j hq => hv.1 q j (look q j hq), fun q r j hq hr => hv.2 q r j (look q j hq) (look r j hr)⟩

/-- After `os.RemoveAll`, a path is gone or as it was. -/
theorem removeAll_entries (fs : FileSystem) (under kept : Bytes → Bool) (q : Bytes) :
    (fs.removeAll under kept).entries q = none ∨ Keeps fs (fs.removeAll under kept) q := by
  by_cases h : (under q && !kept q) = true
  · exact .inl (if_pos h)
  · exact .inr ⟨if_neg h, fun _ _ => rfl⟩

/-- `os.RemoveAll` removes every path it selects and does not keep. -/
theorem removeAll_entries_of_under {fs : FileSystem} {under kept : Bytes → Bool} {q : Bytes}
    (hu : under q = true) (hk : kept q = false) : (fs.removeAll under kept).entries q = none :=
  if_pos (by simp [hu, hk])

theorem Valid.removeAll {fs : FileSystem} (hv : fs.Valid) (under kept : Bytes → Bool) :
    (fs.removeAll under kept).Valid := by
  have look : ∀ q j, (fs.removeAll under kept).entries q = some (.file j) →
      fs.entries q = some (.file j) := by
    intro q j hq
    rcases removeAll_entries fs under kept q with h | h
    · rw [h] at hq; cases hq
    · rwa [h.1] at hq
  exact ⟨fun q j hq => hv.1 q j (look q j hq), fun q r j hq hr => hv.2 q r j (look q j hq) (look r j hr)⟩

end FileSystem

end GoBuildCache.Os
