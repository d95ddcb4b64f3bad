import GoBuildCache.Os.FileSystem
import GoBuildCache.Strings.Hex
import GoBuildCache.Strings.Decimal
import Mathlib.Data.List.Nodup

/-!
# The local cache directory and the paths of its entries

`LocalCache` stores the entry of an action id `A` under `filepath.Join(cacheDir, hex(A))`, its
sidecar under that path plus `.meta`, the sidecar's temporary file under the sidecar's path
plus `.tmp`, and the temporary files of `Write` under `cacheDir/.tmp-<random>`
(`os.CreateTemp(cacheDir, ".tmp-*")`, whose random part is the decimal value of a `uint32`).

`NewLocalCache` runs `os.MkdirAll(cacheDir)`, which fails on the empty string, so a
`LocalCache` carries a non-empty directory name.

Every path of the cache is a `Place`: the body, the sidecar or the sidecar's temporary file of
an action id, or a temporary file of `Write`.  The result of the module is `place_injective`:
two different places are two different paths, for every `cacheDir` and every action id,
including the empty one (whose body path is the cache directory itself).  The proof goes
through two normal forms: a place of a non-empty action id and a temporary file are a name
inside `Clean(cacheDir)` (`Path.child`), and a place of the empty action id is `Clean(cacheDir)`
followed by nothing, `.meta` or `.meta.tmp`.

From the first normal form, `entryPaths_private`: the three paths of the entry of a non-empty
action id lie strictly inside the directory and are not temporary files of `Write`.  The empty
action id is the exception (`entryPaths_nil_outside`).
-/

namespace GoBuildCache

open Path

/-- `LocalCache`: the directory of the local cache, which `NewLocalCache` has created, and the
process it runs in. -/
structure LocalCache where
  cacheDir : Bytes
  cacheDir_ne : cacheDir ≠ []
  proc : Os.Process

namespace LocalCache

/-- `actionIDToPath`: `filepath.Join(cacheDir, hex.EncodeToString(actionID))`. -/
def actionIDToPath (lc : LocalCache) (actionID : Bytes) : Bytes :=
  join lc.cacheDir (Hex.encodeToString actionID)

/-- `GetPath`: `filepath.Abs` of the entry's path, or the path itself when `os.Getwd` fails. -/
def getPath (lc : LocalCache) (actionID : Bytes) : Bytes :=
  lc.proc.abs (lc.actionIDToPath actionID)

/-- `metadataPath`: the entry's path plus `.meta`. -/
def metadataPath (lc : LocalCache) (actionID : Bytes) : Bytes :=
  lc.actionIDToPath actionID ++ ascii ".meta"

/-- The `tmpPath` of `writeMetadata`: the sidecar's path plus `.tmp`. -/
def metadataTmpPath (lc : LocalCache) (actionID : Bytes) : Bytes :=
  lc.metadataPath actionID ++ ascii ".tmp"

/-- The file that `os.CreateTemp(cacheDir, ".tmp-*")` opens when its random part is `n`:
`cacheDir + "/" + ".tmp-" + n`, in its clean spelling. -/
def tempPath (lc : LocalCache) (n : UInt32) : Bytes :=
  join lc.cacheDir (ascii ".tmp-" ++ Decimal.formatNat n.toNat)

/-- The places of the cache directory. -/
inductive Place
  /-- `actionIDToPath(A)`. -/
  | body (actionID : Bytes)
  /-- `metadataPath(A)`. -/
  | meta (actionID : Bytes)
  /-- The sidecar's temporary file. -/
  | metaTmp (actionID : Bytes)
  /-- A temporary file of `Write`. -/
  | temp (n : UInt32)
  deriving DecidableEq

/-- The path of a place. -/
def place (lc : LocalCache) : Place → Bytes
  | .body a => lc.actionIDToPath a
  | .meta a => lc.metadataPath a
  | .metaTmp a => lc.metadataTmpPath a
  | .temp n => lc.tempPath n

/-- The clean cache directory. -/
def root (lc : LocalCache) : Bytes := clean lc.cacheDir

/-- A new cache: the directory, empty. -/
def fresh (lc : LocalCache) : Os.FileSystem :=
  ⟨Function.update (fun _ => none) lc.root (some .dir), fun _ => [], 0⟩

/-! ## Names and the first dot -/

/-- Two names split at their first dot agree before it and after it. -/
theorem dot_split_inj {x y u v : Bytes} (hx : (46 : UInt8) ∉ x) (hy : (46 : UInt8) ∉ y)
    (h : x ++ 46 :: u = y ++ 46 :: v) : x = y ∧ u = v := by
  induction x generalizing y with
  | nil =>
    cases y with
    | nil => exact ⟨rfl, (List.cons.inj h).2⟩
    | cons b y =>
      obtain ⟨rfl, -⟩ := List.cons.inj h
      exact absurd (.head _) hy
  | cons a x ih =>
    cases y with
    | nil =>
      obtain ⟨rfl, -⟩ := List.cons.inj h
      exact absurd (.head _) hx
    | cons b y =>
      rw [List.cons_append, List.cons_append] at h
      obtain ⟨rfl, htl⟩ := List.cons.inj h
      obtain ⟨rfl, rfl⟩ := ih (fun h' => hx (.tail _ h')) (fun h' => hy (.tail _ h')) htl
      exact ⟨rfl, rfl⟩

/-- Hex digits are neither `.` nor `/`. -/
theorem dot_slash_not_mem_encodeToString (a : Bytes) :
    (46 : UInt8) ∉ Hex.encodeToString a ∧ slash ∉ Hex.encodeToString a := by
  constructor <;> intro h <;> obtain ⟨n, hn, hc⟩ := Hex.mem_encodeToString h <;>
    have := Hex.hextable_range hn <;> rw [← hc] at this <;> exact absurd this (by decide)

theorem encodeToString_isName {a : Bytes} (ha : a ≠ []) : IsName (Hex.encodeToString a) := by
  obtain ⟨hd, hs⟩ := dot_slash_not_mem_encodeToString a
  refine ⟨by simpa using ha, hs, fun h => hd (by simp [h, dot]), fun h => hd (by simp [h, dotdot])⟩

/-- The name of a temporary file. -/
theorem tempName_isName (n : UInt32) : IsName (ascii ".tmp-" ++ Decimal.formatNat n.toNat) := by
  have hdig := Decimal.formatNat_isDigit n.toNat
  refine ⟨by simp [ascii], fun h => ?_, by simp [ascii, dot], by simp [ascii, dotdot]⟩
  rcases List.mem_append.1 h with h | h
  · revert h; decide
  · exact absurd (hdig _ h) (by decide)

/-! ## Children of a clean directory -/

theorem child_inj {d n n' : Bytes} (h : child d n = child d n') : n = n' := by
  unfold child at h
  split_ifs at h
  · exact (List.cons.inj h).2
  · exact h
  · exact (List.cons.inj (List.append_cancel_left h)).2

theorem child_ne_self {d n : Bytes} (hn : IsName n) : child d n ≠ d := by
  unfold child
  split_ifs with h1 h2
  · rintro h; rw [h1] at h; exact hn.1 (List.cons.inj h).2
  · rintro rfl; exact hn.2.2.1 h2
  · intro h
    have := congrArg List.length h
    simp at this

/-- A name inside `d` is not `d` followed by a dot, unless the name starts with that dot. -/
theorem child_ne_dot_append {d n s : Bytes} (h1 : n ≠ 46 :: s) (h2 : n ≠ 46 :: 46 :: s) :
    child d n ≠ d ++ 46 :: s := by
  unfold child
  split_ifs with hd1 hd2
  · subst hd1; intro h; exact h1 (List.cons.inj h).2
  · subst hd2; exact h2
  · intro h
    have := (List.cons.inj (List.append_cancel_left h)).1
    simp [slash] at this

/-! ## The two normal forms -/

theorem join_nil_right (d : Bytes) (hd : d ≠ []) : join d [] = clean d := by
  have hr : rooted (d ++ [slash]) = rooted d := by
    obtain ⟨c, cs, rfl⟩ := List.exists_cons_of_ne_nil hd
    rfl
  have hst : cleanStack (d ++ [slash]) = cleanStack d := by
    rw [cleanStack, splitOn_append_sep d (List.not_mem_nil _), List.foldl_append, hr]
    simp [pushElem, cleanStack]
  rw [join, if_pos hd]
  unfold clean
  rw [hr, hst]

theorem actionIDToPath_nil (lc : LocalCache) : lc.actionIDToPath [] = lc.root :=
  join_nil_right _ lc.cacheDir_ne

theorem actionIDToPath_of_ne {lc : LocalCache} {a : Bytes} (ha : a ≠ []) :
    lc.actionIDToPath a = child lc.root (Hex.encodeToString a) :=
  join_name lc.cacheDir_ne (encodeToString_isName ha)

theorem child_append (d n s : Bytes) : child d n ++ s = child d (n ++ s) := by
  unfold child
  split_ifs <;> simp

theorem tempPath_eq (lc : LocalCache) (n : UInt32) :
    lc.tempPath n = child lc.root (ascii ".tmp-" ++ Decimal.formatNat n.toNat) :=
  join_name lc.cacheDir_ne (tempName_isName n)

/-- A place as a name inside the clean directory, or as the clean directory followed by a
suffix. -/
def Place.form : Place → Bytes ⊕ Bytes
  | .body a => if a = [] then .inr [] else .inl (Hex.encodeToString a)
  | .meta a => if a = [] then .inr (ascii ".meta") else .inl (Hex.encodeToString a ++ ascii ".meta")
  | .metaTmp a =>
    if a = [] then .inr (ascii ".meta.tmp") else .inl (Hex.encodeToString a ++ ascii ".meta.tmp")
  | .temp n => .inl (ascii ".tmp-" ++ Decimal.formatNat n.toNat)

/-- The path of a place from its normal form. -/
theorem place_eq (lc : LocalCache) (k : Place) :
    lc.place k = match k.form with
      | .inl n => child lc.root n
      | .inr s => lc.root ++ s := by
  cases k with
  | body a =>
    by_cases ha : a = [] <;> simp [place, Place.form, ha, actionIDToPath_nil, actionIDToPath_of_ne]
  | meta a =>
    by_cases ha : a = [] <;>
      simp [place, Place.form, ha, metadataPath, actionIDToPath_nil, actionIDToPath_of_ne, child_append]
  | metaTmp a =>
    by_cases ha : a = [] <;>
      simp [place, Place.form, ha, metadataTmpPath, metadataPath, actionIDToPath_nil,
        actionIDToPath_of_ne, child_append, ascii]
  | temp n => simp [place, Place.form, tempPath_eq]

/-- The place a normal form stands for, the inverse of `Place.form`.  A name is split at its first
dot: the part before it is the hex of the action id, and the part from the dot on says which
place it is. -/
def Place.ofForm : Bytes ⊕ Bytes → Option Place
  | .inr s =>
    if s = [] then some (.body []) else if s = ascii ".meta" then some (.meta [])
    else if s = ascii ".meta.tmp" then some (.metaTmp []) else none
  | .inl n =>
    match Hex.decodeString (n.takeWhile (· != 46)) with
    | .error _ => none
    | .ok a =>
      if n.dropWhile (· != 46) = [] then some (.body a)
      else if n.dropWhile (· != 46) = ascii ".meta" then some (.meta a)
      else if n.dropWhile (· != 46) = ascii ".meta.tmp" then some (.metaTmp a)
      else match Decimal.parseUint ((n.dropWhile (· != 46)).drop 5) with
        | .ok v => some (.temp (UInt32.ofNat v))
        | .error _ => none

/-- The hex of an action id followed by a suffix that starts with a dot, split at the dot. -/
theorem split_hex_dot (a s : Bytes) :
    (Hex.encodeToString a ++ s).takeWhile (· != 46) = Hex.encodeToString a ++ s.takeWhile (· != 46) ∧
      (Hex.encodeToString a ++ s).dropWhile (· != 46) = s.dropWhile (· != 46) := by
  have hd : ∀ c ∈ Hex.encodeToString a, (c != 46) = true := fun c hc => by
    have : c ≠ 46 := fun h => (dot_slash_not_mem_encodeToString a).1 (h ▸ hc)
    simpa using this
  exact ⟨List.takeWhile_append_of_pos hd, List.dropWhile_append_of_pos hd⟩

theorem ascii_meta : ascii ".meta" = [46, 109, 101, 116, 97] := rfl

theorem ascii_metaTmp : ascii ".meta.tmp" = [46, 109, 101, 116, 97, 46, 116, 109, 112] := rfl

theorem ascii_tmp : ascii ".tmp-" = [46, 116, 109, 112, 45] := rfl

theorem Place.ofForm_form (k : Place) : Place.ofForm k.form = some k := by
  cases k with
  | body a =>
    by_cases ha : a = []
    · simp [form, ofForm, ha]
    · have h := split_hex_dot a []
      simp only [List.append_nil, List.takeWhile_nil, List.dropWhile_nil] at h
      simp [form, ofForm, ha, h.1, h.2]
  | meta a =>
    by_cases ha : a = []
    · simp [form, ofForm, ha, ascii_meta]
    · have h := split_hex_dot a (ascii ".meta")
      have h1 : (ascii ".meta").takeWhile (· != 46) = [] := rfl
      have h2 : (ascii ".meta").dropWhile (· != 46) = ascii ".meta" := rfl
      simp only [form, ofForm, if_neg ha, h.1, h.2, h1, h2, List.append_nil,
        Hex.decodeString_encodeToString]
      simp [ascii_meta]
  | metaTmp a =>
    by_cases ha : a = []
    · simp [form, ofForm, ha, ascii_meta, ascii_metaTmp]
    · have h := split_hex_dot a (ascii ".meta.tmp")
      have h1 : (ascii ".meta.tmp").takeWhile (· != 46) = [] := rfl
      have h2 : (ascii ".meta.tmp").dropWhile (· != 46) = ascii ".meta.tmp" := rfl
      simp only [form, ofForm, if_neg ha, h.1, h.2, h1, h2, List.append_nil,
        Hex.decodeString_encodeToString]
      simp [ascii_meta, ascii_metaTmp]
  | temp n =>
    have hle : n.toNat ≤ Decimal.maxUint64 := by
      have := n.toNat_lt_size; simp only [Decimal.maxUint64]; simp only [UInt32.size] at this; omega
    simp [form, ofForm, ascii_tmp, ascii_meta, ascii_metaTmp, Decimal.parseUint_formatNat hle,
      Hex.decodeString]

theorem Place.form_injective : Function.Injective Place.form := fun k k' h =>
  Option.some.inj ((ofForm_form k).symm.trans (h ▸ ofForm_form k'))

/-- A name made of the hex of a non-empty action id and a suffix without separators. -/
theorem hex_append_isName {a : Bytes} (ha : a ≠ []) {s : Bytes} (hs : slash ∉ s) :
    IsName (Hex.encodeToString a ++ s) ∧ ∀ t, Hex.encodeToString a ++ s ≠ 46 :: t := by
  obtain ⟨hd, hsl⟩ := dot_slash_not_mem_encodeToString a
  obtain ⟨c, cs, hc⟩ := List.exists_cons_of_ne_nil (mt Hex.encodeToString_eq_nil.1 ha)
  have hc46 : c ≠ 46 := fun h => hd (hc ▸ h ▸ .head _)
  have hne : ∀ t, Hex.encodeToString a ++ s ≠ 46 :: t := fun t h => by
    rw [hc, List.cons_append] at h
    exact hc46 (List.cons.inj h).1
  refine ⟨⟨by simp [hc], fun h => ?_, fun h => hne [] h, fun h => hne [46] h⟩, hne⟩
  rcases List.mem_append.1 h with h | h
  · exact hsl h
  · exact hs h

/-- What a name inside the directory looks like: a name, and if it starts with a dot (a
temporary file), a `t` follows. -/
theorem Place.form_inl {k : Place} {n : Bytes} (h : k.form = .inl n) :
    IsName n ∧ ∀ t, n = 46 :: t → t.head? = some 116 := by
  cases k with
  | body a =>
    simp only [form] at h
    split_ifs at h with ha
    cases h
    have := hex_append_isName ha (s := []) (List.not_mem_nil _)
    rw [List.append_nil] at this
    exact ⟨this.1, fun t ht => absurd ht (this.2 t)⟩
  | meta a =>
    simp only [form] at h
    split_ifs at h with ha
    cases h
    have := hex_append_isName ha (s := ascii ".meta") (by decide)
    exact ⟨this.1, fun t ht => absurd ht (this.2 t)⟩
  | metaTmp a =>
    simp only [form] at h
    split_ifs at h with ha
    cases h
    have := hex_append_isName ha (s := ascii ".meta.tmp") (by decide)
    exact ⟨this.1, fun t ht => absurd ht (this.2 t)⟩
  | temp m =>
    cases h
    refine ⟨tempName_isName m, fun t ht => ?_⟩
    rw [ascii_tmp] at ht
    simp only [List.cons_append, List.cons.injEq] at ht
    rw [← ht.2]
    rfl

/-- A place of the empty action id is the directory followed by nothing or by a suffix that
starts with `.m`. -/
theorem Place.form_inr {k : Place} {s : Bytes} (h : k.form = .inr s) :
    s = [] ∨ ∃ r, s = 46 :: r ∧ r.head? = some 109 := by
  cases k <;> simp only [form] at h <;> (try split_ifs at h) <;> cases h
  · exact .inl rfl
  · exact .inr ⟨_, rfl, rfl⟩
  · exact .inr ⟨_, rfl, rfl⟩

/-- Two different places of a cache are two different paths. -/
theorem place_injective (lc : LocalCache) : Function.Injective lc.place := by
  intro k k' h
  apply Place.form_injective
  rw [place_eq, place_eq] at h
  have cross : ∀ {k k' : Place} {n s : Bytes}, k.form = .inl n → k'.form = .inr s →
      child lc.root n ≠ lc.root ++ s := by
    intro k k' n s hn hs
    obtain ⟨hname, hdot⟩ := Place.form_inl hn
    rcases Place.form_inr hs with rfl | ⟨r, rfl, hr⟩
    · rw [List.append_nil]; exact child_ne_self hname
    · refine child_ne_dot_append (fun h' => ?_) (fun h' => ?_)
      · have := hdot r h'; rw [hr] at this; cases this
      · have := hdot _ h'; cases this
  rcases hk : k.form with n | s <;> rcases hk' : k'.form with n' | s' <;> rw [hk, hk'] at h
  · exact congrArg _ (child_inj h)
  · exact absurd h (cross hk hk')
  · exact absurd h.symm (cross hk' hk)
  · exact congrArg _ (List.append_cancel_left h)

theorem place_ne (lc : LocalCache) {k k' : Place} (h : k ≠ k') : lc.place k ≠ lc.place k' :=
  fun h' => h (lc.place_injective h')

/-! ## The paths of one entry -/

/-- The paths of the entry of `A`: its body, its sidecar and the sidecar's temporary file. -/
def entryPaths (lc : LocalCache) (actionID : Bytes) : List Bytes :=
  [lc.actionIDToPath actionID, lc.metadataPath actionID, lc.metadataTmpPath actionID]

theorem entryPaths_eq (lc : LocalCache) (a : Bytes) :
    lc.entryPaths a = [Place.body a, .meta a, .metaTmp a].map lc.place := rfl

/-- The path of a place of a non-empty action id is a name inside the clean directory, made of
the hex of the id and a suffix without separators. -/
theorem place_of_ne {lc : LocalCache} {a : Bytes} (ha : a ≠ []) {k : Place}
    (hk : k ∈ [Place.body a, .meta a, .metaTmp a]) :
    ∃ s, slash ∉ s ∧ lc.place k = child lc.root (Hex.encodeToString a ++ s) := by
  simp only [List.mem_cons, List.not_mem_nil, or_false] at hk
  rcases hk with rfl | rfl | rfl <;> simp only [place_eq, Place.form, if_neg ha]
  exacts [⟨[], List.not_mem_nil _, by rw [List.append_nil]⟩, ⟨_, by decide, rfl⟩,
    ⟨_, by decide, rfl⟩]

/-- The paths of the entry of a non-empty action id are three different paths strictly inside the
cache directory, none of them a name that `Write`'s pattern `.tmp-*` matches; and no path of the
entry of `A` is a path of the entry of another action id, the empty one included. -/
theorem entryPaths_private (lc : LocalCache) {a : Bytes} (ha : a ≠ []) :
    (lc.entryPaths a).Nodup ∧
      (∀ p ∈ lc.entryPaths a, within lc.root p = true ∧ p ≠ lc.root ∧
        ∀ x, p ≠ child lc.root (ascii ".tmp-" ++ x)) ∧
      ∀ b, b ≠ a → ∀ p ∈ lc.entryPaths a, p ∉ lc.entryPaths b := by
  refine ⟨?_, fun p hp => ?_, fun b hb p hp hq => ?_⟩
  · rw [entryPaths_eq]
    exact List.Nodup.map lc.place_injective (by simp)
  · rw [entryPaths_eq, List.mem_map] at hp
    obtain ⟨k, hk, rfl⟩ := hp
    obtain ⟨s, hs, he⟩ := place_of_ne ha hk
    obtain ⟨hname, hdot⟩ := hex_append_isName ha hs
    rw [he]
    exact ⟨within_child _ hname, child_ne_self hname, fun x h => hdot _ (child_inj h)⟩
  · rw [entryPaths_eq, List.mem_map] at hp hq
    obtain ⟨k, hk, rfl⟩ := hp
    obtain ⟨k', hk', he⟩ := hq
    have : k' = k := lc.place_injective he
    subst this
    simp only [List.mem_cons, List.not_mem_nil, or_false] at hk hk'
    rcases hk with rfl | rfl | rfl <;> rcases hk' with h | h | h <;> cases h <;> exact hb rfl

theorem entryPaths_private_one :
    ([1] : Bytes) ≠ [] ∧ ∀ lc : LocalCache, (lc.entryPaths [1]).Nodup ∧
      (∀ p ∈ lc.entryPaths [1], within lc.root p = true ∧ p ≠ lc.root ∧
        ∀ x, p ≠ child lc.root (ascii ".tmp-" ++ x)) ∧
      ∀ b, b ≠ [1] → ∀ p ∈ lc.entryPaths [1], p ∉ lc.entryPaths b :=
  ⟨by decide, fun lc => entryPaths_private lc (by decide)⟩

/-- The entry of the empty action id in the cache directory `c`: its body path is `c` itself, and
its sidecar and the sidecar's temporary file are `c.meta` and `c.meta.tmp`, outside `c`. -/
theorem entryPaths_nil_outside :
    let lc : LocalCache := ⟨ascii "c", by decide, Os.Process.sample⟩
    lc.actionIDToPath [] = lc.root ∧ within lc.root (lc.metadataPath []) = false ∧
      within lc.root (lc.metadataTmpPath []) = false :=
  ⟨actionIDToPath_nil _, by decide, by decide⟩

end LocalCache

end GoBuildCache
