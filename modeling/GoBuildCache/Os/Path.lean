import GoBuildCache.Basic
import Mathlib.Data.List.Basic

/-!
# `path/filepath` on Unix: `Clean` and `Join`

`LocalCache` names every file with `filepath.Join(cacheDir, hex(actionID))`, appends `.meta` and
`.tmp` to that name, and gets its temporary files from `os.CreateTemp(cacheDir, ".tmp-*")`.
The file system resolves all of them; without symbolic links two spellings name the same file
exactly when `filepath.Clean` maps them to the same path, so the file-system model is keyed by
clean paths.

* `clean` follows the rules of `filepath.Clean`: separators collapse, `.` elements vanish, an
  inner `..` removes the element before it, a `..` at the root vanishes, and an empty result is
  `.`.  Go runs them as one pass over the bytes with a write cursor; here the elements are
  pushed on a stack (`pushElem`), the head of the list being the last element.
* `join` is `filepath.Join` of two elements: the non-empty tail of the arguments, joined by
  `/` and cleaned.

The main lemma is `join_name`: joining a directory and a single file name (`IsName`) gives the
clean directory with that name appended (`child`).  Every path of the local cache is of this
form, so the lemmas about which of its paths can be equal reduce to lemmas about `child`.
-/

namespace GoBuildCache.Path

/-- The separator `/`. -/
def slash : UInt8 := 47

/-- The element `.`. -/
def dot : Bytes := [46]

/-- The element `..`. -/
def dotdot : Bytes := [46, 46]

/-- One element pushed on the stack of `Clean`: an empty element and `.` vanish; `..` removes
the element on top of the stack unless that is `..` too, stays at the start of a relative path,
and vanishes at the root. -/
def pushElem (rooted : Bool) (st : List Bytes) (e : Bytes) : List Bytes :=
  if e = [] ∨ e = dot then st
  else if e = dotdot then
    match st with
    | top :: rest => if top = dotdot then e :: st else rest
    | [] => if rooted then [] else [e]
  else e :: st

/-- Whether a path starts at the root. -/
def rooted (p : Bytes) : Bool := p.head? == some slash

/-- The elements that `Clean` keeps, last element first. -/
def cleanStack (p : Bytes) : List Bytes := (p.splitOn slash).foldl (pushElem (rooted p)) []

/-- Elements joined by `/`. -/
def joinElems : List Bytes → Bytes
  | [] => []
  | [e] => e
  | e :: es => e ++ slash :: joinElems es

/-- `filepath.Clean`. -/
def clean (p : Bytes) : Bytes :=
  if rooted p then slash :: joinElems (cleanStack p).reverse
  else if cleanStack p = [] then dot
  else joinElems (cleanStack p).reverse

/-- `filepath.Join(a, b)`: the arguments from the first non-empty one on, joined by `/` and
cleaned; `""` when both are empty. -/
def join (a b : Bytes) : Bytes :=
  if a ≠ [] then clean (a ++ slash :: b)
  else if b ≠ [] then clean b
  else []

/-- A single file name: not empty, no separator, and not `.` or `..`. -/
def IsName (n : Bytes) : Prop := n ≠ [] ∧ slash ∉ n ∧ n ≠ dot ∧ n ≠ dotdot

instance (n : Bytes) : Decidable (IsName n) := inferInstanceAs (Decidable (_ ∧ _))

/-- The name `n` inside the clean directory `d`. -/
def child (d n : Bytes) : Bytes :=
  if d = [slash] then slash :: n else if d = dot then n else d ++ slash :: n

/-- `filepath.Dir(p)`: everything up to the last slash, cleaned (`"."` when there is none). -/
def dir (p : Bytes) : Bytes := clean (p.reverse.dropWhile (· ≠ slash)).reverse

/-- `p` is `d` or lies below it, both in clean spelling: what `os.RemoveAll(d)` removes.  Below
`.` lies every relative path that does not climb out of it with `..`. -/
def within (d p : Bytes) : Bool :=
  p == d || if d = [slash] then rooted p
    else if d = dot then !rooted p && p != dotdot && !(dotdot ++ [slash]).isPrefixOf p
    else (d ++ [slash]).isPrefixOf p

/-- `filepath.Abs(p)` as the cache calls it: a rooted path is cleaned, a relative one is joined to
the working directory `wd` that `os.Getwd` reports, and when `os.Getwd` fails (`wd = none`) the
caller keeps `p` (`absPath = diskPath`). -/
def abs (wd : Option Bytes) (p : Bytes) : Bytes :=
  if rooted p then clean p
  else match wd with
    | some d => join d p
    | none => p

/-! ## Splitting at separators -/

/-- No element of a split holds the separator. -/
theorem not_mem_of_mem_splitOn {x : UInt8} {l e : Bytes} (he : e ∈ l.splitOn x) : x ∉ e := by
  induction l generalizing e with
  | nil =>
    rw [List.splitOn_nil, List.mem_singleton] at he
    subst he; exact List.not_mem_nil x
  | cons c l ih =>
    simp only [List.splitOn, List.splitOnP_cons] at he ih
    split at he
    · rcases List.mem_cons.1 he with rfl | he
      · exact List.not_mem_nil x
      · exact ih he
    · rename_i hc
      obtain ⟨h, t, hht⟩ := List.exists_cons_of_ne_nil (List.splitOnP_ne_nil (· == x) l)
      rw [hht, List.modifyHead_cons] at he
      rcases List.mem_cons.1 he with rfl | he
      · rw [List.mem_cons, not_or]
        exact ⟨fun h' => hc (by simp [h']), ih (hht ▸ .head _)⟩
      · exact ih (hht ▸ .tail _ he)

/-- A separator and a name without separators add one last element to the split. -/
theorem splitOn_append_sep {x : UInt8} (l : Bytes) {n : Bytes} (hn : x ∉ n) :
    (l ++ x :: n).splitOn x = l.splitOn x ++ [n] := by
  induction l with
  | nil =>
    simp only [List.nil_append, List.splitOn, List.splitOnP_cons, beq_self_eq_true, if_true,
      List.splitOn_nil]
    rw [List.splitOnP_eq_single _ _ fun y hy h => hn (by simpa using (beq_iff_eq.1 h) ▸ hy)]
    rfl
  | cons c l ih =>
    simp only [List.splitOn] at ih ⊢
    rw [List.cons_append, List.splitOnP_cons, List.splitOnP_cons, ih]
    obtain ⟨h, t, hht⟩ := List.exists_cons_of_ne_nil (List.splitOnP_ne_nil (· == x) l)
    split <;> simp [hht]

/-! ## The stack of `Clean` -/

/-- An element that `Clean` keeps: not empty, no separator, not `.`. -/
def Kept (e : Bytes) : Prop := e ≠ [] ∧ slash ∉ e ∧ e ≠ dot

theorem pushElem_kept {r : Bool} {st : List Bytes} (hst : ∀ e ∈ st, Kept e) {e : Bytes}
    (he : slash ∉ e) : ∀ f ∈ pushElem r st e, Kept f := by
  have hdd : Kept dotdot := ⟨by simp [dotdot], by simp [dotdot, slash], by simp [dotdot, dot]⟩
  unfold pushElem
  by_cases h1 : e = [] ∨ e = dot
  · rw [if_pos h1]; exact hst
  rw [if_neg h1]
  by_cases h2 : e = dotdot
  · rw [if_pos h2]
    subst h2
    rcases st with _ | ⟨top, rest⟩
    · cases r <;> simp [hdd]
    · dsimp only
      split_ifs
      · exact List.forall_mem_cons.2 ⟨hdd, hst⟩
      · exact fun f hf => hst f (.tail _ hf)
  · rw [if_neg h2]
    exact List.forall_mem_cons.2 ⟨⟨fun h => h1 (.inl h), he, fun h => h1 (.inr h)⟩, hst⟩

theorem cleanStack_kept (p : Bytes) : ∀ e ∈ cleanStack p, Kept e := by
  unfold cleanStack
  suffices ∀ (l : List Bytes) (st : List Bytes), (∀ e ∈ l, slash ∉ e) → (∀ e ∈ st, Kept e) →
      ∀ f ∈ l.foldl (pushElem (rooted p)) st, Kept f from
    this _ [] (fun e he => not_mem_of_mem_splitOn he) (by simp)
  intro l
  induction l with
  | nil => exact fun st _ hst => hst
  | cons e l ih =>
    intro st hl hst
    exact ih _ (fun f hf => hl f (.tail _ hf)) (pushElem_kept hst (hl e (.head _)))

/-- Joining kept elements gives neither `/` nor `.`, and nothing only for no elements. -/
theorem joinElems_kept {l : List Bytes} (hl : ∀ e ∈ l, Kept e) (hne : l ≠ []) :
    joinElems l ≠ [] ∧ joinElems l ≠ [slash] ∧ joinElems l ≠ dot := by
  obtain ⟨e, es, rfl⟩ := List.exists_cons_of_ne_nil hne
  obtain ⟨he1, he2, he3⟩ := hl e (.head _)
  cases es with
  | nil => exact ⟨he1, fun h => he2 (by rw [show e = [slash] from h]; exact .head _), he3⟩
  | cons f fs =>
    have hlen : 2 ≤ (joinElems (e :: f :: fs)).length := by
      have := List.length_pos.2 he1
      simp only [joinElems, List.length_append, List.length_cons]
      omega
    refine ⟨fun h => ?_, fun h => ?_, fun h => ?_⟩ <;> simp [h, dot] at hlen

theorem joinElems_append_singleton {l : List Bytes} (hl : l ≠ []) (n : Bytes) :
    joinElems (l ++ [n]) = joinElems l ++ slash :: n := by
  induction l with
  | nil => exact absurd rfl hl
  | cons e es ih =>
    cases es with
    | nil => rfl
    | cons f fs =>
      show e ++ slash :: joinElems ((f :: fs) ++ [n]) = (e ++ slash :: joinElems (f :: fs)) ++ slash :: n
      rw [ih (List.cons_ne_nil f fs)]
      simp

/-! ## Joining a name -/

/-- A name pushed on the stack stays on top. -/
theorem pushElem_name {r : Bool} (st : List Bytes) {n : Bytes} (hn : IsName n) :
    pushElem r st n = n :: st := by
  obtain ⟨h1, -, h3, h4⟩ := hn
  unfold pushElem
  rw [if_neg (by tauto), if_neg h4]

/-- `filepath.Join(d, n)` for a non-empty `d` and a name `n` is `n` inside `Clean(d)`. -/
theorem join_name {d : Bytes} (hd : d ≠ []) {n : Bytes} (hn : IsName n) :
    join d n = child (clean d) n := by
  have hr : rooted (d ++ slash :: n) = rooted d := by
    obtain ⟨c, cs, rfl⟩ := List.exists_cons_of_ne_nil hd
    rfl
  have hst : cleanStack (d ++ slash :: n) = n :: cleanStack d := by
    rw [cleanStack, splitOn_append_sep d hn.2.1, List.foldl_append, hr]
    exact pushElem_name _ hn
  rw [join, if_pos hd]
  unfold clean child
  rw [hst, hr, List.reverse_cons]
  by_cases he : cleanStack d = []
  · cases rooted d <;> simp [he, joinElems, dot, slash]
  · have hrev := List.reverse_ne_nil_iff.2 he
    obtain ⟨h1, h2, h3⟩ := joinElems_kept (fun e he' => cleanStack_kept d e (List.mem_reverse.1 he'))
      hrev
    rw [joinElems_append_singleton hrev]
    cases rooted d
    · simp [he, h2, h3]
    · simp [h1, dot, slash]

/-! ## `Clean` never lengthens a path

Every element `Clean` keeps is an element of the path, in order (`cleanStack_sublist`), so the
cleaned path is no longer than the path (`length_clean_le`).  With it, `dir` of a path is never
longer than the path, which is what keeps `os.MkdirAll` of a directory away from the files
below it. -/

theorem joinElems_eq_intercalate : ∀ l : List Bytes, joinElems l = [slash].intercalate l
  | [] => rfl
  | [_] => by simp [joinElems, List.intercalate]
  | e :: f :: fs => by
    show e ++ slash :: joinElems (f :: fs) = _
    rw [joinElems_eq_intercalate (f :: fs)]
    simp [List.intercalate, List.intersperse]

theorem length_joinElems_cons (e : Bytes) (l : List Bytes) (hl : l ≠ []) :
    (joinElems (e :: l)).length = e.length + (joinElems l).length + 1 := by
  obtain ⟨f, fs, rfl⟩ := List.exists_cons_of_ne_nil hl
  simp only [joinElems, List.length_append, List.length_cons]
  omega

/-- Joining a sublist of the elements is no longer than joining them all. -/
theorem length_joinElems_le {l l' : List Bytes} (h : List.Sublist l' l) (hl' : l' ≠ []) :
    (joinElems l').length ≤ (joinElems l).length := by
  induction h with
  | slnil => exact absurd rfl hl'
  | @cons l' l e h ih =>
    have hl : l ≠ [] := fun h' => hl' (List.eq_nil_of_sublist_nil (h' ▸ h))
    rw [length_joinElems_cons e l hl]
    have := ih hl'
    omega
  | @cons₂ l' l e h ih =>
    by_cases he : l' = []
    · subst he
      by_cases hl : l = []
      · subst hl
        exact le_rfl
      · rw [length_joinElems_cons e l hl]
        exact Nat.le_add_right_of_le (Nat.le_add_right _ _)
    · have hl : l ≠ [] := fun h' => he (List.eq_nil_of_sublist_nil (h' ▸ h))
      rw [length_joinElems_cons e l' he, length_joinElems_cons e l hl]
      have := ih he
      omega

theorem pushElem_sublist {r : Bool} {st : List Bytes} {done : List Bytes} (e : Bytes)
    (h : List.Sublist st.reverse done) :
    List.Sublist (pushElem r st e).reverse (done ++ [e]) := by
  have keep : List.Sublist st.reverse (done ++ [e]) := h.trans (List.sublist_append_left _ _)
  have push : List.Sublist (e :: st).reverse (done ++ [e]) := by
    simpa using h.append_right [e]
  unfold pushElem
  by_cases h1 : e = [] ∨ e = dot
  · rw [if_pos h1]
    exact keep
  rw [if_neg h1]
  by_cases h2 : e = dotdot
  · rw [if_pos h2]
    rcases st with _ | ⟨top, rest⟩
    · cases r
      · simp
      · simp
    · show List.Sublist (if top = dotdot then e :: top :: rest else rest).reverse (done ++ [e])
      split_ifs
      · exact push
      · rw [List.reverse_cons] at h
        exact ((List.sublist_append_left _ _).trans h).trans (List.sublist_append_left _ _)
  · rw [if_neg h2]
    exact push

theorem cleanStack_sublist (p : Bytes) : List.Sublist (cleanStack p).reverse (p.splitOn slash) := by
  unfold cleanStack
  suffices ∀ (l : List Bytes) (st done : List Bytes), List.Sublist st.reverse done →
      List.Sublist (l.foldl (pushElem (rooted p)) st).reverse (done ++ l) from
    this _ [] [] (List.nil_sublist _)
  intro l
  induction l with
  | nil => simp
  | cons e l ih =>
    intro st done h
    simpa using ih _ _ (pushElem_sublist e h)

/-- `filepath.Clean` of a non-empty path is no longer than the path. -/
theorem length_clean_le {p : Bytes} (hp : p ≠ []) : (clean p).length ≤ p.length := by
  have hsub := cleanStack_sublist p
  have hjoin : joinElems (p.splitOn slash) = p := by
    rw [joinElems_eq_intercalate, List.intercalate_splitOn]
  unfold clean
  split_ifs with hr hst
  · obtain ⟨c, rest, rfl⟩ := List.exists_cons_of_ne_nil hp
    have hc : c = slash := by simpa [rooted] using hr
    subst hc
    have hsplit : (slash :: rest).splitOn slash = [] :: rest.splitOn slash := by
      simp [List.splitOn, List.splitOnP_cons]
    rw [hsplit] at hsub
    -- the empty first piece is not kept
    have hsub' : List.Sublist (cleanStack (slash :: rest)).reverse (rest.splitOn slash) := by
      rcases List.sublist_cons_iff.1 hsub with h | ⟨r, he, -⟩
      · exact h
      · have hmem : [] ∈ cleanStack (slash :: rest) := by
          rw [← List.mem_reverse, he]
          exact List.mem_cons_self _ _
        exact absurd rfl (cleanStack_kept _ _ hmem).1
    have hrest : joinElems (rest.splitOn slash) = rest := by
      rw [joinElems_eq_intercalate, List.intercalate_splitOn]
    rw [List.length_cons, List.length_cons]
    by_cases hst : (cleanStack (slash :: rest)).reverse = []
    · rw [hst]
      exact Nat.succ_le_succ (Nat.zero_le _)
    · have := length_joinElems_le hsub' hst
      rw [hrest] at this
      omega
  · exact List.length_pos.2 hp
  · have hne : (cleanStack p).reverse ≠ [] := List.reverse_ne_nil_iff.2 hst
    calc (joinElems (cleanStack p).reverse).length
        ≤ (joinElems (p.splitOn slash)).length := length_joinElems_le hsub hne
      _ = p.length := by rw [hjoin]

theorem clean_ne_nil (p : Bytes) : clean p ≠ [] := by
  unfold clean
  split_ifs
  · exact List.cons_ne_nil _ _
  · exact List.cons_ne_nil _ _
  · exact (joinElems_kept (fun e he => cleanStack_kept p e (List.mem_reverse.1 he))
      (List.reverse_ne_nil_iff.2 ‹_›)).1

/-- A trailing slash changes nothing. -/
theorem clean_append_slash {d : Bytes} (hd : d ≠ []) : clean (d ++ [slash]) = clean d := by
  have hr : rooted (d ++ [slash]) = rooted d := by
    obtain ⟨c, cs, rfl⟩ := List.exists_cons_of_ne_nil hd
    rfl
  have hst : cleanStack (d ++ [slash]) = cleanStack d := by
    rw [cleanStack, splitOn_append_sep d (List.not_mem_nil _), List.foldl_append, hr]
    simp [pushElem, cleanStack]
  unfold clean
  rw [hr, hst]

theorem join_nil {d : Bytes} (hd : d ≠ []) : join d [] = clean d := by
  rw [join, if_pos hd]
  exact clean_append_slash hd

/-- The directory of a name inside `d` is `Clean(d)`. -/
theorem dir_child {d n : Bytes} (hd : d ≠ []) (hn : slash ∉ n) : dir (child d n) = clean d := by
  have hdrop : ∀ l : Bytes, (n.reverse ++ l).dropWhile (· ≠ slash) = l.dropWhile (· ≠ slash) := by
    intro l
    induction n using List.reverseRecOn with
    | nil => rfl
    | append_singleton m c ih =>
      have hc : c ≠ slash := fun h => hn (by simp [h])
      rw [List.reverse_append, List.reverse_singleton, List.singleton_append, List.cons_append,
        List.dropWhile_cons_of_pos (by simpa using hc)]
      exact ih fun h => hn (List.mem_append_left _ h)
  unfold dir child
  split_ifs with h1 h2
  · subst h1
    rw [List.reverse_cons, hdrop]
    rfl
  · subst h2
    rw [← List.append_nil n.reverse, hdrop]
    rfl
  · rw [List.reverse_append, List.reverse_cons, List.append_assoc, hdrop, List.singleton_append,
      List.dropWhile_cons_of_neg (by simp), List.reverse_cons, List.reverse_reverse]
    exact clean_append_slash hd

theorem length_dir_le {p : Bytes} (hp : p ≠ []) : (dir p).length ≤ p.length := by
  unfold dir
  by_cases hq : (p.reverse.dropWhile (· ≠ slash)).reverse = []
  · rw [hq]
    exact List.length_pos.2 hp
  · calc (clean (p.reverse.dropWhile (· ≠ slash)).reverse).length
        ≤ (p.reverse.dropWhile (· ≠ slash)).reverse.length := length_clean_le hq
      _ ≤ p.length := by
        rw [List.length_reverse]
        exact (List.dropWhile_suffix _).length_le.trans (List.length_reverse p).le

/-- A name of at least two bytes inside `d` is longer than `d`. -/
theorem length_lt_child {d n : Bytes} (hn : 2 ≤ n.length) :
    d.length < (child d n).length := by
  unfold child
  split_ifs with h1 h2
  · simp [h1]
    omega
  · simp [h2, dot]
    omega
  · simp only [List.length_append, List.length_cons]
    omega

/-- `os.RemoveAll(d)` removes every name inside `d`. -/
theorem within_child (d : Bytes) {n : Bytes} (hn : IsName n) : within d (child d n) = true := by
  unfold within child
  split_ifs with h1 h2
  · simp [rooted]
  · obtain ⟨hne, hs, -, hdd⟩ := hn
    cases n with
    | nil => exact absurd rfl hne
    | cons c n =>
      have hc : c ≠ slash := fun h => hs (h ▸ List.mem_cons_self _ _)
      have hp : (dotdot ++ [slash]).isPrefixOf (c :: n) = false :=
        Bool.eq_false_iff.2 fun h => hs ((List.isPrefixOf_iff_prefix.1 h).subset (by simp))
      simp [rooted, hc, hdd, hp]
  · simp [List.isPrefixOf_iff_prefix]

theorem within_self (d : Bytes) : within d d = true := by simp [within]

end GoBuildCache.Path
