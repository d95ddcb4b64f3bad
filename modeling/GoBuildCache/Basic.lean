import Mathlib.Data.List.Basic
import Mathlib.Algebra.Group.Int

/-!
# Go values the model is written in

The cache program handles byte strings (`[]byte` and `string`), 64-bit signed integers
(`int64`: request ids, body sizes, Unix seconds) and timestamps.  This module fixes one Lean
type for each.

* `Bytes` is a Go byte string.  A Go `string` is a byte string too, so the model never uses
  Lean's `String` for program data; `ascii` writes a constant of the source as its bytes.
* `Int64` is an integer with the two bounds of Go's `int64` as fields, so that no value out of
  range can be built.
* `GoTime` is a `time.Time` read as Unix seconds, nanoseconds and the offset of its location at
  that instant.  A `Location` is what `Location.lookup` answers: the offset east of UTC in effect
  at each Unix second.  `time.Unix` gives a time in `time.Local`, a location of the process.
* Two facts about positions in a list, for the lists of calls in flight: where the keys of the
  marked elements have no duplicate, or where at most one element is marked, two positions
  that hold marked elements with one key are one position.
-/

namespace GoBuildCache

/-- A Go byte string: `[]byte`, or the bytes of a `string`. -/
abbrev Bytes := List UInt8

/-- The bytes of a constant of the source, one byte per character. Every constant the model
needs is ASCII. -/
def ascii (s : String) : Bytes := s.toList.map fun c => c.toNat.toUInt8

/-- A byte read back from its value is itself. -/
@[simp] theorem UInt8.ofNat_toNat (b : UInt8) : UInt8.ofNat b.toNat = b :=
  UInt8.toNat.inj (UInt8.toNat_ofNat_of_lt b.toNat_lt_size)

theorem UInt8.toNat_lt_256 (b : UInt8) : b.toNat < 256 := b.toNat_lt_size

/-- A `uint32` read back from its value is itself. -/
@[simp] theorem UInt32.ofNat_toNat (n : UInt32) : UInt32.ofNat n.toNat = n :=
  UInt32.toNat.inj (UInt32.toNat_ofNat_of_lt n.toNat_lt_size)

/-- Go's `int64`: an integer and the two bounds of the type. -/
structure Int64 where
  /-- The value. -/
  val : Int
  le_val : -2 ^ 63 ≤ val
  val_lt : val < 2 ^ 63
  deriving DecidableEq

namespace Int64

/-- The zero value of `int64`. -/
def zero : Int64 := ⟨0, by decide, by decide⟩

instance : Inhabited Int64 := ⟨zero⟩

/-- A literal of the model, checked against the bounds. -/
def ofInt (i : Int) (h : -2 ^ 63 ≤ i ∧ i < 2 ^ 63 := by decide) : Int64 := ⟨i, h.1, h.2⟩

/-- Two values are equal when their integers are. -/
theorem ext {a b : Int64} (h : a.val = b.val) : a = b := by
  cases a; cases b; cases h; rfl

@[simp] theorem val_zero : zero.val = 0 := rfl

end Int64

/-- A `*time.Location` as the code reads it: the offset east of UTC, in seconds, of the zone in
effect at each Unix second. -/
abbrev Location := Int → Int

/-- A `time.Time` as the model reads it: whole Unix seconds, the nanoseconds after them, and the
offset of its location at that instant, in seconds east of UTC. -/
structure GoTime where
  /-- `t.Unix()`. -/
  unix : Int64
  /-- `t.Nanosecond()`. -/
  nsec : Nat
  nsec_lt : nsec < 1000000000
  /-- The offset of `t.Location()` at `t`. -/
  offset : Int
  deriving DecidableEq

/-- `time.Unix(sec, 0)`: the time at a whole second, in the location `loc` (`time.Local`). -/
def GoTime.ofUnix (loc : Location) (sec : Int64) : GoTime := ⟨sec, 0, by decide, loc sec.val⟩

@[simp] theorem GoTime.ofUnix_unix (loc : Location) (sec : Int64) : (GoTime.ofUnix loc sec).unix = sec :=
  rfl

/-! ## Positions in a list of calls -/

/-- Where the keys `f` gives have no duplicate, two positions with one key are one position. -/
theorem index_eq_of_nodup_filterMap {α β : Type} {f : α → Option β} {x : β} :
    ∀ {l : List α}, (l.filterMap f).Nodup → ∀ {i j : Nat} {a b : α}, l[i]? = some a →
      l[j]? = some b → f a = some x → f b = some x → i = j
  | [], _, _, _, _, _, ha, _, _, _ => by simp at ha
  | c :: l, hd, i, j, a, b, ha, hb, h1, h2 => by
    have held : ∀ {k} {d : α}, l[k]? = some d → f d = some x → x ∈ l.filterMap f :=
      fun hk hd => List.mem_filterMap.2 ⟨_, List.mem_iff_getElem?.2 ⟨_, hk⟩, hd⟩
    rcases i with _ | i <;> rcases j with _ | j
    · rfl
    · simp only [List.getElem?_cons_zero, Option.some.injEq, List.getElem?_cons_succ] at ha hb
      subst ha
      rw [List.filterMap_cons_some h1] at hd
      exact absurd (held hb h2) (List.nodup_cons.1 hd).1
    · simp only [List.getElem?_cons_zero, Option.some.injEq, List.getElem?_cons_succ] at ha hb
      subst hb
      rw [List.filterMap_cons_some h2] at hd
      exact absurd (held ha h1) (List.nodup_cons.1 hd).1
    · have hd' : (l.filterMap f).Nodup := by
        rw [List.filterMap_cons] at hd
        split at hd
        · exact hd
        · exact (List.nodup_cons.1 hd).2
      simp only [List.getElem?_cons_succ] at ha hb
      exact congrArg (· + 1) (index_eq_of_nodup_filterMap hd' ha hb h1 h2)

/-- Where at most one element satisfies `p`, two positions that hold such elements are one
position. -/
theorem index_eq_of_length_filter_le_one {α : Type} {p : α → Bool} :
    ∀ {l : List α}, (l.filter p).length ≤ 1 → ∀ {i j : Nat} {a b : α}, l[i]? = some a →
      l[j]? = some b → p a = true → p b = true → i = j
  | [], _, _, _, _, _, ha, _, _, _ => by simp at ha
  | c :: l, hl, i, j, a, b, ha, hb, h1, h2 => by
    have held : ∀ {k} {d : α}, l[k]? = some d → p d = true → 0 < (l.filter p).length :=
      fun hk hd => List.length_pos_of_mem (List.mem_filter.2 ⟨List.mem_iff_getElem?.2 ⟨_, hk⟩, hd⟩)
    rcases i with _ | i <;> rcases j with _ | j
    · rfl
    · simp only [List.getElem?_cons_zero, Option.some.injEq, List.getElem?_cons_succ] at ha hb
      subst ha
      rw [List.filter_cons_of_pos h1, List.length_cons] at hl
      have := held hb h2
      omega
    · simp only [List.getElem?_cons_zero, Option.some.injEq, List.getElem?_cons_succ] at ha hb
      subst hb
      rw [List.filter_cons_of_pos h2, List.length_cons] at hl
      have := held ha h1
      omega
    · have hl' := ((List.sublist_cons_self c l).filter p).length_le.trans hl
      simp only [List.getElem?_cons_succ] at ha hb
      exact congrArg (· + 1) (index_eq_of_length_filter_le_one hl' ha hb h1 h2)

/-- A position of a list set anew holds the new element; every other position is unchanged. -/
theorem getElem?_set_of {α : Type} {l : List α} {i : Nat} {a : α} (hi : l[i]? = some a) (b : α)
    (j : Nat) : (l.set i b)[j]? = if i = j then some b else l[j]? := by
  obtain ⟨hlt, -⟩ := List.getElem?_eq_some_iff.1 hi
  by_cases hij : i = j
  · subst hij
    rw [List.getElem?_set_self hlt, if_pos rfl]
  · rw [List.getElem?_set_ne hij, if_neg hij]

/-- Setting a position to what it holds changes nothing. -/
theorem set_eq_of_getElem? {α : Type} {l : List α} {i : Nat} {a : α} (hi : l[i]? = some a) :
    l.set i a = l :=
  List.ext_getElem? fun j => by rw [getElem?_set_of hi]; split <;> simp_all

/-- A position of a list set anew holds the new element, or what it held. -/
theorem getElem?_set_cases {α : Type} {l : List α} {i j : Nat} {a b x : α} (hi : l[i]? = some a)
    (h : (l.set i b)[j]? = some x) : (j = i ∧ x = b) ∨ (j ≠ i ∧ l[j]? = some x) := by
  rw [getElem?_set_of hi] at h
  split at h
  · exact .inl ⟨‹i = j›.symm, (Option.some.inj h).symm⟩
  · exact .inr ⟨Ne.symm ‹_›, h⟩

/-- A position of a list with elements appended holds an old element or a new one. -/
theorem getElem?_append_cases {α : Type} {l new : List α} {j : Nat} {x : α}
    (h : (l ++ new)[j]? = some x) : l[j]? = some x ∨ x ∈ new := by
  rcases Nat.lt_or_ge j l.length with hj | hj
  · exact .inl ((List.getElem?_append_left hj).symm.trans h)
  · exact .inr (List.getElem?_mem ((List.getElem?_append_right hj).symm.trans h))

/-- An element of a list stays where it is when elements are appended. -/
theorem getElem?_append_of_some {α : Type} {l : List α} (new : List α) {j : Nat} {x : α}
    (h : l[j]? = some x) : (l ++ new)[j]? = some x :=
  (List.getElem?_append_left (List.getElem?_eq_some_iff.1 h).1).trans h

/-- A position of a list with one element appended holds an old element, or is the new last one. -/
theorem getElem?_concat_cases {α : Type} {l : List α} {a : α} {j : Nat} {x : α}
    (h : (l ++ [a])[j]? = some x) : l[j]? = some x ∨ (j = l.length ∧ x = a) := by
  rcases Nat.lt_or_ge j l.length with hj | hj
  · exact .inl ((List.getElem?_append_left hj).symm.trans h)
  · rw [List.getElem?_append_right hj] at h
    have hlt := (List.getElem?_eq_some_iff.1 h).1
    rw [List.length_singleton, Nat.lt_one_iff] at hlt
    rw [hlt, List.getElem?_cons_zero] at h
    exact .inr ⟨by omega, (Option.some.inj h).symm⟩

/-- A position of a list with elements appended is an old position, or holds a new element. -/
theorem getElem?_append_split {α : Type} {l new : List α} {j : Nat} {x : α}
    (h : (l ++ new)[j]? = some x) : (j < l.length ∧ l[j]? = some x) ∨ (l.length ≤ j ∧ x ∈ new) := by
  rcases Nat.lt_or_ge j l.length with hj | hj
  · exact .inl ⟨hj, (List.getElem?_append_left hj).symm.trans h⟩
  · exact .inr ⟨hj, List.getElem?_mem ((List.getElem?_append_right hj).symm.trans h)⟩

/-- A prefix of a list, cut at an earlier position `i` into what stands before, the element at
`i`, and what follows up to the cut. -/
theorem take_split {α : Type} {l : List α} {i n : Nat} (hi : i < n) {a : α} (h : l[i]? = some a) :
    l.take n = l.take i ++ a :: (l.take n).drop (i + 1) := by
  have h1 : (l.take n).take (i + 1) = l.take i ++ [a] := by
    rw [List.take_take, Nat.min_eq_left (by omega), List.take_succ, h]
    rfl
  calc l.take n = (l.take n).take (i + 1) ++ (l.take n).drop (i + 1) :=
        (List.take_append_drop _ _).symm
    _ = l.take i ++ a :: (l.take n).drop (i + 1) := by rw [h1, List.append_assoc]; rfl

/-- What follows position `i` up to the cut `n` stands at positions strictly between them. -/
theorem mem_drop_take {α : Type} {l : List α} {i n : Nat} {a : α} (h : a ∈ (l.take n).drop (i + 1)) :
    ∃ k, i < k ∧ k < n ∧ l[k]? = some a := by
  obtain ⟨m, hm⟩ := List.mem_iff_getElem?.1 h
  rw [List.getElem?_drop, List.getElem?_take] at hm
  split at hm
  · exact ⟨i + 1 + m, by omega, ‹_›, hm⟩
  · cases hm

end GoBuildCache
