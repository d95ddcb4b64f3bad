import GoBuildCache.Basic

/-!
# Decimal integers: `strconv.FormatInt` and `strconv.ParseInt`

The sidecar writes the size and the Unix time with `%d`, the S3 backend writes them with
`strconv.FormatInt(·, 10)`, and every reader parses them with `strconv.ParseInt(s, 10, 64)`
(through `fmt.Sscanf`'s `%d` in the sidecar, directly in the S3 backend, and inside
`encoding/json` for `int64` fields).

* `formatInt` is the shared printer: a minus sign for a negative value, then the decimal
  digits of its absolute value.  `formatDigits` writes the digits by structural recursion with
  a bound on their number, so that every printed value can be evaluated.
* `parseUint` is the loop of `strconv.ParseUint(s, 10, 64)`, with its two overflow checks, and
  `parseInt` adds the sign and the `int64` range of `strconv.ParseInt`.
* `parseInt_formatInt` is the round trip for every `int64`, the extremes included.
-/

namespace GoBuildCache.Decimal

/-- The ASCII digit of a value below ten. -/
def digitByte (d : Nat) : UInt8 := (48 + d).toUInt8

/-- Whether a byte is one of `0`-`9`. -/
def isDigit (c : UInt8) : Bool := 48 ≤ c.toNat && c.toNat ≤ 57

/-- The decimal digits of `n`, most significant first, when they number at most `fuel`. -/
def formatDigits : Nat → Nat → Bytes
  | 0, _ => []
  | fuel + 1, n => (if n < 10 then [] else formatDigits fuel (n / 10)) ++ [digitByte (n % 10)]

/-- The decimal digits of `n`, most significant first; zero is `0`.  A value has fewer digits
than it has units plus one. -/
def formatNat (n : Nat) : Bytes := formatDigits (n + 1) n

/-- `strconv.FormatInt(i, 10)`, which `%d` prints as well. -/
def formatInt (i : Int) : Bytes :=
  if i < 0 then 45 :: formatNat i.natAbs else formatNat i.toNat

/-- The errors of `strconv.ParseInt`. -/
inductive NumError
  /-- `ErrSyntax`. -/
  | errSyntax
  /-- `ErrRange`. -/
  | errRange
  deriving DecidableEq

/-- `math.MaxUint64`. -/
def maxUint64 : Nat := 2 ^ 64 - 1

/-- The `cutoff` of `strconv.ParseUint` in base ten: the least value whose product with ten
overflows. -/
def cutoff : Nat := maxUint64 / 10 + 1

/-- The loop of `strconv.ParseUint(s, 10, 64)` from the value `n` read so far: a byte that is
not a digit is a syntax error, and a value past `MaxUint64` is a range error. -/
def parseUintLoop : Bytes → Nat → Except NumError Nat
  | [], n => .ok n
  | c :: cs, n =>
    if isDigit c then
      if cutoff ≤ n then .error .errRange
      else if maxUint64 < 10 * n + (c.toNat - 48) then .error .errRange
      else parseUintLoop cs (10 * n + (c.toNat - 48))
    else .error .errSyntax

/-- `strconv.ParseUint(s, 10, 64)`. -/
def parseUint (s : Bytes) : Except NumError Nat :=
  if s = [] then .error .errSyntax else parseUintLoop s 0

/-- `strconv.ParseInt(s, 10, 64)`: an optional sign, then `ParseUint` and the `int64` range. -/
def parseInt (s : Bytes) : Except NumError Int64 :=
  match s with
  | [] => .error .errSyntax
  | c :: rest =>
    let (neg, digits) := if c = 43 then (false, rest) else if c = 45 then (true, rest)
      else (false, c :: rest)
    match parseUint digits with
    | .error e => .error e
    | .ok un =>
      if neg then
        if h : un ≤ 2 ^ 63 then .ok ⟨-(un : Int), by omega, by omega⟩ else .error .errRange
      else if h : un < 2 ^ 63 then .ok ⟨un, by omega, by omega⟩ else .error .errRange

/-- The value of a list of ASCII digits read after the value `n`, as `parseUintLoop` reads it
when nothing overflows. -/
def digitsValue (s : Bytes) (n : Nat) : Nat := s.foldl (fun a c => 10 * a + (c.toNat - 48)) n

theorem le_digitsValue (s : Bytes) (n : Nat) : n ≤ digitsValue s n := by
  induction s generalizing n with
  | nil => exact le_refl n
  | cons c cs ih => exact (show n ≤ 10 * n + (c.toNat - 48) by omega).trans (ih _)

/-- On digits whose value fits in 64 bits, `parseUintLoop` reads that value. -/
theorem parseUintLoop_digits {s : Bytes} (hs : ∀ c ∈ s, isDigit c = true) {n : Nat}
    (hv : digitsValue s n ≤ maxUint64) : parseUintLoop s n = .ok (digitsValue s n) := by
  induction s generalizing n with
  | nil => rfl
  | cons c cs ih =>
    have hc := hs c (.head _)
    have hstep := le_digitsValue cs (10 * n + (c.toNat - 48))
    have hrest : digitsValue cs (10 * n + (c.toNat - 48)) = digitsValue (c :: cs) n := rfl
    have hcut : ¬ cutoff ≤ n := by simp only [cutoff, maxUint64] at hv ⊢; omega
    have hmax : ¬ maxUint64 < 10 * n + (c.toNat - 48) := by omega
    simp only [parseUintLoop, hc, hcut, hmax, if_true, if_false]
    exact ih (fun d hd => hs d (.tail _ hd)) (hrest ▸ hv)

theorem digitByte_isDigit {d : Nat} (h : d < 10) : isDigit (digitByte d) = true := by
  have key : ∀ d < 10, isDigit (digitByte d) = true := by decide
  exact key d h

theorem digitByte_value {d : Nat} (h : d < 10) : (digitByte d).toNat - 48 = d := by
  have key : ∀ d < 10, (digitByte d).toNat - 48 = d := by decide
  exact key d h

theorem digitsValue_append_digit (l : Bytes) (c : UInt8) (a : Nat) :
    digitsValue (l ++ [c]) a = 10 * digitsValue l a + (c.toNat - 48) := by
  simp [digitsValue, List.foldl_append]

theorem formatDigits_isDigit (fuel n : Nat) : ∀ c ∈ formatDigits fuel n, isDigit c = true := by
  induction fuel generalizing n with
  | zero => simp [formatDigits]
  | succ fuel ih =>
    intro c hc
    simp only [formatDigits, List.mem_append, List.mem_singleton] at hc
    rcases hc with hc | rfl
    · split at hc
      · simp at hc
      · exact ih _ c hc
    · exact digitByte_isDigit (Nat.mod_lt _ (by decide))

theorem formatNat_isDigit (n : Nat) : ∀ c ∈ formatNat n, isDigit c = true :=
  formatDigits_isDigit _ n

theorem formatNat_ne_nil (n : Nat) : formatNat n ≠ [] := by
  simp [formatNat, formatDigits]

/-- The printed digits of `n` read back as `n`, when the bound on their number is enough. -/
theorem digitsValue_formatDigits {fuel n : Nat} (h : n < fuel) :
    digitsValue (formatDigits fuel n) 0 = n := by
  induction fuel generalizing n with
  | zero => omega
  | succ fuel ih =>
    have hd := digitByte_value (Nat.mod_lt n (show 0 < 10 by decide))
    rw [formatDigits, digitsValue_append_digit, hd]
    split
    · simp [digitsValue]; omega
    · rw [ih (by omega)]; omega

/-- The printed digits of `n` read back as `n`. -/
theorem digitsValue_formatNat (n : Nat) : digitsValue (formatNat n) 0 = n :=
  digitsValue_formatDigits (Nat.lt_succ_self n)

/-- `ParseUint` reads back every printed value that fits in 64 bits. -/
theorem parseUint_formatNat {n : Nat} (h : n ≤ maxUint64) : parseUint (formatNat n) = .ok n := by
  have hv : digitsValue (formatNat n) 0 ≤ maxUint64 := by rw [digitsValue_formatNat]; exact h
  rw [parseUint, if_neg (formatNat_ne_nil n), parseUintLoop_digits (formatNat_isDigit n) hv,
    digitsValue_formatNat]

/-- A printed value never starts with a sign. -/
theorem formatNat_head (n : Nat) : ∃ c rest, formatNat n = c :: rest ∧ c ≠ 43 ∧ c ≠ 45 := by
  obtain ⟨c, rest, h⟩ := List.exists_cons_of_ne_nil (formatNat_ne_nil n)
  have hc := formatNat_isDigit n c (h ▸ .head _)
  refine ⟨c, rest, h, ?_, ?_⟩ <;> rintro rfl <;> exact absurd hc (by decide)

/-- A positive value is printed with a first digit `1`-`9`. -/
theorem formatDigits_head_pos {fuel n : Nat} (h0 : 0 < n) (h : n < fuel) :
    ∃ c t, formatDigits fuel n = c :: t ∧ 49 ≤ c.toNat ∧ c.toNat ≤ 57 := by
  induction fuel generalizing n with
  | zero => omega
  | succ fuel ih =>
    rw [formatDigits]
    split
    · have key : ∀ d < 10, (digitByte d).toNat = 48 + d := by decide
      have := key n ‹n < 10›
      rw [← Nat.mod_eq_of_lt ‹n < 10›] at this
      exact ⟨_, [], rfl, by omega, by omega⟩
    · obtain ⟨c, t, he, hc⟩ := ih (show 0 < n / 10 by omega) (by omega)
      exact ⟨c, t ++ [digitByte (n % 10)], by rw [he]; rfl, hc⟩

theorem formatNat_head_pos {n : Nat} (h0 : 0 < n) :
    ∃ c t, formatNat n = c :: t ∧ 49 ≤ c.toNat ∧ c.toNat ≤ 57 :=
  formatDigits_head_pos h0 (Nat.lt_succ_self n)

/-- A value under `10 ^ k` has at most `k` digits, for `k ≥ 1`. -/
theorem length_formatDigits_le {fuel n k : Nat} (hk : 0 < k) (h : n < 10 ^ k) :
    (formatDigits fuel n).length ≤ k := by
  induction fuel generalizing n k with
  | zero => simp [formatDigits]
  | succ fuel ih =>
    rw [formatDigits, List.length_append, List.length_singleton]
    split
    · simpa using hk
    · obtain ⟨j, rfl⟩ : ∃ j, k = j + 1 := ⟨k - 1, by omega⟩
      have hj : 0 < j := Nat.pos_of_ne_zero fun hj => by subst hj; omega
      rw [Nat.pow_succ] at h
      have := ih hj ((Nat.div_lt_iff_lt_mul (show 0 < 10 by decide)).2 h)
      omega

/-- A value of at least `10 ^ k` has more than `k` digits. -/
theorem lt_length_formatDigits {fuel n k : Nat} (hn : n < fuel) (h : 10 ^ k ≤ n) :
    k < (formatDigits fuel n).length := by
  induction fuel generalizing n k with
  | zero => omega
  | succ fuel ih =>
    rw [formatDigits, List.length_append, List.length_singleton]
    rcases k with _ | j
    · omega
    · rw [Nat.pow_succ] at h
      have h10 : 10 ≤ n := by have := Nat.pos_pow_of_pos j (show 0 < 10 by decide); omega
      rw [if_neg (by omega)]
      have := ih (by omega) ((Nat.le_div_iff_mul_le (by decide)).2 h)
      omega

theorem length_formatNat_le {n k : Nat} (hk : 0 < k) (h : n < 10 ^ k) : (formatNat n).length ≤ k :=
  length_formatDigits_le hk h

theorem lt_length_formatNat {n k : Nat} (h : 10 ^ k ≤ n) : k < (formatNat n).length :=
  lt_length_formatDigits (Nat.lt_succ_self n) h

/-- `strconv.ParseInt(strconv.FormatInt(i, 10), 10, 64)` is `i` for every `int64`. -/
theorem parseInt_formatInt (i : Int64) : parseInt (formatInt i.val) = .ok i := by
  have hlo := i.le_val
  have hhi := i.val_lt
  unfold formatInt
  split
  · rename_i hneg
    have hle : i.val.natAbs ≤ maxUint64 := by simp only [maxUint64]; omega
    simp only [parseInt, if_neg (show (45 : UInt8) ≠ 43 by decide), if_true,
      parseUint_formatNat hle]
    rw [dif_pos (by omega)]
    congr 1
    apply Int64.ext
    show -(i.val.natAbs : Int) = i.val
    omega
  · rename_i hnn
    obtain ⟨c, rest, hfmt, h43, h45⟩ := formatNat_head i.val.toNat
    have hle : i.val.toNat ≤ maxUint64 := by simp only [maxUint64]; omega
    have hp := parseUint_formatNat hle
    rw [hfmt] at hp ⊢
    simp only [parseInt, if_neg h43, if_neg h45, hp, Bool.false_eq_true, ↓reduceIte]
    rw [dif_pos (by omega)]
    congr 1
    apply Int64.ext
    show ((i.val.toNat : Nat) : Int) = i.val
    omega

end GoBuildCache.Decimal
