import GoBuildCache.Json.Encode
import Mathlib.Data.List.GetD

/-!
# `time.Time.MarshalJSON`

`json.Marshal` writes a `*time.Time` field with the time's own `MarshalJSON`: the time in
RFC 3339 with nanoseconds (`appendFormatRFC3339`) between quotes, once `appendStrictRFC3339` has
checked that the text is a valid RFC 3339 timestamp: its year has exactly four digits, and its
zone hour lies in `0..23`.

* `appendInt x width` is `appendInt` of package `time`: a minus sign, zeros up to `width`
  digits, and the digits of `|x|`.  `appendNano` writes the nanoseconds after a dot without their
  trailing zeros, and nothing for a whole second.
* `civil` is the proleptic Gregorian date of a day counted from 1970-01-01, found through the
  400-year era of the day, each era starting on a 1 March.  The date and the clock are those of
  the time in its location, its Unix seconds plus its offset (`formatLocal`); `appendZone` writes
  the offset: `Z` for zero, else the sign and `hh:mm` of the offset in whole minutes.
* `marshalJSON_ok_iff`: `MarshalJSON` writes the text exactly when the year in the time's
  location lies in `0..9999` and the offset is less than a day (`Marshalable`).  Otherwise it fails
  with `Time.MarshalJSON: year outside of range [0,9999]`, which is checked first, or with
  `Time.MarshalJSON: timezone hour outside of range [0,23]`.
* Every byte of the text is one that `appendString` copies, so what `MarshalJSON` writes is the
  string literal of the text (`marshalJSON_eq`), which reads back as that string.
-/

namespace GoBuildCache.GoTime

open Json

/-- `appendInt(b, x, width)` of package `time`, after `b`: a minus sign for a negative `x`, zeros
up to `width` digits, and the decimal digits of `|x|`. -/
def appendInt (x : Int) (width : Nat) : Bytes :=
  (if x < 0 then [45] else []) ++
    (List.replicate (width - (Decimal.formatNat x.natAbs).length) 48 ++ Decimal.formatNat x.natAbs)

/-- The proleptic Gregorian year, month and day of the day `d` counted from 1970-01-01: the day
within its 400-year era, which starts on a 1 March, then the year within the era and the day
within that year. -/
def civil (d : Int) : Int × Int × Int :=
  let z := d + 719468
  let era := z / 146097
  let doe := z - era * 146097
  let yoe := (doe - doe / 1460 + doe / 36524 - doe / 146096) / 365
  let doy := doe - (365 * yoe + yoe / 4 - yoe / 100)
  let mp := (5 * doy + 2) / 153
  let month := if mp < 10 then mp + 3 else mp - 9
  (yoe + era * 400 + (if month ≤ 2 then 1 else 0), month, doy - (153 * mp + 2) / 5 + 1)

/-- `t.Year()`: the year of the time in its location. -/
def year (t : GoTime) : Int := (civil ((t.unix.val + t.offset) / 86400)).1

/-- `appendNano(b, nanosec, stdFracSecond9)` after `b`: nothing for `0`, else a dot and the nine
digits of `nanosec` without their trailing zeros. -/
def appendNano (nanosec : Nat) : Bytes :=
  if nanosec = 0 then [] else 46 :: ((appendInt nanosec 9).reverse.dropWhile (· == 48)).reverse

/-- The date, the clock and the nanoseconds of `appendFormatRFC3339`, in the time's location:
`YYYY-MM-DDThh:mm:ss` and the nanoseconds. -/
def formatLocal (t : GoTime) : Bytes :=
  let date := civil ((t.unix.val + t.offset) / 86400)
  let sec := (t.unix.val + t.offset) % 86400
  appendInt date.1 4 ++ 45 :: appendInt date.2.1 2 ++ 45 :: appendInt date.2.2 2 ++ 84 ::
    appendInt (sec / 3600) 2 ++ 58 :: appendInt (sec / 60 % 60) 2 ++ 58 :: appendInt (sec % 60) 2 ++
    appendNano t.nsec

/-- The zone of `appendFormatRFC3339`: `Z` for the offset zero; else, with `zone := offset / 60`
in minutes (Go's division, rounding toward zero), `-` for a negative zone and `+` otherwise, then
the hours and minutes of `|zone|`. -/
def appendZone (offset : Int) : Bytes :=
  if offset = 0 then [90]
  else
    let zone := offset.tdiv 60
    (if zone < 0 then 45 else 43) ::
      appendInt (zone.natAbs / 60 : Nat) 2 ++ 58 :: appendInt (zone.natAbs % 60 : Nat) 2

/-- `t.appendFormatRFC3339(b, true)` after `b`. -/
def formatRFC3339 (t : GoTime) : Bytes := formatLocal t ++ appendZone t.offset

/-- The error of `MarshalJSON` for a year that is not written with four digits. -/
def yearRangeError : Bytes := ascii "Time.MarshalJSON: year outside of range [0,9999]"

/-- The error of `MarshalJSON` for a zone hour outside `0..23`. -/
def zoneRangeError : Bytes := ascii "Time.MarshalJSON: timezone hour outside of range [0,23]"

/-- `num2` of `appendStrictRFC3339`: `10*(b[0]-'0') + (b[1]-'0')`, in byte arithmetic. -/
def num2 (b0 b1 : UInt8) : UInt8 := 10 * (b0 - 48) + (b1 - 48)

/-- The zone check of `appendStrictRFC3339` on the text `b`: it does not end in `Z`, and the byte
six from its end is a digit or the two bytes five from its end make `24` or more. -/
def zoneHourBad (b : Bytes) : Bool :=
  decide (b.getLast? ≠ some 90) &&
    (Decimal.isDigit (b.getD (b.length - 6) 0) ||
      decide (24 ≤ num2 (b.getD (b.length - 5) 0) (b.getD (b.length - 4) 0)))

/-- `t.MarshalJSON()`: the RFC 3339 text between quotes, unless the byte after its first four is
not `-`, or the zone hour is out of range (`appendStrictRFC3339`). -/
def marshalJSON (t : GoTime) : Except Bytes Bytes :=
  if (formatRFC3339 t)[4]? ≠ some 45 then .error yearRangeError
  else if zoneHourBad (formatRFC3339 t) then .error zoneRangeError
  else .ok (34 :: formatRFC3339 t ++ [34])

/-- A time `MarshalJSON` writes: its year, in its location, lies in `0..9999`, and its offset is
less than a day. -/
def Marshalable (t : GoTime) : Prop := 0 ≤ t.year ∧ t.year ≤ 9999 ∧ t.offset.natAbs < 86400

instance : DecidablePred Marshalable := fun _ => inferInstanceAs (Decidable (_ ∧ _ ∧ _))

example : formatRFC3339 ⟨Int64.ofInt 1709210096, 500000000, by decide, 0⟩ =
    ascii "2024-02-29T12:34:56.5Z" := by decide

example : formatRFC3339 (ofUnix (fun _ => 0) (Int64.ofInt (-1))) = ascii "1969-12-31T23:59:59Z" := by
  decide

example : formatRFC3339 (ofUnix (fun _ => 19800) (Int64.ofInt 253402297200)) =
    ascii "10000-01-01T04:30:00+05:30" := by decide

example : formatRFC3339 (ofUnix (fun _ => -30) Int64.zero) = ascii "1969-12-31T23:59:30+00:00" := by
  decide

/-! ## The year check -/

theorem appendInt_eq (x : Int) (w : Nat) :
    appendInt x w = (if x < 0 then [45] else []) ++
      (List.replicate (w - (Decimal.formatNat x.natAbs).length) 48 ++ Decimal.formatNat x.natAbs) :=
  rfl

theorem isDigit_of_mem_padded {m n : Nat} {b : UInt8}
    (hb : b ∈ List.replicate m 48 ++ Decimal.formatNat n) : Decimal.isDigit b = true := by
  rcases List.mem_append.1 hb with h | h
  · rw [List.eq_of_mem_replicate h]; rfl
  · exact Decimal.formatNat_isDigit n b h

theorem le_length_padded (w n : Nat) :
    w ≤ (List.replicate (w - (Decimal.formatNat n).length) 48 ++ Decimal.formatNat n).length := by
  simp only [List.length_append, List.length_replicate]
  omega

/-- The byte at `i` of the padded digits, below `w`, is a digit. -/
theorem padded_digit {w n i : Nat} (hi : i < w) :
    ∃ b, (List.replicate (w - (Decimal.formatNat n).length) 48 ++ Decimal.formatNat n)[i]? = some b ∧
      Decimal.isDigit b = true := by
  have hl := le_length_padded w n
  exact ⟨_, List.getElem?_eq_getElem (by omega), isDigit_of_mem_padded (List.getElem_mem _)⟩

/-- A year of `0..9999` takes exactly four bytes. -/
theorem length_appendInt_year {y : Int} (h0 : 0 ≤ y) (h : y ≤ 9999) : (appendInt y 4).length = 4 := by
  have hl := Decimal.length_formatNat_le (n := y.natAbs) (k := 4) (by decide) (by omega)
  rw [appendInt_eq, if_neg (by omega)]
  simp only [List.nil_append, List.length_append, List.length_replicate]
  omega

/-- Outside `0..9999`, the year takes more than four bytes, and the fifth is a digit. -/
theorem appendInt_year_digit {y : Int} (h : y < 0 ∨ 9999 < y) (rest : Bytes) :
    ∃ b, (appendInt y 4 ++ rest)[4]? = some b ∧ Decimal.isDigit b = true := by
  rw [appendInt_eq]
  rcases h with h | h
  · obtain ⟨b, hb, hd⟩ := padded_digit (w := 4) (n := y.natAbs) (i := 3) (by decide)
    rw [if_pos h, List.singleton_append, List.cons_append, List.getElem?_cons_succ,
      List.getElem?_append_left (by have := le_length_padded 4 y.natAbs; omega)]
    exact ⟨b, hb, hd⟩
  · have h5 := Decimal.lt_length_formatNat (n := y.natAbs) (k := 4) (by omega)
    obtain ⟨b, hb, hd⟩ := padded_digit (w := 5) (n := y.natAbs) (i := 4) (by decide)
    have hpad : 4 - (Decimal.formatNat y.natAbs).length = 5 - (Decimal.formatNat y.natAbs).length := by
      omega
    rw [if_neg (by omega), List.nil_append, hpad, List.getElem?_append_left (by
      have := le_length_padded 5 y.natAbs; omega)]
    exact ⟨b, hb, hd⟩

/-- The RFC 3339 text starts with the year and `-`. -/
theorem formatRFC3339_year (t : GoTime) : ∃ rest, formatRFC3339 t = appendInt t.year 4 ++ 45 :: rest :=
  ⟨_, by simp only [formatRFC3339, formatLocal, year, List.append_assoc, List.cons_append]; rfl⟩

/-- The year check of `appendStrictRFC3339` passes exactly when the year lies in `0..9999`. -/
theorem yearCheck_iff (t : GoTime) : (formatRFC3339 t)[4]? = some 45 ↔ 0 ≤ t.year ∧ t.year ≤ 9999 := by
  obtain ⟨rest, hr⟩ := formatRFC3339_year t
  constructor
  · intro h
    by_contra hy
    obtain ⟨c, hc, hd⟩ := appendInt_year_digit (y := t.year) (by omega) (45 :: rest)
    rw [hr, hc] at h
    exact absurd hd (by rw [Option.some.inj h]; decide)
  · rintro ⟨h0, h⟩
    rw [hr, List.getElem?_append_right (by rw [length_appendInt_year h0 h]), length_appendInt_year h0 h,
      Nat.sub_self, List.getElem?_cons_zero]

/-! ## The zone check -/

theorem digitsValue_zeros (k : Nat) (s : Bytes) :
    Decimal.digitsValue (List.replicate k 48 ++ s) 0 = Decimal.digitsValue s 0 := by
  induction k with
  | zero => rfl
  | succ k ih => exact ih

/-- `num2` of two digits is their value. -/
theorem num2_toNat {a b : UInt8} (ha : Decimal.isDigit a = true) (hb : Decimal.isDigit b = true) :
    (num2 a b).toNat = 10 * (a.toNat - 48) + (b.toNat - 48) := by
  simp only [Decimal.isDigit, Bool.and_eq_true, decide_eq_true_eq] at ha hb
  have ha' : 48 ≤ a.toBitVec.toNat ∧ a.toBitVec.toNat ≤ 57 := ha
  have hb' : 48 ≤ b.toBitVec.toNat ∧ b.toBitVec.toNat ≤ 57 := hb
  show (10 * (a - 48) + (b - 48)).toBitVec.toNat = 10 * (a.toBitVec.toNat - 48) + (b.toBitVec.toNat - 48)
  simp only [UInt8.add_def, UInt8.mul_def, UInt8.sub_def, BitVec.toNat_add, BitVec.toNat_mul,
    BitVec.toNat_sub, UInt8.toBitVec_ofNat, BitVec.toNat_ofNat]
  omega

/-- A number below 100 takes two digits, whose `num2` is the number. -/
theorem appendInt_two {n : Nat} (h : n < 100) :
    ∃ a b, appendInt n 2 = [a, b] ∧ Decimal.isDigit a = true ∧ Decimal.isDigit b = true ∧
      (num2 a b).toNat = n := by
  have hl := Decimal.length_formatNat_le (n := n) (k := 2) (by decide) (by simpa using h)
  rw [appendInt_eq, if_neg (by omega), List.nil_append, Int.natAbs_ofNat]
  have hlen : (List.replicate (2 - (Decimal.formatNat n).length) 48 ++ Decimal.formatNat n).length = 2 := by
    simp only [List.length_append, List.length_replicate]
    omega
  obtain ⟨a, b, hab⟩ := List.length_eq_two.1 hlen
  have ha := isDigit_of_mem_padded (hab ▸ List.mem_cons_self a [b])
  have hb := isDigit_of_mem_padded (hab ▸ List.mem_cons_of_mem a (List.mem_singleton_self b))
  refine ⟨a, b, hab, ha, hb, ?_⟩
  rw [num2_toNat ha hb, ← Decimal.digitsValue_formatNat n, ← digitsValue_zeros (2 - (Decimal.formatNat n).length),
    hab]
  simp [Decimal.digitsValue]

/-- A number of 100 or more takes three digits or more. -/
theorem appendInt_long {n : Nat} (h : 100 ≤ n) :
    3 ≤ (appendInt n 2).length ∧ ∀ c ∈ appendInt n 2, Decimal.isDigit c = true := by
  have hl := Decimal.lt_length_formatNat (n := n) (k := 2) (by simpa using h)
  rw [appendInt_eq, if_neg (by omega), List.nil_append, Int.natAbs_ofNat]
  exact ⟨by simp only [List.length_append, List.length_replicate]; omega,
    fun c hc => isDigit_of_mem_padded hc⟩

theorem getD_append_length (pre l : Bytes) (k : Nat) : (pre ++ l).getD (pre.length + k) 0 = l.getD k 0 := by
  rw [List.getD_append_right _ _ _ _ (by omega), Nat.add_sub_cancel_left]

theorem le_num2_iff (x : UInt8) : 24 ≤ x ↔ 24 ≤ x.toNat := by
  rw [UInt8.le_def, BitVec.le_def]
  rfl

/-- After a sign that is not a digit, the hours `h` and minutes `m < 60` of a zone fail the check
exactly when `h` is 24 or more. -/
theorem zoneHourBad_zone (pre : Bytes) {sgn : UInt8} (hs : Decimal.isDigit sgn = false) (h : Nat)
    {m : Nat} (hm : m < 60) :
    zoneHourBad (pre ++ ((sgn :: appendInt h 2) ++ 58 :: appendInt m 2)) = true ↔ 24 ≤ h := by
  obtain ⟨m0, m1, hM, hm0, hm1, -⟩ := appendInt_two (n := m) (by omega)
  rw [hM]
  have hlast : (pre ++ ((sgn :: appendInt h 2) ++ [58, m0, m1])).getLast? = some m1 := by
    rw [show pre ++ ((sgn :: appendInt h 2) ++ [58, m0, m1]) =
      (pre ++ ((sgn :: appendInt h 2) ++ [58, m0])) ++ [m1] by simp, List.getLast?_concat]
  have hm90 : m1 ≠ 90 := by rintro rfl; exact absurd hm1 (by decide)
  rcases Nat.lt_or_ge h 100 with hh | hh
  · obtain ⟨a0, a1, hH, ha0, ha1, hv⟩ := appendInt_two hh
    rw [hH] at hlast ⊢
    have hl : (pre ++ ((sgn :: [a0, a1]) ++ [58, m0, m1])).length = pre.length + 6 := by simp
    simp only [zoneHourBad, hlast, hl, ne_eq, Option.some.injEq, hm90, not_false_eq_true,
      decide_True, Bool.true_and, show pre.length + 6 - 6 = pre.length + 0 from rfl,
      show pre.length + 6 - 5 = pre.length + 1 from rfl, show pre.length + 6 - 4 = pre.length + 2 from rfl,
      getD_append_length]
    simp only [List.cons_append, List.getD_cons_zero, List.getD_cons_succ, hs, Bool.false_or,
      decide_eq_true_eq, le_num2_iff, hv]
  · obtain ⟨hlen, hdig⟩ := appendInt_long hh
    have hl : (pre ++ ((sgn :: appendInt h 2) ++ [58, m0, m1])).length - 6 =
        pre.length + ((appendInt h 2).length - 3 + 1) := by simp; omega
    have hd : Decimal.isDigit ((pre ++ ((sgn :: appendInt h 2) ++ [58, m0, m1])).getD
        ((pre ++ ((sgn :: appendInt h 2) ++ [58, m0, m1])).length - 6) 0) = true := by
      rw [hl, getD_append_length, List.cons_append, List.getD_cons_succ, List.getD_append _ _ _ _ (by omega),
        List.getD_eq_getElem _ _ (by omega)]
      exact hdig _ (List.getElem_mem _)
    simp only [zoneHourBad, hlast, hd, ne_eq, Option.some.injEq, hm90, not_false_eq_true, decide_True,
      Bool.true_or, Bool.and_self, true_iff]
    omega

/-- The zone check passes exactly when the offset is less than a day. -/
theorem zoneHourBad_iff (pre : Bytes) (offset : Int) :
    zoneHourBad (pre ++ appendZone offset) = true ↔ 86400 ≤ offset.natAbs := by
  unfold appendZone
  split_ifs with h0
  · subst h0
    simp [zoneHourBad, List.getLast?_concat]
  · rw [zoneHourBad_zone pre (by split_ifs <;> rfl) _ (Nat.mod_lt _ (by decide)), Int.natAbs_tdiv]
    change 24 ≤ offset.natAbs / 60 / 60 ↔ _
    omega

/-- `MarshalJSON` writes a time exactly when its year lies in `0..9999` and its offset is less
than a day. -/
theorem marshalJSON_ok_iff (t : GoTime) : (∃ b, t.marshalJSON = .ok b) ↔ Marshalable t := by
  have hz : zoneHourBad (formatRFC3339 t) = true ↔ 86400 ≤ t.offset.natAbs :=
    zoneHourBad_iff (formatLocal t) t.offset
  have hy := yearCheck_iff t
  unfold marshalJSON Marshalable
  by_cases h4 : (formatRFC3339 t)[4]? = some 45
  · rw [if_neg (not_not.2 h4)]
    split_ifs with hb
    · exact ⟨fun ⟨_, h⟩ => (nomatch h), fun h => absurd (hz.1 hb) (by omega)⟩
    · exact ⟨fun _ => ⟨(hy.1 h4).1, (hy.1 h4).2, Nat.lt_of_not_le (mt hz.2 hb)⟩, fun _ => ⟨_, rfl⟩⟩
  · rw [if_pos h4]
    exact ⟨fun ⟨_, h⟩ => (nomatch h), fun h => absurd (hy.2 ⟨h.1, h.2.1⟩) h4⟩

/-- A year outside `0..9999` fails first. -/
theorem marshalJSON_year_error {t : GoTime} (hy : t.year < 0 ∨ 9999 < t.year) :
    t.marshalJSON = .error yearRangeError :=
  if_pos fun h => by have := (yearCheck_iff t).1 h; omega

/-- A year in range and an offset of a day or more fail the zone check. -/
theorem marshalJSON_zone_error {t : GoTime} (hy : 0 ≤ t.year ∧ t.year ≤ 9999)
    (hz : 86400 ≤ t.offset.natAbs) : t.marshalJSON = .error zoneRangeError := by
  rw [marshalJSON, if_neg (not_not.2 ((yearCheck_iff t).2 hy)),
    if_pos (show zoneHourBad (formatRFC3339 t) = true from (zoneHourBad_iff (formatLocal t) t.offset).2 hz)]

/-! ## What it writes -/

theorem htmlSafe_of_isDigit {b : UInt8} (h : Decimal.isDigit b = true) : htmlSafe b = true := by
  have hr := h
  simp only [Decimal.isDigit, Bool.and_eq_true, decide_eq_true_eq] at hr
  refine (htmlSafe_iff b).2 ⟨by omega, by omega, ?_, ?_, ?_, ?_, ?_⟩ <;>
    rintro rfl <;> exact absurd h (by decide)

theorem htmlSafe_of_mem_appendInt {x : Int} {w : Nat} {b : UInt8} (hb : b ∈ appendInt x w) :
    htmlSafe b = true := by
  rw [appendInt_eq] at hb
  rcases List.mem_append.1 hb with h | h
  · split at h
    · rw [List.mem_singleton.1 h]; rfl
    · simp at h
  · exact htmlSafe_of_isDigit (isDigit_of_mem_padded h)

theorem htmlSafe_of_mem_appendNano {n : Nat} {b : UInt8} (hb : b ∈ appendNano n) :
    htmlSafe b = true := by
  unfold appendNano at hb
  split at hb
  · simp at hb
  · rcases List.mem_cons.1 hb with h | h
    · rw [h]; rfl
    · exact htmlSafe_of_mem_appendInt (List.mem_reverse.1 ((List.dropWhile_suffix _).subset
        (List.mem_reverse.1 h)))

theorem htmlSafe_of_mem_appendZone {o : Int} {b : UInt8} (hb : b ∈ appendZone o) : htmlSafe b = true := by
  unfold appendZone at hb
  split_ifs at hb
  · rw [List.mem_singleton.1 hb]; rfl
  · simp only [List.cons_append, List.mem_cons, List.mem_append] at hb
    rcases hb with rfl | h | rfl | h
    · split_ifs <;> rfl
    · exact htmlSafe_of_mem_appendInt h
    · rfl
    · exact htmlSafe_of_mem_appendInt h

/-- Every byte of the RFC 3339 text is one that `appendString` copies: a digit, `-`, `.`, `:`,
`T`, `Z` or `+`. -/
theorem htmlSafe_of_mem_formatRFC3339 (t : GoTime) : ∀ b ∈ formatRFC3339 t, htmlSafe b = true := by
  have hA : ∀ {l r : Bytes}, (∀ b ∈ l, htmlSafe b = true) → (∀ b ∈ r, htmlSafe b = true) →
      ∀ b ∈ l ++ r, htmlSafe b = true := fun hl hr => List.forall_mem_append.2 ⟨hl, hr⟩
  have hC : ∀ {c : UInt8} {l : Bytes}, htmlSafe c = true → (∀ b ∈ l, htmlSafe b = true) →
      ∀ b ∈ c :: l, htmlSafe b = true := fun hc hl => List.forall_mem_cons.2 ⟨hc, hl⟩
  have hI : ∀ {x : Int} {w : Nat}, ∀ b ∈ appendInt x w, htmlSafe b = true :=
    fun _ hb => htmlSafe_of_mem_appendInt hb
  exact hA (hA (hA (hA (hA (hA (hA hI (hC rfl hI)) (hC rfl hI)) (hC rfl hI)) (hC rfl hI))
    (hC rfl hI)) fun _ hb => htmlSafe_of_mem_appendNano hb) fun _ hb => htmlSafe_of_mem_appendZone hb

/-- What `MarshalJSON` writes is the string literal of the RFC 3339 text. -/
theorem marshalJSON_eq {t : GoTime} {b : Bytes} (h : t.marshalJSON = .ok b) :
    b = encodeString (formatRFC3339 t) := by
  rw [encodeString_of_htmlSafe (htmlSafe_of_mem_formatRFC3339 t)]
  unfold marshalJSON at h
  split_ifs at h
  exact (Except.ok.inj h).symm

end GoBuildCache.GoTime
