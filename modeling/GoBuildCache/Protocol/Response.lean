import GoBuildCache.Protocol.Message
import GoBuildCache.Json.Time

/-!
# The line of a response

`SendResponse` writes `json.Marshal(resp)` and a newline, and `SendInitialResponse` sends the
response `{ID: 0, KnownCommands: [put, get, close]}`.

* `encodeResponse` is `json.Marshal(resp)`: every field of `Response` is `omitempty`, so a field
  that holds its zero value is left out (`responseObject`).  A non-nil `*time.Time` is written
  by `Time.MarshalJSON`, whose output the encoder copies; it is the only field that can fail,
  and `json.Marshal` then fails with a `MarshalerError` (`encodeResponse_ok_iff`).
* `encodeResponse_initialResponse`: the first line is `{"KnownCommands":["put","get","close"]}`;
  the zero `ID` is left out.
* `printable_encodeResponse`: a written response has no byte under `0x20`, so its line holds one
  newline, the last byte.
* `parseDocument_encodeResponse`: a response without known commands reads back as an object
  whose `ID` member, present unless the id is zero, is the id, and whose other members have
  other names.
-/

namespace GoBuildCache.Protocol

open Json

/-- The members `json.Marshal` writes for a response whose time has been written as `time`, in
the order of the struct, each left out when it holds its zero value. -/
def responseObject (r : Response) (time : Option Bytes) : Bytes :=
  encodeObject (
    (if r.id.val = 0 then [] else [(ascii "ID", Decimal.formatInt r.id.val)]) ++
    (if r.err = [] then [] else [(ascii "Err", encodeString r.err)]) ++
    (if r.knownCommands = [] then [] else
      [(ascii "KnownCommands", encodeArray (r.knownCommands.map encodeString))]) ++
    (if r.miss then [(ascii "Miss", ascii "true")] else []) ++
    (if r.outputID = [] then [] else [(ascii "OutputID", encodeBytes r.outputID)]) ++
    (if r.size.val = 0 then [] else [(ascii "Size", Decimal.formatInt r.size.val)]) ++
    time.toList.map (fun t => (ascii "Time", t)) ++
    (if r.diskPath = [] then [] else [(ascii "DiskPath", encodeString r.diskPath)]))

/-- The error of `json.Marshal` when `MarshalJSON` of the `*time.Time` field fails with `e`. -/
def marshalerError (e : Bytes) : Bytes :=
  ascii "json: error calling MarshalJSON for type *time.Time: " ++ e

/-- `json.Marshal(resp)`. -/
def encodeResponse (r : Response) : Except Bytes Bytes :=
  match r.time with
  | none => .ok (responseObject r none)
  | some t =>
    match t.marshalJSON with
    | .ok b => .ok (responseObject r (some b))
    | .error e => .error (marshalerError e)

/-- The response of `SendInitialResponse`. -/
def initialResponse : Response := { Response.zero with knownCommands := [cmdPut, cmdGet, cmdClose] }

/-- The first line: the zero `ID` is left out. -/
theorem encodeResponse_initialResponse :
    encodeResponse initialResponse =
      .ok (123 :: ascii "\"KnownCommands\":[\"put\",\"get\",\"close\"]" ++ [125]) :=
  rfl

/-! ## When `json.Marshal` fails -/

/-- A response is written exactly when it has no time, or a time `MarshalJSON` writes: its year,
in its location, lies in `0..9999` and its offset is less than a day; else `json.Marshal` fails
with the error of `Time.MarshalJSON`. -/
theorem encodeResponse_ok_iff (r : Response) :
    (∃ data, encodeResponse r = .ok data) ↔ ∀ t, r.time = some t → GoTime.Marshalable t := by
  unfold encodeResponse
  rcases r.time with _ | t
  · exact ⟨fun _ _ h => (nomatch h), fun _ => ⟨_, rfl⟩⟩
  · simp only [Option.some.injEq, forall_eq', ← GoTime.marshalJSON_ok_iff]
    rcases t.marshalJSON with e | b <;> simp

/-- The error of a response whose time has a year outside `0..9999`. -/
theorem encodeResponse_year_error {r : Response} {t : GoTime} (h : r.time = some t)
    (hy : t.year < 0 ∨ 9999 < t.year) :
    encodeResponse r = .error (marshalerError GoTime.yearRangeError) := by
  simp only [encodeResponse, h, GoTime.marshalJSON_year_error hy]

/-! ## A written response is one line -/

theorem printable_encodeArray {elems : List Bytes} (h : ∀ e ∈ elems, Printable e) :
    Printable (encodeArray elems) :=
  .cons (by decide) ((printable_intercalate (by decide) h).append (by decide))

/-- The time as `MarshalJSON` writes it. -/
theorem marshalJSON_printable {t : GoTime} {b : Bytes} (h : t.marshalJSON = .ok b) : Printable b :=
  GoTime.marshalJSON_eq h ▸ printable_encodeString _

theorem printable_responseObject (r : Response) {time : Option Bytes}
    (ht : ∀ b ∈ time, Printable b) : Printable (responseObject r time) := by
  refine printable_encodeObject ?_
  simp only [List.mem_append, List.mem_ite_nil_left, List.mem_ite_nil_right, List.mem_singleton,
    List.mem_map, Option.mem_toList]
  rintro f (((((((⟨-, rfl⟩ | ⟨-, rfl⟩) | ⟨-, rfl⟩) | ⟨-, rfl⟩) | ⟨-, rfl⟩) | ⟨-, rfl⟩) |
    ⟨b, hb, rfl⟩) | ⟨-, rfl⟩)
  · exact printable_formatInt _
  · exact printable_encodeString _
  · exact printable_encodeArray fun e he => by
      obtain ⟨c, -, rfl⟩ := List.mem_map.1 he
      exact printable_encodeString c
  · decide
  · exact printable_encodeBytes _
  · exact printable_formatInt _
  · exact ht b hb
  · exact printable_encodeString _

/-- What `json.Marshal` writes of a response: its members, the time written as the string of its
RFC 3339 text. -/
theorem encodeResponse_eq_ok {r : Response} {data : Bytes} (h : encodeResponse r = .ok data) :
    data = responseObject r (r.time.map fun t => encodeString (GoTime.formatRFC3339 t)) := by
  unfold encodeResponse at h
  split at h
  next ht => rw [ht]; exact (Except.ok.inj h).symm
  next t ht =>
    split at h
    next b hb => rw [ht, Option.map_some', ← GoTime.marshalJSON_eq hb]; exact (Except.ok.inj h).symm
    next => cases h

/-- What `json.Marshal` writes of a response has no byte under `0x20`, a newline least of all. -/
theorem printable_encodeResponse {r : Response} {data : Bytes} (h : encodeResponse r = .ok data) :
    Printable data := by
  rw [encodeResponse_eq_ok h]
  refine printable_responseObject r fun b hb => ?_
  obtain ⟨t, -, rfl⟩ := Option.mem_map.1 hb
  exact printable_encodeString _

/-! ## Reading a response back -/

/-- The members of a response after `ID`, without known commands, with the values the reader
reads back. -/
def responseRest (r : Response) : List Member :=
  (if r.err = [] then [] else [⟨ascii "Err", _, _, reads_encodeString r.err⟩]) ++
    (if r.miss then [⟨ascii "Miss", _, _, reads_true⟩] else []) ++
    (if r.outputID = [] then [] else [⟨ascii "OutputID", _, _, reads_encodeBytes r.outputID⟩]) ++
    (if r.size.val = 0 then [] else [⟨ascii "Size", _, _, reads_formatInt r.size.val⟩]) ++
    r.time.toList.map (fun t => ⟨ascii "Time", _, _, reads_encodeString (GoTime.formatRFC3339 t)⟩) ++
    (if r.diskPath = [] then [] else [⟨ascii "DiskPath", _, _, reads_encodeString r.diskPath⟩])

/-- The members of a response without known commands. -/
def responseMembers (r : Response) : List Member :=
  (if r.id.val = 0 then [] else [⟨ascii "ID", _, _, reads_formatInt r.id.val⟩]) ++ responseRest r

theorem map_field_ite {c : Prop} [Decidable c] (m : Member) :
    (if c then [] else [m]).map Member.field = if c then [] else [m.field] := by
  split <;> rfl

theorem map_field_ite' {c : Prop} [Decidable c] (m : Member) :
    (if c then [m] else []).map Member.field = if c then [m.field] else [] := by
  split <;> rfl

/-- A written response without known commands is the object of its members. -/
theorem encodeResponse_members {r : Response} {data : Bytes} (h : encodeResponse r = .ok data)
    (hk : r.knownCommands = []) : data = encodeObject ((responseMembers r).map Member.field) := by
  rw [encodeResponse_eq_ok h]
  have ht : (r.time.map fun t => encodeString (GoTime.formatRFC3339 t)).toList =
      r.time.toList.map fun t => encodeString (GoTime.formatRFC3339 t) := by
    cases r.time <;> rfl
  simp only [responseObject, responseMembers, responseRest, hk, if_true, List.append_nil,
    List.map_append, map_field_ite, map_field_ite', List.map_map, ht, List.append_assoc]
  rfl

theorem name_ne_ID {m : Member} {r : Response} (hm : m ∈ responseRest r) :
    m.entry.1 ≠ ascii "ID" := by
  simp only [responseRest, List.mem_append, List.mem_ite_nil_left, List.mem_ite_nil_right,
    List.mem_singleton, List.mem_map, Option.mem_toList] at hm
  rcases hm with (((((⟨-, rfl⟩ | ⟨-, rfl⟩) | ⟨-, rfl⟩) | ⟨-, rfl⟩) | ⟨t, -, rfl⟩) | ⟨-, rfl⟩) <;>
    dsimp only [Member.entry] <;> decide

/-- A written response without known commands reads back as an object whose first member is
`ID` and the id, unless the id is zero, and whose other members have other names. -/
theorem parseDocument_encodeResponse {r : Response} {data : Bytes} (h : encodeResponse r = .ok data)
    (hk : r.knownCommands = []) :
    ∃ rest, parseDocument data = some (.object ((if r.id.val = 0 then [] else
        [(ascii "ID", .number (Decimal.formatInt r.id.val))]) ++ rest)) ∧
      ∀ m ∈ rest, m.1 ≠ ascii "ID" := by
  refine ⟨(responseRest r).map Member.entry, ?_, fun m hm => ?_⟩
  · rw [encodeResponse_members h hk, parseDocument_encodeObject, responseMembers, List.map_append]
    congr 3
    split <;> rfl
  · obtain ⟨f, hf, rfl⟩ := List.mem_map.1 hm
    exact name_ne_ID hf

/-- The miss a get of id 7 is answered with reads back with its id first. -/
theorem parseDocument_encodeResponse_miss :
    ∃ data, encodeResponse { Response.zero with id := Int64.ofInt 7, miss := true } = .ok data ∧
      ∃ rest, parseDocument data = some (.object ((if (7 : Int) = 0 then [] else
          [(ascii "ID", .number (Decimal.formatInt 7))]) ++ rest)) ∧ ∀ m ∈ rest, m.1 ≠ ascii "ID" :=
  ⟨_, rfl, parseDocument_encodeResponse
    (r := { Response.zero with id := Int64.ofInt 7, miss := true }) rfl rfl⟩

end GoBuildCache.Protocol
