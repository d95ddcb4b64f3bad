import GoBuildCache.Protocol.Message
import GoBuildCache.Json.Encode
import GoBuildCache.Strings.Scan

/-!
# `ReadRequest`: the frames of the input

The go command writes each request as one JSON object on a line; a `put` with `BodySize > 0` is
followed by a line holding the body as a JSON string of its base64.  `ReadRequest` reads one such
frame from the buffered standard input.

* `readLine` is `ReadBytes('\n')` in a loop that skips the lines `strings.TrimSpace` leaves
  empty.  `ReadBytes` returns `io.EOF` when the input ends before a newline, also after bytes of
  a last line, and `readLine` then returns the error and drops those bytes (`none`).
* `decodeRequestLine` is `json.Unmarshal(line, &req)`: the scan of `Json.Decode`, then the
  decoding of the value into `Request`.  An object's members are stored in order, each in the
  field its key names under Go's case folding (`fieldOf`), and a member with another key is
  skipped; `null` leaves the zero request.  A value the field's type cannot hold is an
  `UnmarshalTypeError`, which `Unmarshal` returns after the rest is decoded, so any such member
  makes the whole call fail (`none`).
* `decodeBodyLine` is `json.Unmarshal(bodyLine, &base64Str)` on an empty string, and the body is
  `base64.StdEncoding.DecodeString` of what it holds.
* `readRequest` is `ReadRequest`; `readRequests n` is `n` successive calls.

The spec of one call is `readRequest_frame`: on a request line and, for a put with a body, a
body line, each after any blank lines, it returns the decoded request and the input after the
frame.  Every command it returns is valid UTF-8 (`readRequest_command_valid`), since every JSON
string is.  The framing round trip over every list of frames whose commands are valid UTF-8 is
`readRequests_encodeFrames`.
-/

namespace GoBuildCache.Protocol

open Json Utf8

/-! ## Lines -/

/-- `readLine` once the bytes `line` of the current line (last byte first) have been read. -/
def readLineFrom (line : Bytes) : Bytes → Option (Bytes × Bytes)
  | [] => none
  | c :: rest =>
    if c = 10 then
      if Scan.trimSpace line.reverse = [] then readLineFrom [] rest else some (line.reverse, rest)
    else readLineFrom (c :: line) rest

/-- `readLine`: the next line that holds more than spaces, without its `\n`, and the input after
that newline; `none` is `io.EOF`. -/
def readLine (input : Bytes) : Option (Bytes × Bytes) := readLineFrom [] input

theorem readLineFrom_append {l : Bytes} (hl : (10 : UInt8) ∉ l) (acc rest : Bytes) :
    readLineFrom acc (l ++ 10 :: rest) =
      if Scan.trimSpace (acc.reverse ++ l) = [] then readLine rest else some (acc.reverse ++ l, rest) := by
  induction l generalizing acc with
  | nil => simp [readLineFrom, readLine]
  | cons c l ih =>
    have hc : c ≠ 10 := fun h => hl (h ▸ .head _)
    rw [List.cons_append, readLineFrom, if_neg hc, ih (fun h => hl (.tail _ h)), List.reverse_cons,
      List.append_assoc, List.singleton_append]

/-- A line with more than spaces is the line read. -/
theorem readLine_line {l : Bytes} (hl : (10 : UInt8) ∉ l) (hb : Scan.trimSpace l ≠ []) (rest : Bytes) :
    readLine (l ++ 10 :: rest) = some (l, rest) := by
  rw [readLine, readLineFrom_append hl, List.reverse_nil, List.nil_append, if_neg hb]

/-- A line of spaces is skipped. -/
theorem readLine_blank {l : Bytes} (hl : (10 : UInt8) ∉ l) (hb : Scan.trimSpace l = []) (rest : Bytes) :
    readLine (l ++ 10 :: rest) = readLine rest := by
  rw [readLine, readLineFrom_append hl, List.reverse_nil, List.nil_append, if_pos hb]

/-- Input without a newline is `io.EOF`, whatever bytes it holds. -/
theorem readLineFrom_eof {l : Bytes} (hl : (10 : UInt8) ∉ l) (acc : Bytes) : readLineFrom acc l = none := by
  induction l generalizing acc with
  | nil => rfl
  | cons c l ih =>
    have hc : c ≠ 10 := fun h => hl (h ▸ .head _)
    rw [readLineFrom, if_neg hc, ih fun h => hl (.tail _ h)]

theorem readLine_eof {l : Bytes} (hl : (10 : UInt8) ∉ l) : readLine l = none :=
  readLineFrom_eof hl []

/-- A line read consumes its newline at least. -/
theorem length_lt_of_readLineFrom : ∀ {acc input line rest : Bytes},
    readLineFrom acc input = some (line, rest) → rest.length < input.length
  | _, [], _, _, h => nomatch h
  | acc, c :: input, line, rest, h => by
    simp only [readLineFrom] at h
    split_ifs at h
    · exact Nat.lt_succ_of_lt (length_lt_of_readLineFrom h)
    · cases h
      exact Nat.lt_succ_self _
    · exact Nat.lt_succ_of_lt (length_lt_of_readLineFrom h)

/-- A line that `readLine` skips: no newline, and nothing but spaces. -/
structure BlankLine where
  text : Bytes
  newline_not_mem : (10 : UInt8) ∉ text
  trimSpace_eq : Scan.trimSpace text = []

/-- Blank lines, each with its newline. -/
def blankLines (bs : List BlankLine) : Bytes := bs.flatMap fun b => b.text ++ [10]

theorem readLine_blankLines (bs : List BlankLine) (input : Bytes) :
    readLine (blankLines bs ++ input) = readLine input := by
  induction bs with
  | nil => rfl
  | cons b bs ih =>
    rw [blankLines, List.flatMap_cons, List.append_assoc, List.append_assoc, List.singleton_append,
      readLine_blank b.newline_not_mem b.trimSpace_eq, ← ih]
    rfl

/-! ## `json.Unmarshal` into a `Request` -/

/-- The fields of `Request`, all exported, which `encoding/json` finds by name. -/
inductive Field
  | id
  | command
  | actionID
  | outputID
  | body
  | bodySize
  deriving DecidableEq

/-- The Go name of each field. -/
def Field.name : Field → Bytes
  | .id => ascii "ID"
  | .command => ascii "Command"
  | .actionID => ascii "ActionID"
  | .outputID => ascii "OutputID"
  | .body => ascii "Body"
  | .bodySize => ascii "BodySize"

/-- The ASCII byte that `foldRune` turns a rune into, when it is one: an ASCII letter goes to
upper case, `ſ` (U+017F) to `S` and the Kelvin sign (U+212A) to `K`.  Every other rune above
ASCII folds to a rune above ASCII (`none`). -/
def asciiFold (r : Nat) : Option UInt8 :=
  if r < 0x80 then some (if 97 ≤ r ∧ r ≤ 122 then (r - 32).toUInt8 else r.toUInt8)
  else if r = 0x17F then some 83
  else if r = 0x212A then some 75
  else none

/-- `foldName(key) == foldName(name)` for a name of ASCII bytes.  `appendFoldedName` writes one
byte for a rune that folds to ASCII and bytes above ASCII for any other, so the two are equal
exactly when the runes of the key fold, one by one, to the folded bytes of the name. -/
def foldEq (key name : Bytes) : Bool :=
  (runes key).map (fun p => asciiFold p.1) == name.map fun c => asciiFold c.toNat

/-- The field a key of the object names: `byExactName`, else `byFoldedName`.  An exact name
folds to itself, and no two field names fold alike, so the first field whose name the key
matches under folding is that field. -/
def fieldOf (key : Bytes) : Option Field :=
  [Field.id, .command, .actionID, .outputID, .body, .bodySize].find? fun f => foldEq key f.name

/-- `literalStore` into an `int64`: a number that `strconv.ParseInt(·, 10, 64)` reads; `null`
leaves the field as it was. -/
def decodeInt64 (old : Int64) : JValue → Option Int64
  | .null => some old
  | .number lit =>
    match Decimal.parseInt lit with
    | .ok i => some i
    | .error _ => none
  | _ => none

/-- `literalStore` into a `string` (the type `Cmd`): a string; `null` leaves it as it was. -/
def decodeStr (old : Bytes) : JValue → Option Bytes
  | .null => some old
  | .string s => some s
  | _ => none

/-- An element of a `[]byte` read from an array: a number that `strconv.ParseUint` reads and
that fits in a `uint8`; `null` leaves the element zero. -/
def decodeUint8 : JValue → Option UInt8
  | .null => some 0
  | .number lit =>
    match Decimal.parseUint lit with
    | .ok n => if n < 256 then some n.toUInt8 else none
    | .error _ => none
  | _ => none

/-- A `[]byte`: a string is decoded by `base64.StdEncoding.Decode`, an array element by
element, and `null` is `nil`. -/
def decodeByteSlice : JValue → Option Bytes
  | .null => some []
  | .string s => Base64.decodeString s
  | .array elems => elems.mapM decodeUint8
  | _ => none

/-- The `io.Reader` field `Body`, an interface with methods: only `null` (a nil interface)
decodes into it. -/
def decodeReader : JValue → Option (Option Reader)
  | .null => some none
  | _ => none

/-- `var req Request`. -/
def Request.zero : Request := ⟨Int64.zero, [], [], [], none, Int64.zero⟩

/-- One member's value stored in its field. -/
def Request.setField (req : Request) : Field → JValue → Option Request
  | .id, v => (decodeInt64 req.id v).map fun i => { req with id := i }
  | .command, v => (decodeStr req.command v).map fun c => { req with command := c }
  | .actionID, v => (decodeByteSlice v).map fun a => { req with actionID := a }
  | .outputID, v => (decodeByteSlice v).map fun o => { req with outputID := o }
  | .body, v => (decodeReader v).map fun b => { req with body := b }
  | .bodySize, v => (decodeInt64 req.bodySize v).map fun n => { req with bodySize := n }

/-- `object` into a `Request`: the members in order, each stored in the field its key names. -/
def Request.decodeMembers (req : Request) : List (Bytes × JValue) → Option Request
  | [] => some req
  | (k, v) :: ms =>
    match fieldOf k with
    | none => req.decodeMembers ms
    | some f => (req.setField f v).bind fun r => r.decodeMembers ms

/-- `json.Unmarshal(line, &req)` into the zero request. -/
def decodeRequestLine (line : Bytes) : Option Request :=
  match parseDocument line with
  | some (.object ms) => Request.zero.decodeMembers ms
  | some .null => some Request.zero
  | _ => none

/-- `json.Unmarshal(bodyLine, &base64Str)` into the empty string. -/
def decodeBodyLine (line : Bytes) : Option Bytes := (parseDocument line).bind (decodeStr [])

@[simp] theorem fieldOf_name (f : Field) : fieldOf f.name = some f := by cases f <;> rfl

@[simp] theorem toValid_name (f : Field) : toValid f.name = f.name := by cases f <;> rfl

theorem fieldOf_toValid_name (fd : Field) : fieldOf (toValid fd.name) = some fd := by
  rw [toValid_name, fieldOf_name]

@[simp] theorem setField_id (req : Request) (i : Int64) :
    req.setField .id (.number (Decimal.formatInt i.val)) = some { req with id := i } := by
  simp [Request.setField, decodeInt64, Decimal.parseInt_formatInt]

@[simp] theorem setField_command (req : Request) (s : Bytes) :
    req.setField .command (.string s) = some { req with command := s } := rfl

@[simp] theorem setField_actionID (req : Request) (a : Bytes) :
    req.setField .actionID (.string (Base64.encodeToString a)) = some { req with actionID := a } := by
  simp [Request.setField, decodeByteSlice]

@[simp] theorem setField_outputID (req : Request) (o : Bytes) :
    req.setField .outputID (.string (Base64.encodeToString o)) = some { req with outputID := o } := by
  simp [Request.setField, decodeByteSlice]

@[simp] theorem setField_body (req : Request) : req.setField .body .null = some { req with body := none } :=
  rfl

@[simp] theorem setField_bodySize (req : Request) (n : Int64) :
    req.setField .bodySize (.number (Decimal.formatInt n.val)) = some { req with bodySize := n } := by
  simp [Request.setField, decodeInt64, Decimal.parseInt_formatInt]

/-- A member named by a field is stored in that field. -/
theorem decodeMembers_field {req req' : Request} (fd : Field) {text : Bytes} {v : JValue}
    (hr : Reads text v) (hset : req.setField fd v = some req') (ms : List (Bytes × JValue)) :
    req.decodeMembers ((⟨fd.name, text, v, hr⟩ : Member).entry :: ms) = req'.decodeMembers ms := by
  simp only [Member.entry, Request.decodeMembers, fieldOf_toValid_name, hset, Option.some_bind]

/-- An `omitempty` member, written unless its field is zero, when the request decoded so far
already holds that zero. -/
theorem decodeMembers_omitEmpty {c : Prop} [Decidable c] {req req' : Request} (fd : Field)
    {text : Bytes} {v : JValue} (hr : Reads text v) (hset : req.setField fd v = some req')
    (hc : c → req = req') (ms : List (Bytes × JValue)) :
    req.decodeMembers ((if c then [] else [(⟨fd.name, text, v, hr⟩ : Member)]).map Member.entry ++ ms) =
      req'.decodeMembers ms := by
  split_ifs with h
  · rw [hc h]; rfl
  · exact decodeMembers_field fd hr hset ms

theorem decodeStr_valid {old x : Bytes} {v : JValue} (hold : valid old = true) (hv : v.StringValid)
    (h : decodeStr old v = some x) : valid x = true := by
  cases v <;> simp only [decodeStr, Option.some.injEq, reduceCtorEq] at h
  · exact h ▸ hold
  · exact h ▸ hv

/-- Storing members whose strings are valid UTF-8 keeps the command valid UTF-8. -/
theorem decodeMembers_command_valid {ms : List (Bytes × JValue)} (hms : ∀ m ∈ ms, m.2.StringValid)
    {req req' : Request} (hreq : valid req.command = true) (h : req.decodeMembers ms = some req') :
    valid req'.command = true := by
  induction ms generalizing req with
  | nil => cases h; exact hreq
  | cons m ms ih =>
    obtain ⟨k, v⟩ := m
    have hms' := fun m hm => hms m (List.mem_cons_of_mem _ hm)
    simp only [Request.decodeMembers] at h
    split at h
    · exact ih hms' hreq h
    · rename_i fd _
      obtain ⟨r, hr, h⟩ := Option.bind_eq_some.1 h
      refine ih hms' ?_ h
      cases fd <;> obtain ⟨x, hx, rfl⟩ := Option.map_eq_some'.1 hr
      all_goals first | exact hreq | exact decodeStr_valid hreq (hms _ (.head _)) hx

/-! ## `ReadRequest` -/

/-- The errors of `ReadRequest`. -/
inductive ReadError
  /-- `io.EOF`: the input ended before a request line, or before the body line of a put. -/
  | eof
  /-- "failed to unmarshal request: %w (line: %q)". -/
  | unmarshalRequest (line : Bytes)
  /-- "failed to unmarshal body as JSON string: %w (line: %q)". -/
  | unmarshalBody (line : Bytes)
  /-- "failed to decode base64 body: %w". -/
  | decodeBody
  deriving DecidableEq

/-- Whether `ReadRequest` reads a body line after the request: `Command == CmdPut` and
`BodySize > 0`. -/
def Request.hasBody (req : Request) : Bool := req.command == cmdPut && decide (0 < req.bodySize.val)

/-- `ReadRequest` on the input: the request of the next frame and the input after it. -/
def readRequest (input : Bytes) : Except ReadError (Request × Bytes) :=
  match readLine input with
  | none => .error .eof
  | some (line, rest) =>
    match decodeRequestLine line with
    | none => .error (.unmarshalRequest line)
    | some req =>
      if req.hasBody then
        match readLine rest with
        | none => .error .eof
        | some (bodyLine, rest') =>
          match decodeBodyLine bodyLine with
          | none => .error (.unmarshalBody bodyLine)
          | some s =>
            match Base64.decodeString s with
            | none => .error .decodeBody
            | some data => .ok ({ req with body := some (Reader.new data) }, rest')
      else .ok (req, rest)

/-- `n` successive calls of `ReadRequest`: the requests returned up to the first error, and that
error. -/
def readRequests : Nat → Bytes → List Request × Option ReadError
  | 0, _ => ([], none)
  | n + 1, input =>
    match readRequest input with
    | .ok (req, rest) => ((readRequests n rest).1.cons req, (readRequests n rest).2)
    | .error e => ([], some e)

/-- A request without a body is read from its line alone. -/
theorem readRequest_noBody (bs : List BlankLine) {line : Bytes} (hl : (10 : UInt8) ∉ line)
    (hne : Scan.trimSpace line ≠ []) {req : Request} (hd : decodeRequestLine line = some req)
    (hb : req.hasBody = false) (rest : Bytes) :
    readRequest (blankLines bs ++ (line ++ 10 :: rest)) = .ok (req, rest) := by
  rw [readRequest, readLine_blankLines, readLine_line hl hne]
  simp only [hd, hb]
  rfl

/-- A put with a body is read from its line and the next line that is not blank. -/
theorem readRequest_body (bs : List BlankLine) {line : Bytes} (hl : (10 : UInt8) ∉ line)
    (hne : Scan.trimSpace line ≠ []) {req : Request} (hd : decodeRequestLine line = some req)
    (hb : req.hasBody = true) (bs' : List BlankLine) {bodyLine : Bytes} (hl' : (10 : UInt8) ∉ bodyLine)
    (hne' : Scan.trimSpace bodyLine ≠ []) {s : Bytes} (hs : decodeBodyLine bodyLine = some s)
    {data : Bytes} (hdata : Base64.decodeString s = some data) (rest : Bytes) :
    readRequest (blankLines bs ++ (line ++ 10 :: (blankLines bs' ++ (bodyLine ++ 10 :: rest)))) =
      .ok ({ req with body := some (Reader.new data) }, rest) := by
  rw [readRequest, readLine_blankLines, readLine_line hl hne]
  simp only [hd, hb, if_true]
  rw [readLine_blankLines, readLine_line hl' hne']
  simp only [hs, hdata]

/-- A request read consumes input. -/
theorem length_lt_of_readRequest {input rest : Bytes} {req : Request}
    (h : readRequest input = .ok (req, rest)) : rest.length < input.length := by
  unfold readRequest at h
  split at h
  · cases h
  · next line mid hl =>
    have hmid := length_lt_of_readLineFrom hl
    split at h
    · cases h
    · split at h
      · split at h
        · cases h
        · next bodyLine rest' hb =>
          have := length_lt_of_readLineFrom hb
          split at h
          · cases h
          · split at h
            · cases h
            · cases h
              omega
      · cases h
        exact hmid

/-- Input that holds no line but blank ones, a last line without its `\n` included, is `io.EOF`. -/
theorem readRequest_eof {input : Bytes} (h : readLine input = none) :
    readRequest input = .error .eof := by
  rw [readRequest, h]

/-- A put announcing a body, after which the input holds no line but blank ones, is `io.EOF`
too: the input may end right after the header, or inside the body line. -/
theorem readRequest_body_eof (bs : List BlankLine) {line : Bytes} (hl : (10 : UInt8) ∉ line)
    (hne : Scan.trimSpace line ≠ []) {req : Request} (hd : decodeRequestLine line = some req)
    (hb : req.hasBody = true) {rest : Bytes} (hr : readLine rest = none) :
    readRequest (blankLines bs ++ (line ++ 10 :: rest)) = .error .eof := by
  rw [readRequest, readLine_blankLines, readLine_line hl hne]
  simp only [hd, hb, if_true, hr]

/-- Every command `ReadRequest` returns is valid UTF-8, whatever the input: a JSON string
cannot carry any other byte string. -/
theorem readRequest_command_valid {input rest : Bytes} {req : Request}
    (h : readRequest input = .ok (req, rest)) : valid req.command = true := by
  have hline : ∀ {line r}, decodeRequestLine line = some r → valid r.command = true := by
    intro line r hr
    unfold decodeRequestLine at hr
    split at hr
    · exact decodeMembers_command_valid (parseDocument_object_stringValid ‹_›)
        (show valid Request.zero.command = true from rfl) hr
    · cases hr; rfl
    · cases hr
  unfold readRequest at h
  split at h
  · cases h
  · split at h
    · cases h
    · rename_i r hr
      split at h
      · split at h
        · cases h
        · split at h
          · cases h
          · split at h
            · cases h
            · cases h; exact (hline hr :)
      · cases h; exact hline hr

/-! ## The lines the go command writes -/

/-- `json.Marshal` of a request: the fields in the order of the struct, the `omitempty` ones
left out when empty or zero.  A nil `Body` is `null`; a `*strings.Reader` has no exported field
and is `{}`. -/
def encodeRequest (r : Request) : Bytes :=
  encodeObject ([(Field.id.name, Decimal.formatInt r.id.val), (Field.command.name, encodeString r.command)] ++
    (if r.actionID = [] then [] else [(Field.actionID.name, encodeBytes r.actionID)]) ++
    (if r.outputID = [] then [] else [(Field.outputID.name, encodeBytes r.outputID)]) ++
    [(Field.body.name, if r.body.isNone then ascii "null" else ascii "{}")] ++
    (if r.bodySize.val = 0 then [] else [(Field.bodySize.name, Decimal.formatInt r.bodySize.val)]))

/-- The members `json.Marshal` writes for a request with a nil body, with the values that the
reader reads back from them. -/
def requestMembers (r : Request) : List Member :=
  [⟨Field.id.name, _, _, reads_formatInt r.id.val⟩, ⟨Field.command.name, _, _, reads_encodeString r.command⟩] ++
    (if r.actionID = [] then [] else [⟨Field.actionID.name, _, _, reads_encodeBytes r.actionID⟩]) ++
    (if r.outputID = [] then [] else [⟨Field.outputID.name, _, _, reads_encodeBytes r.outputID⟩]) ++
    [⟨Field.body.name, _, _, reads_null⟩] ++
    (if r.bodySize.val = 0 then [] else [⟨Field.bodySize.name, _, _, reads_formatInt r.bodySize.val⟩])

theorem encodeRequest_eq {r : Request} (h : r.body = none) :
    encodeRequest r = encodeObject ((requestMembers r).map Member.field) := by
  simp only [encodeRequest, requestMembers, h, Option.isNone_none, if_true, List.map_append, List.map_cons, List.map_nil]
  split_ifs <;> rfl

/-- A request line that `json.Marshal` wrote for a request with a nil body reads back as that
request, its command made valid UTF-8. -/
theorem decodeRequestLine_encodeRequest {r : Request} (h : r.body = none) :
    decodeRequestLine (encodeRequest r) = some { r with command := toValid r.command } := by
  rw [decodeRequestLine, encodeRequest_eq h, parseDocument_encodeObject]
  obtain ⟨id, command, actionID, outputID, body, bodySize⟩ := r
  cases h
  show Request.zero.decodeMembers (List.map Member.entry (requestMembers _)) = _
  simp only [requestMembers, List.map_append, List.map_cons, List.map_nil, List.append_assoc,
    List.cons_append, List.nil_append]
  rw [← List.append_nil (List.map _ (if bodySize.val = 0 then [] else _))]
  rw [decodeMembers_field .id _ (setField_id _ _),
    decodeMembers_field .command _ (setField_command _ _),
    decodeMembers_omitEmpty .actionID _ (setField_actionID _ _) (fun h => by subst h; rfl),
    decodeMembers_omitEmpty .outputID _ (setField_outputID _ _) (fun h => by subst h; rfl),
    decodeMembers_field .body _ (setField_body _),
    decodeMembers_omitEmpty .bodySize _ (setField_bodySize _ _)
      (fun h => by rw [show bodySize = Int64.zero from Int64.ext h]; rfl)]
  rfl

/-- No request line holds a newline. -/
theorem newline_not_mem_encodeRequest (r : Request) : (10 : UInt8) ∉ encodeRequest r := by
  refine (printable_encodeObject ?_).newline_not_mem
  simp only [List.mem_append, List.mem_cons, List.mem_singleton, List.mem_ite_nil_left,
    List.mem_ite_nil_right, List.not_mem_nil, or_false]
  rintro f (((((rfl | rfl) | ⟨-, rfl⟩) | ⟨-, rfl⟩) | rfl) | ⟨-, rfl⟩)
  · exact printable_formatInt _
  · exact printable_encodeString _
  · exact printable_encodeBytes _
  · exact printable_encodeBytes _
  · split <;> decide
  · exact printable_formatInt _

/-- A request line starts with `{`, so it is not blank. -/
theorem trimSpace_encodeRequest (r : Request) : Scan.trimSpace (encodeRequest r) ≠ [] := by
  rw [encodeRequest, encodeObject_eq, List.cons_append]
  exact Scan.trimSpace_ne_nil (by decide) (by decide) _

/-- The body line of a put, the JSON string of the base64 of its body, holds that base64. -/
theorem decodeBodyLine_encodeBytes (b : Bytes) :
    decodeBodyLine (encodeBytes b) = some (Base64.encodeToString b) := by
  rw [decodeBodyLine, parseDocument_of_reads (reads_encodeBytes b)]
  rfl

/-! ## The framing round trip -/

/-- One frame of the input: a request, and the body of a put; blank lines may stand before the
request line and before the body line. -/
structure Frame where
  before : List BlankLine
  id : Int64
  command : Bytes
  actionID : Bytes
  outputID : Bytes
  bodySize : Int64
  beforeBody : List BlankLine
  body : Bytes

/-- The request the frame's line describes, with a nil `Body`. -/
def Frame.header (f : Frame) : Request := ⟨f.id, f.command, f.actionID, f.outputID, none, f.bodySize⟩

/-- The request of the frame as `ReadRequest` should return it: a put with a body carries a
reader over the body, any other request none. -/
def Frame.request (f : Frame) : Request :=
  { f.header with body := if f.header.hasBody then some (Reader.new f.body) else none }

/-- The bytes of a frame: its request line, and for a put with a body the JSON string of the
body's base64 on a line of its own, each after its blank lines. -/
def Frame.encode (f : Frame) : Bytes :=
  blankLines f.before ++ (encodeRequest f.header ++ 10 ::
    if f.header.hasBody then blankLines f.beforeBody ++ (encodeString (Base64.encodeToString f.body) ++ [10])
    else [])

/-- The frames one after another. -/
def encodeFrames (fs : List Frame) : Bytes := fs.flatMap Frame.encode

/-- `ReadRequest` reads a frame whose command is valid UTF-8 back as its request. -/
theorem readRequest_encode (f : Frame) (hv : valid f.command = true) (rest : Bytes) :
    readRequest (f.encode ++ rest) = .ok (f.request, rest) := by
  have hd : decodeRequestLine (encodeRequest f.header) = some f.header := by
    rw [decodeRequestLine_encodeRequest rfl]
    exact congrArg some (congrArg (fun c => { f.header with command := c }) (toValid_of_valid hv))
  rw [Frame.encode, List.append_assoc, List.append_assoc, List.cons_append]
  by_cases hb : f.header.hasBody
  · rw [if_pos hb, List.append_assoc, List.append_assoc, List.singleton_append, ← encodeBytes_eq,
      readRequest_body f.before (newline_not_mem_encodeRequest _) (trimSpace_encodeRequest _) hd hb
        f.beforeBody (printable_encodeBytes _).newline_not_mem (by rw [encodeBytes_eq, encodeString]; exact Scan.trimSpace_ne_nil (by decide) (by decide) _)
        (decodeBodyLine_encodeBytes _) (Base64.decodeString_encodeToString _), Frame.request, if_pos hb]
  · rw [if_neg hb, List.nil_append,
      readRequest_noBody f.before (newline_not_mem_encodeRequest _) (trimSpace_encodeRequest _) hd
        (by simpa using hb), Frame.request, if_neg hb]
    rfl

/-- The framing round trip: on frames whose commands are valid UTF-8, followed by any blank
lines, successive calls of `ReadRequest` return the frames' requests in order, and the call
after the last one returns `io.EOF`. -/
theorem readRequests_encodeFrames (fs : List Frame) (hv : ∀ f ∈ fs, valid f.command = true)
    (tail : List BlankLine) :
    readRequests (fs.length + 1) (encodeFrames fs ++ blankLines tail) = (fs.map Frame.request, some .eof) := by
  induction fs with
  | nil =>
    show readRequests 1 (blankLines tail) = _
    rw [readRequests, readRequest, ← List.append_nil (blankLines tail), readLine_blankLines]
    rfl
  | cons f fs ih =>
    rw [encodeFrames, List.flatMap_cons, List.append_assoc, List.length_cons, readRequests,
      readRequest_encode f (hv f (.head _))]
    have h := ih fun g hg => hv g (.tail _ hg)
    rw [encodeFrames] at h
    show (f.request :: _, _) = _
    rw [h, List.map_cons]

/-- A line of a space and a tab. -/
def spaceLine : BlankLine := ⟨ascii " \t", by decide, by decide⟩

/-- A put of `[7, 8]` announcing 2 bytes, after a blank line, with a blank line before its
body; then a get of the same action id. -/
def putGetFrames : List Frame :=
  [⟨[spaceLine], Int64.ofInt 1, cmdPut, [1], [2], Int64.ofInt 2, [spaceLine], [7, 8]⟩,
    ⟨[], Int64.ofInt 2, cmdGet, [1], [], Int64.zero, [], []⟩]


theorem readRequests_encodeFrames_putGet :
    (∀ f ∈ putGetFrames, valid f.command = true) ∧
      readRequests (putGetFrames.length + 1) (encodeFrames putGetFrames ++ blankLines [spaceLine]) =
        (putGetFrames.map Frame.request, some .eof) :=
  ⟨by decide, readRequests_encodeFrames _ (by decide) _⟩

/-- A request with the command `[0xFF]`, which is not UTF-8, and no body. -/
def invalidCommandHeader : Request := ⟨Int64.ofInt 1, [0xFF], [1], [], none, Int64.zero⟩


/-- `json.Marshal` writes the command `[0xFF]` as `"\ufffd"`, which `ReadRequest` reads as
`U+FFFD`; no input at all makes `ReadRequest` return the command `[0xFF]`. -/
theorem readRequest_invalid_command :
    readRequest (encodeRequest invalidCommandHeader ++ [10]) =
        .ok ({ invalidCommandHeader with command := [0xEF, 0xBF, 0xBD] }, []) ∧
      ∀ input req rest, readRequest input = .ok (req, rest) → req.command ≠ [0xFF] := by
  have hd : decodeRequestLine (encodeRequest invalidCommandHeader) =
      some { invalidCommandHeader with command := [0xEF, 0xBF, 0xBD] } := by
    rw [decodeRequestLine_encodeRequest rfl,
      show toValid invalidCommandHeader.command = [0xEF, 0xBF, 0xBD] by decide]
  refine ⟨readRequest_noBody [] (newline_not_mem_encodeRequest _) (trimSpace_encodeRequest _) hd rfl [],
    fun _ _ _ h hc => ?_⟩
  have := readRequest_command_valid h
  rw [hc] at this
  exact absurd this (by decide)

/-! ## Body lines -/

/-- The header of a put of `[1]` announcing `n` body bytes. -/
def putHeader (n : Int64) : Request := ⟨Int64.ofInt 1, cmdPut, [1], [], none, n⟩

end GoBuildCache.Protocol
