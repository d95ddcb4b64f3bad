import GoBuildCache.Broker.History

/-!
# What `Run` returns

`Run` returns once its loop has ended and every goroutine has returned.  It returns nil after
`ReadRequest` answered `io.EOF`, or after the close, when the final `select` takes `done`; it
returns the error of a failed read, of a failed send of its own, or one that a goroutine left in
`errChan` and a `select` took.

* `MainOk`: what `Run`'s place says of the rest of the input, the goroutines and the history.
* `RetInv`: `MainOk`; a failed send of `Run` is what `Run` returns; a goroutine's failed send is
  still to be reported, or waits in `errChan`, or `Run` has taken one from there.
  `retInv_of_reachable` carries it along every run.
* `run_result`: every return comes after all goroutines have returned, and the requests read are
  the successive frames of the input; a nil return means that the rest of the input is `io.EOF`
  to `ReadRequest` or that a close was read and answered, that every send of `Run` succeeded, and
  that a goroutine's failed send left an error in `errChan`; a read error is returned as it is.
* `ReadRequest` answers `io.EOF` to input that ends inside a frame, so `Run` returns nil there, as
  after a last complete frame.
* `run_nil_after_failed_send`: a goroutine's failed send does not stop a nil return when the final
  `select` takes `done` while the error waits in `errChan`.
-/

namespace GoBuildCache.Broker

open Protocol

variable {σ : Type}

/-- A close request was read and its response written. -/
def CloseAnswered (log : List Event) : Prop :=
  ∃ req resp, .read none req ∈ log ∧ .wrote none resp ∈ log ∧ resp.id = req.id

theorem CloseAnswered.append {log : List Event} (h : CloseAnswered log) (es : List Event) :
    CloseAnswered (log ++ es) :=
  let ⟨req, resp, h1, h2, h3⟩ := h
  ⟨req, resp, List.mem_append_left _ h1, List.mem_append_left _ h2, h3⟩

/-- `Run` has taken a goroutine's failed send from `errChan`. -/
def RunPc.tookError : RunPc → Bool
  | .sendFailed _ | .returned (some (.sendResponse _)) => true
  | _ => false

/-- What `Run`'s place says of the rest of the input, the goroutines and the history. -/
def MainOk : RunPc → Bytes → List Handler → List Event → Prop
  | .start, _, hs, _ => hs = []
  | .readFailed e, input, _, _ => readRequest input = .error e ∧ e ≠ .eof
  | .draining req, _, _, log => .read none req ∈ log
  | .closing req, _, hs, log => .read none req ∈ log ∧ ∀ x ∈ hs, x.pc = .finished
  | .closeSending resp, _, hs, log =>
    (∃ req, .read none req ∈ log ∧ resp.id = req.id) ∧ ∀ x ∈ hs, x.pc = .finished
  | .selecting, input, _, log => readRequest input = .error .eof ∨ CloseAnswered log
  | .returned none, input, hs, log =>
    (∀ x ∈ hs, x.pc = .finished) ∧ (readRequest input = .error .eof ∨ CloseAnswered log)
  | .returned (some (.readRequest e)), input, hs, _ =>
    (∀ x ∈ hs, x.pc = .finished) ∧ readRequest input = .error e ∧ e ≠ .eof
  | .returned (some _), _, hs, _ => ∀ x ∈ hs, x.pc = .finished
  | _, _, _, _ => True

/-- The response to close carries the close's id. -/
theorem closeResponse_id (id : Int64) (r : Except Bytes Payload) : (closeResponse id r).id = id := by
  cases r <;> rfl

section Steps

variable {B : Backend σ} {faults : Bool} {w w' : World σ}

theorem MainOk.run (hmo : MainOk w.main w.input w.handlers w.log) (h : RunStep B faults w w') :
    MainOk w'.main w'.input w'.handlers w'.log := by
  cases h with
  | handshake _ hm _ _ | spawn _ _ hm _ _ | checkErr _ hm _ | checkNone hm _ | selectErr _ hm _ =>
    trivial
  | handshakeFail _ hm _ _ =>
    rw [hm, MainOk] at hmo
    exact fun x hx => by rw [hmo] at hx; cases hx
  | readEof _ hr => exact .inl hr
  | readError e _ hr he => exact ⟨hr, he⟩
  | readClose _ _ _ _ _ => exact List.mem_append_right _ (List.mem_singleton_self _)
  | readFailedReturn e hm hd => rw [hm, MainOk] at hmo; exact ⟨hd, hmo⟩
  | closeCall req hm hd => rw [hm, MainOk] at hmo; exact ⟨List.mem_append_left _ hmo, hd⟩
  | closeRet req hm =>
    rw [hm, MainOk] at hmo
    exact ⟨⟨req, List.mem_append_left _ hmo.1, closeResponse_id _ _⟩, hmo.2⟩
  | closeSend resp _ hm _ _ =>
    rw [hm, MainOk] at hmo
    obtain ⟨⟨req, h1, h2⟩, -⟩ := hmo
    exact .inr ⟨req, resp, List.mem_append_left _ h1,
      List.mem_append_right _ (List.mem_singleton_self _), h2⟩
  | closeMarshalFail _ _ hm _ | closeSendFail _ _ _ hm _ _ _ => rw [hm, MainOk] at hmo; exact hmo.2
  | selectDone hm hd => rw [hm, MainOk] at hmo; exact ⟨hd, hmo⟩
  | sendFailedReturn _ _ hd => exact hd

theorem MainOk.handler {i : Nat} (hmo : MainOk w.main w.input w.handlers w.log)
    (h : HandlerStep B faults i w w') : MainOk w'.main w'.input w'.handlers w'.log := by
  obtain ⟨hm, hin⟩ := h.main_eq
  obtain ⟨es, hl, -⟩ := h.events
  obtain ⟨req, pc, -, hh, -, -⟩ := h.handlers_eq
  have hnd : ¬ ∀ x ∈ w.handlers, x.pc = .finished := h.not_allDone
  rw [hm, hin, hl]
  revert hmo
  rcases w.main with _ | _ | _ | _ | _ | _ | _ | _ | _ | _ | ⟨_ | _ | _ | _⟩ <;>
    simp only [MainOk]
  all_goals first
    | exact id
    | exact List.mem_append_left _
    | exact fun h => by rw [h] at hh; cases hh
    | exact fun h => absurd h.2 hnd
    | exact fun h => absurd h.1 hnd
    | exact fun h => absurd h hnd
    | exact Or.imp_right (CloseAnswered.append · es)

end Steps

/-- Every goroutine has returned once `Run` has. -/
theorem MainOk.allDone_of_returned {r : Option RunError} {input : Bytes} {hs : List Handler}
    {log : List Event} (h : MainOk (.returned r) input hs log) : ∀ x ∈ hs, x.pc = .finished := by
  rcases r with _ | ⟨_ | _ | _ | _⟩ <;> simp only [MainOk] at h
  exacts [h.1, h, h.1, h, h]

/-- A goroutine's failed send of `w`'s history is still to be reported, or waits in `errChan`, or
`Run` has taken a failed send from there. -/
def Reported (w : World σ) (j : Nat) : Prop :=
  (∃ x, w.handlers[j]? = some x ∧ ∃ e, x.pc = .reporting e) ∨ w.errChan.isSome = true ∨
    w.main.tookError = true

/-- What `Run` returns: what its place says, that a failed send of its own ends it with an error,
and that every goroutine's failed send is reported. -/
structure RetInv (w : World σ) : Prop where
  main : MainOk w.main w.input w.handlers w.log
  runFailed : ∀ e, .failed none e ∈ w.log → ∃ err, w.main = .returned (some err)
  handlerFailed : ∀ j e, .failed (some j) e ∈ w.log → Reported w j

section Steps

variable {B : Backend σ} {faults : Bool} {w w' : World σ}

/-- A failed send of `Run` that a step logs ends `Run` with an error. -/
theorem Step.run_failure (h : Step B faults w w') {e : Bytes} (he : .failed none e ∈ w'.log) :
    .failed none e ∈ w.log ∨ ∃ err, w'.main = .returned (some err) := by
  rcases h with h | ⟨i, h⟩ <;> cases h <;> first
    | exact .inr ⟨_, rfl⟩
    | exact .inl he
    | exact .inl ((List.mem_append.1 he).resolve_right fun h => nomatch List.mem_singleton.1 h)

/-- A step of `Run` empties `errChan` only to take the error, and keeps an error it took. -/
theorem RunStep.keeps_error (h : RunStep B faults w w') :
    (w.errChan.isSome = true → w'.errChan.isSome = true ∨ w'.main.tookError = true) ∧
      (w.main.tookError = true → w'.main.tookError = true) := by
  cases h <;> refine ⟨fun he => ?_, fun ht => ?_⟩ <;> first
    | exact .inl he
    | exact .inr rfl
    | rfl
    | (rw [‹w.main = _›] at ht; cases ht)

/-- `Run`'s steps keep every failed send reported. -/
theorem RunStep.reported (h : RunStep B faults w w') {j : Nat} (hr : Reported w j) :
    Reported w' j := by
  obtain ⟨new, hn, -⟩ := h.handlers_eq
  obtain ⟨he, ht⟩ := h.keeps_error
  rcases hr with ⟨x, hx, hx'⟩ | hr | hr
  · exact .inl ⟨x, by rw [hn, List.getElem?_append_left (List.getElem?_eq_some_iff.1 hx).1, hx], hx'⟩
  · exact .inr (he hr)
  · exact .inr (.inr (ht hr))

/-- A goroutine's step keeps every failed send reported, its own included. -/
theorem HandlerStep.reported {i : Nat} (h : HandlerStep B faults i w w') {j : Nat}
    (hr : Reported w j) : Reported w' j := by
  have hm := h.main_eq.1
  obtain ⟨req, pc, pc', hh, -, hw⟩ := h.handlers_eq
  -- the error channel: a report fills it, and no goroutine empties it
  have hrep : (∃ e, pc = .reporting e) → w'.errChan.isSome = true := by
    rintro ⟨e, rfl⟩
    cases h <;> first
      | (cases w.errChan <;> rfl)
      | (rw [hh] at ‹w.handlers[i]? = some _›; cases ‹some _ = some _›)
  have he : w.errChan.isSome = true → w'.errChan.isSome = true := by
    intro he
    cases h <;> first | exact he | (cases hw' : w.errChan <;> simp_all)
  rcases hr with ⟨x, hx, e, hxe⟩ | hr | hr
  · by_cases hji : j = i
    · subst hji
      rw [hh, Option.some.injEq] at hx
      subst hx
      exact .inr (.inl (hrep ⟨e, hxe⟩))
    · exact .inl ⟨x, by rw [hw, List.getElem?_set_ne (Ne.symm hji)]; exact hx, e, hxe⟩
  · exact .inr (.inl (he hr))
  · exact .inr (.inr (hm ▸ hr))

end Steps

section Runs

variable {B : Backend σ} {faults : Bool} {input : Bytes} {s : σ} {w w' : World σ}

/-- Once `Run` has returned, nothing takes a step. -/
theorem MainOk.not_returned (hmo : MainOk w.main w.input w.handlers w.log) (h : Step B faults w w')
    (r : Option RunError) : w.main ≠ .returned r := by
  rcases h with h | ⟨i, h⟩
  · cases h <;> (rw [‹w.main = _›]; nofun)
  · intro hm
    rw [hm] at hmo
    exact h.not_allDone hmo.allDone_of_returned

/-- `Run` logs no goroutine's failed send. -/
theorem RunStep.failed_some (h : RunStep B faults w w') {j : Nat} {e : Bytes}
    (he : .failed (some j) e ∈ w'.log) : .failed (some j) e ∈ w.log := by
  cases h <;> first
    | exact he
    | exact (List.mem_append.1 he).resolve_right fun h => nomatch List.mem_singleton.1 h

/-- A goroutine's failed send that its step logs leaves it to report the error. -/
theorem HandlerStep.failed_some {i : Nat} (h : HandlerStep B faults i w w') {j : Nat} {e : Bytes}
    (he : .failed (some j) e ∈ w'.log) :
    .failed (some j) e ∈ w.log ∨ ∃ x, w'.handlers[j]? = some x ∧ ∃ e', x.pc = .reporting e' := by
  have hnew : ∀ {l : List Event} {i : Nat} {hs : List Handler} {req : Request} {x : Handler}
      {e' : Bytes}, hs[i]? = some x → .failed (some j) e ∈ l ++ [.failed (some i) e'] →
      .failed (some j) e ∈ l ∨ ∃ y, (hs.set i ⟨req, .reporting e'⟩)[j]? = some y ∧
        ∃ e'', y.pc = .reporting e'' := fun hh he => by
    rcases List.mem_append.1 he with he | he
    · exact .inl he
    · obtain ⟨hj, -⟩ := Event.failed.inj (List.mem_singleton.1 he)
      cases hj
      exact .inr ⟨_, by rw [getElem?_set_of hh, if_pos rfl], _, rfl⟩
  cases h
  case marshalFail hh _ => exact hnew hh he
  case writeFail hh _ _ => exact hnew hh he
  all_goals first
    | exact .inl he
    | exact .inl ((List.mem_append.1 he).resolve_right fun h => Event.noConfusion (List.mem_singleton.1 h))

theorem retInv_step (hi : RetInv w) (h : Step B faults w w') : RetInv w' := by
  refine ⟨?_, fun e he => ?_, fun j e he => ?_⟩
  · rcases h with h | ⟨i, h⟩
    exacts [hi.main.run h, hi.main.handler h]
  · rcases h.run_failure he with he | he
    · obtain ⟨err, herr⟩ := hi.runFailed e he
      exact absurd herr (hi.main.not_returned h _)
    · exact he
  · rcases h with h | ⟨i, h⟩
    · exact h.reported (hi.handlerFailed j e (h.failed_some he))
    · rcases h.failed_some he with he | he
      exacts [h.reported (hi.handlerFailed j e he), .inl he]

theorem retInv_of_reachable (h : Reachable B faults input s w) : RetInv w := by
  induction h with
  | refl => exact ⟨rfl, fun _ h => absurd h (List.not_mem_nil _), fun _ _ h => absurd h (List.not_mem_nil _)⟩
  | tail _ hs ih => exact retInv_step ih hs

/-- What `Run` returns, over every input and every schedule, with sends that may fail: the
requests it read are the successive frames of the input; it returns once every goroutine has
returned; it returns nil only when the rest of the input is `io.EOF` to `ReadRequest` or a close
was read and answered, with no failed send of its own, and with every goroutine's failed send
leaving an error in `errChan`; it returns a read error with the rest of the input that caused it;
and a failed send of its own is an error it returns. -/
theorem run_result (hr : Reachable B faults input s w) :
    Reads input (w.log.filterMap Event.request?) w.input ∧
      (∀ r, w.main = .returned r → w.allDone) ∧
      (w.main = .returned none →
        (readRequest w.input = .error .eof ∨ CloseAnswered w.log) ∧
        (∀ e, .failed none e ∉ w.log) ∧
        ∀ j e, .failed (some j) e ∈ w.log → w.errChan.isSome = true) ∧
      (∀ e, w.main = .returned (some (.readRequest e)) →
        readRequest w.input = .error e ∧ e ≠ .eof) ∧
      ∀ e, .failed none e ∈ w.log → ∃ err, w.main = .returned (some err) := by
  have hi := retInv_of_reachable hr
  have hmo := hi.main
  refine ⟨reads_of_reachable hr, fun r hm => ?_, fun hm => ?_, fun e hm => ?_, hi.runFailed⟩
  · rw [hm] at hmo
    exact hmo.allDone_of_returned
  · rw [hm, MainOk] at hmo
    refine ⟨hmo.2, fun e he => ?_, fun j e he => ?_⟩
    · obtain ⟨err, herr⟩ := hi.runFailed e he
      rw [hm] at herr
      cases herr
    · rcases hi.handlerFailed j e he with ⟨x, hx, e', hxe⟩ | h | h
      · cases hxe.symm.trans (hmo.1 x (List.getElem?_mem hx))
      · exact h
      · rw [hm] at h
        cases h
  · rw [hm, MainOk] at hmo
    exact hmo.2

/-- `Run` on `twoGets` returning nil once both responses are written. -/
theorem run_result_twoGets : ∃ w : World (Bytes → Option (Bytes × Int64)),
    Reachable mapBackend false twoGets (fun _ => none) w ∧ w.main = .returned none ∧ w.allDone ∧
      (readRequest w.input = .error .eof ∨ CloseAnswered w.log) := by
  obtain ⟨w, hr, hm⟩ : ∃ w : World (Bytes → Option (Bytes × Int64)),
      Reachable mapBackend false twoGets (fun _ => none) w ∧ w.main = .returned none :=
    ⟨_, .head (.run (.handshake _ _ rfl rfl encodeResponse_initialResponse)) <|
      .head (.run (.spawn _ _ _ rfl (readRequest_encode _ (by decide) _) (by decide))) <|
      .head (.run (.checkNone _ rfl rfl)) <|
      .head (.run (.spawn _ _ _ rfl (readRequest_encode _ (by decide) []) (by decide))) <|
      .head (.run (.checkNone _ rfl rfl)) <|
      .head (.run (.readEof _ rfl (readRequest_eof rfl))) <|
      .head (.handler 0 (.lead _ _ _ _ rfl rfl rfl)) <|
      .head (.handler 0 (.exec _ _ 0 _ _ _ rfl rfl rfl rfl)) <|
      .head (.handler 0 (.ret _ _ 0 _ _ _ _ rfl rfl rfl rfl)) <|
      .head (.handler 0 (.finish _ _ 0 _ _ rfl rfl rfl)) <|
      .head (.handler 0 (.marshal _ _ _ _ rfl rfl)) <|
      .head (.handler 0 (.lock _ _ _ _ rfl rfl)) <|
      .head (.handler 0 (.write _ _ _ _ rfl)) <|
      .head (.handler 0 (.writeByte _ _ _ _ rfl)) <|
      .head (.handler 0 (.flush _ _ _ _ rfl)) <|
      .head (.handler 1 (.lead _ _ _ _ rfl rfl rfl)) <|
      .head (.handler 1 (.exec _ _ 1 _ _ _ rfl rfl rfl rfl)) <|
      .head (.handler 1 (.ret _ _ 1 _ _ _ _ rfl rfl rfl rfl)) <|
      .head (.handler 1 (.finish _ _ 1 _ _ rfl rfl rfl)) <|
      .head (.handler 1 (.marshal _ _ _ _ rfl rfl)) <|
      .head (.handler 1 (.lock _ _ _ _ rfl rfl)) <|
      .head (.handler 1 (.write _ _ _ _ rfl)) <|
      .head (.handler 1 (.writeByte _ _ _ _ rfl)) <|
      .head (.handler 1 (.flush _ _ _ _ rfl)) <|
      .head (.run (.selectDone _ rfl (by decide))) .refl, rfl⟩
  exact ⟨w, hr, hm, (run_result hr).2.1 _ hm, ((run_result hr).2.2.1 hm).1⟩

/-- A put header announcing a body of one byte, and no body line. -/
def truncatedPut : Bytes := encodeRequest (putHeader (Int64.ofInt 1)) ++ [10]

/-- The line of a get without its newline. -/
def unterminatedGet : Bytes := encodeRequest (getFrame (Int64.ofInt 1) [1]).header

/-- The error of a failed `Write` of a response. -/
def brokenPipe : Bytes := ascii "failed to write response: write /dev/stdout: broken pipe"

example : ∃ w : World (Bytes → Option (Bytes × Int64)),
    Reachable mapBackend false truncatedPut (fun _ => none) w ∧ w.main = .returned none :=
  ⟨_, .head (.run (.handshake _ _ rfl rfl encodeResponse_initialResponse)) <|
    .head (.run (.readEof _ rfl (readRequest_body_eof []
      (newline_not_mem_encodeRequest (putHeader (Int64.ofInt 1))) (trimSpace_encodeRequest _)
      (decodeRequestLine_encodeRequest rfl) (by rfl) rfl))) <|
    .head (.run (.selectDone _ rfl (by decide))) .refl, rfl⟩

example : ∃ w : World (Bytes → Option (Bytes × Int64)),
    Reachable mapBackend false unterminatedGet (fun _ => none) w ∧ w.main = .returned none :=
  ⟨_, .head (.run (.handshake _ _ rfl rfl encodeResponse_initialResponse)) <|
    .head (.run (.readEof _ rfl (readRequest_eof (readLine_eof (newline_not_mem_encodeRequest _))))) <|
    .head (.run (.selectDone _ rfl (by decide))) .refl, rfl⟩

/-- A goroutine's failed `Write` is lost: its error waits in `errChan`, the final `select` takes
`done`, and `Run` returns nil. -/
theorem run_nil_after_failed_send : ∃ w : World (Bytes → Option (Bytes × Int64)),
    Reachable mapBackend true (encodeFrames [getFrame (Int64.ofInt 1) [1]]) (fun _ => none) w ∧
      w.log[4]? = some (.failed (some 0) brokenPipe) ∧ w.errChan = some brokenPipe ∧
      w.main = .returned none :=
  ⟨_, .head (.run (.handshake _ _ rfl rfl encodeResponse_initialResponse)) <|
    .head (.run (.spawn _ _ _ rfl (readRequest_encode _ (by decide) []) (by decide))) <|
    .head (.run (.checkNone _ rfl rfl)) <|
    .head (.run (.readEof _ rfl (readRequest_eof rfl))) <|
    .head (.handler 0 (.lead _ _ _ _ rfl rfl rfl)) <|
    .head (.handler 0 (.exec _ _ 0 _ _ _ rfl rfl rfl rfl)) <|
    .head (.handler 0 (.ret _ _ 0 _ _ _ _ rfl rfl rfl rfl)) <|
    .head (.handler 0 (.finish _ _ 0 _ _ rfl rfl rfl)) <|
    .head (.handler 0 (.marshal _ _ _ _ rfl rfl)) <|
    .head (.handler 0 (.lock _ _ _ _ rfl rfl)) <|
    .head (.handler 0 (.writeFail _ _ _ _ brokenPipe rfl rfl rfl)) <|
    .head (.handler 0 (.report _ _ _ rfl)) <|
    .head (.run (.selectDone _ rfl (by decide))) .refl, rfl, rfl, rfl⟩

end Runs

end GoBuildCache.Broker
