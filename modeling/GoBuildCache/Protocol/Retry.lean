import GoBuildCache.Protocol.Message
import Mathlib.Logic.Function.Iterate

/-!
# `HandleRequestWithRetries`

`HandleRequestWithRetries(req, maxRetries)` calls `HandleRequest(req)` in a `for` loop over
`attempt = 0, 1, …, maxRetries`: it returns after an invocation with a nil error, after the
invocation for a close request, and after the invocation with `attempt = maxRetries`; before
each retry it adds 1 to `retriedRequests` (on the first retry only) and to `totalRetries`, and
sleeps.  The sleep is not observable here and is left out.

`HandleRequest` is a function of a state `σ` (the backend, and the reader behind `req.Body`,
which every invocation is handed again).  The module has two groups.

* The loop.  `retryLoop_spec` says what the loop does for every handler: it makes `k + 1`
  invocations, the first `k` of them failed on a request other than close, and it returns what
  the last one returned.  `handleRequestWithRetries_attempts` is the statement for the whole
  function when `maxRetries ≥ 0`; for a negative `maxRetries` the loop body never runs and the
  function returns the zero `Response` and a nil error.
* The body of a retried `put`.  `handlePut` is `HandleRequest` of a put whose key no other call
  has in flight, so that `sfGroup.Do` runs the backend's `Put` itself.  `req.Body` is one
  `strings.Reader`, and what one `Put` has read from it is gone for the next
  (`handleRequestWithRetries_drains_body`).
-/

namespace GoBuildCache.Protocol

/-- The retry counters of `CacheProg`, as the number of `Add(1)` each has received. -/
structure Counters where
  retriedRequests : Nat
  totalRetries : Nat
  deriving DecidableEq

/-- The counter updates before the retry after attempt `attempt`. -/
def Counters.retry (c : Counters) (attempt : Nat) : Counters :=
  ⟨if attempt = 0 then c.retriedRequests + 1 else c.retriedRequests, c.totalRetries + 1⟩

/-- The counters after `k` retries from attempt `attempt` on. -/
def Counters.retries (c : Counters) (attempt k : Nat) : Counters :=
  ⟨c.retriedRequests + if attempt = 0 ∧ 0 < k then 1 else 0, c.totalRetries + k⟩

@[simp] theorem Counters.retries_zero (c : Counters) (attempt : Nat) : c.retries attempt 0 = c := by
  simp [retries]

@[simp] theorem Counters.retries_retry (c : Counters) (attempt k : Nat) :
    (c.retry attempt).retries (attempt + 1) k = c.retries attempt (k + 1) := by
  simp only [retry, retries, Counters.mk.injEq]
  constructor
  · split <;> simp_all
  · omega

section Loop

variable {σ : Type} (handle : σ → (Response × Option Bytes) × σ) (isClose : Bool)

/-- The `for` loop at attempt `attempt`, where `left` is `maxRetries - attempt`. -/
def retryLoop : Nat → Nat → σ → Counters → (Response × Option Bytes) × σ × Counters
  | attempt, left, s, c =>
    if (handle s).1.2.isNone || isClose then ((handle s).1, (handle s).2, c)
    else match left with
      | 0 => ((handle s).1, (handle s).2, c)
      | left + 1 => retryLoop (attempt + 1) left (handle s).2 (c.retry attempt)

/-- `HandleRequestWithRetries(req, maxRetries)`; `isClose` is `req.Command == CmdClose`. -/
def handleRequestWithRetries (maxRetries : Int64) (s : σ) (c : Counters) :
    (Response × Option Bytes) × σ × Counters :=
  if 0 ≤ maxRetries.val then retryLoop handle isClose 0 maxRetries.val.toNat s c
  else ((Response.zero, none), s, c)

/-- The first `k` invocations of `HandleRequest` from the state `s`: the state each starts from
and what it returns.  Each starts from the state the one before it left. -/
def invocations : Nat → σ → List (σ × (Response × Option Bytes))
  | 0, _ => []
  | k + 1, s => (s, (handle s).1) :: invocations k (handle s).2

/-- The last of `k + 1` invocations starts from the state that `k` invocations leave. -/
theorem invocations_succ (k : Nat) (s : σ) :
    invocations handle (k + 1) s =
      invocations handle k s ++ [((Prod.snd ∘ handle)^[k] s, (handle ((Prod.snd ∘ handle)^[k] s)).1)] := by
  induction k generalizing s with
  | zero => rfl
  | succ k ih =>
    rw [invocations, ih, invocations, Function.iterate_succ_apply]
    rfl

/-- The loop from attempt `attempt` makes `k + 1` invocations for some `k ≤ left`: the first `k`
failed on a request other than close, the last one ended the loop, and the loop returns what the
last one returned and the state it left. -/
theorem retryLoop_spec (attempt left : Nat) (s : σ) (c : Counters) :
    ∃ k ≤ left, (∀ e ∈ invocations handle k s, e.2.2.isSome ∧ isClose = false) ∧
      ((handle ((Prod.snd ∘ handle)^[k] s)).1.2 = none ∨ isClose = true ∨ k = left) ∧
      retryLoop handle isClose attempt left s c =
        ((handle ((Prod.snd ∘ handle)^[k] s)).1, (Prod.snd ∘ handle)^[k + 1] s,
          c.retries attempt k) := by
  induction left generalizing attempt s c with
  | zero =>
    refine ⟨0, le_rfl, by simp [invocations], .inr (.inr rfl), ?_⟩
    unfold retryLoop
    split <;> simp
  | succ left ih =>
    by_cases hstop : ((handle s).1.2.isNone || isClose) = true
    · refine ⟨0, Nat.zero_le _, by simp [invocations], ?_, ?_⟩
      · simp only [Bool.or_eq_true, Option.isNone_iff_eq_none] at hstop
        simpa using hstop
      · rw [retryLoop, if_pos hstop]
        simp
    · obtain ⟨k, hk, hfail, hend, heq⟩ := ih (attempt + 1) (handle s).2 (c.retry attempt)
      have hs : (handle s).1.2.isSome = true ∧ isClose = false := by
        simpa [Option.isNone_iff_eq_none, Option.isSome_iff_ne_none] using hstop
      refine ⟨k + 1, by omega, ?_, ?_, ?_⟩
      · simp only [invocations, List.mem_cons, forall_eq_or_imp]
        exact ⟨hs, hfail⟩
      · simpa [Function.iterate_succ_apply] using hend
      · rw [retryLoop, if_neg hstop]
        simpa [Function.iterate_succ_apply] using heq

/-- For `maxRetries ≥ 0`, `HandleRequestWithRetries` invokes `HandleRequest` `calls` times,
`1 ≤ calls ≤ maxRetries + 1`.  Each invocation but the last failed on a request other than
close, and the last one succeeded, was for close, or was the one at `attempt = maxRetries`.
The function returns the last invocation's `Response` and error and the state it left, adds 1 to
`retriedRequests` when `calls > 1`, and adds `calls - 1` to `totalRetries`. -/
theorem handleRequestWithRetries_attempts (maxRetries : Int64) (hm : 0 ≤ maxRetries.val) (s : σ)
    (c : Counters) :
    ∃ calls t, 1 ≤ calls ∧ calls ≤ maxRetries.val.toNat + 1 ∧
      (invocations handle calls s).getLast? = some (t, (handle t).1) ∧
      (∀ e ∈ (invocations handle calls s).dropLast, e.2.2.isSome ∧ isClose = false) ∧
      ((handle t).1.2 = none ∨ isClose = true ∨ calls = maxRetries.val.toNat + 1) ∧
      handleRequestWithRetries handle isClose maxRetries s c =
        ((handle t).1, (handle t).2,
          ⟨c.retriedRequests + if 1 < calls then 1 else 0, c.totalRetries + (calls - 1)⟩) := by
  obtain ⟨k, hk, hfail, hend, heq⟩ := retryLoop_spec handle isClose 0 maxRetries.val.toNat s c
  refine ⟨k + 1, (Prod.snd ∘ handle)^[k] s, by omega, by omega, ?_, ?_, by simpa using hend, ?_⟩
  · rw [invocations_succ, List.getLast?_append]
    rfl
  · rwa [invocations_succ, List.dropLast_concat]
  · rw [handleRequestWithRetries, if_pos hm, heq, Function.iterate_succ_apply']
    simp [Counters.retries, Nat.lt_iff_add_one_le]

/-- For every `maxRetries < 0` and every handler the loop body never runs: `HandleRequest` is
not invoked, and the function returns the zero `Response` with a nil error, and the state and the
counters as they were. -/
theorem handleRequestWithRetries_of_neg (maxRetries : Int64) (hm : maxRetries.val < 0) (s : σ)
    (c : Counters) : handleRequestWithRetries handle isClose maxRetries s c = ((Response.zero, none), s, c) :=
  if_neg (by omega)

end Loop

/-- A handler that fails on its first invocation only, counting its invocations in its state. -/
def failOnce (n : Nat) : (Response × Option Bytes) × Nat :=
  ((Response.zero, if n = 0 then some (ascii "fail") else none), n + 1)

theorem handleRequestWithRetries_attempts_failOnce :
    0 ≤ (Int64.ofInt 2).val ∧
      ∃ calls t, 1 ≤ calls ∧ calls ≤ (Int64.ofInt 2).val.toNat + 1 ∧
        (invocations failOnce calls 0).getLast? = some (t, (failOnce t).1) ∧
        (∀ e ∈ (invocations failOnce calls 0).dropLast, e.2.2.isSome ∧ false = false) ∧
        ((failOnce t).1.2 = none ∨ false = true ∨ calls = (Int64.ofInt 2).val.toNat + 1) ∧
        handleRequestWithRetries failOnce false (Int64.ofInt 2) 0 ⟨0, 0⟩ =
          ((failOnce t).1, (failOnce t).2, ⟨0 + if 1 < calls then 1 else 0, 0 + (calls - 1)⟩) :=
  ⟨by decide, handleRequestWithRetries_attempts failOnce false (Int64.ofInt 2) (by decide) 0 ⟨0, 0⟩⟩

example : handleRequestWithRetries failOnce false (Int64.ofInt 2) 0 ⟨0, 0⟩ =
    ((Response.zero, none), 2, ⟨1, 1⟩) := rfl

/-- At `maxRetries = -1` a handler that counts its invocations in its state and always fails is
never invoked, and the function returns the zero `Response` with a nil error; for every negative
`maxRetries` and every handler this is `handleRequestWithRetries_of_neg`. -/
theorem handleRequestWithRetries_negative :
    handleRequestWithRetries (fun n : Nat => ((Response.zero, some (ascii "fail")), n + 1)) false
      (Int64.ofInt (-1)) 0 ⟨0, 0⟩ = ((Response.zero, none), 0, ⟨0, 0⟩) :=
  handleRequestWithRetries_of_neg _ false (Int64.ofInt (-1)) (by decide) 0 ⟨0, 0⟩

/-! ## The body of a retried `put` -/

section Put

variable {β : Type}

/-- `HandleRequest` for a put whose key `put:hex(A)` no other call has in flight: `sfGroup.Do`
runs `backend.Put(req.ActionID, req.OutputID, req.Body, req.BodySize)` itself.  `req.Body` is a
pointer, so the reader it points to is part of the state, beside the backend's state.  `put` is
handed what the reader yields (`none` for a nil reader) and says how many bytes it reads and
what it returns. -/
def handlePut (put : β → Bytes → Bytes → Option Bytes → Int64 → (Nat × Except Bytes Bytes) × β)
    (req : Request) : Option Reader × β → (Response × Option Bytes) × (Option Reader × β)
  | (body, b) =>
    let res := put b req.actionID req.outputID (body.map Reader.rest) req.bodySize
    let body' := body.map (·.read res.1.1)
    match res.1.2 with
    | .error e => ((⟨req.id, e, [], true, [], Int64.zero, none, []⟩, some e), (body', res.2))
    | .ok path => ((⟨req.id, [], [], false, [], Int64.zero, none, path⟩, none), (body', res.2))

/-- A backend whose `Put` reads its whole body and then fails with `e`; its state is the list of
what the body reader yielded to each `Put`. -/
def drainingPut (e : Bytes) (log : List (Option Bytes)) (_ _ : Bytes) (body : Option Bytes)
    (_ : Int64) : (Nat × Except Bytes Bytes) × List (Option Bytes) :=
  (((body.getD []).length, .error e), log ++ [body])

/-- Every `Put` of the draining backend fails. -/
theorem handlePut_drainingPut_fails (e : Bytes) (req : Request) (x : Option Reader × List (Option Bytes)) :
    (handlePut (drainingPut e) req x).1.2 = some e := rfl

/-- After `j + 1` invocations on a reader of `bs`, the reader is at its end, and the backend saw
`bs` once and then only an empty body. -/
theorem iterate_handlePut_drainingPut (e : Bytes) (req : Request) (bs : Bytes)
    (log : List (Option Bytes)) (j : Nat) :
    (Prod.snd ∘ handlePut (drainingPut e) req)^[j + 1] (some (Reader.new bs), log) =
      (some ⟨bs, bs.length⟩, log ++ some bs :: List.replicate j (some [])) := by
  induction j with
  | zero => simp [handlePut, drainingPut, Reader.read, Reader.new, Reader.rest]
  | succ j ih =>
    rw [Function.iterate_succ_apply', ih]
    simp [handlePut, drainingPut, Reader.read, Reader.rest, List.replicate_succ']

/-- A put request whose body reader holds `bs`, as `ReadRequest` attaches it, and a backend whose
`Put` reads its whole body and fails: for every `maxRetries ≥ 0`, `HandleRequestWithRetries`
calls `Put` `maxRetries + 1` times, and every call after the first is handed a reader that yields
nothing, because the first call read `bs` to its end. -/
theorem handleRequestWithRetries_drains_body (e : Bytes) (req : Request) (bs : Bytes)
    (hput : req.command = cmdPut) (hb : req.body = some (Reader.new bs)) (maxRetries : Int64)
    (hm : 0 ≤ maxRetries.val) (c : Counters) :
    (handleRequestWithRetries (handlePut (drainingPut e) req) (req.command == cmdClose) maxRetries
        (req.body, []) c).2.1.2 =
      some bs :: List.replicate maxRetries.val.toNat (some []) := by
  rw [hput, show (cmdPut == cmdClose) = false from rfl]
  obtain ⟨k, hk, -, hend, heq⟩ :=
    retryLoop_spec (handlePut (drainingPut e) req) false 0 maxRetries.val.toNat (req.body, []) c
  have hkm : k = maxRetries.val.toNat := by
    simpa [handlePut_drainingPut_fails] using hend
  rw [handleRequestWithRetries, if_pos hm, heq, hb, hkm, iterate_handlePut_drainingPut]
  rfl

theorem handleRequestWithRetries_drains_body_one :
    (cmdPut = cmdPut ∧ some (Reader.new [1]) = some (Reader.new [1]) ∧ 0 ≤ (Int64.ofInt 1).val) ∧
      (handleRequestWithRetries (handlePut (drainingPut []) ⟨Int64.zero, cmdPut, [], [],
          some (Reader.new [1]), Int64.ofInt 1⟩) (cmdPut == cmdClose) (Int64.ofInt 1)
          (some (Reader.new [1]), []) ⟨0, 0⟩).2.1.2 =
        some [1] :: List.replicate (Int64.ofInt 1).val.toNat (some []) :=
  ⟨⟨rfl, rfl, by decide⟩, handleRequestWithRetries_drains_body [] ⟨Int64.zero, cmdPut, [], [],
    some (Reader.new [1]), Int64.ofInt 1⟩ [1] rfl rfl (Int64.ofInt 1) (by decide) ⟨0, 0⟩⟩

end Put

end GoBuildCache.Protocol
