import GoBuildCache.Basic
import Mathlib.Algebra.Order.Ring.Rat

/-!
# The error-injecting backend

`backends.Error` wraps a `backends.Backend` (the interface of `backends/backend.go`: `Put` returns
only an error, `Get` returns the body as an `io.ReadCloser`) and makes each of its calls fail at
random: `shouldError()` draws `rng.Float64()` under `rngMu` and compares it with `errorRate`, which
`NewError` has clamped to `[0, 1]`.  A failed call counts itself in its method's counter and
returns `error backend: simulated <Method> error (error rate: <pct>%)` without calling the wrapped
backend.

* `Backend` is the interface over a state, each method returning all its results and the new
  state; `Backend.run` runs a sequence of calls one after the other.
* The random source is an oracle: the stream of the draws of `Float64()`, each in `[0, 1)`, read
  at a cursor (`ErrorState`).  `errorRate` is a rational that carries its bounds (`Rate`); the text
  `%.2f` makes of `errorRate*100` is kept as given (`ratePct`).  The counters of `GetStats` count
  the `Add(1)`s they received.
* `Error.inject` is the one body of `Put`, `Get`, `Close` and `Clear`.
* `rate_zero_invisible`: with a rate `NewError` clamps to 0, every sequence of calls answers as
  over the wrapped backend and leaves it as that does, and no error is counted.
* `rate_one_fails_all`: with a rate clamped to 1, every call answers its method's simulated error,
  the wrapped backend is never touched, and each counter counts the calls of its method.
-/

namespace GoBuildCache.Backends

variable {σ : Type}

/-! ## The interface -/

/-- What `Get` returns: `outputID`, the body (`nil` on a miss), `size`, `putTime`, `miss` and
`err`. -/
structure GetReply where
  outputID : Bytes
  body : Option Bytes
  size : Int64
  putTime : Option GoTime
  miss : Bool
  err : Option Bytes
  deriving DecidableEq

/-- `backends.Backend` over a state `σ`.  The body of `Put` is the bytes its reader yields, `none`
for a nil reader; an error is `some` of its text. -/
structure Backend (σ : Type) where
  put : σ → Bytes → Bytes → Option Bytes → Int64 → Option Bytes × σ
  get : σ → Bytes → GetReply × σ
  close : σ → Option Bytes × σ
  clear : σ → Option Bytes × σ

/-- A call of the interface. -/
inductive Op
  | put (actionID outputID : Bytes) (body : Option Bytes) (bodySize : Int64)
  | get (actionID : Bytes)
  | close
  | clear
  deriving DecidableEq

/-- What a call returns. -/
inductive Reply
  | put (err : Option Bytes)
  | get (r : GetReply)
  | close (err : Option Bytes)
  | clear (err : Option Bytes)
  deriving DecidableEq

/-- One call. -/
def Backend.call (B : Backend σ) (s : σ) : Op → Reply × σ
  | .put a o body n => (.put (B.put s a o body n).1, (B.put s a o body n).2)
  | .get a => (.get (B.get s a).1, (B.get s a).2)
  | .close => (.close (B.close s).1, (B.close s).2)
  | .clear => (.clear (B.clear s).1, (B.clear s).2)

/-- Calls made one after the other: their replies and the last state. -/
def Backend.run (B : Backend σ) (s : σ) : List Op → List Reply × σ
  | [] => ([], s)
  | op :: ops => ((B.call s op).1 :: (B.run (B.call s op).2 ops).1, (B.run (B.call s op).2 ops).2)

/-! ## The wrapper -/

/-- A draw of `rand.Float64()`. -/
abbrev Draw := {q : ℚ // 0 ≤ q ∧ q < 1}

/-- The draws of `rng`, one after the other. -/
abbrev Oracle := Nat → Draw

/-- An error rate as `NewError` leaves it. -/
abbrev Rate := {q : ℚ // 0 ≤ q ∧ q ≤ 1}

/-- `NewError`'s clamp: a rate below 0 is 0, one above 1 is 1. -/
def clampRate (errorRate : ℚ) : Rate :=
  if h0 : errorRate < 0 then ⟨0, le_rfl, zero_le_one⟩
  else if h1 : errorRate > 1 then ⟨1, zero_le_one, le_rfl⟩
  else ⟨errorRate, not_lt.1 h0, not_lt.1 h1⟩

/-- `backends.Error`: the wrapped backend, the clamped rate, and the text `%.2f` makes of
`errorRate*100`. -/
structure Error (σ : Type) where
  backend : Backend σ
  errorRate : Rate
  ratePct : Bytes

/-- `NewError(backend, errorRate)`. -/
def newError (backend : Backend σ) (errorRate : ℚ) (ratePct : Bytes) : Error σ :=
  ⟨backend, clampRate errorRate, ratePct⟩

/-- The wrapper's state: the wrapped backend's, the draws of `rng` and how many `shouldError` has
taken, and the counters of `GetStats`. -/
structure ErrorState (σ : Type) where
  backend : σ
  rng : Oracle
  cursor : Nat
  putErrors : Nat
  getErrors : Nat
  closeErrors : Nat
  clearErrors : Nat

/-- A fresh wrapper around a backend in state `s`, with the draws of its source. -/
def ErrorState.init (s : σ) (rng : Oracle) : ErrorState σ := ⟨s, rng, 0, 0, 0, 0, 0⟩

/-- `shouldError()`: the next draw is below the rate. -/
def ErrorState.shouldError (s : ErrorState σ) (rate : Rate) : Bool × ErrorState σ :=
  (decide ((s.rng s.cursor).1 < rate.1), { s with cursor := s.cursor + 1 })

/-- `fmt.Errorf("error backend: simulated <method> error (error rate: %.2f%%)",
e.errorRate*100)`. -/
def simulated (method : String) (ratePct : Bytes) : Bytes :=
  ascii ("error backend: simulated " ++ method ++ " error (error rate: ") ++ ratePct ++ ascii "%)"

/-- The body of each method: when `shouldError()`, count the error and return what the method
returns with it; otherwise call the wrapped backend. -/
def Error.inject {α : Type} (e : Error σ) (count : ErrorState σ → ErrorState σ) (method : String)
    (fail : Bytes → α) (call : σ → α × σ) (s : ErrorState σ) : α × ErrorState σ :=
  match s.shouldError e.errorRate with
  | (true, s) => (fail (simulated method e.ratePct), count s)
  | (false, s) => ((call s.backend).1, { s with backend := (call s.backend).2 })

/-- `Put`. -/
def Error.put (e : Error σ) (s : ErrorState σ) (actionID outputID : Bytes) (body : Option Bytes)
    (bodySize : Int64) : Option Bytes × ErrorState σ :=
  e.inject (fun s => { s with putErrors := s.putErrors + 1 }) "Put" some
    (fun t => e.backend.put t actionID outputID body bodySize) s

/-- `Get`: on an error, the zero values, `miss` false, and the error. -/
def Error.get (e : Error σ) (s : ErrorState σ) (actionID : Bytes) : GetReply × ErrorState σ :=
  e.inject (fun s => { s with getErrors := s.getErrors + 1 }) "Get"
    (fun err => ⟨[], none, Int64.zero, none, false, some err⟩) (fun t => e.backend.get t actionID) s

/-- `Close`. -/
def Error.close (e : Error σ) (s : ErrorState σ) : Option Bytes × ErrorState σ :=
  e.inject (fun s => { s with closeErrors := s.closeErrors + 1 }) "Close" some e.backend.close s

/-- `Clear`. -/
def Error.clear (e : Error σ) (s : ErrorState σ) : Option Bytes × ErrorState σ :=
  e.inject (fun s => { s with clearErrors := s.clearErrors + 1 }) "Clear" some e.backend.clear s

/-- `GetStats()`. -/
def ErrorState.getStats (s : ErrorState σ) : Nat × Nat × Nat × Nat :=
  (s.putErrors, s.getErrors, s.closeErrors, s.clearErrors)

/-- The wrapper as a `backends.Backend`. -/
def Error.toBackend (e : Error σ) : Backend (ErrorState σ) := ⟨e.put, e.get, e.close, e.clear⟩

/-! ## Each call -/

section Inject

variable {α : Type} (e : Error σ) (count : ErrorState σ → ErrorState σ) (method : String)
  (fail : Bytes → α) (call : σ → α × σ) (s : ErrorState σ)

/-- Under the rate the call fails and is counted; otherwise the wrapped backend answers. -/
theorem inject_eq : e.inject count method fail call s =
    if (s.rng s.cursor).1 < e.errorRate.1 then
      (fail (simulated method e.ratePct), count { s with cursor := s.cursor + 1 })
    else
      ((call s.backend).1, { s with backend := (call s.backend).2, cursor := s.cursor + 1 }) := by
  unfold Error.inject ErrorState.shouldError
  by_cases h : (s.rng s.cursor).1 < e.errorRate.1 <;> simp [h]

theorem inject_of_rate_zero (h : e.errorRate.1 = 0) : e.inject count method fail call s =
    ((call s.backend).1, { s with backend := (call s.backend).2, cursor := s.cursor + 1 }) := by
  rw [inject_eq, if_neg (by rw [h]; exact not_lt.2 (s.rng s.cursor).2.1)]

theorem inject_of_rate_one (h : e.errorRate.1 = 1) : e.inject count method fail call s =
    (fail (simulated method e.ratePct), count { s with cursor := s.cursor + 1 }) := by
  rw [inject_eq, if_pos (by rw [h]; exact (s.rng s.cursor).2.2)]

end Inject

theorem clampRate_of_nonpos {r : ℚ} (h : r ≤ 0) : (clampRate r).1 = 0 := by
  unfold clampRate
  split_ifs with h0 h1
  · rfl
  · exact absurd (h.trans_lt zero_lt_one) (not_lt.2 (le_of_lt h1))
  · exact le_antisymm h (not_lt.1 h0)

theorem clampRate_of_one_le {r : ℚ} (h : 1 ≤ r) : (clampRate r).1 = 1 := by
  unfold clampRate
  split_ifs with h0 h1
  · exact absurd (h0.trans zero_lt_one) (not_lt.2 h)
  · rfl
  · exact le_antisymm (not_lt.1 h1) h

/-- With the rate 0 a call answers as the wrapped backend and leaves it as that does, taking one
draw. -/
theorem call_of_rate_zero {e : Error σ} (h : e.errorRate.1 = 0) (s : ErrorState σ) (op : Op) :
    e.toBackend.call s op = ((e.backend.call s.backend op).1,
      { s with backend := (e.backend.call s.backend op).2, cursor := s.cursor + 1 }) := by
  cases op <;> simp only [Backend.call, Error.toBackend, Error.put, Error.get, Error.close,
    Error.clear, inject_of_rate_zero e _ _ _ _ s h]

/-- The method a call is made to, as the wrapper's messages name it. -/
def Op.method : Op → String
  | .put .. => "Put"
  | .get _ => "Get"
  | .close => "Close"
  | .clear => "Clear"

/-- What the wrapper returns for a call that fails. -/
def failReply (ratePct : Bytes) : Op → Reply
  | .put .. => .put (some (simulated "Put" ratePct))
  | .get _ => .get ⟨[], none, Int64.zero, none, false, some (simulated "Get" ratePct)⟩
  | .close => .close (some (simulated "Close" ratePct))
  | .clear => .clear (some (simulated "Clear" ratePct))

/-- The error counters, as `GetStats` reports them, after one more failed call. -/
def Op.countError (s : ErrorState σ) : Op → ErrorState σ
  | .put .. => { s with putErrors := s.putErrors + 1 }
  | .get _ => { s with getErrors := s.getErrors + 1 }
  | .close => { s with closeErrors := s.closeErrors + 1 }
  | .clear => { s with clearErrors := s.clearErrors + 1 }

/-- With the rate 1 a call fails with its method's error, is counted, and leaves the wrapped
backend. -/
theorem call_of_rate_one {e : Error σ} (h : e.errorRate.1 = 1) (s : ErrorState σ) (op : Op) :
    e.toBackend.call s op = (failReply e.ratePct op, op.countError { s with cursor := s.cursor + 1 }) := by
  cases op <;> simp only [Backend.call, Error.toBackend, Error.put, Error.get, Error.close,
    Error.clear, inject_of_rate_one e _ _ _ _ s h, failReply, Op.countError]

/-- Whether a call is of the method. -/
def Op.isPut : Op → Bool
  | .put .. => true
  | _ => false

def Op.isGet : Op → Bool
  | .get _ => true
  | _ => false

def Op.isClose : Op → Bool
  | .close => true
  | _ => false

def Op.isClear : Op → Bool
  | .clear => true
  | _ => false

/-- One more failed call adds one to its method's counter. -/
theorem getStats_countError (s : ErrorState σ) (op : Op) :
    (op.countError s).getStats = (s.putErrors + if op.isPut then 1 else 0,
      s.getErrors + if op.isGet then 1 else 0, s.closeErrors + if op.isClose then 1 else 0,
      s.clearErrors + if op.isClear then 1 else 0) := by
  cases op <;> rfl

/-! ## Sequences of calls -/

section Runs

variable {B : Backend σ} {r : ℚ} {pct : Bytes}

/-- With a rate `NewError` clamps to 0 the wrapper is invisible: every sequence of calls answers
as over the wrapped backend, leaves it in the state that does, and counts no error. -/
theorem rate_zero_invisible (hr : r ≤ 0) (ops : List Op) (s : ErrorState σ) :
    ((newError B r pct).toBackend.run s ops).1 = (B.run s.backend ops).1 ∧
      ((newError B r pct).toBackend.run s ops).2.backend = (B.run s.backend ops).2 ∧
      ((newError B r pct).toBackend.run s ops).2.getStats = s.getStats := by
  have h0 : (newError B r pct).errorRate.1 = 0 := clampRate_of_nonpos hr
  induction ops generalizing s with
  | nil => exact ⟨rfl, rfl, rfl⟩
  | cons op ops ih =>
    obtain ⟨h1, h2, h3⟩ := ih { s with
      backend := (B.call s.backend op).2, cursor := s.cursor + 1 }
    simp only [Backend.run, call_of_rate_zero h0]
    exact ⟨congrArg _ h1, h2, h3⟩

/-- With a rate `NewError` clamps to 1 every call of a sequence answers its method's simulated
error, the wrapped backend is never touched, and each counter of `GetStats` grows by the number
of calls of its method. -/
theorem rate_one_fails_all (hr : 1 ≤ r) (ops : List Op) (s : ErrorState σ) :
    ((newError B r pct).toBackend.run s ops).1 = ops.map (failReply pct) ∧
      ((newError B r pct).toBackend.run s ops).2.backend = s.backend ∧
      ((newError B r pct).toBackend.run s ops).2.getStats =
        (s.putErrors + ops.countP Op.isPut, s.getErrors + ops.countP Op.isGet,
          s.closeErrors + ops.countP Op.isClose, s.clearErrors + ops.countP Op.isClear) := by
  have h1 : (newError B r pct).errorRate.1 = 1 := clampRate_of_one_le hr
  induction ops generalizing s with
  | nil => exact ⟨rfl, rfl, rfl⟩
  | cons op ops ih =>
    obtain ⟨h2, h3, h4⟩ := ih (op.countError { s with cursor := s.cursor + 1 })
    have hb : (op.countError { s with cursor := s.cursor + 1 }).backend = s.backend := by cases op <;> rfl
    have hs := getStats_countError { s with cursor := s.cursor + 1 } op
    simp only [ErrorState.getStats, Prod.mk.injEq] at hs h4
    simp only [Backend.run, call_of_rate_one h1, List.map_cons, List.countP_cons, ErrorState.getStats]
    refine ⟨congrArg _ h2, h3.trans hb, ?_⟩
    simp only [h4, hs]
    cases op <;> simp [Op.isPut, Op.isGet, Op.isClose, Op.isClear, Nat.add_assoc, Nat.add_comm 1]

end Runs

/-! ## Over a map -/

/-- A backend keeping each action id's output id, body and size in a map, its `Put` and `Get` each
one step. -/
def memBackend : Backend (Bytes → Option (Bytes × Bytes × Int64)) where
  put s a o body n := (none, fun b => if b = a then some (o, body.getD [], n) else s b)
  get s a := match s a with
    | some (o, body, n) => (⟨o, some body, n, none, false, none⟩, s)
    | none => (⟨[], none, Int64.zero, none, true, none⟩, s)
  close s := (none, s)
  clear _ := (none, fun _ => none)

/-- A source whose every draw is 0. -/
def zeroes : Oracle := fun _ => ⟨0, le_rfl, zero_lt_one⟩

/-- A put of `[1]` and a get of it. -/
def putGet : List Op := [.put [1] [2] (some [7]) (Int64.ofInt 1), .get [1]]

/-- At rate `-1`, which `NewError` clamps to 0, the get of `putGet` reads the put through the
wrapper. -/
theorem rate_zero_invisible_putGet :
    (-1 : ℚ) ≤ 0 ∧
      (memBackend.run (fun _ => none) putGet).1 =
        [.put none, .get ⟨[2], some [7], Int64.ofInt 1, none, false, none⟩] ∧
      ((newError memBackend (-1) (ascii "0.00")).toBackend.run (ErrorState.init (fun _ => none) zeroes)
          putGet).1 = (memBackend.run (fun _ => none) putGet).1 ∧
      ((newError memBackend (-1) (ascii "0.00")).toBackend.run (ErrorState.init (fun _ => none) zeroes)
          putGet).2.backend = (memBackend.run (fun _ => none) putGet).2 ∧
      ((newError memBackend (-1) (ascii "0.00")).toBackend.run (ErrorState.init (fun _ => none) zeroes)
          putGet).2.getStats = (0, 0, 0, 0) :=
  ⟨neg_nonpos.2 zero_le_one, by decide,
    rate_zero_invisible (neg_nonpos.2 zero_le_one) putGet (ErrorState.init (fun _ => none) zeroes)⟩

/-- At rate 1 every call of `putGet` and a close and a clear fails and is counted. -/
theorem rate_one_fails_all_putGet :
    (1 : ℚ) ≤ 1 ∧
      ((newError memBackend 1 (ascii "100.00")).toBackend.run (ErrorState.init (fun _ => none) zeroes)
          (putGet ++ [Op.close, Op.clear])).1 = (putGet ++ [Op.close, Op.clear]).map (failReply (ascii "100.00")) ∧
      ((newError memBackend 1 (ascii "100.00")).toBackend.run (ErrorState.init (fun _ => none) zeroes)
          (putGet ++ [Op.close, Op.clear])).2.backend = (fun _ => none) ∧
      ((newError memBackend 1 (ascii "100.00")).toBackend.run (ErrorState.init (fun _ => none) zeroes)
          (putGet ++ [Op.close, Op.clear])).2.getStats = (1, 1, 1, 1) :=
  ⟨le_rfl, rate_one_fails_all le_rfl _ _⟩

end GoBuildCache.Backends
