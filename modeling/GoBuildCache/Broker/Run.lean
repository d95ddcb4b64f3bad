import GoBuildCache.Protocol.Request
import GoBuildCache.Protocol.Response
import Mathlib.Logic.Relation

/-!
# `CacheProg.Run`: the broker and its goroutines

`Run` sends the initial response, then reads one request after the other.  A close request waits
for every goroutine (`wg.Wait()`), runs `HandleRequest` itself and sends its response; any other
request is handed to a new goroutine, which runs `HandleRequest` and `SendResponse`, and puts a
failed send into the one-slot channel `errChan` when the slot is free.  After each `go` statement
`Run` looks into `errChan` without blocking; after the loop it waits for `done` (closed once every
goroutine has returned) or for an error in `errChan`, whichever the scheduler picks.

This module models the broker as the steps of its threads over one shared state.

* `Backend σ` is the backend as the broker calls it: `Put`, `Get` and `Close` as functions of a
  state `σ`, which holds whatever their answers depend on.  A goroutine's call is made in one step,
  takes effect on the state in a later one (`exec`), and returns in a later one still, so that the
  steps of other goroutines, their backend calls among them, may come between.  `Run` calls
  `Close` only once every goroutine has returned, so its call takes effect as it returns.
* `HandleRequest` of a put or a get runs the backend call inside `sfGroup.Do` with the key
  `put:<hex>` or `get:<hex>` (`flightOf`).  Modelled from the package's documented behaviour, as
  singleflight is not part of the repository: `Do` finds the call in flight for its key and waits for it, or makes
  a call and runs `fn`; once `fn` has returned, one critical section of `g.mu` marks the call done
  and deletes it from the map, and `Do` returns the call's result to its maker and to every waiter.
  The map therefore holds exactly the calls that are not done (`findCall`).
* `SendResponse` marshals the response, takes the writer's mutex, writes the bytes and the
  newline, flushes, and unlocks (`Send`).  With `faults`, a write or the flush may fail.
* `World` is the state; `Step B faults` is one step of `Run` (`RunStep`) or of one goroutine
  (`HandlerStep`); the runs of `Step` from `World.init` are all the schedules.  A thread's steps
  that touch nothing shared are merged with the step before them.  `Run` writes the initial
  response and the response to close in one step each: no goroutine exists yet, or every one has
  returned and no other will start.
* `World.log` is the history an observer of the broker sees: every request read, every backend
  call and return, and every response written or send that failed.
-/

namespace GoBuildCache.Broker

open Protocol

/-- What `Backend.Get` returns besides its error: `outputID, diskPath, size, putTime, miss`. -/
structure GetResult where
  outputID : Bytes
  diskPath : Bytes
  size : Int64
  putTime : Option GoTime
  miss : Bool
  deriving DecidableEq

/-- A backend (`backends.Backend`) as `HandleRequest` calls it, as functions of its state `σ`.  The
body of `Put` is what `req.Body` yields, `none` for a nil reader. -/
structure Backend (σ : Type) where
  put : σ → Bytes → Bytes → Option Bytes → Int64 → Except Bytes Bytes × σ
  get : σ → Bytes → Except Bytes GetResult × σ
  close : σ → Except Bytes Unit × σ

/-- A call of the backend. -/
inductive Op
  | put (actionID outputID : Bytes) (body : Option Bytes) (bodySize : Int64)
  | get (actionID : Bytes)
  | close
  deriving DecidableEq

/-- What a call of the backend returns: the `putResult` or `getResult` that `fn` wraps, or the
return of `Close`. -/
inductive Payload
  | put (diskPath : Bytes)
  | get (r : GetResult)
  | close
  deriving DecidableEq

variable {σ : Type}

/-- The return value of a call and the state it leaves. -/
def Backend.call (B : Backend σ) (s : σ) : Op → Except Bytes Payload × σ
  | .put a o body n => ((B.put s a o body n).1.map .put, (B.put s a o body n).2)
  | .get a => ((B.get s a).1.map .get, (B.get s a).2)
  | .close => ((B.close s).1.map fun _ => .close, (B.close s).2)

/-! ## `HandleRequest` -/

/-- The key `"put:" + hex.EncodeToString(req.ActionID)`. -/
def putKey (actionID : Bytes) : Bytes := ascii "put:" ++ Hex.encodeToString actionID

/-- The key `"get:" + hex.EncodeToString(req.ActionID)`. -/
def getKey (actionID : Bytes) : Bytes := ascii "get:" ++ Hex.encodeToString actionID

/-- The singleflight key and the backend call of a put or a get; `none` for any other command. -/
def flightOf (req : Request) : Option (Bytes × Op) :=
  if req.command = cmdPut then
    some (putKey req.actionID, .put req.actionID req.outputID (req.body.map Reader.rest) req.bodySize)
  else if req.command = cmdGet then some (getKey req.actionID, .get req.actionID)
  else none

/-- The response of `HandleRequest` to a put or a get once `sfGroup.Do` has returned `r`: on an
error `Err` and `Miss`; for a put the disk path; for a get its miss, or its output id, disk path,
size and time. -/
def respond (id : Int64) : Except Bytes Payload → Response
  | .error e => { Response.zero with id := id, err := e, miss := true }
  | .ok (.put path) => { Response.zero with id := id, diskPath := path }
  | .ok (.get r) =>
    if r.miss then { Response.zero with id := id, miss := true }
    else
      { Response.zero with
        id := id, outputID := r.outputID, diskPath := r.diskPath,
        size := r.size, time := r.putTime }
  | .ok .close => { Response.zero with id := id }

/-- The response to close once `backend.Close()` has returned. -/
def closeResponse (id : Int64) : Except Bytes Payload → Response
  | .error e => { Response.zero with id := id, err := e }
  | .ok _ => { Response.zero with id := id }

/-- `fmt.Sprintf("unknown command: %s", req.Command)`. -/
def unknownCommand (cmd : Bytes) : Bytes := ascii "unknown command: " ++ cmd

/-- The response of `HandleRequest` to any other command. -/
def unknownResponse (req : Request) : Response :=
  { Response.zero with id := req.id, err := unknownCommand req.command }

/-- `fmt.Errorf("failed to marshal response: %w", err)`. -/
def marshalFailed (e : Bytes) : Bytes := ascii "failed to marshal response: " ++ e

/-! ## The state -/

instance instDecidableEqExcept {ε α : Type} [DecidableEq ε] [DecidableEq α] :
    DecidableEq (Except ε α)
  | .error a, .error b => decidable_of_iff (a = b) ⟨congrArg _, Except.error.inj⟩
  | .ok a, .ok b => decidable_of_iff (a = b) ⟨congrArg _, Except.ok.inj⟩
  | .error _, .ok _ => isFalse nofun
  | .ok _, .error _ => isFalse nofun

/-- A call of `sfGroup.Do` that ran `fn`: its key, the goroutine that made it and runs `fn`, what
the backend call of `fn` answered once it has taken effect, what `fn` returned once it has, and
whether `c.wg.Done()` has run, which takes it out of the map. -/
structure Call where
  key : Bytes
  leader : Nat
  answer : Option (Except Bytes Payload)
  result : Option (Except Bytes Payload)
  done : Bool
  deriving DecidableEq

/-- `g.m[key]`: the call of the key that is not done. -/
def findCall (calls : List Call) (key : Bytes) : Option Nat :=
  calls.findIdx? fun c => c.key == key && !c.done

/-- Where a `SendResponse` past `json.Marshal` is; `data` is what the marshal wrote. -/
inductive Send
  /-- Before `cp.writer.Lock()`. -/
  | locking (data : Bytes)
  /-- Holds the lock; before `Write(data)`. -/
  | writing (data : Bytes)
  /-- Before `WriteByte('\n')`. -/
  | newline (data : Bytes)
  /-- Before `Flush()`. -/
  | flushing (data : Bytes)
  deriving DecidableEq

/-- The bytes of the response being sent. -/
def Send.data : Send → Bytes
  | .locking d | .writing d | .newline d | .flushing d => d

/-- The sender holds the writer's mutex. -/
def Send.holdsLock : Send → Bool
  | .locking _ => false
  | _ => true

/-- Where a goroutine of `Run` is. -/
inductive HandlerPc
  /-- Before `HandleRequest`. -/
  | start
  /-- In `sfGroup.Do`, waiting for call `c` (`c.wg.Wait()`). -/
  | waiting (c : Nat)
  /-- Made call `c`; its `fn` is in the backend call, which has taken effect once the call has an
  answer. -/
  | calling (c : Nat)
  /-- The backend call of call `c` returned and its result is stored; before the clean-up. -/
  | called (c : Nat)
  /-- `HandleRequest` returned `resp`; before `SendResponse(resp)`. -/
  | responding (resp : Response)
  /-- In `SendResponse(resp)`. -/
  | sending (resp : Response) (s : Send)
  /-- `SendResponse` failed with `e`; before `errChan <- err`. -/
  | reporting (e : Bytes)
  /-- Returned (`wg.Done()`). -/
  | finished
  deriving DecidableEq

/-- A goroutine and the request it was handed. -/
structure Handler where
  req : Request
  pc : HandlerPc
  deriving DecidableEq

/-- The error `Run` returns. -/
inductive RunError
  /-- `fmt.Errorf("failed to send initial response: %w", err)`. -/
  | initialResponse (e : Bytes)
  /-- `fmt.Errorf("failed to read request: %w", err)`. -/
  | readRequest (e : ReadError)
  /-- `fmt.Errorf("failed to send close response: %w", err)`. -/
  | closeResponse (e : Bytes)
  /-- `fmt.Errorf("failed to send response: %w", err)`. -/
  | sendResponse (e : Bytes)
  deriving DecidableEq

/-- Where `Run` is. -/
inductive RunPc
  /-- Before `SendInitialResponse()`. -/
  | start
  /-- At the top of the loop, before `ReadRequest()`. -/
  | reading
  /-- After a `go` statement, at the `select` on `errChan` with a `default`. -/
  | checking
  /-- `ReadRequest` failed with `e`; in `wg.Wait()`. -/
  | readFailed (e : ReadError)
  /-- Read the close request `req`; in `wg.Wait()`. -/
  | draining (req : Request)
  /-- In `backend.Close()` for `req`. -/
  | closing (req : Request)
  /-- Before `SendResponse(resp)` of the close. -/
  | closeSending (resp : Response)
  /-- After the loop, at the `select` on `done` and `errChan`. -/
  | selecting
  /-- Received `e` from `errChan`; in `wg.Wait()`. -/
  | sendFailed (e : Bytes)
  /-- `Run` returned; `none` is a nil error. -/
  | returned (r : Option RunError)
  deriving DecidableEq

/-- What an observer of the broker sees happen. -/
inductive Event
  /-- `ReadRequest` returned `req`, handed to goroutine `who`, or kept by `Run` (`none`) for a
  close. -/
  | read (who : Option Nat) (req : Request)
  /-- The backend call `op` was made, by goroutine `who` in `fn` or by `Run` (`none`). -/
  | call (who : Option Nat) (op : Op)
  /-- That call returned `r`. -/
  | ret (who : Option Nat) (op : Op) (r : Except Bytes Payload)
  /-- A `SendResponse(resp)` of `who` returned nil. -/
  | wrote (who : Option Nat) (resp : Response)
  /-- A `SendResponse` of `who` returned the error `e`. -/
  | failed (who : Option Nat) (e : Bytes)
  deriving DecidableEq

/-- The broker: the input not yet read, `Run`, the goroutines in the order they started, the
calls of `sfGroup`, the slot of `errChan`, the writer's mutex, what has been written to
`cp.writer`, the backend's state, and the history. -/
structure World (σ : Type) where
  input : Bytes
  main : RunPc
  handlers : List Handler
  calls : List Call
  errChan : Option Bytes
  locked : Bool
  out : Bytes
  backend : σ
  log : List Event

/-- `Run` on the input `input` with a backend in state `s`. -/
def World.init (input : Bytes) (s : σ) : World σ := ⟨input, .start, [], [], none, false, [], s, []⟩

/-- Every goroutine has returned: `wg.Wait()` returns, and `done` is closed. -/
def World.allDone (w : World σ) : Prop := ∀ h ∈ w.handlers, h.pc = .finished

instance (w : World σ) : Decidable w.allDone := inferInstanceAs (Decidable (∀ h ∈ w.handlers, _))

/-! ## The steps -/

/-- One step of `Run`. -/
inductive RunStep (B : Backend σ) (faults : Bool) : World σ → World σ → Prop
  /-- `SendInitialResponse()` writes the first line. -/
  | handshake (w : World σ) (data : Bytes) (hm : w.main = .start) (hl : w.locked = false)
      (hd : encodeResponse initialResponse = .ok data) :
      RunStep B faults w
        { w with
          main := .reading, out := w.out ++ data ++ [10],
          log := w.log ++ [.wrote none initialResponse] }
  /-- A write of `SendInitialResponse()` fails with `e`. -/
  | handshakeFail (w : World σ) (e : Bytes) (hm : w.main = .start) (hl : w.locked = false)
      (hf : faults = true) :
      RunStep B faults w
        { w with
          main := .returned (some (.initialResponse e)),
          log := w.log ++ [.failed none e] }
  /-- `ReadRequest()` returns `io.EOF`: the loop ends. -/
  | readEof (w : World σ) (hm : w.main = .reading) (hr : readRequest w.input = .error .eof) :
      RunStep B faults w { w with main := .selecting }
  /-- `ReadRequest()` fails with another error. -/
  | readError (w : World σ) (e : ReadError) (hm : w.main = .reading)
      (hr : readRequest w.input = .error e) (he : e ≠ .eof) :
      RunStep B faults w { w with main := .readFailed e }
  /-- `ReadRequest()` returns a close request. -/
  | readClose (w : World σ) (req : Request) (rest : Bytes) (hm : w.main = .reading)
      (hr : readRequest w.input = .ok (req, rest)) (hc : req.command = cmdClose) :
      RunStep B faults w
        { w with
          input := rest, main := .draining req,
          log := w.log ++ [.read none req] }
  /-- `ReadRequest()` returns any other request: `wg.Add(1)` and `go func(req)`. -/
  | spawn (w : World σ) (req : Request) (rest : Bytes) (hm : w.main = .reading)
      (hr : readRequest w.input = .ok (req, rest)) (hc : req.command ≠ cmdClose) :
      RunStep B faults w
        { w with
          input := rest, main := .checking,
          handlers := w.handlers ++ [⟨req, .start⟩], log := w.log ++ [.read (some w.handlers.length) req] }
  /-- The `select` after `go` receives `e` from `errChan`. -/
  | checkErr (w : World σ) (e : Bytes) (hm : w.main = .checking) (he : w.errChan = some e) :
      RunStep B faults w { w with main := .sendFailed e, errChan := none }
  /-- The `select` after `go` finds `errChan` empty and takes `default`. -/
  | checkNone (w : World σ) (hm : w.main = .checking) (he : w.errChan = none) :
      RunStep B faults w { w with main := .reading }
  /-- `wg.Wait()` returns after a read error, and `Run` returns it. -/
  | readFailedReturn (w : World σ) (e : ReadError) (hm : w.main = .readFailed e) (hd : w.allDone) :
      RunStep B faults w { w with main := .returned (some (.readRequest e)) }
  /-- `wg.Wait()` returns before the close, and `HandleRequest` calls `backend.Close()`. -/
  | closeCall (w : World σ) (req : Request) (hm : w.main = .draining req) (hd : w.allDone) :
      RunStep B faults w { w with main := .closing req, log := w.log ++ [.call none .close] }
  /-- `backend.Close()` returns. -/
  | closeRet (w : World σ) (req : Request) (hm : w.main = .closing req) :
      RunStep B faults w
        { w with
          main := .closeSending (closeResponse req.id (B.call w.backend .close).1),
          backend := (B.call w.backend .close).2,
          log := w.log ++ [.ret none .close (B.call w.backend .close).1] }
  /-- `SendResponse` writes the response to close, and the loop ends. -/
  | closeSend (w : World σ) (resp : Response) (data : Bytes) (hm : w.main = .closeSending resp)
      (hl : w.locked = false) (hd : encodeResponse resp = .ok data) :
      RunStep B faults w
        { w with
          main := .selecting, out := w.out ++ data ++ [10],
          log := w.log ++ [.wrote none resp] }
  /-- `json.Marshal` of the response to close fails with `e`. -/
  | closeMarshalFail (w : World σ) (resp : Response) (e : Bytes) (hm : w.main = .closeSending resp)
      (hd : encodeResponse resp = .error e) :
      RunStep B faults w
        { w with
          main := .returned (some (.closeResponse (marshalFailed e))),
          log := w.log ++ [.failed none (marshalFailed e)] }
  /-- A write of the response to close fails with `e`. -/
  | closeSendFail (w : World σ) (resp : Response) (data e : Bytes) (hm : w.main = .closeSending resp)
      (hl : w.locked = false) (hd : encodeResponse resp = .ok data) (hf : faults = true) :
      RunStep B faults w
        { w with
          main := .returned (some (.closeResponse e)),
          log := w.log ++ [.failed none e] }
  /-- The `select` after the loop takes `<-done`, and `Run` returns nil. -/
  | selectDone (w : World σ) (hm : w.main = .selecting) (hd : w.allDone) :
      RunStep B faults w { w with main := .returned none }
  /-- The `select` after the loop receives `e` from `errChan`. -/
  | selectErr (w : World σ) (e : Bytes) (hm : w.main = .selecting) (he : w.errChan = some e) :
      RunStep B faults w { w with main := .sendFailed e, errChan := none }
  /-- `wg.Wait()` returns after a failed send, and `Run` returns it. -/
  | sendFailedReturn (w : World σ) (e : Bytes) (hm : w.main = .sendFailed e) (hd : w.allDone) :
      RunStep B faults w { w with main := .returned (some (.sendResponse e)) }

/-- One step of goroutine `i`. -/
inductive HandlerStep (B : Backend σ) (faults : Bool) (i : Nat) : World σ → World σ → Prop
  /-- `sfGroup.Do` finds no call for the key: it makes call `c`, and `fn` calls the backend. -/
  | lead (w : World σ) (req : Request) (key : Bytes) (op : Op)
      (hh : w.handlers[i]? = some ⟨req, .start⟩) (hf : flightOf req = some (key, op))
      (hc : findCall w.calls key = none) :
      HandlerStep B faults i w
        { w with
          handlers := w.handlers.set i ⟨req, .calling w.calls.length⟩,
          calls := w.calls ++ [⟨key, i, none, none, false⟩], log := w.log ++ [.call (some i) op] }
  /-- `sfGroup.Do` finds call `c` for the key and waits for it. -/
  | join (w : World σ) (req : Request) (key : Bytes) (op : Op) (c : Nat)
      (hh : w.handlers[i]? = some ⟨req, .start⟩) (hf : flightOf req = some (key, op))
      (hc : findCall w.calls key = some c) :
      HandlerStep B faults i w { w with handlers := w.handlers.set i ⟨req, .waiting c⟩ }
  /-- `HandleRequest` answers a command other than put and get. -/
  | unknown (w : World σ) (req : Request) (hh : w.handlers[i]? = some ⟨req, .start⟩)
      (hf : flightOf req = none) :
      HandlerStep B faults i w
        { w with handlers := w.handlers.set i ⟨req, .responding (unknownResponse req)⟩ }
  /-- The backend call of `fn` takes effect: the backend answers in the state it is in, and
  moves to the state the call leaves. -/
  | exec (w : World σ) (req : Request) (c : Nat) (call : Call) (key : Bytes) (op : Op)
      (hh : w.handlers[i]? = some ⟨req, .calling c⟩) (hf : flightOf req = some (key, op))
      (hcall : w.calls[c]? = some call) (ha : call.answer = none) :
      HandlerStep B faults i w
        { w with
          calls := w.calls.set c { call with answer := some (B.call w.backend op).1 },
          backend := (B.call w.backend op).2 }
  /-- The backend call of `fn` returns its answer, and `doCall` stores it as the call's result. -/
  | ret (w : World σ) (req : Request) (c : Nat) (call : Call) (key : Bytes) (op : Op)
      (r : Except Bytes Payload) (hh : w.handlers[i]? = some ⟨req, .calling c⟩)
      (hf : flightOf req = some (key, op)) (hcall : w.calls[c]? = some call) (ha : call.answer = some r) :
      HandlerStep B faults i w
        { w with
          handlers := w.handlers.set i ⟨req, .called c⟩,
          calls := w.calls.set c { call with result := some r },
          log := w.log ++ [.ret (some i) op r] }
  /-- The clean-up of `doCall` under `g.mu`: `c.wg.Done()` and `delete(g.m, key)`; `Do` returns
  the result, and `HandleRequest` builds the response. -/
  | finish (w : World σ) (req : Request) (c : Nat) (call : Call) (r : Except Bytes Payload)
      (hh : w.handlers[i]? = some ⟨req, .called c⟩) (hcall : w.calls[c]? = some call)
      (hr : call.result = some r) :
      HandlerStep B faults i w
        { w with
          handlers := w.handlers.set i ⟨req, .responding (respond req.id r)⟩,
          calls := w.calls.set c { call with done := true } }
  /-- `c.wg.Wait()` returns once the call is done, and `Do` returns its result. -/
  | wake (w : World σ) (req : Request) (c : Nat) (call : Call) (r : Except Bytes Payload)
      (hh : w.handlers[i]? = some ⟨req, .waiting c⟩) (hcall : w.calls[c]? = some call)
      (hd : call.done = true) (hr : call.result = some r) :
      HandlerStep B faults i w { w with handlers := w.handlers.set i ⟨req, .responding (respond req.id r)⟩ }
  /-- `SendResponse(resp)`: `json.Marshal(resp)` writes `data`. -/
  | marshal (w : World σ) (req : Request) (resp : Response) (data : Bytes)
      (hh : w.handlers[i]? = some ⟨req, .responding resp⟩) (hd : encodeResponse resp = .ok data) :
      HandlerStep B faults i w { w with handlers := w.handlers.set i ⟨req, .sending resp (.locking data)⟩ }
  /-- `json.Marshal(resp)` fails with `e`. -/
  | marshalFail (w : World σ) (req : Request) (resp : Response) (e : Bytes)
      (hh : w.handlers[i]? = some ⟨req, .responding resp⟩) (hd : encodeResponse resp = .error e) :
      HandlerStep B faults i w
        { w with
          handlers := w.handlers.set i ⟨req, .reporting (marshalFailed e)⟩,
          log := w.log ++ [.failed (some i) (marshalFailed e)] }
  /-- `cp.writer.Lock()`. -/
  | lock (w : World σ) (req : Request) (resp : Response) (data : Bytes)
      (hh : w.handlers[i]? = some ⟨req, .sending resp (.locking data)⟩) (hl : w.locked = false) :
      HandlerStep B faults i w
        { w with
          handlers := w.handlers.set i ⟨req, .sending resp (.writing data)⟩,
          locked := true }
  /-- `cp.writer.w.Write(data)`. -/
  | write (w : World σ) (req : Request) (resp : Response) (data : Bytes)
      (hh : w.handlers[i]? = some ⟨req, .sending resp (.writing data)⟩) :
      HandlerStep B faults i w
        { w with
          handlers := w.handlers.set i ⟨req, .sending resp (.newline data)⟩,
          out := w.out ++ data }
  /-- `cp.writer.w.WriteByte('\n')`. -/
  | writeByte (w : World σ) (req : Request) (resp : Response) (data : Bytes)
      (hh : w.handlers[i]? = some ⟨req, .sending resp (.newline data)⟩) :
      HandlerStep B faults i w
        { w with
          handlers := w.handlers.set i ⟨req, .sending resp (.flushing data)⟩,
          out := w.out ++ [10] }
  /-- `Flush()` returns nil, the deferred `Unlock()` runs, and the goroutine returns. -/
  | flush (w : World σ) (req : Request) (resp : Response) (data : Bytes)
      (hh : w.handlers[i]? = some ⟨req, .sending resp (.flushing data)⟩) :
      HandlerStep B faults i w
        { w with
          handlers := w.handlers.set i ⟨req, .finished⟩, locked := false,
          log := w.log ++ [.wrote (some i) resp] }
  /-- `Write`, `WriteByte` or `Flush` fails with `e`, and the deferred `Unlock()` runs. -/
  | writeFail (w : World σ) (req : Request) (resp : Response) (s : Send) (e : Bytes)
      (hh : w.handlers[i]? = some ⟨req, .sending resp s⟩) (hs : s.holdsLock = true) (hf : faults = true) :
      HandlerStep B faults i w
        { w with
          handlers := w.handlers.set i ⟨req, .reporting e⟩, locked := false,
          log := w.log ++ [.failed (some i) e] }
  /-- `select { case errChan <- err: default: }`, and the goroutine returns. -/
  | report (w : World σ) (req : Request) (e : Bytes) (hh : w.handlers[i]? = some ⟨req, .reporting e⟩) :
      HandlerStep B faults i w
        { w with
          handlers := w.handlers.set i ⟨req, .finished⟩,
          errChan := w.errChan.or (some e) }

/-- One step of the broker: of `Run`, or of one goroutine. -/
inductive Step (B : Backend σ) (faults : Bool) : World σ → World σ → Prop
  | run {w w' : World σ} (h : RunStep B faults w w') : Step B faults w w'
  | handler {w w' : World σ} (i : Nat) (h : HandlerStep B faults i w w') : Step B faults w w'

/-- The states of the runs of `Run` on `input` with a backend in state `s`. -/
def Reachable (B : Backend σ) (faults : Bool) (input : Bytes) (s : σ) (w : World σ) : Prop :=
  Relation.ReflTransGen (Step B faults) (World.init input s) w

/-! ## What a step can change -/

section Shape

variable {B : Backend σ} {faults : Bool} {w w' : World σ}

/-- `Run` never touches the calls of `sfGroup` or the writer's mutex. -/
theorem RunStep.calls_eq (h : RunStep B faults w w') : w'.calls = w.calls := by
  cases h <;> rfl

theorem RunStep.locked_eq (h : RunStep B faults w w') : w'.locked = w.locked := by
  cases h <;> rfl

/-- `Run` leaves every goroutine where it is, and starts new ones only at `start`. -/
theorem RunStep.handlers_eq (h : RunStep B faults w w') :
    ∃ new, w'.handlers = w.handlers ++ new ∧ ∀ x ∈ new, x.pc = .start := by
  cases h <;> first
    | exact ⟨[], (List.append_nil _).symm, by simp⟩
    | exact ⟨[_], rfl, by simp⟩

/-- A step of goroutine `i` moves that goroutine alone, from where it has not returned. -/
theorem HandlerStep.handlers_eq {i : Nat} (h : HandlerStep B faults i w w') :
    ∃ req pc pc', w.handlers[i]? = some ⟨req, pc⟩ ∧ pc ≠ .finished ∧
      w'.handlers = w.handlers.set i ⟨req, pc'⟩ := by
  cases h with
  | exec req c call key op hh => exact ⟨_, _, _, hh, nofun, (set_eq_of_getElem? hh).symm⟩
  | _ => exact ⟨_, _, _, by assumption, by simp, rfl⟩

/-- A step of a goroutine leaves `Run` and the input. -/
theorem HandlerStep.main_eq {i : Nat} (h : HandlerStep B faults i w w') :
    w'.main = w.main ∧ w'.input = w.input := by
  cases h <;> exact ⟨rfl, rfl⟩

/-- Once every goroutine has returned, none takes a step. -/
theorem HandlerStep.not_allDone {i : Nat} (h : HandlerStep B faults i w w') : ¬ w.allDone := by
  obtain ⟨req, pc, -, hi, hpc, -⟩ := h.handlers_eq
  exact fun hd => hpc (hd _ (List.getElem?_mem hi))

/-- The history only grows. -/
theorem Step.log_prefix (h : Step B faults w w') : w.log <+: w'.log := by
  cases h with
  | run h => cases h <;> simp
  | handler i h => cases h <;> simp

end Shape

end GoBuildCache.Broker
