import GoBuildCache.Broker.Provenance
import GoBuildCache.Broker.Return

/-!
# What `Run` writes to stdout

With writes to stdout that succeed and a backend whose `Get` answers only times that
`Time.MarshalJSON` can write, no send of the broker fails.  This module proves what `Run` has then
written when it returns.

* `NoFail`: no failed send is logged or pending, `errChan` stays empty, and every response a
  goroutine holds answers its request and is one that `json.Marshal` writes.
* `WriterInv`: one goroutine at most holds `cp.writer`'s mutex; stdout holds the whole lines of
  the responses written so far, in the order of the log, and then the part of its line that the
  holder has written.
* `CountInv`: each goroutine was handed the request its read logged, and has written one
  response, with that request's id, exactly once it has returned; the handshake is the first
  event; `Run`'s other write is the close's response, and nothing follows it.
* `CallInv`: every backend call of a goroutine has returned, or the goroutine is still in it.
* `run_output`: when `Run` returns, stdout is the handshake line and one line per written
  response; every request read has exactly one response, with its id; the close's response is
  the last line; `Close` was called after every backend call of the goroutines had returned, and
  nothing of theirs follows it.
* `run_output_drops_far_future_get`: without the bound on the times, a hit whose time, in UTC, is
  past the year 9999 cannot be marshalled, and its request gets no line.
-/

namespace GoBuildCache.Broker

open Protocol

variable {σ : Type}

/-! ## Responses that `json.Marshal` writes -/

/-- Every `Get` of `B` answers times that `Time.MarshalJSON` writes: in its location, the year of
each lies in `0..9999`, and its offset is less than a day. -/
def TimesInRange (B : Backend σ) : Prop :=
  ∀ s a g, (B.get s a).1 = .ok g → ∀ t, g.putTime = some t → GoTime.Marshalable t

/-- The result of a backend call carries no time that `Time.MarshalJSON` cannot write. -/
def ResultOk (r : Except Bytes Payload) : Prop :=
  ∀ g, r = .ok (.get g) → ∀ t, g.putTime = some t → GoTime.Marshalable t

theorem TimesInRange.call {B : Backend σ} (hB : TimesInRange B) (s : σ) (op : Op) :
    ResultOk (B.call s op).1 := by
  intro g hg
  cases op with
  | put => simp [Backend.call, Except.map] at hg; split at hg <;> cases hg
  | get a =>
    simp only [Backend.call, Except.map] at hg
    split at hg
    · cases hg
    · next g' hg' => cases hg; exact hB s a _ hg'
  | close => simp [Backend.call, Except.map] at hg; split at hg <;> cases hg

theorem respond_id (id : Int64) (r : Except Bytes Payload) : (respond id r).id = id := by
  rcases r with _ | _ | g | _
  all_goals try rfl
  simp only [respond]
  split <;> rfl

/-- A response without a time is one that `json.Marshal` writes. -/
theorem encodes_of_time {r : Response} (h : r.time = none) : ∃ data, encodeResponse r = .ok data :=
  (encodeResponse_ok_iff r).2 fun t ht => by rw [h] at ht; cases ht

theorem respond_encodes (id : Int64) {r : Except Bytes Payload} (hr : ResultOk r) :
    ∃ data, encodeResponse (respond id r) = .ok data := by
  refine (encodeResponse_ok_iff _).2 fun t ht => ?_
  rcases r with _ | _ | g | _
  all_goals try cases ht
  simp only [respond] at ht
  split at ht
  · cases ht
  · exact hr g rfl t ht

theorem closeResponse_time (id : Int64) (r : Except Bytes Payload) :
    (closeResponse id r).time = none := by
  cases r <;> rfl

/-! ## No send fails -/

/-- A goroutine holds no failed send, and a response it holds answers its request and is one that
`json.Marshal` writes, the bytes it sends being that marshal. -/
def HandlerOk (x : Handler) : Prop :=
  match x.pc with
  | .responding resp => resp.id = x.req.id ∧ ∃ data, encodeResponse resp = .ok data
  | .sending resp s => resp.id = x.req.id ∧ encodeResponse resp = .ok s.data
  | .reporting _ => False
  | _ => True

/-- An event of a run where no send fails: no failed send, and a response written is one that
`json.Marshal` writes. -/
def Event.Sound : Event → Prop
  | .failed _ _ => False
  | .wrote _ resp => ∃ data, encodeResponse resp = .ok data
  | _ => True

/-- `Run` has taken no failed send from `errChan`, and returns, if it does, nil or a read error. -/
def RunPc.ok : RunPc → Bool
  | .sendFailed _ => false
  | .returned (some (.readRequest _)) => true
  | .returned (some _) => false
  | _ => true

/-- What holds while no send fails. -/
structure NoFail (w : World σ) : Prop where
  log : ∀ e ∈ w.log, e.Sound
  handlers : ∀ x ∈ w.handlers, HandlerOk x
  errChan : w.errChan = none
  answers : ∀ (c : Nat) (call : Call) (r : Except Bytes Payload), w.calls[c]? = some call →
    call.answer = some r → ResultOk r
  results : ∀ (c : Nat) (call : Call) (r : Except Bytes Payload), w.calls[c]? = some call →
    call.result = some r → ResultOk r
  closeResp : ∀ resp, w.main = .closeSending resp → resp.time = none
  main : w.main.ok = true

section Steps

variable {B : Backend σ} {w w' : World σ}

theorem NoFail.run (hn : NoFail w) (h : RunStep B false w w') : NoFail w' := by
  have hh : ∀ x ∈ w'.handlers, HandlerOk x := by
    obtain ⟨new, hw, hs⟩ := h.handlers_eq
    intro x hx
    rw [hw] at hx
    rcases List.mem_append.1 hx with hx | hx
    · exact hn.handlers x hx
    · unfold HandlerOk; rw [hs x hx]; trivial
  have hlog : ∀ {e : Event}, e.Sound → ∀ e' ∈ w.log ++ [e], e'.Sound := fun he =>
    List.forall_mem_append.2 ⟨hn.log, List.forall_mem_singleton.2 he⟩
  cases h
  case handshake hd =>
    exact { hn with log := hlog ⟨_, hd⟩, handlers := hh, closeResp := fun _ h => RunPc.noConfusion h, main := rfl }
  case closeRet =>
    exact
      { hn with
        log := hlog trivial, handlers := hh, main := rfl
        closeResp := fun _ h => by cases h; exact closeResponse_time _ _ }
  case closeSend hd =>
    exact { hn with log := hlog ⟨_, hd⟩, handlers := hh, closeResp := fun _ h => RunPc.noConfusion h, main := rfl }
  case closeMarshalFail hm hd =>
    obtain ⟨_, hd'⟩ := encodes_of_time (hn.closeResp _ hm)
    cases hd.symm.trans hd'
  case checkErr he | selectErr he => cases hn.errChan.symm.trans he
  case handshakeFail hf | closeSendFail hf => cases hf
  case sendFailedReturn hm _ =>
    have := hn.main
    rw [hm] at this
    cases this
  all_goals first
    | exact { hn with log := hlog trivial, handlers := hh, closeResp := fun _ h => RunPc.noConfusion h, main := rfl }
    | exact { hn with handlers := hh, closeResp := fun _ h => RunPc.noConfusion h, main := rfl }

theorem NoFail.handler (hB : TimesInRange B) (hn : NoFail w) {i : Nat} (h : HandlerStep B false i w w') :
    NoFail w' := by
  have hset : ∀ {y : Handler}, HandlerOk y → ∀ z ∈ w.handlers.set i y, HandlerOk z := fun hy z hz =>
    (List.mem_or_eq_of_mem_set hz).elim (hn.handlers z) (· ▸ hy)
  have hold : ∀ {x : Handler}, w.handlers[i]? = some x → HandlerOk x := fun hx =>
    hn.handlers _ (List.getElem?_mem hx)
  have hsend : ∀ {req : Request} {resp : Response} {s s' : Send},
      w.handlers[i]? = some ⟨req, .sending resp s⟩ → s'.data = s.data →
      ∀ z ∈ w.handlers.set i ⟨req, .sending resp s'⟩, HandlerOk z := fun hh hs =>
    hset ⟨(hold hh).1, hs ▸ (hold hh).2⟩
  have hlog : ∀ {e : Event}, e.Sound → ∀ e' ∈ w.log ++ [e], e'.Sound := fun he =>
    List.forall_mem_append.2 ⟨hn.log, List.forall_mem_singleton.2 he⟩
  cases h
  case lead =>
    refine
      { hn with
        log := hlog trivial, handlers := hset trivial
        answers := fun c call r hc hr => ?_
        results := fun c call r hc hr => ?_ }
    all_goals rcases getElem?_append_cases hc with hc | hc
    · exact hn.answers c call r hc hr
    · cases List.mem_singleton.1 hc; cases hr
    · exact hn.results c call r hc hr
    · cases List.mem_singleton.1 hc; cases hr
  case join => exact { hn with handlers := hset trivial }
  case unknown => exact { hn with handlers := hset ⟨rfl, _, rfl⟩ }
  case exec c call _ op _ _ hcall _ =>
    refine
      { hn with
        answers := fun c' call' r hc hr => ?_
        results := fun c' call' r hc hr => ?_ }
    all_goals rcases getElem?_set_cases hcall hc with ⟨-, rfl⟩ | ⟨-, hc⟩
    · cases hr; exact hB.call _ op
    · exact hn.answers c' call' r hc hr
    · exact hn.results c call r hcall hr
    · exact hn.results c' call' r hc hr
  case ret c call _ _ r _ _ hcall ha =>
    refine
      { hn with
        log := hlog trivial, handlers := hset trivial
        answers := fun c' call' r' hc hr => ?_
        results := fun c' call' r' hc hr => ?_ }
    all_goals rcases getElem?_set_cases hcall hc with ⟨-, rfl⟩ | ⟨-, hc⟩
    · exact hn.answers c call r' hcall hr
    · exact hn.answers c' call' r' hc hr
    · cases hr; exact hn.answers c call r hcall ha
    · exact hn.results c' call' r' hc hr
  case finish c call r _ hcall hr =>
    refine
      { hn with
        handlers := hset ⟨respond_id _ _, respond_encodes _ (hn.results c call r hcall hr)⟩
        answers := fun c' call' r' hc hr' => ?_
        results := fun c' call' r' hc hr' => ?_ }
    all_goals rcases getElem?_set_cases hcall hc with ⟨-, rfl⟩ | ⟨-, hc⟩
    · exact hn.answers c call r' hcall hr'
    · exact hn.answers c' call' r' hc hr'
    · exact hn.results c call r' hcall hr'
    · exact hn.results c' call' r' hc hr'
  case wake c call r _ hcall _ hr =>
    exact { hn with handlers := hset ⟨respond_id _ _, respond_encodes _ (hn.results c call r hcall hr)⟩ }
  case marshal hh hd => exact { hn with handlers := hset ⟨(hold hh).1, hd⟩ }
  case marshalFail hh hd =>
    obtain ⟨_, hd'⟩ := (hold hh).2
    cases hd.symm.trans hd'
  case lock hh _ | write hh | writeByte hh => exact { hn with handlers := hsend hh rfl }
  case flush hh => exact { hn with log := hlog ⟨_, (hold hh).2⟩, handlers := hset trivial }
  case writeFail hf => cases hf
  case report hh => exact (hold hh).elim

end Steps

/-! ## One line at a time -/

/-- The line `SendResponse` writes for a response: what `json.Marshal` writes, and a newline. -/
def Event.line? : Event → Option Bytes
  | .wrote _ resp =>
    match encodeResponse resp with
    | .ok data => some (data ++ [10])
    | .error _ => none
  | _ => none

theorem Event.line?_wrote {who : Option Nat} {resp : Response} {data : Bytes}
    (h : encodeResponse resp = .ok data) : Event.line? (.wrote who resp) = some (data ++ [10]) := by
  simp only [Event.line?, h]

/-- The goroutine is in `SendResponse` and holds the writer's mutex. -/
def HandlerPc.holdsLock : HandlerPc → Bool
  | .sending _ s => s.holdsLock
  | _ => false

/-- What a goroutine has written of its line to `cp.writer.w`. -/
def HandlerPc.lineWritten : HandlerPc → Bytes
  | .sending _ (.newline data) => data
  | .sending _ (.flushing data) => data ++ [10]
  | _ => []

theorem HandlerPc.lineWritten_of_holdsLock {pc : HandlerPc} (h : pc.holdsLock = false) :
    pc.lineWritten = [] := by
  rcases pc with _ | _ | _ | _ | _ | ⟨_, _ | _ | _ | _⟩ | _ | _ <;> first | rfl | cases h

/-- What the goroutines have written of lines they have not finished. -/
def pending (hs : List Handler) : Bytes := (hs.map fun x => x.pc.lineWritten).flatten

@[simp] theorem pending_cons (x : Handler) (hs : List Handler) :
    pending (x :: hs) = x.pc.lineWritten ++ pending hs := rfl

theorem pending_append (hs hs' : List Handler) : pending (hs ++ hs') = pending hs ++ pending hs' := by
  simp [pending]

/-- Goroutines none of which holds the mutex have nothing pending. -/
theorem pending_eq_nil : ∀ {hs : List Handler}, (∀ x ∈ hs, x.pc.holdsLock = false) → pending hs = []
  | [], _ => rfl
  | x :: hs, h => by
    rw [pending_cons, HandlerPc.lineWritten_of_holdsLock (h x (List.mem_cons_self _ _)),
      pending_eq_nil fun y hy => h y (List.mem_cons_of_mem _ hy)]
    rfl

/-- When no goroutine but `i` may hold the mutex, what is pending is goroutine `i`'s. -/
theorem pending_of_holder : ∀ {hs : List Handler} {i : Nat} {x : Handler}, hs[i]? = some x →
    (∀ j z, j ≠ i → hs[j]? = some z → z.pc.holdsLock = false) → pending hs = x.pc.lineWritten
  | [], _, _, h, _ => nomatch h
  | z :: hs, 0, x, h, ho => by
    rw [List.getElem?_cons_zero, Option.some.injEq] at h
    subst h
    rw [pending_cons, pending_eq_nil fun y hy => ?_, List.append_nil]
    obtain ⟨j, hj⟩ := List.mem_iff_getElem?.1 hy
    exact ho (j + 1) y (by omega) (List.getElem?_cons_succ.trans hj)
  | z :: hs, i + 1, x, h, ho => by
    rw [pending_cons, HandlerPc.lineWritten_of_holdsLock (ho 0 z (by omega) List.getElem?_cons_zero),
      List.nil_append]
    exact pending_of_holder (List.getElem?_cons_succ.symm.trans h) fun j y hj hy =>
      ho (j + 1) y (by omega) (List.getElem?_cons_succ.trans hy)

/-- A goroutine that moves between places where it has written nothing of a line leaves what is
pending. -/
theorem pending_set_idle : ∀ {hs : List Handler} {i : Nat} {x : Handler}, hs[i]? = some x →
    x.pc.lineWritten = [] → ∀ (y : Handler), y.pc.lineWritten = [] → pending (hs.set i y) = pending hs
  | [], _, _, h, _, _, _ => nomatch h
  | z :: hs, 0, x, h, hx, y, hy => by
    rw [List.getElem?_cons_zero, Option.some.injEq] at h
    subst h
    rw [List.set_cons_zero, pending_cons, pending_cons, hx, hy]
  | z :: hs, i + 1, x, h, hx, y, hy => by
    rw [List.set_cons_succ, pending_cons, pending_cons,
      pending_set_idle (List.getElem?_cons_succ.symm.trans h) hx y hy]

/-- At most one goroutine holds the writer's mutex. -/
structure OneHolder (hs : List Handler) : Prop where
  eq : ∀ {i j : Nat} {x y : Handler}, hs[i]? = some x → hs[j]? = some y → x.pc.holdsLock = true →
    y.pc.holdsLock = true → i = j

namespace OneHolder

variable {hs : List Handler}

theorem others (h : OneHolder hs) {i : Nat} {x : Handler} (hi : hs[i]? = some x)
    (hx : x.pc.holdsLock = true) (j : Nat) (z : Handler) (hj : j ≠ i) (hz : hs[j]? = some z) :
    z.pc.holdsLock = false :=
  Bool.eq_false_iff.2 fun hz' => hj (h.eq hz hi hz' hx)

theorem append_start (h : OneHolder hs) {new : List Handler} (hn : ∀ x ∈ new, x.pc = .start) :
    OneHolder (hs ++ new) := by
  have hold : ∀ {k : Nat} {x : Handler}, (hs ++ new)[k]? = some x → x.pc.holdsLock = true →
      hs[k]? = some x := fun hk hx =>
    (getElem?_append_cases hk).resolve_right fun hm => by rw [hn _ hm] at hx; cases hx
  exact ⟨fun hx hy hx' hy' => h.eq (hold hx hx') (hold hy hy') hx' hy'⟩

/-- Goroutine `i` moves to `y`, which holds the mutex only if `i` held it or no goroutine did. -/
theorem set (h : OneHolder hs) {i : Nat} {x y : Handler} (hi : hs[i]? = some x)
    (hy : y.pc.holdsLock = true → x.pc.holdsLock = true ∨ ∀ z ∈ hs, z.pc.holdsLock = false) :
    OneHolder (hs.set i y) := by
  -- a holder other than `i` after the move held the mutex before it
  have hnew : ∀ {j : Nat} {z : Handler}, j ≠ i → hs[j]? = some z → z.pc.holdsLock = true →
      y.pc.holdsLock = true → False := fun hj hz hz' hy' => by
    rcases hy hy' with hx | hn
    · exact hj (h.eq hz hi hz' hx)
    · rw [hn _ (List.getElem?_mem hz)] at hz'; cases hz'
  refine ⟨fun {j k z z'} hjz hkz h1 h2 => ?_⟩
  rcases getElem?_set_cases hi hjz with ⟨rfl, rfl⟩ | ⟨hj, hz⟩ <;>
    rcases getElem?_set_cases hi hkz with ⟨rfl, rfl⟩ | ⟨hk, hz'⟩
  · rfl
  · exact (hnew hk hz' h2 h1).elim
  · exact (hnew hj hz h1 h2).elim
  · exact h.eq hz hz' h1 h2

end OneHolder

/-- The writer's mutex: one holder at most, held while `locked`; and stdout holds the whole lines
of the responses written so far, in the order of the log, then what the holder has written of
its line. -/
structure WriterInv (w : World σ) : Prop where
  one : OneHolder w.handlers
  locked : ∀ x ∈ w.handlers, x.pc.holdsLock = true → w.locked = true
  out : w.out = (w.log.filterMap Event.line?).flatten ++ pending w.handlers

namespace WriterInv

variable {w w' : World σ}

/-- The mutex is free: no goroutine holds it, and nothing is pending. -/
theorem free (hi : WriterInv w) (hl : w.locked = false) : ∀ x ∈ w.handlers, x.pc.holdsLock = false :=
  fun x hx => Bool.eq_false_iff.2 fun h => by rw [hi.locked x hx h] at hl; cases hl

/-- A step that writes no byte, logs no response, and leaves the mutex and every goroutine's
line, moving goroutine `i` from `x` to `y`. -/
theorem idle (hi : WriterInv w) {i : Nat} {x y : Handler} (hx : w.handlers[i]? = some x)
    (hxl : x.pc.holdsLock = false) (hyl : y.pc.holdsLock = false)
    (hh : w'.handlers = w.handlers.set i y) (hl : w'.locked = w.locked) (ho : w'.out = w.out)
    {es : List Event} (hlog : w'.log = w.log ++ es) (hes : es.filterMap Event.line? = []) :
    WriterInv w' := by
  refine ⟨hh ▸ hi.one.set hx (fun h => by rw [hyl] at h; cases h), fun z hz hz' => ?_, ?_⟩
  · rw [hh] at hz
    rcases List.mem_or_eq_of_mem_set hz with hz | rfl
    · rw [hl]; exact hi.locked z hz hz'
    · rw [hyl] at hz'; cases hz'
  · rw [ho, hlog, hh, List.filterMap_append, hes, List.append_nil,
      pending_set_idle hx (HandlerPc.lineWritten_of_holdsLock hxl) y (HandlerPc.lineWritten_of_holdsLock hyl)]
    exact hi.out

/-- With goroutine `i` holding the mutex, what is pending is its line, before and after it
moves. -/
theorem pending_holder (hi : WriterInv w) {i : Nat} {x : Handler} (hx : w.handlers[i]? = some x)
    (hl : x.pc.holdsLock = true) (y : Handler) :
    pending w.handlers = x.pc.lineWritten ∧ pending (w.handlers.set i y) = y.pc.lineWritten := by
  have ho := hi.one.others hx hl
  refine ⟨pending_of_holder hx ho, pending_of_holder (by rw [getElem?_set_of hx, if_pos rfl])
    fun j z hj hz => ho j z hj ?_⟩
  rwa [getElem?_set_of hx, if_neg (Ne.symm hj)] at hz

variable {B : Backend σ}

theorem run (hi : WriterInv w) (h : RunStep B false w w') : WriterInv w' := by
  obtain ⟨new, hw, hs⟩ := h.handlers_eq
  have hpn : pending w'.handlers = pending w.handlers := by
    have hn : pending new = [] := pending_eq_nil fun x hx => by rw [hs x hx]; rfl
    rw [hw, pending_append, hn, List.append_nil]
  have hlk : ∀ x ∈ w'.handlers, x.pc.holdsLock = true → w'.locked = true := by
    rw [hw, h.locked_eq]
    intro x hx hl
    rcases List.mem_append.1 hx with hx | hx
    · exact hi.locked x hx hl
    · rw [hs x hx] at hl; cases hl
  refine ⟨hw ▸ hi.one.append_start hs, hlk, ?_⟩
  rw [hpn]
  cases h
  case handshake hl hd | closeSend _ hl hd =>
    rw [List.filterMap_append, List.filterMap_cons_some (Event.line?_wrote hd), List.filterMap_nil,
      List.flatten_append, hi.out, pending_eq_nil (hi.free hl)]
    simp
  all_goals first | exact hi.out | simpa [Event.line?] using hi.out

theorem handler (hn : NoFail w) (hi : WriterInv w) {i : Nat} (h : HandlerStep B false i w w') :
    WriterInv w' := by
  cases h
  case lock req resp data hh hl =>
    refine ⟨hi.one.set hh (fun _ => .inr (hi.free hl)), fun _ _ _ => rfl, ?_⟩
    rw [pending_set_idle hh rfl ⟨req, .sending resp (.writing data)⟩ rfl]
    exact hi.out
  case write req resp data hh =>
    obtain ⟨hp, hp'⟩ := hi.pending_holder hh rfl ⟨req, .sending resp (.newline data)⟩
    refine ⟨hi.one.set hh (fun _ => .inl rfl), fun _ _ _ => hi.locked _ (List.getElem?_mem hh) rfl, ?_⟩
    rw [hp', hi.out, hp]
    simp [HandlerPc.lineWritten]
  case writeByte req resp data hh =>
    obtain ⟨hp, hp'⟩ := hi.pending_holder hh rfl ⟨req, .sending resp (.flushing data)⟩
    refine ⟨hi.one.set hh (fun _ => .inl rfl), fun _ _ _ => hi.locked _ (List.getElem?_mem hh) rfl, ?_⟩
    rw [hp', hi.out, hp]
    simp [HandlerPc.lineWritten]
  case flush req resp data hh =>
    obtain ⟨hp, hp'⟩ := hi.pending_holder hh rfl ⟨req, .finished⟩
    refine ⟨hi.one.set hh (fun h => nomatch h), fun z hz hz' => ?_, ?_⟩
    · obtain ⟨j, hj⟩ := List.mem_iff_getElem?.1 hz
      rcases getElem?_set_cases hh hj with ⟨-, rfl⟩ | ⟨hji, hj⟩
      · cases hz'
      · rw [hi.one.others hh rfl j z hji hj] at hz'; cases hz'
    · have hd : encodeResponse resp = .ok data := (hn.handlers _ (List.getElem?_mem hh)).2
      rw [List.filterMap_append, List.filterMap_cons_some (Event.line?_wrote hd), List.filterMap_nil,
        List.flatten_append, hp', hi.out, hp]
      simp [HandlerPc.lineWritten]
  case writeFail hf => cases hf
  case exec hh _ _ _ =>
    exact hi.idle hh (by rfl) (by rfl) (set_eq_of_getElem? hh).symm rfl rfl (List.append_nil _).symm rfl
  all_goals first
    | exact hi.idle ‹_› (by rfl) (by rfl) rfl rfl rfl rfl rfl
    | exact hi.idle ‹_› (by rfl) (by rfl) rfl rfl rfl (List.append_nil _).symm rfl

end WriterInv

/-! ## One response per request -/

/-- A response written by `who`. -/
def Event.isWriteOf (who : Option Nat) : Event → Bool
  | .wrote who' _ => who' == who
  | _ => false

/-- A request read for `who`. -/
def Event.isReadOf (who : Option Nat) : Event → Bool
  | .read who' _ => who' == who
  | _ => false

/-- A request read. -/
def Event.isRead : Event → Bool
  | .read _ _ => true
  | _ => false

theorem Event.eq_wrote_of_isWriteOf {e : Event} {who : Option Nat} (h : e.isWriteOf who = true) :
    ∃ resp, e = .wrote who resp := by
  cases e <;> simp_all [Event.isWriteOf]

theorem Event.eq_read_of_isReadOf {e : Event} {who : Option Nat} (h : e.isReadOf who = true) :
    ∃ req, e = .read who req := by
  cases e <;> simp_all [Event.isReadOf]

/-- Events of others than `who` hold no response of `who`. -/
theorem filter_isWriteOf_eq_nil {es : List Event} {who : Option Nat} (h : ∀ e ∈ es, e.who ≠ who) :
    es.filter (Event.isWriteOf who) = [] :=
  List.filter_eq_nil_iff.2 fun e he hw => by
    obtain ⟨_, rfl⟩ := Event.eq_wrote_of_isWriteOf hw
    exact h _ he rfl

/-- Events that are not reads, or are of others than `who`, hold no read for `who`. -/
theorem filter_isReadOf_eq_nil {es : List Event} {who : Option Nat}
    (h : ∀ e ∈ es, e.who ≠ who ∨ e.isRead = false) : es.filter (Event.isReadOf who) = [] :=
  List.filter_eq_nil_iff.2 fun e he hr => by
    obtain ⟨_, rfl⟩ := Event.eq_read_of_isReadOf hr
    rcases h _ he with h | h
    exacts [h rfl, Bool.noConfusion h]

theorem getElem?_concat_of_ne {α : Type} {l : List α} {a : α} {j : Nat} (h : j ≠ l.length) :
    (l ++ [a])[j]? = l[j]? := by
  rcases Nat.lt_or_gt_of_ne h with h | h
  · exact List.getElem?_append_left h
  · rw [List.getElem?_eq_none (by simp; omega), List.getElem?_eq_none (by omega)]

section Steps

variable {B : Backend σ} {faults : Bool} {w w' : World σ}

/-- A step of `Run` logs only events of its own, but for the read of a request it hands to a new
goroutine. -/
theorem RunStep.shape (h : RunStep B faults w w') :
    (w'.handlers = w.handlers ∧ ∃ es, w'.log = w.log ++ es ∧ ∀ e ∈ es, e.who = none) ∨
      ∃ req, w'.handlers = w.handlers ++ [⟨req, .start⟩] ∧
        w'.log = w.log ++ [.read (some w.handlers.length) req] := by
  cases h <;> first
    | exact .inl ⟨rfl, [], (List.append_nil _).symm, fun _ h => absurd h (List.not_mem_nil _)⟩
    | exact .inl ⟨rfl, [_], rfl, fun _ h => by rw [List.mem_singleton.1 h]; rfl⟩
    | exact .inr ⟨_, rfl, rfl⟩

/-- What a step of goroutine `i` does to the history, when no send fails: it appends events of its
own and reads nothing; it writes one response, which answers its request, exactly when it
returns. -/
theorem HandlerStep.log_cases (hn : NoFail w) {i : Nat} (h : HandlerStep B false i w w') :
    ∃ req pc pc' es, w.handlers[i]? = some ⟨req, pc⟩ ∧ pc ≠ .finished ∧
      w'.handlers = w.handlers.set i ⟨req, pc'⟩ ∧ w'.main = w.main ∧ w'.log = w.log ++ es ∧
      (∀ e ∈ es, e.who = some i ∧ e.isRead = false) ∧
      (pc' = .finished → ∃ resp, es = [.wrote (some i) resp] ∧ resp.id = req.id) ∧
      (pc' ≠ .finished → es.filter (Event.isWriteOf (some i)) = []) := by
  cases h
  case flush hh =>
    exact ⟨_, _, _, _, hh, nofun, rfl, rfl, rfl,
      fun _ h => by rw [List.mem_singleton.1 h]; exact ⟨rfl, rfl⟩,
      fun _ => ⟨_, rfl, (hn.handlers _ (List.getElem?_mem hh)).1⟩, fun h => (h rfl).elim⟩
  case report hh => exact (hn.handlers _ (List.getElem?_mem hh)).elim
  case writeFail hf => cases hf
  case exec hh _ _ _ =>
    exact ⟨_, _, _, [], hh, nofun, (set_eq_of_getElem? hh).symm, rfl, (List.append_nil _).symm,
      fun _ h => absurd h (List.not_mem_nil _), nofun, fun _ => rfl⟩
  all_goals first
    | exact ⟨_, _, _, [], ‹_›, (by nofun), rfl, rfl, (List.append_nil _).symm,
        fun _ h => absurd h (List.not_mem_nil _), nofun, fun _ => rfl⟩
    | exact ⟨_, _, _, [_], ‹_›, (by nofun), rfl, rfl, rfl,
        fun _ h => by rw [List.mem_singleton.1 h]; exact ⟨rfl, rfl⟩, nofun, fun _ => rfl⟩

end Steps

/-- Every goroutine was handed the request its read logged; it has written no response before it
returns, and one, with its request's id, once it has. -/
structure AnswerInv (w : World σ) : Prop where
  reads : ∀ j, w.log.filter (Event.isReadOf (some j)) =
    (w.handlers[j]?.map fun x => Event.read (some j) x.req).toList
  unwritten : ∀ j, (∀ x, w.handlers[j]? = some x → x.pc ≠ .finished) →
    w.log.filter (Event.isWriteOf (some j)) = []
  written : ∀ j x, w.handlers[j]? = some x → x.pc = .finished →
    ∃ resp, w.log.filter (Event.isWriteOf (some j)) = [.wrote (some j) resp] ∧ resp.id = x.req.id

namespace AnswerInv

variable {B : Backend σ} {faults : Bool} {w w' : World σ}

theorem run (hi : AnswerInv w) (h : RunStep B faults w w') : AnswerInv w' := by
  rcases h.shape with ⟨hw, es, hl, hes⟩ | ⟨req, hw, hl⟩
  · have hwr : ∀ j, es.filter (Event.isWriteOf (some j)) = [] := fun j =>
      filter_isWriteOf_eq_nil fun e he => by rw [hes e he]; nofun
    refine ⟨fun j => ?_, fun j hj => ?_, fun j x hx hxf => ?_⟩
    · have hrd : es.filter (Event.isReadOf (some j)) = [] :=
        filter_isReadOf_eq_nil fun e he => .inl (by rw [hes e he]; nofun)
      rw [hl, List.filter_append, hrd, List.append_nil, hw]
      exact hi.reads j
    · rw [hl, List.filter_append, hwr, List.append_nil]
      exact hi.unwritten j (hw ▸ hj)
    · rw [hl, List.filter_append, hwr, List.append_nil]
      exact hi.written j x (hw ▸ hx) hxf
  · -- a new goroutine, handed the request just read
    have hnew : w.handlers[w.handlers.length]? = none := List.getElem?_eq_none le_rfl
    have hwr : ∀ j, (w.log ++ [Event.read (some w.handlers.length) req]).filter
        (Event.isWriteOf (some j)) = w.log.filter (Event.isWriteOf (some j)) := fun j => by
      rw [List.filter_append]; exact List.append_nil _
    refine ⟨fun j => ?_, fun j hj => ?_, fun j x hx hxf => ?_⟩ <;> rw [hl] <;> rw [hw] at * <;>
      by_cases hj' : j = w.handlers.length
    · subst hj'
      rw [List.filter_append, hi.reads, hnew, List.getElem?_concat_length]
      simp [Event.isReadOf]
    · rw [List.filter_append, hi.reads, getElem?_concat_of_ne hj']
      simp [Event.isReadOf, Ne.symm hj']
    · subst hj'
      rw [hwr, hi.unwritten _ fun x hx => by rw [hnew] at hx; cases hx]
    · rw [hwr]
      exact hi.unwritten j fun x hx => hj x (by rw [getElem?_concat_of_ne hj']; exact hx)
    · subst hj'
      rw [List.getElem?_concat_length] at hx
      cases hx
      cases hxf
    · rw [getElem?_concat_of_ne hj'] at hx
      rw [hwr]
      exact hi.written j x hx hxf

theorem handler (hn : NoFail w) (hi : AnswerInv w) {i : Nat} (h : HandlerStep B false i w w') :
    AnswerInv w' := by
  obtain ⟨req, pc, pc', es, hh, hpc, hw, -, hl, hown, hfin, hnf⟩ := h.log_cases hn
  have hset := getElem?_set_of hh ⟨req, pc'⟩
  have hother : ∀ j, j ≠ i → es.filter (Event.isWriteOf (some j)) = [] := fun j hj =>
    filter_isWriteOf_eq_nil fun e he he' => hj (Option.some.inj ((hown e he).1.symm.trans he')).symm
  have hold : w.log.filter (Event.isWriteOf (some i)) = [] :=
    hi.unwritten i fun x hx => by rw [hh] at hx; cases hx; exact hpc
  have hrd : ∀ j, es.filter (Event.isReadOf (some j)) = [] := fun _ =>
    filter_isReadOf_eq_nil fun e he => .inr (hown e he).2
  refine ⟨fun j => ?_, fun j hj => ?_, fun j x hx hxf => ?_⟩ <;> rw [hl] <;> rw [hw] at *
  · rw [List.filter_append, hrd, List.append_nil, hset, hi.reads]
    split
    · subst j; rw [hh]; rfl
    · rfl
  · rw [List.filter_append]
    by_cases hji : j = i
    · subst j
      rw [hold, hnf fun h => hj _ (by rw [hset, if_pos rfl]) h]
      rfl
    · rw [hother j hji, List.append_nil]
      exact hi.unwritten j fun x hx => hj x (by rw [hset, if_neg (Ne.symm hji)]; exact hx)
  · rw [hset] at hx
    rw [List.filter_append]
    split at hx
    · subst j
      cases hx
      obtain ⟨resp, rfl, hid⟩ := hfin hxf
      exact ⟨resp, by rw [hold]; simp [Event.isWriteOf], hid⟩
    · obtain ⟨resp, h1, h2⟩ := hi.written j x hx hxf
      exact ⟨resp, by rw [h1, hother j (Ne.symm ‹_›)]; rfl, h2⟩

end AnswerInv

/-! ## `Run`'s own lines -/

/-- What `Run`'s place says once it has read the close `req`: it has written the handshake alone
until it sends the response to close, which carries the close's id; once sent, that response is
the last event, and every goroutine has returned. -/
def CloseOk (main : RunPc) (hs : List Handler) (req : Request) (log : List Event) : Prop :=
  match main with
  | .draining req' | .closing req' =>
    req' = req ∧ log.filter (Event.isWriteOf none) = [.wrote none initialResponse]
  | .closeSending resp =>
    resp.id = req.id ∧ log.filter (Event.isWriteOf none) = [.wrote none initialResponse]
  | .selecting | .returned none =>
    (∀ x ∈ hs, x.pc = .finished) ∧ ∃ resp, resp.id = req.id ∧
      log.filter (Event.isWriteOf none) = [.wrote none initialResponse, .wrote none resp] ∧
      log.getLast? = some (.wrote none resp)
  | _ => False

/-- A step of a goroutine, which can happen only before every goroutine has returned and writes
nothing of `Run`'s, keeps what `Run`'s place says of the close. -/
theorem CloseOk.frame {main : RunPc} {hs hs' : List Handler} {req : Request} {log log' : List Event}
    (h : CloseOk main hs req log) (hd : ¬ ∀ x ∈ hs, x.pc = .finished)
    (hw : log'.filter (Event.isWriteOf none) = log.filter (Event.isWriteOf none)) :
    CloseOk main hs' req log' := by
  unfold CloseOk at h ⊢
  split at h <;> first | exact (hd h.1).elim | (rw [hw]; exact h) | exact h.elim

/-- `Run`'s own events: the handshake is the first; before a close is read, it is `Run`'s only
line; a close is read once, and what `Run`'s place says of it holds; every backend call of `Run`
is `Close`. -/
structure RunLogInv (w : World σ) : Prop where
  first : w.main = .start ∧ w.log = [] ∨
    w.main ≠ .start ∧ w.log.head? = some (.wrote none initialResponse)
  noClose : (∀ req, .read none req ∉ w.log) → w.main ≠ .start →
    w.log.filter (Event.isWriteOf none) = [.wrote none initialResponse]
  close : ∀ req, .read none req ∈ w.log →
    w.log.filter (Event.isReadOf none) = [.read none req] ∧ CloseOk w.main w.handlers req w.log
  runCalls : ∀ op, .call none op ∈ w.log → op = .close

namespace RunLogInv

variable {B : Backend σ} {w w' : World σ}

/-- A step of `Run` away from `start` that appends events none of which is a read of a close, a
write of `Run` or a call of `Run` but `Close`, and keeps what `Run`'s place says of a close. -/
theorem append (hi : RunLogInv w) (hm : w.main ≠ .start) (hm' : w'.main ≠ .start) {es : List Event}
    (hl : w'.log = w.log ++ es) (hr : es.filter (Event.isReadOf none) = [])
    (hw : es.filter (Event.isWriteOf none) = []) (hc : ∀ op, .call none op ∈ es → op = .close)
    (hclose : ∀ req, CloseOk w.main w.handlers req w.log → CloseOk w'.main w'.handlers req w'.log) :
    RunLogInv w' := by
  have hmem : ∀ req, .read none req ∈ w'.log → .read none req ∈ w.log := fun req h => by
    rw [hl] at h
    refine (List.mem_append.1 h).resolve_right fun h' => ?_
    have : Event.read none req ∈ es.filter (Event.isReadOf none) :=
      List.mem_filter.2 ⟨h', by simp [Event.isReadOf]⟩
    rw [hr] at this
    exact List.not_mem_nil _ this
  refine ⟨.inr ⟨hm', ?_⟩, fun hn _ => ?_, fun req h => ?_, fun op h => ?_⟩
  · rw [hl, List.head?_append, (hi.first.resolve_left fun h => hm h.1).2]
    rfl
  · rw [hl, List.filter_append, hw, List.append_nil]
    exact hi.noClose (fun req h => hn req (by rw [hl]; exact List.mem_append_left _ h)) hm
  · obtain ⟨h1, h2⟩ := hi.close req (hmem req h)
    exact ⟨by rw [hl, List.filter_append, hr, List.append_nil]; exact h1, hclose req h2⟩
  · rw [hl] at h
    rcases List.mem_append.1 h with h | h
    exacts [hi.runCalls op h, hc op h]

/-- Before the close, `Run`'s place says no close was read. -/
theorem no_close (hi : RunLogInv w) (hm : ∀ req, CloseOk w.main w.handlers req w.log → False) :
    ∀ req, .read none req ∉ w.log :=
  fun req hr => hm req (hi.close req hr).2

theorem handler (hn : NoFail w) (hmo : MainOk w.main w.input w.handlers w.log) (hi : RunLogInv w)
    {i : Nat} (h : HandlerStep B false i w w') : RunLogInv w' := by
  obtain ⟨req, pc, pc', es, hh, -, hw, hm, hl, hown, -, -⟩ := h.log_cases hn
  have hnone : ∀ e ∈ es, e.who ≠ none := fun e he => by rw [(hown e he).1]; nofun
  have hwn : w'.log.filter (Event.isWriteOf none) = w.log.filter (Event.isWriteOf none) := by
    rw [hl, List.filter_append, filter_isWriteOf_eq_nil hnone, List.append_nil]
  have hrn : w'.log.filter (Event.isReadOf none) = w.log.filter (Event.isReadOf none) := by
    rw [hl, List.filter_append, filter_isReadOf_eq_nil fun e he => .inl (hnone e he), List.append_nil]
  have hmem : ∀ {e : Event}, e ∈ w'.log → e.who = none → e ∈ w.log := fun he hwho => by
    rw [hl] at he
    exact (List.mem_append.1 he).resolve_right fun he => hnone _ he hwho
  refine ⟨?_, fun hc hs => ?_, fun req hr => ?_, fun op hop => hi.runCalls op (hmem hop rfl)⟩
  · rcases hi.first with ⟨hs, -⟩ | ⟨hs, hhd⟩
    · rw [hs, MainOk] at hmo
      rw [hmo] at hh
      cases hh
    · refine .inr ⟨hm ▸ hs, ?_⟩
      rw [hl, List.head?_append, hhd]
      rfl
  · rw [hwn]
    exact hi.noClose (fun req hr => hc req (by rw [hl]; exact List.mem_append_left _ hr)) (hm ▸ hs)
  · obtain ⟨h1, h2⟩ := hi.close req (hmem hr rfl)
    rw [hrn, hm]
    exact ⟨h1, h2.frame h.not_allDone hwn⟩

theorem run (hn : NoFail w) (hmo : MainOk w.main w.input w.handlers w.log) (hi : RunLogInv w)
    (h : RunStep B false w w') : RunLogInv w' := by
  cases h
  case handshake hm _ _ =>
    have hl : w.log = [] := (hi.first.resolve_right fun h => h.1 hm).2
    refine ⟨.inr ⟨nofun, by rw [hl]; rfl⟩, fun _ _ => by rw [hl]; rfl, fun req hr => ?_, fun op hop => ?_⟩
    · rw [hl] at hr; simp at hr
    · rw [hl] at hop; simp at hop
  case readEof hm _ | readError hm _ _ | checkErr hm _ | checkNone hm _ | readFailedReturn hm _ |
      sendFailedReturn hm _ =>
    exact hi.append (by rw [hm]; nofun) nofun (List.append_nil _).symm rfl rfl (by simp)
      fun _ h => by rw [hm] at h; exact False.elim h
  case spawn hm _ _ =>
    exact hi.append (by rw [hm]; nofun) nofun rfl rfl rfl (by simp)
      fun _ h => by rw [hm] at h; exact False.elim h
  case closeCall hm _ =>
    exact hi.append (by rw [hm]; nofun) nofun rfl rfl rfl (by simp)
      fun _ h => by rw [hm] at h; exact ⟨h.1, by rw [List.filter_append, h.2]; rfl⟩
  case closeRet req hm =>
    exact hi.append (by rw [hm]; nofun) nofun rfl rfl rfl (by simp)
      fun _ h => by
        rw [hm] at h
        exact ⟨by rw [closeResponse_id, h.1], by rw [List.filter_append, h.2]; rfl⟩
  case selectDone hm _ =>
    exact hi.append (by rw [hm]; nofun) nofun (List.append_nil _).symm rfl rfl (by simp)
      fun _ h => by rw [hm] at h; exact h
  case readClose req _ hm _ _ =>
    have hc := hi.no_close fun _ h => by rw [hm] at h; exact h
    have hrd : w.log.filter (Event.isReadOf none) = [] := List.filter_eq_nil_iff.2 fun e he hr => by
      obtain ⟨r, rfl⟩ := Event.eq_read_of_isReadOf hr
      exact hc r he
    refine ⟨.inr ⟨nofun, ?_⟩, fun h _ => absurd (List.mem_append_right _ (List.mem_singleton_self _)) (h req),
      fun req' hr => ?_, fun op hop => ?_⟩
    · rw [List.head?_append, (hi.first.resolve_left fun h => by rw [hm] at h; exact nomatch h.1).2]
      rfl
    · rcases List.mem_append.1 hr with hr | hr
      · exact absurd hr (hc req')
      · cases List.mem_singleton.1 hr
        refine ⟨by rw [List.filter_append, hrd]; simp [Event.isReadOf], rfl, ?_⟩
        rw [List.filter_append, hi.noClose hc (by rw [hm]; nofun)]
        rfl
    · rcases List.mem_append.1 hop with hop | hop
      exacts [hi.runCalls op hop, nomatch List.mem_singleton.1 hop]
  case closeSend resp _ hm _ _ =>
    rw [hm, MainOk] at hmo
    obtain ⟨⟨req, hreq, -⟩, hdone⟩ := hmo
    refine ⟨.inr ⟨nofun, ?_⟩, fun hc _ => absurd (List.mem_append_left _ hreq) (hc req),
      fun req' hr => ?_, fun op hop => ?_⟩
    · rw [List.head?_append, (hi.first.resolve_left fun h => by rw [hm] at h; exact nomatch h.1).2]
      rfl
    · have hr' := (List.mem_append.1 hr).resolve_right fun h => nomatch List.mem_singleton.1 h
      obtain ⟨h1, h2⟩ := hi.close req' hr'
      rw [hm] at h2
      exact ⟨by rw [List.filter_append, h1]; rfl,
        hdone, resp, h2.1, by rw [List.filter_append, h2.2]; rfl, List.getLast?_concat _⟩
    · rcases List.mem_append.1 hop with hop | hop
      exacts [hi.runCalls op hop, nomatch List.mem_singleton.1 hop]
  case closeMarshalFail hm hd =>
    obtain ⟨_, hd'⟩ := encodes_of_time (hn.closeResp _ hm)
    cases hd.symm.trans hd'
  case selectErr he => cases hn.errChan.symm.trans he
  case handshakeFail hf | closeSendFail hf => cases hf

end RunLogInv

/-! ## Backend calls before `Close` -/

/-- A backend call of a goroutine. -/
def Event.isHandlerCall : Event → Bool
  | .call (some _) _ => true
  | _ => false

/-- Every backend call of a goroutine has returned after it, or the goroutine is still in it. -/
structure CallInv (w : World σ) : Prop where
  ret : ∀ (p i : Nat) (op : Op), w.log[p]? = some (.call (some i) op) →
    (∃ (q : Nat) (r : Except Bytes Payload), p < q ∧ w.log[q]? = some (.ret (some i) op r)) ∨
      ∃ (req : Request) (c : Nat) (key : Bytes), w.handlers[i]? = some ⟨req, .calling c⟩ ∧
        flightOf req = some (key, op)

/-- A goroutine that moves from a place other than a backend call leaves every goroutine in one
where it is. -/
theorem calling_set {hs : List Handler} {j : Nat} {r : Request} {pc : HandlerPc}
    (hj : hs[j]? = some ⟨r, pc⟩) (hpc : ∀ c, pc ≠ .calling c) (y : Handler) {i : Nat} {req : Request}
    {c : Nat} (hx : hs[i]? = some ⟨req, .calling c⟩) : (hs.set j y)[i]? = some ⟨req, .calling c⟩ := by
  rw [getElem?_set_of hj, if_neg]
  · exact hx
  · rintro rfl
    rw [hj] at hx
    cases hx
    exact hpc c rfl

namespace CallInv

variable {B : Backend σ} {faults : Bool} {w w' : World σ}

theorem ret_append {log : List Event} {p i : Nat} {op : Op}
    (h : ∃ (q : Nat) (r : Except Bytes Payload), p < q ∧ log[q]? = some (.ret (some i) op r))
    (es : List Event) :
    ∃ (q : Nat) (r : Except Bytes Payload), p < q ∧ (log ++ es)[q]? = some (.ret (some i) op r) :=
  let ⟨q, r, hpq, hq⟩ := h
  ⟨q, r, hpq, by rw [List.getElem?_append_left (List.getElem?_eq_some_iff.1 hq).1, hq]⟩

/-- A step that logs no backend call of a goroutine and leaves every goroutine in one where it
is. -/
theorem frame (hi : CallInv w) {es : List Event} (hl : w'.log = w.log ++ es)
    (hes : es.any Event.isHandlerCall = false)
    (hh : ∀ {i : Nat} {req : Request} {c : Nat}, w.handlers[i]? = some ⟨req, .calling c⟩ →
      w'.handlers[i]? = some ⟨req, .calling c⟩) :
    CallInv w' := by
  refine ⟨fun p i op hp => ?_⟩
  rw [hl] at hp ⊢
  rcases getElem?_append_split hp with ⟨-, hp⟩ | ⟨-, hp⟩
  · rcases hi.ret p i op hp with h | ⟨req, c, key, hx, hf⟩
    exacts [.inl (ret_append h es), .inr ⟨req, c, key, hh hx, hf⟩]
  · exact absurd (List.any_eq_false.1 hes _ hp) (by simp [Event.isHandlerCall])

theorem step (hi : CallInv w) (h : Step B faults w w') : CallInv w' := by
  rcases h with h | ⟨j, h⟩
  · obtain ⟨new, hw, -⟩ := h.handlers_eq
    have hh : ∀ {i : Nat} {req : Request} {c : Nat}, w.handlers[i]? = some ⟨req, .calling c⟩ →
        w'.handlers[i]? = some ⟨req, .calling c⟩ := fun hx => by
      rw [hw, List.getElem?_append_left (List.getElem?_eq_some_iff.1 hx).1, hx]
    cases h <;> first | exact hi.frame (List.append_nil _).symm rfl hh | exact hi.frame rfl rfl hh
  · cases h
    case lead req key op hh hf _ =>
      -- the goroutine is in the call it logs
      refine ⟨fun p i op' hp => ?_⟩
      rcases getElem?_concat_cases hp with hp | ⟨rfl, he⟩
      · rcases hi.ret p i op' hp with h | ⟨req', c, key', hx, hf'⟩
        exacts [.inl (ret_append h _), .inr ⟨req', c, key', calling_set hh (fun _ => nofun) _ hx, hf'⟩]
      · cases he
        exact .inr ⟨req, _, key, by rw [getElem?_set_of hh, if_pos rfl], hf⟩
    case exec => exact hi.frame (List.append_nil _).symm rfl id
    case ret req c call key op r hh hf _ _ =>
      -- the call the goroutine is in returns
      refine ⟨fun p i op' hp => ?_⟩
      have hp' := (getElem?_concat_cases hp).resolve_right fun ⟨_, he⟩ => nomatch he
      rcases hi.ret p i op' hp' with h | ⟨req', c', key', hx, hf'⟩
      · exact .inl (ret_append h _)
      · by_cases hij : i = j
        · subst hij
          rw [hh] at hx
          cases hx
          cases Option.some.inj (hf.symm.trans hf')
          exact .inl ⟨w.log.length, _, (List.getElem?_eq_some_iff.1 hp').1, List.getElem?_concat_length _ _⟩
        · exact .inr ⟨req', c', key', by rw [getElem?_set_of hh, if_neg (Ne.symm hij)]; exact hx, hf'⟩
    all_goals first
      | exact hi.frame (List.append_nil _).symm rfl (calling_set ‹_› (fun _ => by nofun) _)
      | exact hi.frame rfl rfl (calling_set ‹_› (fun _ => by nofun) _)

end CallInv

/-! ## What `Run` has written when it returns -/

/-- What holds along a run where no write fails, with a backend whose times are in range. -/
structure OutInv (w : World σ) : Prop where
  noFail : NoFail w
  writer : WriterInv w
  answer : AnswerInv w
  runLog : RunLogInv w
  calls : CallInv w

section Runs

variable {B : Backend σ} {input : Bytes} {s : σ} {w : World σ}

theorem outInv_of_reachable (hB : TimesInRange B) (h : Reachable B false input s w) : OutInv w := by
  induction h with
  | refl =>
    exact ⟨⟨fun _ h => absurd h (List.not_mem_nil _), fun _ h => absurd h (List.not_mem_nil _), rfl,
        fun _ _ _ h => by simp [World.init] at h, fun _ _ _ h => by simp [World.init] at h,
        fun _ h => RunPc.noConfusion h, rfl⟩,
      ⟨⟨fun h => by simp [World.init] at h⟩, fun _ h => absurd h (List.not_mem_nil _), rfl⟩,
      ⟨fun _ => by simp [World.init], fun _ _ => rfl, fun _ _ h => by simp [World.init] at h⟩,
      ⟨.inl ⟨rfl, rfl⟩, fun _ h => absurd rfl h, fun _ h => absurd h (List.not_mem_nil _),
        fun _ h => absurd h (List.not_mem_nil _)⟩,
      ⟨fun _ _ _ h => by simp [World.init] at h⟩⟩
  | tail hr hs ih =>
    have hmo := (retInv_of_reachable hr).main
    rcases hs with h | ⟨i, h⟩
    · exact ⟨ih.noFail.run h, ih.writer.run h, ih.answer.run h, ih.runLog.run ih.noFail hmo h,
        ih.calls.step (.run h)⟩
    · exact ⟨ih.noFail.handler hB h, ih.writer.handler ih.noFail h, ih.answer.handler ih.noFail h,
        ih.runLog.handler ih.noFail hmo h, ih.calls.step (.handler i h)⟩

/-- What `Run` has written when it returns, over every input and every schedule, when every write
to stdout succeeds and the backend's `Get` answers only times that `Time.MarshalJSON` writes: it
returns nil or a read error, and no send failed; the handshake is the first line; stdout is the
lines of the responses written, in order, each the marshal of its response, which holds no
newline, and a newline; each goroutine and `Run` read one request at most; every request handed
to a goroutine has exactly one response, with its id, and every response of a goroutine answers
a request it was handed; before a close is read, the handshake is `Run`'s only line; a close is
answered by `Run`'s second line, with its id, which is the last event; and every backend call of
a goroutine returned before `Run` called `Close`, after which every backend call is a `Close` of
`Run`. -/
theorem run_output (hB : TimesInRange B) (hr : Reachable B false input s w) {r : Option RunError}
    (hm : w.main = .returned r) :
    (r = none ∨ ∃ e, r = some (.readRequest e)) ∧ (∀ who e, .failed who e ∉ w.log) ∧
      w.log.head? = some (.wrote none initialResponse) ∧
      w.out = (w.log.filterMap Event.line?).flatten ∧
      (∀ who resp, .wrote who resp ∈ w.log →
        ∃ data, encodeResponse resp = .ok data ∧ (10 : UInt8) ∉ data) ∧
      (∀ who, (w.log.filter (Event.isReadOf who)).length ≤ 1) ∧
      (∀ j req, .read (some j) req ∈ w.log →
        ∃ resp, w.log.filter (Event.isWriteOf (some j)) = [.wrote (some j) resp] ∧ resp.id = req.id) ∧
      (∀ j resp, .wrote (some j) resp ∈ w.log → ∃ req, .read (some j) req ∈ w.log) ∧
      ((∀ req, .read none req ∉ w.log) →
        w.log.filter (Event.isWriteOf none) = [.wrote none initialResponse]) ∧
      (∀ req, .read none req ∈ w.log → ∃ resp, resp.id = req.id ∧
        w.log.filter (Event.isWriteOf none) = [.wrote none initialResponse, .wrote none resp] ∧
        w.log.getLast? = some (.wrote none resp)) ∧
      ∀ k : Nat, w.log[k]? = some (.call none .close) →
        (∀ (p i : Nat) (op : Op), w.log[p]? = some (.call (some i) op) →
          ∃ (q : Nat) (res : Except Bytes Payload), p < q ∧ q < k ∧
            w.log[q]? = some (.ret (some i) op res)) ∧
        ∀ (q : Nat) (who : Option Nat) (op : Op), k < q → w.log[q]? = some (.call who op) →
          who = none ∧ op = .close := by
  obtain ⟨hn, hw, ha, hl, hc⟩ := outInv_of_reachable hB hr
  have hmo := (retInv_of_reachable hr).main
  rw [hm] at hmo
  have hdone := hmo.allDone_of_returned
  have hci := closeInv_of_reachable hr
  -- the request handed to goroutine `j`, from its read
  have hread : ∀ (j : Nat) {e : Event}, e ∈ w.log → e.isReadOf (some j) = true →
      ∃ x, w.handlers[j]? = some x ∧ e = .read (some j) x.req := fun _ _ he hr' => by
    have := List.mem_filter.2 ⟨he, hr'⟩
    rw [ha.reads] at this
    obtain ⟨x, hx, rfl⟩ := Option.mem_map.1 (Option.mem_toList.1 this)
    exact ⟨x, hx, rfl⟩
  refine ⟨?_, fun who e h => hn.log _ h, (hl.first.resolve_left fun h => ?_).2, ?_, fun who resp h => ?_,
    fun who => ?_, fun j req h => ?_, fun j resp h => ?_, fun h => hl.noClose h (by rw [hm]; nofun),
    fun req h => ?_, fun k hk => ⟨fun p i op hp => ?_, fun q who op hkq hq => ?_⟩⟩
  · have := hn.main
    rw [hm] at this
    rcases r with _ | ⟨_ | e | _ | _⟩
    exacts [.inl rfl, absurd this Bool.false_ne_true, .inr ⟨e, rfl⟩, absurd this Bool.false_ne_true,
      absurd this Bool.false_ne_true]
  · rw [hm] at h
    exact RunPc.noConfusion h.1
  · rw [hw.out, pending_eq_nil fun x hx => by rw [hdone x hx]; rfl, List.append_nil]
  · obtain ⟨data, hd⟩ := hn.log _ h
    exact ⟨data, hd, (printable_encodeResponse hd).newline_not_mem⟩
  · rcases who with _ | j
    · by_cases hcl : ∃ req, .read none req ∈ w.log
      · obtain ⟨req, hreq⟩ := hcl
        rw [(hl.close req hreq).1]
        rfl
      · rw [List.filter_eq_nil_iff.2 fun e he hr' => ?_]
        · exact Nat.zero_le _
        · obtain ⟨req, rfl⟩ := Event.eq_read_of_isReadOf hr'
          exact hcl ⟨req, he⟩
    · rw [ha.reads]
      cases w.handlers[j]? <;> simp
  · obtain ⟨x, hx, he⟩ := hread j h (by simp [Event.isReadOf])
    cases he
    exact ha.written j x hx (hdone x (List.getElem?_mem hx))
  · cases hx : w.handlers[j]? with
    | none =>
      have := ha.unwritten j fun x h => by rw [hx] at h; cases h
      rw [List.filter_eq_nil_iff] at this
      exact absurd (by simp [Event.isWriteOf]) (this _ h)
    | some x =>
      refine ⟨x.req, List.mem_of_mem_filter (p := Event.isReadOf (some j)) ?_⟩
      rw [ha.reads, hx]
      exact List.mem_singleton_self _
  · have h2 := (hl.close req h).2
    rw [hm] at h2
    rcases r with _ | _
    exacts [h2.2, h2.elim]
  · rcases hc.ret p i op hp with ⟨q, r, hpq, hq⟩ | ⟨req, c, key, hx, -⟩
    · refine ⟨q, r, hpq, ?_, hq⟩
      rcases Nat.lt_or_ge q k with hqk | hqk
      · exact hqk
      · rcases Nat.eq_or_lt_of_le hqk with rfl | hqk
        · rw [hk] at hq; cases hq
        · exact absurd (hci.after k q _ hqk hk hq) nofun
    · cases hdone _ (List.getElem?_mem hx)
  · have hwho : who = none := hci.after k q _ hkq hk hq
    subst hwho
    exact ⟨rfl, hl.runCalls op (List.getElem?_mem hq)⟩

theorem timesInRange_mapBackend : TimesInRange mapBackend := fun s a g hg t ht => by
  simp only [mapBackend, Except.ok.injEq] at hg
  subst hg
  split at ht <;> cases ht

/-- `Run` on `getThenClose`, answering the close last. -/
theorem run_output_getThenClose : TimesInRange mapBackend ∧
    ∃ w : World (Bytes → Option (Bytes × Int64)),
      Reachable mapBackend false getThenClose (fun _ => none) w ∧ w.main = .returned none ∧
      .read none (closeFrame (Int64.ofInt 2)).request ∈ w.log ∧
      ∃ resp, resp.id = (closeFrame (Int64.ofInt 2)).request.id ∧
        w.log.filter (Event.isWriteOf none) = [.wrote none initialResponse, .wrote none resp] ∧
        w.log.getLast? = some (.wrote none resp) := by
  have hr : Reachable mapBackend false getThenClose (fun _ => none) _ :=
    .head (.run (.handshake _ _ rfl rfl encodeResponse_initialResponse)) <|
      .head (.run (.spawn _ _ _ rfl (readRequest_encode _ (by decide) _) (by decide))) <|
      .head (.run (.checkNone _ rfl rfl)) <|
      .head (.run (.readClose _ _ _ rfl (readRequest_encode _ (by decide) []) rfl)) <|
      .head (.handler 0 (.lead _ _ _ _ rfl rfl rfl)) <|
      .head (.handler 0 (.exec _ _ 0 _ _ _ rfl rfl rfl rfl)) <|
      .head (.handler 0 (.ret _ _ 0 _ _ _ _ rfl rfl rfl rfl)) <|
      .head (.handler 0 (.finish _ _ 0 _ _ rfl rfl rfl)) <|
      .head (.handler 0 (.marshal _ _ _ _ rfl rfl)) <|
      .head (.handler 0 (.lock _ _ _ _ rfl rfl)) <|
      .head (.handler 0 (.write _ _ _ _ rfl)) <|
      .head (.handler 0 (.writeByte _ _ _ _ rfl)) <|
      .head (.handler 0 (.flush _ _ _ _ rfl)) <|
      .head (.run (.closeCall _ _ rfl (by decide))) <|
      .head (.run (.closeRet _ _ rfl)) <|
      .head (.run (.closeSend _ _ _ rfl rfl rfl)) <|
      .head (.run (.selectDone _ rfl (by decide))) .refl
  refine ⟨timesInRange_mapBackend, _, hr, rfl, ?_,
    (run_output timesInRange_mapBackend hr rfl).2.2.2.2.2.2.2.2.2.1 (closeFrame (Int64.ofInt 2)).request ?_⟩ <;>
    simp

/-- The first second of the year 10000 in UTC, the first that `Time.MarshalJSON` cannot write
there. -/
def year10000 : GoTime := GoTime.ofUnix (fun _ => 0) (Int64.ofInt 253402300800)

/-- A backend whose `Get` hits, with a time in the year 10000. -/
def farFutureBackend : Backend Unit where
  put s _ _ _ _ := (.ok [], s)
  get s _ := (.ok ⟨[2], [1], Int64.ofInt 1, some year10000, false⟩, s)
  close s := (.ok (), s)

/-- Without the bound on the times, a request gets no response: the response to a get whose hit
has a time past the year 9999 cannot be marshalled, and `Run` returns the error after every
goroutine has returned. -/
theorem run_output_drops_far_future_get : ∃ w : World Unit,
    Reachable farFutureBackend false (encodeFrames [getFrame (Int64.ofInt 1) [1]]) () w ∧
      .read (some 0) (getFrame (Int64.ofInt 1) [1]).request ∈ w.log ∧
      w.log.filter (Event.isWriteOf (some 0)) = [] ∧
      w.main = .returned (some (.sendResponse (marshalFailed (marshalerError GoTime.yearRangeError)))) :=
  ⟨_, .head (.run (.handshake _ _ rfl rfl encodeResponse_initialResponse)) <|
    .head (.run (.spawn _ _ _ rfl (readRequest_encode _ (by decide) []) (by decide))) <|
    .head (.run (.checkNone _ rfl rfl)) <|
    .head (.run (.readEof _ rfl (readRequest_eof rfl))) <|
    .head (.handler 0 (.lead _ _ _ _ rfl rfl rfl)) <|
    .head (.handler 0 (.exec _ _ 0 _ _ _ rfl rfl rfl rfl)) <|
    .head (.handler 0 (.ret _ _ 0 _ _ _ _ rfl rfl rfl rfl)) <|
    .head (.handler 0 (.finish _ _ 0 _ _ rfl rfl rfl)) <|
    .head (.handler 0 (.marshalFail _ _ _ _ rfl (encodeResponse_year_error rfl (by decide)))) <|
    .head (.handler 0 (.report _ _ _ rfl)) <|
    .head (.run (.selectErr _ _ rfl rfl)) <|
    .head (.run (.sendFailedReturn _ _ rfl (by decide))) .refl, by simp [World.init], rfl, rfl⟩

end Runs

end GoBuildCache.Broker
