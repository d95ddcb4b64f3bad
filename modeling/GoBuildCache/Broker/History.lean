import GoBuildCache.Broker.Flight

/-!
# The history of the broker

`World.log` is what an observer of the broker sees.  This module proves two facts about it that
hold over every run, whatever the backend and the schedule.

* `CloseInv`: once `Run` has called `backend.Close()`, every goroutine has returned and `Run`
  reads no other request, so every later event is `Run`'s own; `Run`'s only backend call is that
  `Close`, and no goroutine calls `Close`.  `closeInv_of_reachable` carries it along every run.
* `Reads`: the requests `Run` has read are what `ReadRequest` returns when called on the input
  again and again, in order, and the input left is what the last call left
  (`reads_of_reachable`).
-/

namespace GoBuildCache.Broker

open Protocol

variable {σ : Type}

/-! ## After `Close` -/

/-- The goroutine whose event it is; `none` for `Run`. -/
def Event.who : Event → Option Nat
  | .read who _ | .call who _ | .ret who _ _ | .wrote who _ | .failed who _ => who

/-- `Run` reads no other request from here on. -/
def RunPc.quiet : RunPc → Bool
  | .closing _ | .closeSending _ | .selecting | .sendFailed _ | .returned _ => true
  | _ => false

/-- `Run` is past `backend.Close()` and before the close's response is sent. -/
def RunPc.inClose : RunPc → Bool
  | .closing _ | .closeSending _ => true
  | _ => false

/-- The event can happen before `Run` calls `Close`: it is not that call nor a return of `Run`,
and a goroutine's return is not of a `Close`. -/
def Event.beforeClose : Event → Bool
  | .call who op => who.isSome || op != .close
  | .ret who op _ => who.isSome && op != .close
  | _ => true

/-- The event can happen after `Run` has called `Close`: it is `Run`'s, and a return of a
`Close`. -/
def Event.afterClose : Event → Bool
  | .ret who op _ => who.isNone && op == .close
  | e => e.who.isNone

theorem Event.beforeClose_spec {e : Event} (h : e.beforeClose = true) :
    e ≠ .call none .close ∧ (∀ op r, e ≠ .ret none op r) ∧
      ∀ j op r, e = .ret (some j) op r → op ≠ .close := by
  refine ⟨(by rintro rfl; cases h), fun op r => (by rintro rfl; cases h), fun j op r he => ?_⟩
  subst he
  simpa [Event.beforeClose] using h

theorem Event.afterClose_spec {e : Event} (h : e.afterClose = true) :
    e.who = none ∧ (∀ op r, e = .ret none op r → op = .close) ∧ ∀ j op r, e ≠ .ret (some j) op r := by
  refine ⟨?_, fun op r he => ?_, fun j op r he => ?_⟩
  · cases e <;> simp_all [Event.afterClose, Event.who]
  · subst he
    simpa [Event.afterClose] using h
  · subst he
    cases h

/-- What the close keeps: once `Run` has called `Close`, every goroutine has returned and `Run`
reads no other request, and every later event is `Run`'s; `Run`'s returns are of that `Close`,
and no goroutine's return is of a `Close`. -/
structure CloseInv (w : World σ) : Prop where
  quiet : .call none .close ∈ w.log → w.allDone ∧ w.main.quiet = true
  inClose : w.main.inClose = true → .call none .close ∈ w.log
  runRet : ∀ (q : Nat) (op : Op) (r : Except Bytes Payload), w.log[q]? = some (.ret none op r) →
    op = .close ∧ ∃ k < q, w.log[k]? = some (.call none .close)
  after : ∀ (k q : Nat) (e : Event), k < q → w.log[k]? = some (.call none .close) →
    w.log[q]? = some e → e.who = none
  handlerRet : ∀ (q i : Nat) (op : Op) (r : Except Bytes Payload),
    w.log[q]? = some (.ret (some i) op r) → op ≠ .close

namespace CloseInv

variable {w w' : World σ}

/-- A step before the close that appends neither `Run`'s `Close` nor a return of one. -/
theorem open_step (hi : CloseInv w) (hc : .call none .close ∉ w.log) {es : List Event}
    (hl : w'.log = w.log ++ es)
    (hes : es.all Event.beforeClose = true) (hm : w'.main.inClose = false) : CloseInv w' := by
  have hes := fun e he => Event.beforeClose_spec (List.all_eq_true.1 hes e he)
  have hc' : .call none .close ∉ w'.log := by
    rw [hl, List.mem_append]
    exact fun h => h.elim hc fun h => (hes _ h).1 rfl
  refine ⟨fun h => absurd h hc', fun h => absurd (hm.symm.trans h) Bool.false_ne_true, fun q op r h => ?_,
    fun k q e _ hk _ => absurd (List.getElem?_mem hk) hc', fun q i op r h => ?_⟩
  · rw [hl] at h
    rcases getElem?_append_cases h with h | h
    · obtain ⟨-, k, -, hk⟩ := hi.runRet q op r h
      exact absurd (List.getElem?_mem hk) hc
    · exact absurd rfl ((hes _ h).2.1 op r)
  · rw [hl] at h
    rcases getElem?_append_cases h with h | h
    · exact hi.handlerRet q i op r h
    · exact (hes _ h).2.2 i op r rfl

/-- A step of `Run` after its `Close`, which leaves the goroutines and appends only `Run`'s events,
returns only of a `Close`. -/
theorem closed_step (hi : CloseInv w) (hc : .call none .close ∈ w.log) {es : List Event}
    (hl : w'.log = w.log ++ es) (hh : w'.handlers = w.handlers) (hm : w'.main.quiet = true)
    (hes : es.all Event.afterClose = true) : CloseInv w' := by
  have hes := fun e he => Event.afterClose_spec (List.all_eq_true.1 hes e he)
  obtain ⟨k, hk⟩ := List.mem_iff_getElem?.1 hc
  have hkl := (List.getElem?_eq_some_iff.1 hk).1
  have hold : ∀ {k : Nat} {e : Event}, w.log[k]? = some e → w'.log[k]? = some e := fun h => by
    rw [hl, List.getElem?_append_left (List.getElem?_eq_some_iff.1 h).1, h]
  refine ⟨fun _ => ⟨fun x hx => (hi.quiet hc).1 x (hh ▸ hx), hm⟩, fun _ => List.getElem?_mem (hold hk),
    fun q op r h => ?_, fun k' q e hkq hk' he => ?_, fun q i op r h => ?_⟩
  · rw [hl] at h
    rcases getElem?_append_split h with ⟨-, h⟩ | ⟨hq, h⟩
    · obtain ⟨ho, k', hk', h'⟩ := hi.runRet q op r h
      exact ⟨ho, k', hk', hold h'⟩
    · exact ⟨(hes _ h).2.1 op r rfl, k, by omega, hold hk⟩
  · rw [hl] at hk' he
    rcases getElem?_append_split he with ⟨hq, he⟩ | ⟨-, he⟩
    · rw [List.getElem?_append_left (by omega)] at hk'
      exact hi.after k' q e hkq hk' he
    · exact (hes _ he).1
  · rw [hl] at h
    rcases getElem?_append_cases h with h | h
    · exact hi.handlerRet q i op r h
    · exact absurd rfl ((hes _ h).2.2 i op r)

/-- A step of `Run`. -/
theorem run {B : Backend σ} {faults : Bool} (hi : CloseInv w) (h : RunStep B faults w w') :
    CloseInv w' := by
  by_cases hc : .call none .close ∈ w.log
  · have hq := (hi.quiet hc).2
    cases h <;> first
      | exact hi.closed_step hc rfl rfl rfl rfl
      | exact hi.closed_step hc (List.append_nil _).symm rfl rfl rfl
      | (rw [‹w.main = _›] at hq; cases hq)
  · cases h <;> first
      | exact hi.open_step hc rfl rfl rfl
      | exact hi.open_step hc (List.append_nil _).symm rfl rfl
      | exact absurd (hi.inClose (by rw [‹w.main = _›]; rfl)) hc
      | skip
    -- `backend.Close()`, once every goroutine has returned
    rename_i req _ hd
    refine ⟨fun _ => ⟨hd, rfl⟩, fun _ => List.mem_append_right _ (List.mem_singleton_self _),
      fun q op r h => ?_, fun k q e hkq hk he => ?_, fun q i op r h => ?_⟩
    · rcases getElem?_append_cases h with h | h
      · obtain ⟨-, k, -, hk⟩ := hi.runRet q op r h
        exact absurd (List.getElem?_mem hk) hc
      · simp at h
    · rcases getElem?_append_split hk with ⟨-, hk⟩ | ⟨hk, -⟩
      · exact absurd (List.getElem?_mem hk) hc
      · have := (List.getElem?_eq_some_iff.1 he).1
        simp only [List.length_append, List.length_singleton] at this
        omega
    · rcases getElem?_append_cases h with h | h
      · exact hi.handlerRet q i op r h
      · simp at h

end CloseInv

/-- A goroutine's return is of a put or a get. -/
theorem flightOf_op_ne_close {req : Request} {key : Bytes} {op : Op}
    (h : flightOf req = some (key, op)) : op ≠ .close := by
  unfold flightOf at h
  split_ifs at h <;> cases h <;> nofun

section Runs

variable {B : Backend σ} {faults : Bool} {input : Bytes} {s : σ} {w w' : World σ}

/-- A goroutine's step appends only events of its own, and its returns are of a put or a get. -/
theorem HandlerStep.events {i : Nat} (h : HandlerStep B faults i w w') :
    ∃ es, w'.log = w.log ++ es ∧ es.all Event.beforeClose = true := by
  cases h
  case ret hf _ _ => exact ⟨[_], rfl, by simpa [Event.beforeClose] using flightOf_op_ne_close hf⟩
  all_goals first
    | exact ⟨[], (List.append_nil _).symm, rfl⟩
    | exact ⟨[_], rfl, rfl⟩

theorem closeInv_step (hi : CloseInv w) (h : Step B faults w w') : CloseInv w' := by
  rcases h with h | ⟨i, h⟩
  · exact hi.run h
  · have hc : .call none .close ∉ w.log := fun hc => h.not_allDone (hi.quiet hc).1
    obtain ⟨es, hl, hes⟩ := h.events
    refine hi.open_step hc hl hes ?_
    rw [h.main_eq.1]
    cases hm : w.main.inClose
    · rfl
    · exact absurd (hi.inClose hm) hc

theorem closeInv_of_reachable (h : Reachable B faults input s w) : CloseInv w := by
  induction h with
  | refl =>
    exact ⟨fun h => absurd h (List.not_mem_nil _), fun h => (nomatch h),
      fun _ _ _ h => (nomatch h), fun _ _ _ _ h => (nomatch h), fun _ _ _ _ h => (nomatch h)⟩
  | tail _ hs ih => exact closeInv_step ih hs

/-- `Run` closes the backend alone: over every run, with any backend, schedule and write failures,
once `Run` has called `backend.Close()` every goroutine has returned and every later event is
`Run`'s; `Run`'s only backend call is that `Close`, and no goroutine calls `Close`. -/
theorem close_after_goroutines (h : Reachable B faults input s w) {k : Nat}
    (hk : w.log[k]? = some (.call none .close)) :
    w.allDone ∧ (∀ (q : Nat) (e : Event), k < q → w.log[q]? = some e → e.who = none) ∧
      (∀ (q : Nat) (op : Op) (r : Except Bytes Payload), w.log[q]? = some (.ret none op r) →
        op = .close) ∧
      ∀ (q i : Nat) (op : Op) (r : Except Bytes Payload), w.log[q]? = some (.ret (some i) op r) →
        op ≠ .close :=
  have hi := closeInv_of_reachable h
  ⟨(hi.quiet (List.getElem?_mem hk)).1, fun q e hkq he => hi.after k q e hkq hk he,
    fun q op r hq => (hi.runRet q op r hq).1, hi.handlerRet⟩

/-- The frame of a close, with no blank line before it. -/
def closeFrame (id : Int64) : Frame := ⟨[], id, cmdClose, [], [], Int64.zero, [], []⟩

/-- A get of the action id `[1]`, then a close. -/
def getThenClose : Bytes := encodeFrames [getFrame (Int64.ofInt 1) [1], closeFrame (Int64.ofInt 2)]

/-- A get, answered and written by its goroutine, then a close, after which `Run` calls `Close`
seventh. -/
theorem close_after_goroutines_getThenClose : ∃ w : World (Bytes → Option (Bytes × Int64)),
    Reachable mapBackend true getThenClose (fun _ => none) w ∧
      w.log[4]? = some (.wrote (some 0) { Response.zero with id := Int64.ofInt 1, miss := true }) ∧
      w.log[6]? = some (.call none .close) ∧
      w.allDone ∧ (∀ (q : Nat) (e : Event), 6 < q → w.log[q]? = some e → e.who = none) ∧
      (∀ (q : Nat) (op : Op) (r : Except Bytes Payload), w.log[q]? = some (.ret none op r) →
        op = .close) ∧
      ∀ (q i : Nat) (op : Op) (r : Except Bytes Payload), w.log[q]? = some (.ret (some i) op r) →
        op ≠ .close := by
  have hr : Reachable mapBackend true getThenClose (fun _ => none) _ :=
    .head (.run (.handshake _ _ rfl rfl encodeResponse_initialResponse)) <|
    .head (.run (.spawn _ _ _ rfl (readRequest_encode _ (by decide) _) (by decide))) <|
    .head (.run (.checkNone _ rfl rfl)) <|
    .head (.handler 0 (.lead _ _ _ _ rfl rfl rfl)) <|
    .head (.handler 0 (.exec _ _ 0 _ _ _ rfl rfl rfl rfl)) <|
    .head (.handler 0 (.ret _ _ 0 _ _ _ _ rfl rfl rfl rfl)) <|
    .head (.handler 0 (.finish _ _ 0 _ _ rfl rfl rfl)) <|
    .head (.handler 0 (.marshal _ _ _ _ rfl rfl)) <|
    .head (.handler 0 (.lock _ _ _ _ rfl rfl)) <|
    .head (.handler 0 (.write _ _ _ _ rfl)) <|
    .head (.handler 0 (.writeByte _ _ _ _ rfl)) <|
    .head (.handler 0 (.flush _ _ _ _ rfl)) <|
    .head (.run (.readClose _ _ _ rfl (readRequest_encode _ (by decide) []) rfl)) <|
    .head (.run (.closeCall _ _ rfl fun x hx => by
      simp only [List.set, List.mem_singleton] at hx
      rw [hx])) .refl
  exact ⟨_, hr, rfl, rfl, close_after_goroutines hr (k := 6) rfl⟩

end Runs

/-! ## The requests read -/

/-- `ReadRequest`, called on `input` again and again, returns the requests `reqs` and leaves
`rest`. -/
inductive Reads : Bytes → List Request → Bytes → Prop
  | nil (input : Bytes) : Reads input [] input
  | cons {input mid rest : Bytes} {req : Request} {reqs : List Request}
      (h : readRequest input = .ok (req, mid)) (hs : Reads mid reqs rest) : Reads input (req :: reqs) rest

theorem Reads.concat {input mid rest : Bytes} {reqs : List Request} {req : Request}
    (h : Reads input reqs mid) (hr : readRequest mid = .ok (req, rest)) :
    Reads input (reqs ++ [req]) rest := by
  induction h with
  | nil => exact .cons hr (.nil _)
  | cons h _ ih => exact .cons h (ih hr)

/-- The request of a read. -/
def Event.request? : Event → Option Request
  | .read _ req => some req
  | _ => none

section Reads

variable {B : Backend σ} {faults : Bool} {input : Bytes} {s : σ} {w w' : World σ}

/-- A step reads one request from the input and logs it, or leaves the input and logs no read. -/
theorem Step.reads (h : Step B faults w w') :
    (w'.input = w.input ∧ ∃ es, w'.log = w.log ++ es ∧ es.filterMap Event.request? = []) ∨
      ∃ req who, readRequest w.input = .ok (req, w'.input) ∧ w'.log = w.log ++ [.read who req] := by
  rcases h with h | ⟨i, h⟩ <;> cases h <;> first
    | exact .inl ⟨rfl, [], (List.append_nil _).symm, rfl⟩
    | exact .inl ⟨rfl, [_], rfl, rfl⟩
    | exact .inr ⟨_, _, ‹_›, rfl⟩

theorem reads_of_reachable (h : Reachable B faults input s w) :
    Reads input (w.log.filterMap Event.request?) w.input := by
  induction h with
  | refl => exact .nil _
  | tail _ hs ih =>
    rcases hs.reads with ⟨hi, es, hl, he⟩ | ⟨req, who, hr, hl⟩
    · rw [hi, hl, List.filterMap_append, he, List.append_nil]
      exact ih
    · rw [hl, List.filterMap_append]
      exact ih.concat hr

/-- Requests read from frames are the frames' requests, and what is left is the other frames. -/
theorem Reads.of_encodeFrames {reqs : List Request} {rest : Bytes} :
    ∀ {fs : List Frame}, (∀ f ∈ fs, Utf8.valid f.command = true) →
      Reads (encodeFrames fs) reqs rest →
        ∃ k, reqs = (fs.take k).map Frame.request ∧ rest = encodeFrames (fs.drop k)
  | _, _, .nil _ => ⟨0, rfl, rfl⟩
  | [], _, .cons h _ => by cases h
  | f :: fs, hv, .cons h hs => by
    have he : encodeFrames (f :: fs) = f.encode ++ encodeFrames fs := List.flatMap_cons _ _ _
    rw [he, readRequest_encode f (hv f (.head _))] at h
    cases h
    obtain ⟨k, rfl, rfl⟩ := Reads.of_encodeFrames (fun g hg => hv g (.tail _ hg)) hs
    exact ⟨k + 1, rfl, rfl⟩

/-- `Run` reads what the go command sent, in order, and nothing else: on frames with valid
commands, over every run, with any backend, schedule and write failures, the requests read are the
requests of the first frames, and the input left is the other frames. -/
theorem reads_frames {fs : List Frame} (hv : ∀ f ∈ fs, Utf8.valid f.command = true)
    (h : Reachable B faults (encodeFrames fs) s w) :
    ∃ k, w.log.filterMap Event.request? = (fs.take k).map Frame.request ∧
      w.input = encodeFrames (fs.drop k) :=
  Reads.of_encodeFrames hv (reads_of_reachable h)

/-- The frames of `twoGets`. -/
def twoGetFrames : List Frame := [getFrame (Int64.ofInt 1) [1], getFrame (Int64.ofInt 2) [1]]

/-- Two gets, both read. -/
theorem reads_frames_twoGets : ∃ w : World (Bytes → Option (Bytes × Int64)),
    Reachable mapBackend false (encodeFrames twoGetFrames) (fun _ => none) w ∧
      (∀ f ∈ twoGetFrames, Utf8.valid f.command = true) ∧
      ∃ k, w.log.filterMap Event.request? = (twoGetFrames.take k).map Frame.request ∧
        w.input = encodeFrames (twoGetFrames.drop k) := by
  have hv : ∀ f ∈ twoGetFrames, Utf8.valid f.command = true := by decide
  have hr : Reachable mapBackend false (encodeFrames twoGetFrames) (fun _ => none) _ :=
    .head (.run (.handshake _ _ rfl rfl encodeResponse_initialResponse)) <|
    .head (.run (.spawn _ _ _ rfl (readRequest_encode _ (by decide) _) (by decide))) <|
    .head (.run (.checkNone _ rfl rfl)) <|
    .head (.run (.spawn _ _ _ rfl (readRequest_encode _ (by decide) []) (by decide))) .refl
  exact ⟨_, hr, hv, reads_frames hv hr⟩

end Reads

end GoBuildCache.Broker
