import GoBuildCache.Broker.Output

/-!
# Each request answered at most once, when writes fail

`run_output` counts the responses of a run in which no send fails.  When a `Write`, a `WriteByte`
or a `Flush` may fail, a goroutine may report the error instead of writing its response; this
module proves what still holds.  No response is duplicated, none is written for a request that
was not read, and none carries another request's id.

* `HandlerStep.once_cases`: what one step of a goroutine does to its response and to the history.
  Only the step past `Flush()` writes, once, and the goroutine returns with it.
* `OnceInv`: every goroutine's request was read for it; a response it holds carries its request's
  id; a goroutine that has not returned has written nothing, and one that has returned has written
  at most once.  `onceInv_of_reachable` carries it along every run.
* `responses_at_most_once`: the property over every run.
-/

namespace GoBuildCache.Broker

open Protocol

variable {σ : Type}

/-- A log without a response of `j` holds none. -/
theorem not_mem_of_filter_isWriteOf {log : List Event} {j : Nat} {resp : Response}
    (h : log.filter (Event.isWriteOf (some j)) = []) : .wrote (some j) resp ∉ log := fun hm =>
  absurd (List.mem_filter.2 ⟨hm, by simp [Event.isWriteOf]⟩) (h ▸ List.not_mem_nil _)

section Steps

variable {B : Backend σ} {faults : Bool} {w w' : World σ}

/-- A step of goroutine `i`, whatever fails: it appends events of its own and reads nothing; the
response it then holds is new, with its request's id, or the one it held; and it appends no
response but at `Flush()`, which writes the response it held and returns. -/
theorem HandlerStep.once_cases {i : Nat} (h : HandlerStep B faults i w w') :
    ∃ req pc pc' es, w.handlers[i]? = some ⟨req, pc⟩ ∧ pc ≠ .finished ∧
      w'.handlers = w.handlers.set i ⟨req, pc'⟩ ∧ w'.log = w.log ++ es ∧
      (∀ e ∈ es, e.who = some i) ∧
      (∀ resp, pc'.response? = some resp → resp.id = req.id ∨ pc.response? = some resp) ∧
      (es.filter (Event.isWriteOf (some i)) = [] ∨
        pc' = .finished ∧ ∃ resp, pc.response? = some resp ∧ es = [.wrote (some i) resp]) := by
  have one : ∀ e : Event, e.who = some i → ∀ e' ∈ [e], e'.who = some i := fun e he e' h' => by
    rw [List.mem_singleton.1 h']; exact he
  have nil : ∀ e ∈ ([] : List Event), e.who = some i := fun _ h => (nomatch h)
  have nr : ∀ {P : Prop} {resp : Response}, (none : Option Response) = some resp → P :=
    fun h => (nomatch h)
  cases h with
  | lead _ _ _ hh _ _ | ret _ _ _ _ _ _ hh _ _ _ | marshalFail _ _ _ hh _ | writeFail _ _ _ _ hh _ _ =>
    exact ⟨_, _, _, _, hh, nofun, rfl, rfl, one _ rfl, fun _ => nr, .inl rfl⟩
  | exec _ _ _ _ _ hh _ _ _ =>
    exact ⟨_, _, _, [], hh, nofun, (set_eq_of_getElem? hh).symm, (List.append_nil _).symm, nil,
      fun _ => nr, .inl rfl⟩
  | join _ _ _ _ hh _ _ | report _ _ hh =>
    exact ⟨_, _, _, [], hh, nofun, rfl, (List.append_nil _).symm, nil, fun _ => nr, .inl rfl⟩
  | unknown _ hh _ =>
    exact ⟨_, _, _, [], hh, nofun, rfl, (List.append_nil _).symm, nil,
      fun _ h => .inl (by cases h; rfl), .inl rfl⟩
  | finish req _ _ r hh _ _ | wake req _ _ r hh _ _ _ =>
    exact ⟨_, _, _, [], hh, nofun, rfl, (List.append_nil _).symm, nil,
      fun _ h => .inl (by cases h; exact respond_id _ r), .inl rfl⟩
  | marshal _ _ _ hh _ | lock _ _ _ hh _ | write _ _ _ hh | writeByte _ _ _ hh =>
    exact ⟨_, _, _, [], hh, nofun, rfl, (List.append_nil _).symm, nil, fun _ h => .inr h, .inl rfl⟩
  | flush _ _ _ hh =>
    exact ⟨_, _, _, _, hh, nofun, rfl, rfl, one _ rfl, fun _ => nr, .inr ⟨rfl, _, rfl, rfl⟩⟩

end Steps

/-- What the goroutines' responses keep, whatever fails: each goroutine's request was read for it,
a response it holds carries the request's id, and it has written nothing before it returns and at
most one response, with that id, after. -/
structure OnceInv (hs : List Handler) (log : List Event) : Prop where
  read : ∀ (j : Nat) (x : Handler), hs[j]? = some x → .read (some j) x.req ∈ log
  held : ∀ (j : Nat) (x : Handler) (resp : Response), hs[j]? = some x →
    x.pc.response? = some resp → resp.id = x.req.id
  unwritten : ∀ j : Nat, (∀ x : Handler, hs[j]? = some x → x.pc ≠ .finished) →
    log.filter (Event.isWriteOf (some j)) = []
  once : ∀ j : Nat, (log.filter (Event.isWriteOf (some j))).length ≤ 1
  written : ∀ (j : Nat) (resp : Response), .wrote (some j) resp ∈ log →
    ∃ x : Handler, hs[j]? = some x ∧ x.pc = .finished ∧ resp.id = x.req.id

namespace OnceInv

variable {B : Backend σ} {faults : Bool} {w w' : World σ}

theorem run (hi : OnceInv w.handlers w.log) (h : RunStep B faults w w') :
    OnceInv w'.handlers w'.log := by
  rcases h.shape with ⟨hw, es, hl, hes⟩ | ⟨req, hw, hl⟩
  · have hwr : ∀ j, es.filter (Event.isWriteOf (some j)) = [] := fun j =>
      filter_isWriteOf_eq_nil fun e he => by rw [hes e he]; nofun
    rw [hw, hl]
    refine ⟨fun j x hx => List.mem_append_left _ (hi.read j x hx), hi.held, fun j hj => ?_,
      fun j => ?_, fun j resp hm => hi.written j resp ?_⟩
    · rw [List.filter_append, hwr, hi.unwritten j hj]; rfl
    · rw [List.filter_append, hwr, List.append_nil]; exact hi.once j
    · exact (List.mem_append.1 hm).resolve_right fun he => by simpa [Event.who] using hes _ he
  · have hold : ∀ {j : Nat} {x : Handler}, w.handlers[j]? = some x →
        (w.handlers ++ [⟨req, .start⟩])[j]? = some x := getElem?_append_of_some _
    have hrd : ∀ j,
        [Event.read (some w.handlers.length) req].filter (Event.isWriteOf (some j)) = [] :=
      fun _ => rfl
    rw [hw, hl]
    refine ⟨fun j x hx => ?_, fun j x resp hx hr => ?_, fun j hj => ?_, fun j => ?_,
      fun j resp hm => ?_⟩
    · rcases getElem?_concat_cases hx with hx | ⟨rfl, rfl⟩
      · exact List.mem_append_left _ (hi.read j x hx)
      · exact List.mem_append_right _ (List.mem_singleton_self _)
    · rcases getElem?_concat_cases hx with hx | ⟨-, rfl⟩
      · exact hi.held j x resp hx hr
      · cases hr
    · rw [List.filter_append, hrd, hi.unwritten j fun x hx => hj x (hold hx)]; rfl
    · rw [List.filter_append, hrd, List.append_nil]; exact hi.once j
    · obtain ⟨x, hx, hf, hid⟩ := hi.written j resp
        ((List.mem_append.1 hm).resolve_right fun he => by simp at he)
      exact ⟨x, hold hx, hf, hid⟩

theorem handler (hi : OnceInv w.handlers w.log) {i : Nat} (h : HandlerStep B faults i w w') :
    OnceInv w'.handlers w'.log := by
  obtain ⟨req, pc, pc', es, hh, hpc, hs, hl, hes, hheld, hw⟩ := h.once_cases
  have hother : ∀ j, j ≠ i → es.filter (Event.isWriteOf (some j)) = [] := fun j hj =>
    filter_isWriteOf_eq_nil fun e he hj' => hj (Option.some.inj ((hes e he).symm.trans hj')).symm
  have hi0 : w.log.filter (Event.isWriteOf (some i)) = [] :=
    hi.unwritten i fun x hx => by rw [hh, Option.some.injEq] at hx; exact hx ▸ hpc
  have hnot : ∀ j resp, .wrote (some j) resp ∈ es → j = i := fun j resp he =>
    Option.some.inj (hes _ he)
  rw [hs, hl]
  refine ⟨fun j x hx => ?_, fun j x resp hx hr => ?_, fun j hj => ?_, fun j => ?_,
    fun j resp hm => ?_⟩
  · rcases getElem?_set_cases hh hx with ⟨rfl, rfl⟩ | ⟨-, hx⟩
    · exact List.mem_append_left _ (hi.read j ⟨req, pc⟩ hh)
    · exact List.mem_append_left _ (hi.read j x hx)
  · rcases getElem?_set_cases hh hx with ⟨rfl, rfl⟩ | ⟨-, hx⟩
    · exact (hheld resp hr).elim id (hi.held j ⟨req, pc⟩ resp hh)
    · exact hi.held j x resp hx hr
  · rw [List.filter_append]
    by_cases hji : j = i
    · subst hji
      have hes0 : es.filter (Event.isWriteOf (some j)) = [] := hw.resolve_right fun hf =>
        hj _ ((getElem?_set_of hh _ j).trans (if_pos rfl)) hf.1
      rw [hi0, hes0]; rfl
    · rw [hother j hji, hi.unwritten j fun x hx => hj x (((getElem?_set_of hh _ j).trans
        (if_neg (Ne.symm hji))).trans hx)]
      rfl
  · rw [List.filter_append]
    by_cases hji : j = i
    · subst hji
      rcases hw with hw | ⟨-, resp, -, rfl⟩
      · rw [hi0, hw]; exact Nat.zero_le _
      · rw [hi0]; simp [Event.isWriteOf]
    · rw [hother j hji, List.append_nil]; exact hi.once j
  · rcases List.mem_append.1 hm with hm | hm
    · by_cases hji : j = i
      · subst hji; exact absurd hm (not_mem_of_filter_isWriteOf hi0)
      · obtain ⟨x, hx, hf, hid⟩ := hi.written j resp hm
        exact ⟨x, ((getElem?_set_of hh _ j).trans (if_neg (Ne.symm hji))).trans hx, hf, hid⟩
    · obtain rfl := hnot j resp hm
      rcases hw with hw | ⟨hf, resp', hr, rfl⟩
      · exact absurd hm (not_mem_of_filter_isWriteOf hw)
      · obtain rfl : resp = resp' := by simpa using hm
        exact ⟨_, (getElem?_set_of hh _ j).trans (if_pos rfl), hf,
          hi.held j ⟨req, pc⟩ resp hh hr⟩

end OnceInv

section Runs

variable {B : Backend σ} {faults : Bool} {input : Bytes} {s : σ} {w : World σ}

theorem onceInv_of_reachable (h : Reachable B faults input s w) : OnceInv w.handlers w.log := by
  induction h with
  | refl =>
    exact ⟨fun _ _ h => by simp [World.init] at h, fun _ _ _ h => by simp [World.init] at h,
      fun _ _ => rfl, fun _ => Nat.zero_le _, fun _ _ h => by simp [World.init] at h⟩
  | tail _ hs ih =>
    rcases hs with hs | ⟨i, hs⟩
    · exact ih.run hs
    · exact ih.handler hs

/-- No response is duplicated or sent for another request, even when writes fail: over every
run, with any backend and schedule, each goroutine writes at most one response, only once it has
returned, with the id of the request it was handed, and that request was read for it. -/
theorem responses_at_most_once (h : Reachable B faults input s w) (j : Nat) :
    (w.log.filter (Event.isWriteOf (some j))).length ≤ 1 ∧
      ∀ resp, .wrote (some j) resp ∈ w.log → ∃ x : Handler, w.handlers[j]? = some x ∧
        x.pc = .finished ∧ resp.id = x.req.id ∧ .read (some j) x.req ∈ w.log := by
  have hi := onceInv_of_reachable h
  refine ⟨hi.once j, fun resp hm => ?_⟩
  obtain ⟨x, hx, hf, hid⟩ := hi.written j resp hm
  exact ⟨x, hx, hf, hid, hi.read j x hx⟩

end Runs

/-- A get whose write fails: the goroutine reports the error and writes no response. -/
theorem responses_at_most_once_failedWrite : ∃ w : World (Bytes → Option (Bytes × Int64)),
    Reachable mapBackend true (encodeFrames [getFrame (Int64.ofInt 1) [1]]) (fun _ => none) w ∧
      w.log[4]? = some (.failed (some 0) (ascii "broken pipe")) ∧
      (w.log.filter (Event.isWriteOf (some 0))).length ≤ 1 := by
  have hr : Reachable mapBackend true (encodeFrames [getFrame (Int64.ofInt 1) [1]]) (fun _ => none)
      _ :=
    .head (.run (.handshake _ _ rfl rfl encodeResponse_initialResponse)) <|
    .head (.run (.spawn _ _ _ rfl (readRequest_encode _ (by decide) []) (by decide))) <|
    .head (.run (.checkNone _ rfl rfl)) <|
    .head (.handler 0 (.lead _ _ _ _ rfl rfl rfl)) <|
    .head (.handler 0 (.exec _ _ 0 _ _ _ rfl rfl rfl rfl)) <|
    .head (.handler 0 (.ret _ _ 0 _ _ _ _ rfl rfl rfl rfl)) <|
    .head (.handler 0 (.finish _ _ 0 _ _ rfl rfl rfl)) <|
    .head (.handler 0 (.marshal _ _ _ _ rfl rfl)) <|
    .head (.handler 0 (.lock _ _ _ _ rfl rfl)) <|
    .head (.handler 0 (.writeFail _ _ _ _ (ascii "broken pipe") rfl rfl rfl)) <|
    .head (.handler 0 (.report _ _ _ rfl)) .refl
  exact ⟨_, hr, rfl, (responses_at_most_once hr 0).1⟩

end GoBuildCache.Broker
