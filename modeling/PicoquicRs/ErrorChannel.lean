import PicoquicRs.Channel
import PicoquicRs.Lib.Trace

/-!
# What the senders of a channel learn from its receiver

A channel pair of `channel_with_error.rs` with all the clones of its sender, driven by
whoever holds them: `ErrorChannel.Pair.step` is one call at any of the ends. Between two
calls the items of different senders may overtake one another, as only the items of one
sender are promised to stay in order. An unbounded channel is one that always has room.

* `ErrorChannel.Pair.Law` – what a send and the receiver may rely on;
* `ErrorChannel.Pair.error_channel_law_iff` – **the law holds exactly while the error that
  was propagated last is the one that was propagated first**. The receiver documents that
  only the first one counts, and the cell keeps the last.
-/

namespace PicoquicRs

/-- The item that comes back with the error. -/
def SendError.item {α : Type} : SendError α → α
  | .channel _ item => item
  | .normal item => item

namespace ErrorChannel

open Futures

/-! ### The pair, and the calls at its ends -/

/-- What happens to a channel pair. The number of a sender says which clone it is. -/
inductive Event (α : Type) where
  /-- A sender is given an item; `room` says whether the channel takes it now. -/
  | startSend (sender : ℕ) (item : α) (room : Bool)
  /-- A sender is cloned. -/
  | clone (sender : ℕ)
  /-- A sender is dropped. -/
  | dropSender (sender : ℕ)
  /-- The item at a place is overtaken by the next one, which another sender has sent. -/
  | overtake (place : ℕ)
  /-- The receiver is polled. -/
  | poll
  /-- The receiver propagates an error. -/
  | propagateError (err : Error)
  /-- The receiver is closed. -/
  | close
  /-- The receiver is dropped. -/
  | dropReceiver
  deriving DecidableEq, Repr

/-- **A channel pair** with the clones of its sender. -/
structure Pair (α : Type) where
  /-- The channel and its error cell; each item comes with the number of its sender. -/
  chan : ErrorChan (ℕ × α)
  /-- The senders that are alive. -/
  clones : List ℕ
  /-- The number of the next clone. -/
  next : ℕ
  /-- The receiver is alive. -/
  receiver : Bool
  deriving DecidableEq, Repr

namespace Pair

variable {α : Type}

/-- `channel` and `unbounded` -/
def new : Pair α where
  chan := ErrorChan.new
  clones := [0]
  next := 1
  receiver := true

/-- The queue with the item at a place and the next one exchanged. -/
def overtaken (queue : List (ℕ × α)) (place : ℕ) : Option (List (ℕ × α)) :=
  match queue.drop place with
  | a :: b :: rest => if a.1 = b.1 then none else some (queue.take place ++ b :: a :: rest)
  | _ => none

/-- One call at one of the ends; `none` when that end is gone. -/
def step (p : Pair α) : Event α → Option (Pair α)
  | .startSend sender item room =>
    if sender ∈ p.clones then some { p with chan := (p.chan.startSend (sender, item) room).2 }
    else none
  | .clone sender =>
    if sender ∈ p.clones then
      some { p with chan := p.chan.cloneSender, clones := p.clones ++ [p.next], next := p.next + 1 }
    else none
  | .dropSender sender =>
    if sender ∈ p.clones then
      some { p with chan := p.chan.dropSender, clones := p.clones.erase sender }
    else none
  | .overtake place =>
    (overtaken p.chan.chan.queue place).map fun queue =>
      { p with chan.chan.queue := queue }
  | .poll => if p.receiver then some { p with chan := p.chan.poll.2 } else none
  | .propagateError err =>
    if p.receiver then some { p with chan := p.chan.propagateError err } else none
  | .close => if p.receiver then some { p with chan := p.chan.close } else none
  | .dropReceiver =>
    if p.receiver then some { p with chan := p.chan.dropReceiver, receiver := false } else none

/-- A run of the pair. -/
abbrev run : Pair α → List (Event α) → Option (Pair α) := Trace.run step

/-! ### What a run did -/

/-- The receiver is closed or dropped. -/
def ends : Event α → Bool
  | .close => true
  | .dropReceiver => true
  | _ => false

/-- The receiver has been closed or dropped. -/
def gone (es : List (Event α)) : Bool := es.any ends

/-- The error an event propagates. -/
def propagates : Event α → Option Error
  | .propagateError err => some err
  | _ => none

/-- The errors that were propagated, in order. -/
def propagated (es : List (Event α)) : List Error := es.filterMap propagates

/-- How often the receiver was polled. -/
def polls (es : List (Event α)) : ℕ :=
  es.countP fun | .poll => true | _ => false

/-- The item whose send succeeds. -/
def takes (p : Pair α) : Event α → List (ℕ × α)
  | .startSend sender item room =>
    match (p.chan.startSend (sender, item) room).1 with
    | .ok .ready => [(sender, item)]
    | _ => []
  | _ => []

/-- The item the receiver gets. -/
def gets (p : Pair α) : Event α → List (ℕ × α)
  | .poll =>
    match p.chan.poll.1 with
    | .ready (some item) => [item]
    | _ => []
  | _ => []

/-- The items whose sends have succeeded, in order. -/
abbrev accepted (es : List (Event α)) : List (ℕ × α) := Trace.log step takes new es

/-- The items the receiver has got, in order. -/
abbrev received (es : List (Event α)) : List (ℕ × α) := Trace.log step gets new es

/-- Those of one sender. -/
def sentBy (sender : ℕ) (items : List (ℕ × α)) : List (ℕ × α) :=
  items.filter (·.1 = sender)

/-- **The law of the pair**, for the pair `p` that the calls `es` have led to, and an item
that one of the senders is given now. -/
structure Law (es : List (Event α)) (p : Pair α) (sender : ℕ) (item : α) (room : Bool) :
    Prop where
  /-- The send fails with an error of the channel exactly when the receiver is gone and has
  left one. -/
  fails_iff : (∃ err x, (p.chan.startSend (sender, item) room).1 = .error (.channel err x)) ↔
    gone es = true ∧ propagated es ≠ []
  /-- The error is the one that was propagated first. -/
  reports_first : ∀ err x, (p.chan.startSend (sender, item) room).1 = .error (.channel err x) →
    (propagated es).head? = some err
  /-- A send that fails gives the item back, and changes nothing. -/
  gives_back : ∀ err, (p.chan.startSend (sender, item) room).1 = .error err →
    err.item = (sender, item) ∧ p.step (.startSend sender item room) = some p
  /-- What the receiver has got of each sender is what was sent first. -/
  in_order : ∀ i, sentBy i (received es) <+: sentBy i (accepted es)
  /-- Once the receiver is closed, whatever was sent before is got, if only the receiver is
  kept and polled often enough. -/
  still_received : gone es = true → ∀ es' p', p.run es' = some p' →
    .dropReceiver ∉ es ++ es' → p.chan.chan.queue.length ≤ polls es' →
      ∀ i, sentBy i (received (es ++ es')) = sentBy i (accepted es)

/-! ### What one call does -/

variable {p p' : Pair α} {e : Event α} {es es' : List (Event α)} {sender i : ℕ} {item : α}
  {room : Bool}

@[simp] theorem sentBy_nil : sentBy i ([] : List (ℕ × α)) = [] := rfl

theorem sentBy_append (items items' : List (ℕ × α)) :
    sentBy i (items ++ items') = sentBy i items ++ sentBy i items' :=
  List.filter_append _ _

/-- Overtaking leaves the items of each sender in order. -/
theorem overtaken_spec {queue queue' : List (ℕ × α)} {place : ℕ}
    (h : overtaken queue place = some queue') :
    queue'.length = queue.length ∧ ∀ i, sentBy i queue' = sentBy i queue := by
  unfold overtaken at h
  split at h
  case h_2 => exact absurd h (by simp)
  case h_1 a b rest hdrop =>
    obtain ⟨hne, hqueue⟩ := Option.ite_none_left_eq_some.mp h
    obtain rfl := Option.some.inj hqueue
    have hsplit : queue = queue.take place ++ a :: b :: rest := by
      rw [← hdrop, List.take_append_drop]
    constructor
    · conv_rhs => rw [hsplit]
      simp
    · intro i
      conv_rhs => rw [hsplit]
      rw [sentBy_append, sentBy_append]
      congr 1
      -- at most one of the two is of the sender `i`
      by_cases ha : a.1 = i
      · have hb : b.1 ≠ i := fun hb => hne (ha.trans hb.symm)
        simp [sentBy, ha, hb]
      · simp [sentBy, List.filter_cons, ha]

/-- **What a call does**, whichever it is. -/
structure Effect (p : Pair α) (e : Event α) (p' : Pair α) : Prop where
  /-- The cell keeps the error propagated last. -/
  errorState : p'.chan.errorState = (propagates e).or p.chan.errorState
  /-- Nothing opens the channel again. -/
  isOpen : p'.chan.chan.isOpen = (p.chan.chan.isOpen && !ends e)
  /-- What is sent is queued behind, and what is got comes from the front. -/
  queue : e ≠ .dropReceiver → ∀ i, sentBy i (gets p e) ++ sentBy i p'.chan.chan.queue =
    sentBy i p.chan.chan.queue ++ sentBy i (takes p e)
  /-- Nothing is sent through a closed channel. -/
  closed : p.chan.chan.isOpen = false → takes p e = []
  /-- There, each poll gets an item as long as one is left. -/
  drains : p.chan.chan.isOpen = false → e ≠ .dropReceiver →
    p'.chan.chan.queue.length = p.chan.chan.queue.length - polls [e]
  /-- What is queued is lost with the receiver. -/
  dropped : e = .dropReceiver → p'.chan.chan.queue = []

theorem startSend_effect {c' : ErrorChan (ℕ × α)}
    (h : (p.chan.startSend (sender, item) room).2 = c') :
    Effect p (.startSend sender item room) { p with chan := c' } := by
  subst h
  cases ho : p.chan.chan.isOpen with
  | false =>
    have hs := ErrorChan.startSend_of_closed (sender, item) room ho
    constructor <;> simp [propagates, ends, gets, takes, polls, hs, ho]
  | true =>
    cases room <;> constructor <;>
      simp [propagates, ends, gets, takes, ErrorChan.startSend, Chan.startSend, ho, sentBy_append]

theorem poll_effect : Effect p .poll { p with chan := p.chan.poll.2 } := by
  have hpoll : p.chan.poll = (p.chan.chan.poll.1, { p.chan with chan := p.chan.chan.poll.2 }) := rfl
  constructor
  case queue =>
    intro _ i
    cases hq : p.chan.chan.queue with
    | nil =>
      have hg : gets p .poll = [] := by
        cases he : p.chan.chan.isEnded with
        | true => simp [gets, hpoll, Chan.poll_of_ended hq he]
        | false => simp [gets, hpoll, Chan.poll_of_waiting hq he]
      simp [hg, takes, hpoll, hq]
    | cons a q =>
      have hg : gets p .poll = [a] := by simp [gets, hpoll, Chan.poll_of_cons hq]
      simp [hg, takes, hpoll, hq, ← sentBy_append]
  all_goals simp [propagates, ends, takes, polls, hpoll]

/-- What leaves the queue alone. -/
theorem Effect.of_queue (hg : gets p e = []) (ht : takes p e = []) (hp : polls [e] = 0)
    (hd : e ≠ .dropReceiver) (hq : p'.chan.chan.queue.length = p.chan.chan.queue.length)
    (hs : ∀ i, sentBy i p'.chan.chan.queue = sentBy i p.chan.chan.queue)
    (he : p'.chan.errorState = (propagates e).or p.chan.errorState)
    (ho : p'.chan.chan.isOpen = (p.chan.chan.isOpen && !ends e)) : Effect p e p' where
  errorState := he
  isOpen := ho
  queue _ i := by rw [hg, ht, hs i, sentBy_nil, List.append_nil, List.nil_append]
  closed _ := ht
  drains _ _ := by rw [hq, hp, Nat.sub_zero]
  dropped h := absurd h hd

theorem step_effect (h : p.step e = some p') : Effect p e p' := by
  cases e with
  | startSend sender item room =>
    obtain ⟨-, h⟩ := Option.ite_none_right_eq_some.mp h
    obtain rfl := Option.some.inj h
    exact startSend_effect rfl
  | poll =>
    obtain ⟨-, h⟩ := Option.ite_none_right_eq_some.mp h
    obtain rfl := Option.some.inj h
    exact poll_effect
  | overtake place =>
    obtain ⟨queue, hqueue, h⟩ := Option.map_eq_some_iff.mp h
    obtain ⟨hlen, hsent⟩ := overtaken_spec hqueue
    obtain rfl := h
    exact .of_queue rfl rfl rfl (by simp) hlen hsent rfl (by simp [ends])
  | dropReceiver =>
    obtain ⟨-, h⟩ := Option.ite_none_right_eq_some.mp h
    obtain rfl := Option.some.inj h
    constructor <;> simp [propagates, ends, takes, ErrorChan.dropReceiver, Chan.dropReceiver]
  | _ =>
    obtain ⟨-, h⟩ := Option.ite_none_right_eq_some.mp h
    obtain rfl := Option.some.inj h
    exact .of_queue rfl rfl rfl (by simp) rfl (fun _ => rfl) rfl
      (by simp [ends, ErrorChan.cloneSender, Chan.cloneSender, ErrorChan.dropSender, Chan.dropSender,
        ErrorChan.propagateError, ErrorChan.close, Chan.close])

/-! ### What a run leads to -/

/-- **The invariant**: the pair that some calls have led to, said by the calls. -/
structure Tracks (es : List (Event α)) (p : Pair α) : Prop where
  /-- The cell keeps the error propagated last. -/
  errorState : p.chan.errorState = (propagated es).getLast?
  /-- The channel is open until the receiver is gone. -/
  isOpen : p.chan.chan.isOpen = !gone es
  /-- What is queued follows what was got, of each sender. -/
  in_order : ∀ i, sentBy i (received es) ++ sentBy i p.chan.chan.queue <+: sentBy i (accepted es)
  /-- Nothing else was sent, if the receiver is there. -/
  kept : .dropReceiver ∉ es →
    ∀ i, sentBy i (received es) ++ sentBy i p.chan.chan.queue = sentBy i (accepted es)

/-- One more call logs what it puts out. -/
theorem log_snoc {out : Pair α → Event α → List (ℕ × α)} (hrun : run new es = some p) :
    Trace.log step out new (es ++ [e]) = Trace.log step out new es ++ out p e := by
  rw [Trace.log_append hrun, Trace.log_singleton]

theorem Tracks.step (hrun : run new es = some p) (h : Tracks es p) (hstep : p.step e = some p') :
    Tracks (es ++ [e]) p' := by
  have heff := step_effect hstep
  have hacc : accepted (es ++ [e]) = accepted es ++ takes p e := log_snoc hrun
  have hrec : received (es ++ [e]) = received es ++ gets p e := log_snoc hrun
  have hkept : .dropReceiver ∉ es ++ [e] → ∀ i, sentBy i (received (es ++ [e])) ++
      sentBy i p'.chan.chan.queue = sentBy i (accepted (es ++ [e])) := by
    intro hd i
    obtain ⟨hes, he⟩ : .dropReceiver ∉ es ∧ e ≠ .dropReceiver := by
      simpa [eq_comm] using hd
    rw [hacc, hrec, sentBy_append, sentBy_append, List.append_assoc, heff.queue he i,
      ← List.append_assoc, h.kept hes i]
  refine ⟨?_, ?_, fun i => ?_, hkept⟩
  · rw [heff.errorState, h.errorState, propagated, propagated, List.filterMap_append]
    cases hp : propagates e <;> simp [hp]
  · rw [heff.isOpen, h.isOpen, gone, gone, List.any_append, Bool.not_or]
    simp
  · by_cases he : e = .dropReceiver
    · -- what was queued is lost, and was behind what was got
      subst he
      rw [hacc.trans (List.append_nil _), hrec.trans (List.append_nil _), heff.dropped rfl,
        sentBy_nil, List.append_nil]
      exact (List.prefix_append _ _).trans (h.in_order i)
    · by_cases hes : .dropReceiver ∈ es
      · have hgone : gone es = true := List.any_eq_true.mpr ⟨_, hes, rfl⟩
        have hclosed : p.chan.chan.isOpen = false := by rw [h.isOpen, hgone]; rfl
        rw [hacc, hrec, sentBy_append, List.append_assoc, heff.queue he i, heff.closed hclosed,
          sentBy_nil, List.append_nil, List.append_nil]
        exact h.in_order i
      · have hd : .dropReceiver ∉ es ++ [e] := by simpa [eq_comm, hes] using he
        exact (hkept hd i).symm ▸ List.prefix_rfl

theorem new_tracks : Tracks [] (new : Pair α) where
  errorState := rfl
  isOpen := rfl
  in_order _ := List.prefix_rfl
  kept _ _ := rfl

/-- **The invariant holds along every run.** -/
theorem run_tracks (hrun : run new es = some p) : Tracks es p :=
  Trace.run_records (fun _ _ _ _ hrun h hstep => h.step hrun hstep) new_tracks hrun

/-- **Once the receiver is closed nothing is sent any more**, and each poll gets what is left,
one item at a time. -/
theorem run_closed (hrun : p.run es = some p') (hclosed : p.chan.chan.isOpen = false)
    (hd : .dropReceiver ∉ es) :
    Trace.log Pair.step takes p es = [] ∧
      p'.chan.chan.queue.length = p.chan.chan.queue.length - polls es := by
  induction es generalizing p with
  | nil =>
    obtain rfl := Option.some.inj hrun
    exact ⟨rfl, rfl⟩
  | cons e es ih =>
    obtain ⟨p₁, hstep, hrun⟩ := Option.bind_eq_some_iff.mp hrun
    have heff := step_effect hstep
    obtain ⟨he, hes⟩ : e ≠ .dropReceiver ∧ .dropReceiver ∉ es := by
      simpa [eq_comm] using hd
    have hclosed₁ : p₁.chan.chan.isOpen = false := by rw [heff.isOpen, hclosed, Bool.false_and]
    obtain ⟨hlog, hlen⟩ := ih hrun hclosed₁ hes
    have hpolls : polls (e :: es) = polls [e] + polls es := by
      rw [← List.singleton_append, polls, List.countP_append]
      rfl
    constructor
    · rw [Trace.log, hstep, Option.elim_some, hlog, heff.closed hclosed, List.append_nil]
    · rw [hlen, heff.drains hclosed he, hpolls, Nat.sub_sub]

/-! ### The law -/

@[simp] theorem mapErr_item (c : ErrorChan α) (item : α) : (c.mapErr item).item = item := by
  unfold ErrorChan.mapErr
  split <;> rfl

/-- A send fails where the channel is closed, with what the cell holds. -/
theorem startSend_eq_error {r : SendError (ℕ × α)} :
    (p.chan.startSend (sender, item) room).1 = .error r ↔
      p.chan.chan.isOpen = false ∧ p.chan.mapErr (sender, item) = r := by
  cases ho : p.chan.chan.isOpen with
  | false =>
    rw [ErrorChan.startSend_of_closed _ _ ho]
    simp
  | true => cases room <;> simp [ErrorChan.startSend, Chan.startSend, ho]

theorem startSend_eq_channel {err : Error} {x : ℕ × α} :
    (p.chan.startSend (sender, item) room).1 = .error (.channel err x) ↔
      p.chan.chan.isOpen = false ∧ p.chan.errorState = some err ∧ (sender, item) = x := by
  rw [startSend_eq_error]
  refine and_congr_right fun ho => ?_
  rw [ErrorChan.mapErr_of_closed _ ho]
  cases p.chan.errorState <;> simp

theorem Tracks.isOpen_eq_false (h : Tracks es p) :
    p.chan.chan.isOpen = false ↔ gone es = true := by
  rw [h.isOpen, Bool.not_eq_false']

/-- A send fails with an error of the channel exactly when the receiver is gone and has left
one. -/
theorem Tracks.fails_iff (h : Tracks es p) :
    (∃ err x, (p.chan.startSend (sender, item) room).1 = .error (.channel err x)) ↔
      gone es = true ∧ propagated es ≠ [] := by
  simp only [startSend_eq_channel, h.isOpen_eq_false, h.errorState]
  constructor
  · rintro ⟨err, -, hgone, hlast, -⟩
    exact ⟨hgone, fun hnil => by simp [hnil] at hlast⟩
  · rintro ⟨hgone, hne⟩
    exact ⟨_, _, hgone, List.getLast?_eq_some_getLast hne, rfl⟩

/-- Whatever was sent before the receiver was closed is got. -/
theorem Tracks.still_received (h : Tracks es p) (hrun : run new es = some p)
    (hgone : gone es = true) (hrun' : p.run es' = some p') (hd : .dropReceiver ∉ es ++ es')
    (hpolls : p.chan.chan.queue.length ≤ polls es') (i : ℕ) :
    sentBy i (received (es ++ es')) = sentBy i (accepted es) := by
  have hall : run new (es ++ es') = some p' := by
    rw [run, Trace.run_append]
    exact Option.bind_eq_some_iff.mpr ⟨p, hrun, hrun'⟩
  have hes' : .dropReceiver ∉ es' := fun hmem => hd (List.mem_append_right _ hmem)
  obtain ⟨hlog, hlen⟩ := run_closed hrun' (h.isOpen_eq_false.mpr hgone) hes'
  have hempty : p'.chan.chan.queue = [] :=
    List.eq_nil_of_length_eq_zero (hlen.trans (Nat.sub_eq_zero_of_le hpolls))
  have hacc : accepted (es ++ es') = accepted es := by
    rw [accepted, Trace.log_append hrun, hlog, List.append_nil]
  have hkept := (run_tracks hall).kept hd i
  rwa [hempty, sentBy_nil, List.append_nil, hacc] at hkept

/-- **Every send obeys the law exactly if the error propagated last is the one propagated
first.** -/
theorem error_channel_law_iff (hrun : run new es = some p) (hs : sender ∈ p.clones) (item : α)
    (room : Bool) :
    Law es p sender item room ↔
      (gone es = true → (propagated es).getLast? = (propagated es).head?) := by
  have htracks := run_tracks hrun
  constructor
  · intro hlaw hgone
    by_cases hnil : propagated es = []
    · rw [hnil]
      rfl
    · obtain ⟨err, x, hsend⟩ := hlaw.fails_iff.mpr ⟨hgone, hnil⟩
      rw [hlaw.reports_first err x hsend, ← htracks.errorState]
      exact (startSend_eq_channel.mp hsend).2.1
  · intro hfirst
    refine ⟨htracks.fails_iff, fun err x hsend => ?_, fun r hsend => ?_, fun i => ?_,
      fun hgone es' p' hrun' hd hpolls => htracks.still_received hrun hgone hrun' hd hpolls⟩
    · obtain ⟨hclosed, herr, -⟩ := startSend_eq_channel.mp hsend
      rw [← hfirst (htracks.isOpen_eq_false.mp hclosed), ← htracks.errorState, herr]
    · obtain ⟨hclosed, rfl⟩ := startSend_eq_error.mp hsend
      refine ⟨mapErr_item _ _, ?_⟩
      rw [step, if_pos hs, ErrorChan.startSend_of_closed _ _ hclosed]
    · exact (List.prefix_append _ _).trans (htracks.in_order i)

/-- Both senders of a pair whose receiver has propagated an error and is gone learn it. -/
theorem error_channel_law_of_one_error :
    ∃ p, run new [.clone 0, .startSend 1 7 true, .propagateError ErrorKind.disconnected, .close] =
      some p ∧ Law [.clone 0, .startSend 1 7 true, .propagateError ErrorKind.disconnected, .close]
        p 1 8 true :=
  ⟨_, rfl, (error_channel_law_iff rfl (by decide) 8 true).mpr fun _ => rfl⟩

/-- A receiver propagates two errors and is closed: a send reports the second one. -/
theorem second_error_is_reported :
    ∃ p : Pair ℕ, run new [.propagateError ErrorKind.disconnected,
        .propagateError ErrorKind.networkError, .close] = some p ∧ 0 ∈ p.clones ∧
      (p.chan.startSend (0, 7) true).1 = .error (.channel ErrorKind.networkError (0, 7)) ∧
      ¬ Law [.propagateError ErrorKind.disconnected, .propagateError ErrorKind.networkError,
        .close] p 0 7 true := by
  refine ⟨_, rfl, by decide, rfl, fun h => ?_⟩
  exact absurd (h.reports_first _ _ rfl) (by decide)

end Pair

end ErrorChannel

end PicoquicRs
