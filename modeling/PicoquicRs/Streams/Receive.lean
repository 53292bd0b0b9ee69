import PicoquicRs.Streams.Linked

/-!
# The receiving side

The messages to the application come from five places – data, the end of the
stream, a reset, the connection, the context that is dropped – into one queue. What
the application is told is read off the events alone
(`PicoquicRs.Streams.Event.news`), up to the first end
(`PicoquicRs.Streams.upToEnd`), and the result is that it is told exactly this
(`PicoquicRs.Streams.receiving_is_exact`).

If the application drops the `Stream` instead, the peer is asked to stop sending,
once, unless it has already ended the stream
(`PicoquicRs.Streams.Context.StopsOnce`).
-/

namespace PicoquicRs

namespace Streams

open Futures Context

/-! ### What the application is told -/

/-- The outcome ends the stream. -/
def Outcome.isEnd : Outcome → Bool
  | .item _ => false
  | _ => true

/-- The end was reported. -/
def ended (l : List Outcome) : Bool := l.any Outcome.isEnd

/-- The outcomes up to the first end. -/
def upToEnd : List Outcome → List Outcome
  | [] => []
  | o :: l => if o.isEnd then [o] else o :: upToEnd l

@[simp] theorem upToEnd_nil : upToEnd [] = [] := rfl

theorem ended_append (l l' : List Outcome) : ended (l ++ l') = (ended l || ended l') :=
  List.any_append

/-- What comes after an end does not matter, and before it everything does. -/
theorem upToEnd_append (l l' : List Outcome) :
    upToEnd (l ++ l') = if ended l = true then upToEnd l else l ++ upToEnd l' := by
  induction l with
  | nil => rfl
  | cons o l ih =>
    rw [List.cons_append, upToEnd, upToEnd, ih]
    cases ho : o.isEnd with
    | true => simp [ended, ho]
    | false =>
      have he : ended (o :: l) = ended l := by simp [ended, ho]
      rw [he]
      cases hl : ended l <;> simp

theorem upToEnd_of_not_ended {l : List Outcome} (h : ended l = false) : upToEnd l = l := by
  have h' := upToEnd_append l []
  rwa [List.append_nil, h, if_neg Bool.false_ne_true, upToEnd_nil, List.append_nil] at h'

/-- The end is still there. -/
theorem ended_upToEnd (l : List Outcome) : ended (upToEnd l) = ended l := by
  induction l with
  | nil => rfl
  | cons o l ih =>
    rw [upToEnd]
    cases ho : o.isEnd with
    | true => simp [ended, ho]
    | false =>
      have he : ∀ l, ended (o :: l) = ended l := fun l => by simp [ended, ho]
      simp [he, ih]

theorem ended_congr {l t : List Outcome} (h : upToEnd l = upToEnd t) : ended l = ended t := by
  rw [← ended_upToEnd l, h, ended_upToEnd]

/-- Two lists that agree up to the end go on agreeing, if they go on alike where they
have not ended. -/
theorem upToEnd_append_congr {l t x y : List Outcome} (h : upToEnd l = upToEnd t)
    (hxy : ended t = false → upToEnd x = upToEnd y) : upToEnd (l ++ x) = upToEnd (t ++ y) := by
  rw [upToEnd_append, upToEnd_append, ended_congr h, h]
  cases ht : ended t with
  | true => rfl
  | false =>
    have hl : ended l = false := (ended_congr h).trans ht
    rw [upToEnd_of_not_ended ht, upToEnd_of_not_ended hl] at h
    rw [if_neg Bool.false_ne_true, if_neg Bool.false_ne_true, hxy ht, h]

/-- The end an event of a callback stands for. -/
def StreamEvent.message : StreamEvent → Option Message
  | .streamReset => some .reset
  | .streamFin => some .close
  | _ => none

/-- **The news of an event** for the application. -/
def Event.news : Event → List Outcome
  | .callback (.data bytes event) =>
    (if bytes = [] then [] else [.item bytes]) ++ match event with
      | .streamReset => [.none true]
      | .streamFin => [.none false]
      | _ => []
  | .connectionError err => [.error err]
  | .connectionClose | .dropContext => [.none false]
  | _ => []

namespace Context

variable {c c' c'' : Context} {cur : Option ChanRef}

/-! ### Asking the peer to stop -/

/-- **The peer is asked to stop at most once**: with the call, the receiving side is
finished, and it stays so. -/
structure StopsOnce (c c' : Context) : Prop where
  fin : c.finReceivedOrRecvMsgDropped = true → c'.finReceivedOrRecvMsgDropped = true
  mono : c.stopSendings ≤ c'.stopSendings
  once : c'.stopSendings + c.finReceivedOrRecvMsgDropped.toNat ≤
    c.stopSendings + c'.finReceivedOrRecvMsgDropped.toNat

namespace StopsOnce

theorem refl (c : Context) : StopsOnce c c := ⟨fun h => h, Nat.le_refl _, Nat.le_refl _⟩

theorem trans (h : StopsOnce c c') (h' : StopsOnce c' c'') : StopsOnce c c'' where
  fin := h'.fin ∘ h.fin
  mono := h.mono.trans h'.mono
  once := by
    have h₁ := h.once
    have h₂ := h'.once
    omega

/-- Nothing is asked any more once the receiving side is finished. -/
theorem eq_of_fin (h : StopsOnce c c') (hf : c.finReceivedOrRecvMsgDropped = true) :
    c'.stopSendings = c.stopSendings := by
  have h₁ := h.once
  rw [h.fin hf, hf] at h₁
  have h₂ := h.mono
  omega

end StopsOnce

/-- **The receiving side is left alone.** -/
structure RecvSame (c c' : Context) : Prop where
  recvMsg : c'.recvMsg = c.recvMsg
  fin : c'.finReceivedOrRecvMsgDropped = c.finReceivedOrRecvMsgDropped
  calls : ∃ extra, c'.calls = c.calls ++ extra ∧ ∀ x ∈ extra, x.isStopSending = false

namespace RecvSame

theorem refl (c : Context) : RecvSame c c := ⟨rfl, rfl, [], by simp, by simp⟩

theorem trans (h : RecvSame c c') (h' : RecvSame c' c'') : RecvSame c c'' := by
  obtain ⟨extra, hx, hall⟩ := h.calls
  obtain ⟨extra', hx', hall'⟩ := h'.calls
  refine ⟨h'.recvMsg.trans h.recvMsg, h'.fin.trans h.fin, extra ++ extra',
    by rw [hx', hx, List.append_assoc], fun x hmem => ?_⟩
  exact (List.mem_append.mp hmem).elim (hall x) (hall' x)

/-- A function that makes no call. -/
theorem of_calls_eq (hr : c'.recvMsg = c.recvMsg)
    (hf : c'.finReceivedOrRecvMsgDropped = c.finReceivedOrRecvMsgDropped)
    (hc : c'.calls = c.calls) : RecvSame c c' := ⟨hr, hf, [], by simp [hc], by simp⟩

/-- A function that makes one call, of another function. -/
theorem of_call {x : Call} (hr : c'.recvMsg = c.recvMsg)
    (hf : c'.finReceivedOrRecvMsgDropped = c.finReceivedOrRecvMsgDropped)
    (hc : c'.calls = c.calls ++ [x]) (hx : x.isStopSending = false) : RecvSame c c' :=
  ⟨hr, hf, [x], hc, by simpa using hx⟩

theorem stopSendings (h : RecvSame c c') : c'.stopSendings = c.stopSendings := by
  obtain ⟨extra, hx, hall⟩ := h.calls
  have : extra.countP Call.isStopSending = 0 :=
    List.countP_eq_zero.mpr fun x hmem => by simp [hall x hmem]
  rw [Context.stopSendings, hx, List.countP_append, this, Nat.add_zero, Context.stopSendings]

theorem stopsOnce (h : RecvSame c c') : StopsOnce c c' where
  fin := by rw [h.fin]; exact fun h => h
  mono := by rw [h.stopSendings]
  once := by rw [h.stopSendings, h.fin]

end RecvSame

theorem closeSendData_recvSame (c : Context) : RecvSame c c.closeSendData := by
  obtain ⟨chans, hc, -⟩ := closeSendData_spec c
  rw [hc]
  exact .of_calls_eq rfl rfl rfl

theorem reset_recvSame (c : Context) : RecvSame c c.reset := by
  obtain ⟨chans, hc, -⟩ := reset_spec c
  rw [hc]
  exact .of_call rfl rfl rfl rfl

theorem handleSendData_recvSame {n : ℕ} (hs : SendSpec c n c') : RecvSame c c' := by
  obtain ⟨sd, ch, pl, ab, hframe, -⟩ := hs.frame
  rw [hframe]
  exact .of_call rfl rfl rfl rfl

theorem handleSendDataDropped_recvSame (c : Context) : RecvSame c c.handleSendDataDropped := by
  obtain ⟨chans, -, hc⟩ := handleSendDataDropped_spec c
  rw [hc]
  split
  · exact .of_call rfl rfl rfl rfl
  · split
    · exact .of_call rfl rfl rfl rfl
    · exact .of_calls_eq rfl rfl rfl

theorem pollSendData_recvSame (hd : c.SlotDistinct) : RecvSame c c.pollSendData := by
  rcases pollSendData_cases hd with
    ⟨-, hc⟩ | ⟨s, s', chans, c₁, -, -, hc₁, -, -, -, hcase⟩
  · rw [hc]
    exact .refl c
  · have h₁ : RecvSame c c₁ := by
      rw [hc₁]
      exact .of_calls_eq rfl rfl rfl
    rcases hcase with ⟨buf, q, -, hc⟩ | ⟨-, -, hc⟩ | ⟨-, -, hc⟩
    · rw [hc, hc₁]
      exact .of_call rfl rfl rfl rfl
    · rw [hc]
      exact h₁.trans (handleSendDataDropped_recvSame c₁)
    · rw [hc]
      exact h₁

theorem handleControlMsg_recvSame {msg : Message} (hc : c.handleControlMsg msg = some c') :
    RecvSame c c' := by
  cases msg with
  | reset =>
    obtain rfl := Option.some.inj hc
    exact reset_recvSame c
  | swapSendData n o =>
    rcases Option.eq_none_or_eq_some c.sendData with hs | ⟨s, hs⟩
    · obtain ⟨chans, hc'⟩ := handleControlMsg_swap_of_none hs n o
      obtain rfl := Option.some.inj (hc'.symm.trans hc)
      exact .of_calls_eq rfl rfl rfl
    · obtain ⟨c₁, hc', hsw⟩ := handleControlMsg_swap hs n o
      obtain rfl := Option.some.inj (hc'.symm.trans hc)
      obtain ⟨chans, hframe⟩ := hsw.frame
      rw [hframe]
      exact .of_calls_eq rfl rfl rfl
  | close => simp [Context.handleControlMsg] at hc
  | recvData => simp [Context.handleControlMsg] at hc
  | error => simp [Context.handleControlMsg] at hc

/-! ### The functions that may ask the peer to stop -/

theorem recvMessageDropped_stopsOnce (c : Context) : StopsOnce c c.recvMessageDropped := by
  cases hf : c.finReceivedOrRecvMsgDropped with
  | true =>
    rw [recvMessageDropped_of_true hf]
    exact .refl c
  | false =>
    rw [recvMessageDropped_of_false hf]
    split <;>
      exact ⟨fun _ => rfl, by simp [stopSendings], by simp [stopSendings, hf, Call.isStopSending]⟩

theorem recvMessage_stopsOnce (c : Context) (msg : Message) : StopsOnce c (c.recvMessage msg) := by
  cases ho : c.recvMsg.isOpen with
  | true =>
    rw [recvMessage_of_open msg ho]
    exact ⟨fun h => h, le_rfl, le_rfl⟩
  | false =>
    rw [recvMessage_of_closed msg ho]
    exact recvMessageDropped_stopsOnce c

theorem setFin_stopsOnce (c : Context) :
    StopsOnce c { c with finReceivedOrRecvMsgDropped := true } :=
  ⟨fun _ => rfl, le_rfl, Nat.add_le_add_left (Bool.toNat_le _) _⟩

/-- **Polling for control messages** leaves the receiving side alone, unless it notices
that the `Stream` was dropped. -/
theorem Linked.pollControlMsg_recv (h : c.Linked cur) :
    ∃ r c', c.pollControlMsg = some (r, c') ∧ Kept cur c c' ∧ StopsOnce c c' ∧
      (c.controlMsg.isEnded = false → RecvSame c c') := by
  have hpop : ∀ c' : Context, RecvSame c' { c' with controlMsg := c'.controlMsg.poll.2 } :=
    fun c' => .of_calls_eq rfl rfl rfl
  have hpoll : ∀ c' : Context, Kept cur c c' → c'.controlMsg.queue = [] →
      Kept cur c { c' with controlMsg := c'.controlMsg.poll.2 } :=
    fun c' hk hq => hk.trans (hk.linked.pollEmpty hq)
  refine Context.pollControlMsg_rule (P := fun c' => Kept cur c c' ∧ StopsOnce c c' ∧
    (c.controlMsg.isEnded = false → RecvSame c c')) ?_ ?_ ?_ ⟨.refl h, .refl c, fun _ => .refl c⟩
  · rintro c' msg q ⟨hk, hs, hr⟩ hq
    obtain ⟨c₁, hc₁, hk₁⟩ := handleControlMsg_kept hk.linked hq
    have hsame : RecvSame c' c₁ := (hpop c').trans (handleControlMsg_recvSame hc₁)
    exact ⟨c₁, hc₁, hk.trans hk₁, hs.trans hsame.stopsOnce, fun he => (hr he).trans hsame⟩
  · rintro c' ⟨hk, hs, -⟩ hq hend
    have hk' := hpoll c' hk hq
    refine ⟨hk'.trans (recvMessageDropped_kept hk'.linked),
      hs.trans ((hpop c').stopsOnce.trans (recvMessageDropped_stopsOnce _)), fun he => ?_⟩
    -- the ends of the channel are where they were
    have hctl := congrArg Prod.snd hk.ends
    simp only [Context.ends, Prod.mk.injEq] at hctl
    rw [Chan.isEnded, hctl.1, hctl.2, ← Chan.isEnded, he] at hend
    exact absurd hend Bool.false_ne_true
  · rintro c' ⟨hk, hs, hr⟩ hq -
    exact ⟨hpoll c' hk hq, hs.trans (hpop c').stopsOnce, fun he => (hr he).trans (hpop c')⟩

theorem handleCallback_stopsOnce (h : c.Linked cur) {cb : Callback}
    (hc : c.handleCallback cb = some c') : StopsOnce c c' := by
  cases cb with
  | prepareToSend dest n =>
    cases dest with
    | none => simp [handleCallback, Context.handleSendData] at hc
    | some dest =>
      obtain ⟨c₁, hc₁, hspec⟩ := handleSendData_spec dest n h.slotDistinct
      obtain rfl := Option.some.inj (hc₁.symm.trans hc)
      exact (handleSendData_recvSame hspec).stopsOnce
  | data bytes event =>
    obtain ⟨c₁, hc₁⟩ : ∃ c₁, c₁ = if !bytes.isEmpty && !c.finReceivedOrRecvMsgDropped then
        c.recvMessage (.recvData bytes) else c := ⟨_, rfl⟩
    have h₁ : StopsOnce c c₁ := by
      rw [hc₁]
      split
      · exact recvMessage_stopsOnce c _
      · exact .refl c
    cases event with
    | streamReset =>
      rw [handleCallback, ← hc₁] at hc
      obtain rfl := Option.some.inj hc
      exact h₁.trans ((setFin_stopsOnce c₁).trans (recvMessage_stopsOnce _ _))
    | stopSending =>
      rw [handleCallback, ← hc₁] at hc
      obtain rfl := Option.some.inj hc
      have hset : StopsOnce c₁ { c₁ with stopSendingOrFinSent := true } :=
        ⟨fun h => h, le_rfl, le_rfl⟩
      exact h₁.trans (hset.trans (closeSendData_recvSame _).stopsOnce)
    | streamFin =>
      rw [handleCallback, ← hc₁] at hc
      obtain rfl := Option.some.inj hc
      exact h₁.trans ((setFin_stopsOnce c₁).trans (recvMessage_stopsOnce _ _))
    | other =>
      rw [handleCallback, ← hc₁] at hc
      obtain rfl := Option.some.inj hc
      exact h₁

/-- **A callback that ends the receiving side** leaves it finished. -/
theorem handleCallback_fin {bytes : Bytes} {event : StreamEvent} {msg : Message}
    (hm : event.message = some msg) (hc : c.handleCallback (.data bytes event) = some c') :
    c'.finReceivedOrRecvMsgDropped = true := by
  cases event with
  | streamReset =>
    obtain rfl := Option.some.inj hc
    exact (recvMessage_effect _ _).fin rfl
  | streamFin =>
    obtain rfl := Option.some.inj hc
    exact (recvMessage_effect _ _).fin rfl
  | stopSending => simp [StreamEvent.message] at hm
  | other => simp [StreamEvent.message] at hm

theorem handleConnectionError_stopsOnce (c : Context) (err : Error) :
    StopsOnce c (c.handleConnectionError err) := by
  obtain ⟨c₁, chans, hc₁, hc, -⟩ := handleConnectionError_spec c err
  rw [hc]
  exact (hc₁ ▸ recvMessage_stopsOnce c (.error err) : StopsOnce c c₁).trans
    ⟨fun h => h, le_rfl, le_rfl⟩

theorem drop_stopsOnce (c : Context) : StopsOnce c c.drop := by
  obtain ⟨chans, hc⟩ := drop_spec c
  rw [hc]
  exact ⟨fun h => h, le_rfl, le_rfl⟩

/-! ### The functions that tell the application something -/

/-- **What a function tells the application**, while that one listens: messages are
queued behind the ones that are there, and they are the news as long as the receiving
side is not finished. Only the end finishes it. -/
structure Tells (c c' : Context) (news : List Outcome) : Prop where
  queue : ∃ msgs, c'.recvMsg.queue = c.recvMsg.queue ++ msgs ∧
    (c.finReceivedOrRecvMsgDropped = false →
      upToEnd (msgs.map (Stream.outcome false)) = upToEnd news)
  fin : c'.finReceivedOrRecvMsgDropped = true →
    c.finReceivedOrRecvMsgDropped = true ∨ ended news = true

theorem RecvSame.tells (h : RecvSame c c') : Tells c c' [] where
  queue := ⟨[], by rw [h.recvMsg, List.append_nil], fun _ => rfl⟩
  fin hf := Or.inl (h.fin ▸ hf)

theorem RecvSame.trans_tells {news : List Outcome} (h : RecvSame c c') (h' : Tells c' c'' news) :
    Tells c c'' news where
  queue := by
    obtain ⟨msgs, hq, hm⟩ := h'.queue
    exact ⟨msgs, by rw [hq, h.recvMsg], fun hf => hm (h.fin.trans hf)⟩
  fin hf := (h'.fin hf).imp_left fun hf => h.fin.symm.trans hf

theorem Tells.trans_recvSame {news : List Outcome} (h : Tells c c' news) (h' : RecvSame c' c'') :
    Tells c c'' news where
  queue := by rw [h'.recvMsg]; exact h.queue
  fin hf := h.fin (h'.fin ▸ hf)

/-- One message is queued. -/
theorem recvMessage_tells (ho : c.recvMsg.isOpen = true) (msg : Message) :
    Tells c (c.recvMessage msg) [Stream.outcome false msg] := by
  rw [recvMessage_of_open msg ho]
  exact ⟨⟨[msg], rfl, fun _ => rfl⟩, Or.inl⟩

theorem handleConnectionError_tells (ho : c.recvMsg.isOpen = true) (err : Error) :
    Tells c (c.handleConnectionError err) [.error err] := by
  obtain ⟨c₁, chans, hc₁, hc, -⟩ := handleConnectionError_spec c err
  rw [hc]
  have h : Tells c c₁ [.error err] := hc₁ ▸ recvMessage_tells ho (.error err)
  exact ⟨h.queue, h.fin⟩

theorem drop_tells (ho : c.recvMsg.isOpen = true) : Tells c c.drop [.none false] := by
  obtain ⟨chans, hc⟩ := drop_spec c
  rw [hc, if_pos ho]
  exact ⟨⟨[.close], rfl, fun _ => rfl⟩, Or.inl⟩

/-- **A callback with data** queues the bytes, if there are any, and the end that comes
with them. -/
theorem handleCallback_data_tells (ho : c.recvMsg.isOpen = true) {bytes : Bytes}
    {event : StreamEvent} (hc : c.handleCallback (.data bytes event) = some c') :
    Tells c c' (Event.news (.callback (.data bytes event))) := by
  obtain ⟨data, hdata⟩ : ∃ data : List Message, data =
      if bytes ≠ [] ∧ c.finReceivedOrRecvMsgDropped = false then [.recvData bytes] else [] :=
    ⟨_, rfl⟩
  -- the context once the bytes are queued
  obtain ⟨c₁, hc₁⟩ : ∃ c₁, c₁ = if !bytes.isEmpty && !c.finReceivedOrRecvMsgDropped then
      c.recvMessage (.recvData bytes) else c := ⟨_, rfl⟩
  have h₁ : c₁.recvMsg.isOpen = true ∧ c₁.recvMsg.queue = c.recvMsg.queue ++ data ∧
      c₁.finReceivedOrRecvMsgDropped = c.finReceivedOrRecvMsgDropped := by
    by_cases hb : bytes ≠ [] ∧ c.finReceivedOrRecvMsgDropped = false
    · rw [if_pos (by simpa using hb), recvMessage_of_open _ ho] at hc₁
      rw [hdata, if_pos hb, hc₁]
      exact ⟨ho, rfl, rfl⟩
    · rw [if_neg (by simpa using hb)] at hc₁
      rw [hdata, if_neg hb, hc₁]
      exact ⟨ho, (List.append_nil _).symm, rfl⟩
  obtain ⟨ho₁, hq₁, hf₁⟩ := h₁
  have hnews : c.finReceivedOrRecvMsgDropped = false →
      data.map (Stream.outcome false) = if bytes = [] then [] else [.item bytes] := by
    intro hf
    rw [hdata]
    by_cases hb : bytes = [] <;> simp [hb, hf, Stream.outcome]
  -- the end comes behind the bytes
  have hend : ∀ msg, (Stream.outcome false msg).isEnd = true →
      Tells c ({ c₁ with finReceivedOrRecvMsgDropped := true }.recvMessage msg)
        ((if bytes = [] then [] else [.item bytes]) ++ [Stream.outcome false msg]) := by
    intro msg he
    have hopen : { c₁ with finReceivedOrRecvMsgDropped := true }.recvMsg.isOpen = true := ho₁
    rw [recvMessage_of_open msg hopen]
    refine ⟨⟨data ++ [msg], ?_, fun hf => ?_⟩, fun _ => Or.inr ?_⟩
    · rw [Chan.push_queue, hq₁, List.append_assoc]
    · rw [List.map_append, hnews hf, List.map_singleton]
    · rw [ended_append, Bool.or_eq_true]
      exact Or.inr (by simp [ended, he])
  have hkept : Tells c c₁ ((if bytes = [] then [] else [.item bytes]) ++ []) :=
    ⟨⟨data, hq₁, fun hf => by rw [hnews hf, List.append_nil]⟩, fun hf => Or.inl (hf₁ ▸ hf)⟩
  cases event with
  | streamReset =>
    rw [handleCallback, ← hc₁] at hc
    obtain rfl := Option.some.inj hc
    exact hend .reset rfl
  | streamFin =>
    rw [handleCallback, ← hc₁] at hc
    obtain rfl := Option.some.inj hc
    exact hend .close rfl
  | stopSending =>
    rw [handleCallback, ← hc₁] at hc
    obtain rfl := Option.some.inj hc
    have hset : RecvSame c₁ { c₁ with stopSendingOrFinSent := true } := .of_calls_eq rfl rfl rfl
    exact hkept.trans_recvSame (hset.trans (closeSendData_recvSame _))
  | other =>
    rw [handleCallback, ← hc₁] at hc
    obtain rfl := Option.some.inj hc
    exact hkept

theorem handleCallback_tells (hl : c.Linked cur) (ho : c.recvMsg.isOpen = true) {cb : Callback}
    (hc : c.handleCallback cb = some c') : Tells c c' (Event.news (.callback cb)) := by
  cases cb with
  | prepareToSend dest n =>
    cases dest with
    | none => simp [handleCallback, Context.handleSendData] at hc
    | some dest =>
      obtain ⟨c₁, hc₁, hspec⟩ := handleSendData_spec dest n hl.slotDistinct
      obtain rfl := Option.some.inj (hc₁.symm.trans hc)
      exact (handleSendData_recvSame hspec).tells
  | data bytes event => exact handleCallback_data_tells ho hc

end Context

/-! ### Runs -/

namespace Pair

variable {p p' : Pair} {s : Stream} {t : List Outcome}

theorem stopsOnce_stepStream (hl : p.Linked) (hs : p.stream = some s) {e : Event}
    (he : e.atStream = true) (hstep : p.stepStream s e = some p') : StopsOnce p.ctx p'.ctx := by
  cases e with
  | startSend item room =>
    rcases stepStream_startSend (p := p) (s := s) item room with ⟨r, -, -, h'⟩ | h' <;>
      obtain rfl := Option.some.inj (h'.symm.trans hstep) <;>
      exact ⟨fun h => h, le_rfl, le_rfl⟩
  | setSendChannelSize =>
    rcases stepStream_setSendChannelSize hs with
      ⟨-, h'⟩ | ⟨a, c', -, h', ⟨-, rfl⟩ | ⟨-, chans, rfl⟩⟩ <;>
      obtain rfl := Option.some.inj (h'.symm.trans hstep) <;>
      exact ⟨fun h => h, le_rfl, le_rfl⟩
  | reset =>
    rcases stepStream_reset (p := p) (s := s) with ⟨-, h'⟩ | ⟨-, h'⟩ <;>
      obtain rfl := Option.some.inj (h'.symm.trans hstep) <;>
      exact ⟨fun h => h, le_rfl, le_rfl⟩
  | pollStream =>
    obtain ⟨o, s', hpoll, -⟩ := Stream.poll_frame s p.ctx hl.ctx.recv
    obtain rfl := Option.some.inj ((stepStream_pollStream hpoll).symm.trans hstep)
    exact ⟨fun h => h, le_rfl, le_rfl⟩
  | dropStream =>
    obtain rfl := Option.some.inj hstep
    exact ⟨fun h => h, le_rfl, le_rfl⟩
  | _ => simp [Event.atStream] at he

theorem stopsOnce_stepContext (hl : p.Linked) {e : Event} (he : e.atStream = false)
    (hstep : p.stepContext e = some p') : StopsOnce p.ctx p'.ctx := by
  cases e with
  | callback cb =>
    cases hc : p.ctx.handleCallback cb with
    | none => simp [stepContext, hc] at hstep
    | some c' =>
      obtain rfl := Option.some.inj ((stepContext_callback hc).symm.trans hstep)
      exact handleCallback_stopsOnce hl.ctx hc
  | pollControlMsg =>
    obtain ⟨r, c', hc', -, hs, -⟩ := hl.ctx.pollControlMsg_recv
    obtain rfl := Option.some.inj ((stepContext_pollControlMsg hc').symm.trans hstep)
    exact hs
  | pollSendData =>
    obtain rfl := Option.some.inj hstep
    exact (pollSendData_recvSame hl.ctx.slotDistinct).stopsOnce
  | poll =>
    obtain ⟨r, c', hc', hk, hs, -⟩ := hl.ctx.pollControlMsg_recv
    obtain rfl := Option.some.inj ((stepContext_poll hc').symm.trans hstep)
    have h' := hs.trans (pollSendData_recvSame hk.linked.slotDistinct).stopsOnce
    split
    · exact h'.trans (drop_stopsOnce _)
    · exact h'
  | connectionError err =>
    obtain rfl := Option.some.inj hstep
    exact handleConnectionError_stopsOnce _ _
  | connectionClose =>
    obtain rfl := Option.some.inj hstep
    exact recvMessage_stopsOnce _ _
  | dropContext =>
    obtain rfl := Option.some.inj hstep
    exact drop_stopsOnce _
  | _ => simp [Event.atStream] at he

/-- **Every step asks the peer to stop at most once.** -/
theorem stopsOnce_step (hl : p.Linked) {e : Event} (hstep : p.step e = some p') :
    StopsOnce p.ctx p'.ctx := by
  rw [step] at hstep
  cases he : e.atStream with
  | true =>
    rw [he, if_pos rfl] at hstep
    cases hs : p.stream with
    | none =>
      obtain rfl : p = p' := by simpa [hs] using hstep
      exact .refl _
    | some s =>
      simp only [hs] at hstep
      exact stopsOnce_stepStream hl hs he hstep
  | false =>
    rw [he, if_neg Bool.false_ne_true] at hstep
    split at hstep
    · exact stopsOnce_stepContext hl he hstep
    · obtain rfl := Option.some.inj hstep
      exact .refl _

/-- **What the application was told and is going to be told is the news `t`**, up to the
end, while it keeps the `Stream`. -/
structure Delivers (p : Pair) (t : List Outcome) : Prop where
  linked : p.Linked
  stream : ∃ s, p.stream = some s ∧ (ended p.outcomes = false → s.streamReset = false)
  told : upToEnd (p.outcomes ++ p.ctx.recvMsg.queue.map (Stream.outcome false)) = upToEnd t
  /-- The receiving side is finished by the end alone. -/
  fin : p.ctx.finReceivedOrRecvMsgDropped = true → ended t = true
  /-- A context that is dropped says so. -/
  gone : p.alive = false → ended t = true

namespace Delivers

/-- While the `Stream` is there, its channel of messages is open, and the control
channel does not end before the context is dropped. -/
theorem isOpen (h : p.Delivers t) :
    p.ctx.recvMsg.isOpen = true ∧ (p.alive = true → p.ctx.controlMsg.isEnded = false) := by
  obtain ⟨s, hs, -⟩ := h.stream
  have hends := h.linked.ends
  simp only [Context.ends, hs, Option.isSome_some, Prod.mk.injEq, if_true] at hends
  exact ⟨hends.1.1, fun ha => by simp [Chan.isEnded, hends.2.1, hends.2.2, ha]⟩

/-- **The context told the application the news**, and is there unless they end. -/
theorem tells (h : p.Delivers t) {news : List Outcome} (ht : Tells p.ctx p'.ctx news)
    (hl : p'.Linked) (hs : p'.stream = p.stream) (ho : p'.outcomes = p.outcomes)
    (ha : p'.alive = p.alive ∨ ended (t ++ news) = true) : p'.Delivers (t ++ news) where
  linked := hl
  stream := by rw [hs, ho]; exact h.stream
  told := by
    obtain ⟨msgs, hq, hm⟩ := ht.queue
    rw [ho, hq, List.map_append, ← List.append_assoc]
    refine upToEnd_append_congr h.told fun hend => hm ?_
    -- the receiving side is not finished before the end
    rw [← Bool.not_eq_true]
    exact fun hf => absurd (h.fin hf) (by simp [hend])
  fin hf := by
    rw [ended_append, Bool.or_eq_true]
    exact (ht.fin hf).imp_left h.fin
  gone hgone := by
    rcases ha with ha | ha
    · rw [ended_append, h.gone (ha ▸ hgone), Bool.true_or]
    · exact ha

/-- **The application takes a message.** -/
theorem pollStream (h : p.Delivers t) (hs : p.stream = some s) :
    ∃ o s', s.poll p.ctx = some (o, s', p.ctx.popRecv) ∧
      (ended (p.outcomes ++ o.toList) = false → s'.streamReset = false) ∧
      upToEnd (p.outcomes ++ o.toList ++
        p.ctx.popRecv.recvMsg.queue.map (Stream.outcome false)) = upToEnd t := by
  obtain ⟨s₀, hs₀, hreset⟩ := h.stream
  obtain rfl : s = s₀ := Option.some.inj (hs.symm.trans hs₀)
  have htold := h.told
  -- what has not ended now had not ended before
  have hbefore : ∀ l, ended (p.outcomes ++ l) = false → ended p.outcomes = false := fun l he => by
    rw [ended_append, Bool.or_eq_false_iff] at he
    exact he.1
  simp only [popRecv, Chan.poll_queue]
  rcases Stream.poll_cases s p.ctx h.linked.ctx.recv with
    ⟨hq, hend, hp⟩ | ⟨hq, -, hp⟩ | ⟨m, q, hq, hp⟩
  · -- the context is gone, hence the application was told the end
    refine ⟨_, _, hp, fun he => hreset (hbefore _ he), ?_⟩
    rw [hq, List.map_nil, List.append_nil] at htold
    have hgone : p.alive = false := by
      have hends := h.linked.ends
      simp only [Context.ends, hs, Option.isSome_some, Prod.mk.injEq] at hends
      simpa [Chan.isEnded, hends.1.1, hends.1.2] using hend
    have he : ended p.outcomes = true := (ended_congr htold).trans (h.gone hgone)
    rw [List.append_assoc, upToEnd_append, if_pos he, htold]
  · refine ⟨_, _, hp, fun he => hreset (hbefore _ he), ?_⟩
    rw [← htold, hq]
    simp
  · refine ⟨_, _, hp, fun he => ?_, ?_⟩
    · rw [hreset (hbefore _ he), Bool.false_or, beq_eq_false_iff_ne]
      rintro rfl
      simp [ended, Stream.outcome, Outcome.isEnd] at he
    · rw [← htold, hq, List.append_assoc, upToEnd_append, upToEnd_append p.outcomes]
      cases he : ended p.outcomes with
      | true => rfl
      | false =>
        rw [hreset he]
        rfl

/-- **A step of the application** takes what it is told. -/
theorem stepStream (h : p.Delivers t) (hs : p.stream = some s) (hl : p'.Linked) {e : Event}
    (he : e.atStream = true) (hkeep : e ≠ .dropStream) (hstep : p.stepStream s e = some p') :
    p'.Delivers t := by
  cases e with
  | startSend item room =>
    rcases stepStream_startSend (p := p) (s := s) item room with ⟨r, -, -, h'⟩ | h' <;>
      obtain rfl := Option.some.inj (h'.symm.trans hstep)
    · exact ⟨hl, h.stream, h.told, h.fin, h.gone⟩
    · exact h
  | setSendChannelSize =>
    obtain ⟨s₀, hs₀, hreset⟩ := h.stream
    obtain rfl : s = s₀ := Option.some.inj (hs.symm.trans hs₀)
    rcases stepStream_setSendChannelSize hs with
      ⟨-, h'⟩ | ⟨a, c', -, h', ⟨-, rfl⟩ | ⟨-, chans, rfl⟩⟩ <;>
      obtain rfl := Option.some.inj (h'.symm.trans hstep)
    · exact h
    · exact ⟨hl, ⟨_, rfl, hreset⟩, h.told, h.fin, h.gone⟩
    · exact ⟨hl, ⟨_, rfl, hreset⟩, h.told, h.fin, h.gone⟩
  | reset =>
    rcases stepStream_reset (p := p) (s := s) with ⟨-, h'⟩ | ⟨-, h'⟩ <;>
      obtain rfl := Option.some.inj (h'.symm.trans hstep)
    · exact ⟨hl, h.stream, h.told, h.fin, h.gone⟩
    · exact h
  | pollStream =>
    obtain ⟨o, s', hpoll, hreset, htold⟩ := h.pollStream hs
    obtain rfl := Option.some.inj ((stepStream_pollStream hpoll).symm.trans hstep)
    exact ⟨hl, ⟨s', rfl, hreset⟩, htold, h.fin, h.gone⟩
  | dropStream => exact absurd rfl hkeep
  | _ => simp [Event.atStream] at he

/-- **A step of the event loop** tells the application the news. -/
theorem stepContext (h : p.Delivers t) (ha : p.alive = true) (hl : p'.Linked) {e : Event}
    (he : e.atStream = false) (hstep : p.stepContext e = some p') : p'.Delivers (t ++ e.news) := by
  obtain ⟨hro, hco⟩ := h.isOpen
  cases e with
  | callback cb =>
    cases hc : p.ctx.handleCallback cb with
    | none => simp [Pair.stepContext, hc] at hstep
    | some c' =>
      obtain rfl := Option.some.inj ((stepContext_callback hc).symm.trans hstep)
      exact h.tells (handleCallback_tells h.linked.ctx hro hc) hl rfl rfl (Or.inl rfl)
  | pollControlMsg =>
    obtain ⟨r, c', hc', -, -, hr⟩ := h.linked.ctx.pollControlMsg_recv
    obtain rfl := Option.some.inj ((stepContext_pollControlMsg hc').symm.trans hstep)
    exact h.tells (hr (hco ha)).tells hl rfl rfl (Or.inl rfl)
  | pollSendData =>
    obtain rfl := Option.some.inj hstep
    exact h.tells (pollSendData_recvSame h.linked.ctx.slotDistinct).tells hl rfl rfl (Or.inl rfl)
  | poll =>
    obtain ⟨r, c₁, hc₁, hk, -, hr⟩ := h.linked.ctx.pollControlMsg_recv
    have hsame := (hr (hco ha)).trans (pollSendData_recvSame hk.linked.slotDistinct)
    obtain rfl := Option.some.inj ((stepContext_poll hc₁).symm.trans hstep)
    have hnews : Event.poll.news = [] := rfl
    rw [hnews, List.append_nil]
    by_cases hfin : c₁.pollSendData.stopSendingOrFinSent = true ∧
        c₁.pollSendData.finReceivedOrRecvMsgDropped = true
    · -- a context that is finished was told the end
      rw [if_pos hfin] at hl ⊢
      have hend : ended t = true := h.fin (hsame.fin ▸ hfin.2)
      have hdrop : Tells p.ctx c₁.pollSendData.drop [.none false] :=
        hsame.trans_tells (drop_tells (by rw [hsame.recvMsg]; exact hro))
      have h' : Delivers { p with ctx := c₁.pollSendData.drop, alive := false }
          (t ++ [.none false]) := h.tells hdrop hl rfl rfl
        (Or.inr (by rw [ended_append, hend, Bool.true_or]))
      refine ⟨hl, h'.stream, ?_, fun _ => hend, fun _ => hend⟩
      rw [h'.told, upToEnd_append, if_pos hend]
    · rw [if_neg hfin] at hl ⊢
      have h' : Delivers { p with ctx := c₁.pollSendData } (t ++ []) :=
        h.tells hsame.tells hl rfl rfl (Or.inl rfl)
      rwa [List.append_nil] at h'
  | connectionError err =>
    obtain rfl := Option.some.inj hstep
    exact h.tells (handleConnectionError_tells hro err) hl rfl rfl (Or.inl rfl)
  | connectionClose =>
    obtain rfl := Option.some.inj hstep
    exact h.tells (recvMessage_tells hro .close) hl rfl rfl (Or.inl rfl)
  | dropContext =>
    obtain rfl := Option.some.inj hstep
    exact h.tells (drop_tells hro) hl rfl rfl (Or.inr (by simp [ended, Event.news, Outcome.isEnd]))
  | _ => simp [Event.atStream] at he

/-- **Every step keeps the invariant**, while the application keeps the `Stream`. -/
theorem step (h : p.Delivers t) {e : Event} (hkeep : e ≠ .dropStream)
    (hstep : p.step e = some p') : p'.Delivers (t ++ e.news) := by
  have hl := h.linked.of_step hstep
  rw [Pair.step] at hstep
  cases he : e.atStream with
  | true =>
    have hnews : e.news = [] := by
      cases e <;> first | rfl | simp [Event.atStream] at he
    obtain ⟨s, hs, -⟩ := h.stream
    simp only [he, if_true, hs] at hstep
    rw [hnews, List.append_nil]
    exact h.stepStream hs hl he hkeep hstep
  | false =>
    rw [he, if_neg Bool.false_ne_true] at hstep
    split at hstep
    · exact h.stepContext ‹_› hl he hstep
    · -- the context is gone, and the news come after the end
      obtain rfl := Option.some.inj hstep
      have hend := h.gone (by simpa using ‹¬p.alive = true›)
      have hend' : ended (t ++ e.news) = true := by rw [ended_append, hend, Bool.true_or]
      refine ⟨hl, h.stream, ?_, fun _ => hend', fun _ => hend'⟩
      rw [h.told, upToEnd_append, if_pos hend]

end Delivers

theorem new_recv (id : Id) (isClientCon : Bool) :
    (Streams.new id isClientCon).ctx.calls = [] ∧
    (Streams.new id isClientCon).ctx.recvMsg.queue = [] ∧
    (Streams.new id isClientCon).ctx.finReceivedOrRecvMsgDropped =
      (isUnidirectional id && isUnidirectionalSendAllowed id isClientCon) ∧
    (Streams.new id isClientCon).outcomes = [] ∧ (Streams.new id isClientCon).alive = true ∧
    ∃ s, (Streams.new id isClientCon).stream = some s ∧ s.streamReset = false := by
  unfold Streams.new
  split
  exact ⟨rfl, rfl, rfl, rfl, rfl, _, rfl, rfl⟩

theorem new_delivers {id : Id} {isClientCon : Bool} (h : HasRecvHalf id isClientCon) :
    (Streams.new id isClientCon).Delivers [] := by
  obtain ⟨-, hq, hf, ho, ha, s, hs, hreset⟩ := new_recv id isClientCon
  refine ⟨new_linked id isClientCon, ⟨s, hs, fun _ => hreset⟩, by rw [hq, ho]; rfl, ?_, ?_⟩
  · rw [hf]
    rcases h with h | h <;> simp [h]
  · simp [ha]

/-- **A run that keeps the `Stream`** tells it the news. -/
theorem run_delivers {id : Id} {isClientCon : Bool} (h : HasRecvHalf id isClientCon)
    {es : List Event} (hkeep : Event.dropStream ∉ es)
    (hrun : (Streams.new id isClientCon).run es = some p) : p.Delivers (es.flatMap Event.news) := by
  rw [List.flatMap_eq_foldl]
  have hstep : ∀ (p : Pair) (t : List Outcome) (e : Event) (p' : Pair), p.Delivers t →
      e ≠ .dropStream → p.step e = some p' → p'.Delivers (t ++ e.news) :=
    fun _ _ _ _ h hok hstep => h.step hok hstep
  exact Trace.run_tracks hstep (new_delivers h)
    (Trace.obeys_of_forall fun e he _ heq => hkeep (heq ▸ he)) hrun

/-- **Any run asks the peer to stop at most once.** -/
theorem run_stopsOnce {es : List Event} (hl : p.Linked) (hrun : p.run es = some p') :
    p'.Linked ∧ StopsOnce p.ctx p'.ctx :=
  Trace.run_keeps (P := fun p' => p'.Linked ∧ StopsOnce p.ctx p'.ctx)
    (fun _ _ _ _ h hstep => ⟨h.1.of_step hstep, h.2.trans (stopsOnce_step h.1 hstep)⟩)
    ⟨hl, .refl _⟩ hrun

/-- **No run panics**, as long as picoquic provides a buffer where it asks for data. -/
theorem run_linked {es : List Event} (hl : p.Linked) (hes : ∀ e ∈ es, ¬ e.isNull) :
    ∃ p', p.run es = some p' ∧ p'.Linked :=
  Trace.run_invariant (fun _ _ h hok => h.step hok) hl
    (Trace.obeys_of_forall fun e he _ => hes e he)

end Pair

/-- **Receiving is exact.** In every run of a stream with a half to receive on, in any
order of callbacks, calls of the application, polls, connection errors and closes,

* nothing panics, as long as picoquic provides a buffer where it asks for data;
* what the application is told up to the end is, while it keeps the `Stream`, a part of
  the news from the start, and all of the news once it is told the end, or that there
  is nothing at the moment;
* the peer is asked to stop sending at most once, and not any more after a callback with
  `fin` or `reset` was handled, whether or not the application dropped the `Stream`. -/
theorem receiving_is_exact {id : Id} {isClientCon : Bool} (h : HasRecvHalf id isClientCon)
    (es : List Event) :
    ((∀ e ∈ es, ¬ e.isNull) → ∃ p, (new id isClientCon).run es = some p) ∧
    ∀ p, (new id isClientCon).run es = some p →
      (Event.dropStream ∉ es →
        upToEnd p.outcomes <+: upToEnd (es.flatMap Event.news) ∧
        (ended p.outcomes = true → upToEnd p.outcomes = upToEnd (es.flatMap Event.news)) ∧
        ∀ s s' c', p.stream = some s → s.poll p.ctx = some (none, s', c') →
          upToEnd p.outcomes = upToEnd (es.flatMap Event.news)) ∧
      p.ctx.stopSendings ≤ 1 ∧
      ∀ bytes event p₁ es' p₂, p.alive = true → event.message ≠ none →
        p.step (.callback (.data bytes event)) = some p₁ → p₁.run es' = some p₂ →
        p₂.ctx.stopSendings = p₁.ctx.stopSendings := by
  have hnew := Pair.new_linked id isClientCon
  refine ⟨fun hes => ?_, fun p hp => ?_⟩
  · obtain ⟨p, hp, -⟩ := Pair.run_linked hnew hes
    exact ⟨p, hp⟩
  obtain ⟨hl, hstops⟩ := Pair.run_stopsOnce hnew hp
  refine ⟨fun hkeep => ?_, ?_, ?_⟩
  · have hd := Pair.run_delivers h hkeep hp
    rw [← hd.told]
    refine ⟨?_, fun hend => ?_, fun s s' c' hs hpoll => ?_⟩
    · rw [upToEnd_append]
      split
      · exact List.prefix_rfl
      · rw [upToEnd_of_not_ended (by simpa using ‹¬ended p.outcomes = true›)]
        exact List.prefix_append _ _
    · rw [upToEnd_append, if_pos hend]
    · -- nothing is queued
      rcases Stream.poll_cases s p.ctx hl.ctx.recv with
        ⟨-, -, h'⟩ | ⟨hq, -, -⟩ | ⟨m, q, -, h'⟩
      · simp [h'] at hpoll
      · rw [hq, List.map_nil, List.append_nil]
      · simp [h'] at hpoll
  · have honce := hstops.once
    have hzero : (new id isClientCon).ctx.stopSendings = 0 := by
      rw [stopSendings, (Pair.new_recv id isClientCon).1, List.countP_nil]
    have hfin := Bool.toNat_le p.ctx.finReceivedOrRecvMsgDropped
    omega
  · intro bytes event p₁ es' p₂ ha hev hstep hrun
    obtain ⟨msg, hmsg⟩ := Option.ne_none_iff_exists'.mp hev
    refine (Pair.run_stopsOnce (hl.of_step hstep) hrun).2.eq_of_fin ?_
    simp only [Pair.step, Event.atStream, Bool.false_eq_true, if_false, ha, if_true] at hstep
    cases hc : p.ctx.handleCallback (.data bytes event) with
    | none => simp [Pair.stepContext, hc] at hstep
    | some c' =>
      obtain rfl := Option.some.inj ((Pair.stepContext_callback hc).symm.trans hstep)
      exact handleCallback_fin hmsg hc

/-- Data, an empty payload, data with a `fin`, and data too late, polled in between; the
application is told two items and the end. -/
theorem receiving_is_exact_of_fin : HasRecvHalf 4 true ∧ ∃ p, (new 4 true).run
      [.callback (.data [1, 2] .other), .pollStream, .callback (.data [] .other), .pollStream,
        .callback (.data [3] .streamFin), .callback (.data [4] .other), .pollStream,
        .connectionClose, .pollStream] = some p ∧ p.ctx.stopSendings ≤ 1 ∧
      upToEnd p.outcomes <+: [.item [1, 2], .item [3], .none false] := by
  obtain ⟨hrun, hall⟩ := @receiving_is_exact 4 true (by decide)
    [.callback (.data [1, 2] .other), .pollStream, .callback (.data [] .other), .pollStream,
      .callback (.data [3] .streamFin), .callback (.data [4] .other), .pollStream,
      .connectionClose, .pollStream]
  obtain ⟨p, hp⟩ := hrun (by simp [Event.isNull, Callback.isNull])
  obtain ⟨htold, hstops, -⟩ := hall p hp
  exact ⟨by decide, p, hp, hstops, (htold (by simp)).1⟩

end Streams

end PicoquicRs
