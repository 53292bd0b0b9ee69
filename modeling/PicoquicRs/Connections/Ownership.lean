import PicoquicRs.Connections.Steps
import PicoquicRs.Lib.Total

/-!
# Who has the streams

A `Stream` is an object that somebody has, and that is dropped when nobody has it any more.
From its creation on it is in one of three places: announced to the `Connection` and not polled
yet, the answer to a request and not polled yet, or in the hands of the application. A place
that goes away – a receiver that is dropped with what is queued there, a `Connection` nobody
waits for, an answer nobody waits for – drops the streams it has.

Hence no stream is lost, and none is handed out twice: in every run, the streams created are
those in the three places and those that were dropped, each of them once
(`PicoquicRs.Connections.Ends.streams_have_one_place`).
-/

namespace PicoquicRs

namespace Connections

open Futures

/-- The stream in an answer. -/
def streamIn : Option (Except Error StreamRef) → Multiset StreamRef
  | some (.ok k) => {k}
  | _ => 0

/-- The stream in an outcome of a poll of the `Connection`. -/
def Outcome.streamIn : Option Outcome → Multiset StreamRef
  | some (.stream k) => {k}
  | _ => 0

/-- The stream that waits in the channel of an answer. -/
def slot (o : Oneshot (Except Error StreamRef)) : Multiset StreamRef := streamIn o.value

@[simp] theorem slot_new : slot Oneshot.new = 0 := rfl

@[simp] theorem slot_dropReceiver (o : Oneshot (Except Error StreamRef)) :
    slot o.dropReceiver = 0 := rfl

@[simp] theorem slot_send_error (o : Oneshot (Except Error StreamRef)) (err : Error) :
    slot (o.send (.error err)) = 0 := by
  rw [slot, Oneshot.send]
  cases o.receiver <;> rfl

@[simp] theorem slot_send_ok (o : Oneshot (Except Error StreamRef)) (k : StreamRef) :
    slot (o.send (.ok k)) = if o.receiver then {k} else 0 := by
  rw [slot, Oneshot.send]
  cases o.receiver <;> rfl

/-- What is polled was in the channel, which is empty then. -/
theorem slot_poll (o : Oneshot (Except Error StreamRef)) :
    slot o.poll.2 = 0 ∧ slot o = match o.poll.1 with
      | .ok (.ready a) => streamIn (some a)
      | _ => 0 := by
  rw [slot, slot, Oneshot.poll]
  cases hv : o.value with
  | none => cases o.pending <;> exact ⟨by simp [streamIn], rfl⟩
  | some a => exact ⟨rfl, rfl⟩

/-- The stream is dropped for good. -/
theorem Entry.Later.stream_eq_none {en en' : Entry} (h : en.Later en')
    (hs : en.pair.stream = none) : en'.pair.stream = none := by
  obtain ⟨es, -, hrun⟩ := h.run
  exact Trace.run_keeps (P := fun p : Streams.Pair => p.stream = none)
    (fun _ _ _ _ hs hstep => (Streams.Pair.step_of_stream_eq_none hs hstep).1) hs hrun

namespace Context

variable {c c' : Context} {k : StreamRef} {r : RequestRef}
  {handed handed' gone new : Multiset StreamRef}

/-! ### Dropped streams -/

/-- **The stream was dropped.** -/
def Dropped (c : Context) (k : StreamRef) : Prop :=
  ∀ en, c.streams[k]? = some en → en.pair.stream = none

theorem Dropped.later (h : c.Dropped k) (hl : Laters c.streams c'.streams) : c'.Dropped k := by
  intro en' hk'
  have hlt : k < c.streams.length := by
    rw [hl.length_eq]
    exact (List.getElem?_eq_some_iff.mp hk').choose
  obtain ⟨en, hk, hen⟩ := hl.getElem? (List.getElem?_eq_getElem hlt)
  obtain rfl : en = en' := Option.some.inj (hk.symm.trans hk')
  exact hen.stream_eq_none (h _ (List.getElem?_eq_getElem hlt))

theorem Dropped.insertStream (h : c.Dropped k) (hk : k < c.streams.length) (id : Id)
    (requested : Bool) : (c.insertStream id requested).Dropped k := by
  intro en hen
  rw [Context.insertStream, List.getElem?_append_left hk] at hen
  exact h en hen

theorem atStream_dropped (h : c.atStream k .dropStream = some c') : c'.Dropped k := by
  intro en hen
  rw [atStream] at h
  split at h
  · rename_i en₀ hk
    obtain ⟨en₁, hen₁, h⟩ := Option.bind_eq_some_iff.mp h
    obtain rfl := Option.some.inj h
    obtain ⟨pair, hp, hen₁⟩ := Option.bind_eq_some_iff.mp hen₁
    obtain rfl := Option.some.inj hen₁
    have hlt := (List.getElem?_eq_some_iff.mp hk).choose
    rw [List.getElem?_set_self hlt] at hen
    obtain rfl := Option.some.inj hen
    exact Streams.Pair.step_dropStream hp
  · rename_i hk
    obtain rfl := Option.some.inj h
    rw [hk] at hen
    cases hen

theorem dropStreams_dropped {ks : List StreamRef}
    (h : ks.foldlM (atStream · · .dropStream) c = some c') : ∀ k ∈ ks, c'.Dropped k := by
  induction ks generalizing c with
  | nil => simp
  | cons k ks ih =>
    rw [List.foldlM_cons] at h
    obtain ⟨c₁, hc₁, h⟩ := Option.bind_eq_some_iff.mp h
    obtain ⟨streams, rfl, hl⟩ := dropStreams_spec h
    intro k' hk'
    rcases List.mem_cons.mp hk' with rfl | hk'
    · exact (atStream_dropped hc₁).later hl
    · exact ih h k' hk'

/-! ### The streams on their way -/

@[simp] theorem streamsOf_append (l l' : List Message) :
    streamsOf (l ++ l') = streamsOf l ++ streamsOf l' := List.filterMap_append

/-- **The streams on their way to the application**: those announced to the `Connection`, and
the answers to requests. -/
def underWay (c : Context) : Multiset StreamRef :=
  ↑(streamsOf c.sendMsg.queue) + c.answers.total slot

/-- **Every stream has its place**: it was handed to the application, is on its way, or was
dropped; and it is there once. -/
def Placed (c : Context) (handed : Multiset StreamRef) : Prop :=
  ∃ gone, handed + c.underWay + gone = Multiset.range c.streams.length ∧ ∀ k ∈ gone, c.Dropped k

/-- What is not in its place any more was dropped, and a new stream gets one. -/
theorem Placed.move (h : c.Placed handed)
    (hd : ∀ k < c.streams.length, c.Dropped k → c'.Dropped k)
    (hn : Multiset.range c'.streams.length = Multiset.range c.streams.length + new)
    (heq : handed' + c'.underWay + gone = handed + c.underWay + new)
    (hgone : ∀ k ∈ gone, c'.Dropped k) : c'.Placed handed' := by
  obtain ⟨gone₀, hall, hgone₀⟩ := h
  refine ⟨gone + gone₀, ?_, ?_⟩
  · rw [hn, ← hall, ← add_assoc, heq]
    ac_rfl
  · intro k hk
    rcases Multiset.mem_add.mp hk with hk | hk
    · exact hgone k hk
    · have hle : k ∈ Multiset.range c.streams.length := by
        rw [← hall]
        exact Multiset.mem_add.mpr (Or.inr hk)
      exact hd k (Multiset.mem_range.mp hle) (hgone₀ k hk)

/-- The streams are the same as before. -/
theorem Placed.same (h : c.Placed handed) (gone : Multiset StreamRef)
    (hl : Laters c.streams c'.streams)
    (heq : handed' + c'.underWay + gone = handed + c.underWay)
    (hgone : ∀ k ∈ gone, c'.Dropped k) : c'.Placed handed' := by
  refine h.move (fun k _ hd => hd.later hl) ?_ (heq.trans (add_zero _).symm) hgone
  rw [hl.length_eq, add_zero]

/-- One stream was made. -/
theorem Placed.insertStream (h : c.Placed handed) (gone : Multiset StreamRef) {id : Id}
    {requested : Bool} (hl : Laters (c.insertStream id requested).streams c'.streams)
    (heq : handed' + c'.underWay + gone = handed + c.underWay + {c.streams.length})
    (hgone : ∀ k ∈ gone, c'.Dropped k) : c'.Placed handed' := by
  refine h.move (fun k hk hd => (hd.insertStream hk id requested).later hl) ?_ heq hgone
  rw [← hl.length_eq, Context.insertStream, List.length_append, List.length_singleton,
    Multiset.range_succ, add_comm, Multiset.singleton_add]

/-- **The requests in the queue wait**: each has a channel of its own, with nothing in it. -/
structure Waits (c : Context) : Prop where
  distinct : (c.recvCreateStream.chan.queue.map Prod.snd).Nodup
  old : ∀ request ∈ c.recvCreateStream.chan.queue, request.2 < c.answers.next
  empty : ∀ request ∈ c.recvCreateStream.chan.queue, slot (c.answers.cell request.2) = 0
  blank : ∀ r, c.answers.next ≤ r → slot (c.answers.cell r) = 0

theorem Waits.of_eq (h : c.Waits)
    (hq : c'.recvCreateStream.chan.queue = c.recvCreateStream.chan.queue)
    (hn : c'.answers.next = c.answers.next)
    (ha : ∀ r, slot (c.answers.cell r) = 0 → slot (c'.answers.cell r) = 0) : c'.Waits where
  distinct := by rw [hq]; exact h.distinct
  old := by rw [hq, hn]; exact h.old
  empty := by rw [hq]; exact fun request hr => ha _ (h.empty request hr)
  blank := by rw [hn]; exact fun r hr => ha r (h.blank r hr)

/-- Nothing waits in a queue that is empty. -/
theorem Waits.of_nil (h : c.Waits) (hq : c'.recvCreateStream.chan.queue = [])
    (hn : c'.answers.next = c.answers.next)
    (ha : ∀ r, slot (c.answers.cell r) = 0 → slot (c'.answers.cell r) = 0) : c'.Waits where
  distinct := by simp [hq]
  old := by simp [hq]
  empty := by simp [hq]
  blank := by rw [hn]; exact fun r hr => ha r (h.blank r hr)

/-- An answer is taken out of its channel, or dropped with it. -/
theorem Waits.total_modify (h : c.Waits)
    {g : Oneshot (Except Error StreamRef) → Oneshot (Except Error StreamRef)}
    (hg : slot (g (c.answers.cell r)) = 0) :
    (c.answers.modify r g).total slot + slot (c.answers.cell r) = c.answers.total slot := by
  rcases lt_or_ge r c.answers.next with hr | hr
  · rw [Store.total_modify _ hr, hg, add_zero]
  · have hblank := h.blank r hr
    rw [Store.total_modify_of_eq _ (hg.trans hblank.symm), hblank, add_zero]

/-! ### The functions of the context -/

/-- **All streams are accounted for.** -/
structure Accounted (c : Context) (handed : Multiset StreamRef) : Prop where
  placed : c.Placed handed
  waits : c.Waits

namespace Accounted

/-- Neither the messages nor the requests have changed. -/
theorem frame (h : c.Accounted handed) (hl : Laters c.streams c'.streams)
    (hs : streamsOf c'.sendMsg.queue = streamsOf c.sendMsg.queue)
    (hq : c'.recvCreateStream.chan.queue = c.recvCreateStream.chan.queue)
    (ha : c'.answers = c.answers) : c'.Accounted handed where
  placed := by
    refine h.placed.same 0 hl ?_ (by simp)
    rw [underWay, hs, ha, underWay, add_zero]
  waits := h.waits.of_eq hq (by rw [ha]) (by rw [ha]; exact fun _ h => h)

theorem eachContext (h : c.Accounted handed) {sel : Entry → Bool} {e : Streams.Event}
    (hc : c.eachContext sel e = some c') : c'.Accounted handed := by
  obtain ⟨streams, rfl, hl⟩ := eachContext_spec hc
  exact h.frame hl rfl rfl rfl

theorem atStream (h : c.Accounted handed) {e : Streams.Event} (hc : c.atStream k e = some c') :
    c'.Accounted handed := by
  obtain ⟨streams, rfl, hl⟩ := atStream_spec hc
  exact h.frame hl rfl rfl rfl

/-- A message other than a stream is sent. -/
theorem send_frame (h : c.Accounted handed) {msg : Message} (hmsg : streamsOf [msg] = []) :
    { c with sendMsg := if c.sendMsg.isOpen then c.sendMsg.push msg else c.sendMsg }.Accounted
      handed := by
  refine h.frame (.refl _) ?_ rfl rfl
  cases c.sendMsg.isOpen with
  | true => exact (streamsOf_append _ _).trans (by rw [hmsg, List.append_nil])
  | false => rfl

/-- **A `Connection` is dropped**, and the streams announced to it. -/
theorem dropConnection (h : c.Accounted handed) (hc : c.dropConnection = some c') :
    c'.Accounted handed := by
  obtain ⟨c₁, hc₁, hc⟩ := Option.bind_eq_some_iff.mp hc
  obtain rfl := Option.some.inj hc
  have hgone := dropStreams_dropped hc₁
  obtain ⟨streams, rfl, hl⟩ := dropStreams_spec hc₁
  refine ⟨h.placed.same (↑(streamsOf c.sendMsg.queue)) hl ?_ ?_, ?_⟩
  · rw [underWay, underWay]
    change handed + (↑([] : List StreamRef) + c.answers.total slot) + _ = _
    rw [Multiset.coe_nil, zero_add]
    ac_rfl
  · exact fun k hk => hgone k (Multiset.mem_coe.mp hk)
  · exact h.waits.of_eq rfl rfl fun _ h => h

/-- **A callback for a stream** announces it if it is new, or drops it if there is no
`Connection`. -/
theorem handleStreamCallback (h : c.Accounted handed) {id : Id} {cb : Streams.Callback}
    (hc : c.handleStreamCallback id cb = some c') : c'.Accounted handed := by
  rw [Context.handleStreamCallback] at hc
  split at hc
  · exact h.eachContext hc
  obtain ⟨c₁, hc₁, hc⟩ := Option.bind_eq_some_iff.mp hc
  obtain ⟨streams, rfl, hl⟩ := atStream_spec hc₁
  have hsend : (c.insertStream id false).sendMsg = c.sendMsg := rfl
  cases ho : c.sendMsg.isOpen with
  | true =>
    rw [hsend, Chan.unboundedSend_of_open ho] at hc
    obtain rfl := Option.some.inj hc
    refine ⟨h.placed.insertStream 0 hl ?_ (by simp), h.waits.of_eq rfl rfl fun _ h => h⟩
    have hq : streamsOf (c.sendMsg.queue ++ [.newStream c.streams.length]) =
        streamsOf c.sendMsg.queue ++ [c.streams.length] := streamsOf_append _ _
    change handed + (↑(streamsOf (c.sendMsg.queue ++ [.newStream c.streams.length])) +
      c.answers.total slot) + 0 = _
    rw [hq, underWay, ← Multiset.coe_add, Multiset.coe_singleton, add_zero]
    ac_rfl
  | false =>
    rw [hsend, Chan.unboundedSend_of_closed ho] at hc
    have hgone := atStream_dropped hc
    obtain ⟨streams', rfl, hl'⟩ := atStream_spec hc
    refine ⟨h.placed.insertStream {c.streams.length} (hl.trans hl') rfl ?_,
      h.waits.of_eq rfl rfl fun _ h => h⟩
    intro k hk
    rw [Multiset.mem_singleton.mp hk]
    exact hgone

/-- The `Connection` that was held back goes out, or is dropped. -/
theorem processWaitForReadyState (h : c.Accounted handed)
    (hc : c.processWaitForReadyState = some c') : c'.Accounted handed := by
  obtain ⟨-, c₁, hc₁, hcase⟩ := processWaitForReadyState_spec hc
  have h₁ : c₁.Accounted handed := by
    rw [hc₁]
    exact h.frame (.refl _) rfl rfl rfl
  rcases hcase with ⟨-, rfl⟩ | ⟨-, hdrop⟩
  · exact h₁
  · exact h₁.dropConnection hdrop

theorem handleCallback (h : c.Accounted handed) {cb : Callback}
    (hc : c.handleCallback cb = some c') : c'.Accounted handed := by
  have hvoid : some c = some c' → c'.Accounted handed := by
    intro hc
    obtain rfl := Option.some.inj hc
    exact h
  cases cb with
  | almostReady =>
    rw [Context.handleCallback] at hc
    split at hc
    · exact h.processWaitForReadyState hc
    · exact hvoid hc
  | stream id scb =>
    rw [Context.handleCallback] at hc
    split at hc
    · exact h.handleStreamCallback hc
    · exact hvoid hc

/-- **A request is made**: it waits for its answer, or has an error for one. -/
theorem newStreamHandle (h : c.Accounted handed) (stype : SType) :
    (c.newStreamHandle stype).Accounted handed := by
  have halloc : ∀ r ≠ c.answers.next, (c.answers.alloc Oneshot.new).cell r = c.answers.cell r :=
    fun r hr => Store.alloc_cell_of_ne _ _ hr
  have htotal : (c.answers.alloc Oneshot.new).total slot = c.answers.total slot := by
    rw [Store.total_alloc, slot_new, add_zero]
  rcases newStreamHandle_spec c stype with ⟨-, hc⟩ | ⟨-, hc⟩
  · rw [hc]
    refine ⟨h.placed.same 0 (.refl _) ?_ (by simp), ?_, ?_, ?_, ?_⟩
    · rw [underWay, underWay, htotal, add_zero]
    · rw [Chan.push_queue, List.map_append, List.nodup_append]
      refine ⟨h.waits.distinct, List.nodup_singleton _, ?_⟩
      rintro r hr r' hr' rfl
      obtain ⟨request, hmem, rfl⟩ := List.mem_map.mp hr
      have hlt := h.waits.old request hmem
      rw [List.mem_singleton.mp hr'] at hlt
      exact lt_irrefl _ hlt
    · intro request hr
      rcases List.mem_append.mp hr with hr | hr
      · exact Nat.lt_succ_of_lt (h.waits.old request hr)
      · rw [List.mem_singleton.mp hr]
        exact Nat.lt_succ_self _
    · intro request hr
      rcases List.mem_append.mp hr with hr | hr
      · change slot ((c.answers.alloc Oneshot.new).cell request.2) = 0
        rw [halloc _ (h.waits.old request hr).ne, h.waits.empty request hr]
      · rw [List.mem_singleton.mp hr]
        change slot ((c.answers.alloc Oneshot.new).cell c.answers.next) = 0
        rw [Store.alloc_cell_self, slot_new]
    · intro r hr
      change slot ((c.answers.alloc Oneshot.new).cell r) = 0
      rw [halloc r (Nat.lt_of_succ_le hr).ne', h.waits.blank r (Nat.le_of_succ_le hr)]
  · rw [hc]
    have hcell : ∀ err r, slot (((c.answers.alloc Oneshot.new).modify c.answers.next
        (Oneshot.send · (.error err))).cell r) = slot ((c.answers.alloc Oneshot.new).cell r) := by
      intro err r
      refine Store.modify_cell_congr _ _ slot ?_ r
      rw [slot_send_error, Store.alloc_cell_self, slot_new]
    have htotal' : ∀ err, ((c.answers.alloc Oneshot.new).modify c.answers.next
        (Oneshot.send · (.error err))).total slot = c.answers.total slot :=
      fun err => (Store.total_congr _ (Store.modify_next _ _ _) (hcell err)).trans htotal
    refine ⟨h.placed.same 0 (.refl _) ?_ (by simp), h.waits.distinct, ?_, ?_, ?_⟩
    · rw [add_zero]
      exact congrArg (fun m => handed + (↑(streamsOf c.sendMsg.queue) + m)) (htotal' _)
    · exact fun request hr => Nat.lt_succ_of_lt (h.waits.old request hr)
    · intro request hr
      refine (hcell _ _).trans ?_
      rw [halloc _ (h.waits.old request hr).ne, h.waits.empty request hr]
    · intro r hr
      refine (hcell _ _).trans ?_
      rw [halloc r (Nat.lt_of_succ_le hr).ne', h.waits.blank r (Nat.le_of_succ_le hr)]

/-- **The answer to a request is polled**, and handed to the application. -/
theorem pollRequest (h : c.Accounted handed) (r : RequestRef) :
    (c.pollRequest r).2.Accounted (handed + streamIn (c.pollRequest r).1) := by
  obtain ⟨hslot, hgot⟩ := slot_poll (c.answers.cell r)
  have hctx : (c.pollRequest r).2 =
      { c with answers := c.answers.modify r fun _ => (c.answers.cell r).poll.2 } := by
    simp only [Context.pollRequest]
    split <;> rfl
  have hout : streamIn (c.pollRequest r).1 = slot (c.answers.cell r) := by
    rw [hgot]
    simp only [Context.pollRequest]
    split <;> rename_i hp <;> rw [hp] <;> rfl
  rw [hout, hctx]
  refine ⟨h.placed.same 0 (.refl _) ?_ (by simp), h.waits.of_eq rfl rfl ?_⟩
  · rw [underWay, underWay, ← h.waits.total_modify (g := fun _ => (c.answers.cell r).poll.2) hslot]
    ac_rfl
  · intro r' h0
    rcases eq_or_ne r' r with rfl | hne
    · rw [Store.modify_cell_self, hslot]
    · rw [Store.modify_cell_of_ne _ _ hne, h0]

/-- **An answer is dropped**, and the stream in it. -/
theorem dropRequest (h : c.Accounted handed) (hc : c.dropRequest r = some c') :
    c'.Accounted handed := by
  have hwaits : { c with answers := c.answers.modify r Oneshot.dropReceiver }.Waits :=
    h.waits.of_eq rfl rfl fun r' h0 => by
      rcases eq_or_ne r' r with rfl | hne
      · rw [Store.modify_cell_self, slot_dropReceiver]
      · rw [Store.modify_cell_of_ne _ _ hne, h0]
  have htotal := h.waits.total_modify (g := Oneshot.dropReceiver) (slot_dropReceiver
    (c.answers.cell r))
  simp only [Context.dropRequest] at hc
  split at hc
  · rename_i k hv
    have hslot : slot (c.answers.cell r) = {k} := by rw [slot, hv, streamIn]
    have hgone := atStream_dropped hc
    obtain ⟨streams, rfl, hl⟩ := atStream_spec hc
    refine ⟨h.placed.same {k} hl ?_ ?_, hwaits.of_eq rfl rfl fun _ h => h⟩
    · rw [underWay, underWay, ← htotal, hslot]
      ac_rfl
    · intro k' hk'
      rw [Multiset.mem_singleton.mp hk']
      exact hgone
  · rename_i hv
    obtain rfl := Option.some.inj hc
    have hslot : slot (c.answers.cell r) = 0 := by
      rw [slot, streamIn]
      exact hv
    refine ⟨h.placed.same 0 (.refl _) ?_ (by simp), hwaits⟩
    rw [underWay, underWay, ← htotal, hslot]
    ac_rfl

/-- **A message is polled**; if it is a stream, it is handed to the application. -/
theorem pollConnection (h : c.Accounted handed) :
    c.pollConnection.2.Accounted (handed + Outcome.streamIn c.pollConnection.1) := by
  have hctx : c.pollConnection.2 = { c with sendMsg := c.sendMsg.poll.2 } := by
    simp only [Context.pollConnection]
    split <;> rename_i hp <;> rw [hp]
    split <;> rfl
  have hout : Outcome.streamIn c.pollConnection.1 + ↑(streamsOf c.sendMsg.poll.2.queue) =
      (↑(streamsOf c.sendMsg.queue) : Multiset StreamRef) := by
    cases hq : c.sendMsg.queue with
    | nil =>
      rw [Chan.poll_queue, hq, List.tail_nil]
      cases he : c.sendMsg.isEnded with
      | true =>
        rw [Context.pollConnection, Chan.poll_of_ended hq he]
        exact zero_add _
      | false =>
        rw [Context.pollConnection, Chan.poll_of_waiting hq he]
        exact zero_add _
    | cons msg q =>
      rw [Context.pollConnection, Chan.poll_of_cons hq]
      cases msg with
      | newStream k => exact Multiset.singleton_add _ _
      | close | error err => exact zero_add _
  rw [hctx]
  refine ⟨h.placed.same 0 (.refl _) ?_ (by simp), h.waits.of_eq rfl rfl fun _ h => h⟩
  rw [underWay, underWay, ← hout]
  ac_rfl

/-- **A request is answered with a stream** that is made for it; if nobody waits for the answer,
the stream is dropped. -/
theorem createStream (h : c.Accounted handed) {stype : SType} {q : List (SType × RequestRef)}
    (hq : c.recvCreateStream.chan.queue = (stype, r) :: q)
    (hc : (c.createStream stype).answer r (.ok c.streams.length) = some c') :
    c'.Accounted handed := by
  have hold : r < c.answers.next := h.waits.old (stype, r) (by simp [hq])
  have hempty : slot (c.answers.cell r) = 0 := h.waits.empty (stype, r) (by simp [hq])
  have hdistinct := h.waits.distinct
  rw [hq, List.map_cons, List.nodup_cons] at hdistinct
  have hqueue : (c.createStream stype).recvCreateStream.chan.queue = q := by
    refine Chan.poll_queue.trans ?_
    rw [hq, List.tail_cons]
  -- the other channels are not touched
  have hcell : ∀ r' ≠ r, (c.answers.modify r (Oneshot.send · (.ok c.streams.length))).cell r' =
      c.answers.cell r' := fun r' hr => Store.modify_cell_of_ne _ _ hr
  have hwaits : ∀ c₂ : Context, c₂.recvCreateStream.chan.queue = q →
      c₂.answers = c.answers.modify r (Oneshot.send · (.ok c.streams.length)) → c₂.Waits := by
    intro c₂ hq₂ ha₂
    refine ⟨by rw [hq₂]; exact hdistinct.2, ?_, ?_, ?_⟩
    · intro request hr
      rw [ha₂]
      exact h.waits.old request (by rw [hq]; exact List.mem_cons_of_mem _ (hq₂ ▸ hr))
    · intro request hr
      rw [hq₂] at hr
      have hne : request.2 ≠ r := by
        intro heq
        exact hdistinct.1 (List.mem_map.mpr ⟨request, hr, heq⟩)
      rw [ha₂, hcell _ hne]
      exact h.waits.empty request (by rw [hq]; exact List.mem_cons_of_mem _ hr)
    · intro r' hr
      rw [ha₂] at hr ⊢
      rw [hcell _ (hold.trans_le hr).ne']
      exact h.waits.blank r' hr
  have htotal := Store.total_modify (f := slot) (g := (Oneshot.send · (.ok c.streams.length)))
    c.answers hold
  rw [hempty, add_zero, slot_send_ok] at htotal
  have hans : (c.createStream stype).answers = c.answers := rfl
  simp only [answer, hans] at hc
  split at hc
  · rename_i hwaiting
    obtain rfl := Option.some.inj hc
    rw [if_pos hwaiting] at htotal
    refine ⟨h.placed.insertStream 0 (.refl _) ?_ (by simp), hwaits _ hqueue rfl⟩
    change handed + (↑(streamsOf c.sendMsg.queue) + Store.total _ slot) + 0 = _
    rw [htotal, underWay, add_zero]
    ac_rfl
  · rename_i hwaiting
    have hgone := atStream_dropped hc
    obtain ⟨streams, rfl, hl⟩ := atStream_spec hc
    rw [if_neg hwaiting, add_zero] at htotal
    refine ⟨h.placed.insertStream {c.streams.length} hl ?_ ?_, hwaits _ hqueue rfl⟩
    · change handed + (↑(streamsOf c.sendMsg.queue) + Store.total _ slot) + _ = _
      rw [htotal]
      rfl
    · intro k hk
      rw [Multiset.mem_singleton.mp hk]
      exact hgone

theorem checkCreateStreamRequests (h : c.Accounted handed)
    (hc : c.checkCreateStreamRequests = some c') : c'.Accounted handed := by
  suffices hloop : ∀ (fuel : ℕ) (c : Context), c.recvCreateStream.chan.queue.length < fuel →
      c.Accounted handed → createLoop fuel c = some c' → c'.Accounted handed from
    hloop _ c (Nat.lt_succ_self _) h hc
  intro fuel
  induction fuel with
  | zero => exact fun c hlt => absurd hlt (Nat.not_lt_zero _)
  | succ fuel ih =>
    intro c hlt h hc
    cases hq : c.recvCreateStream.chan.queue with
    | nil =>
      rw [createLoop_nil hq] at hc
      obtain rfl := Option.some.inj hc
      refine h.frame (.refl _) rfl ?_ rfl
      exact Chan.poll_queue.trans (by rw [hq]; rfl)
    | cons request q =>
      obtain ⟨stype, r⟩ := request
      rw [createLoop_cons hq] at hc
      split at hc
      · cases hc
      · obtain ⟨c₁, hc₁, hc⟩ := Option.bind_eq_some_iff.mp hc
        refine ih c₁ ?_ (h.createStream hq hc₁) hc
        obtain ⟨streams, rfl, -⟩ := answer_spec hc₁
        change c.recvCreateStream.poll.2.chan.queue.length < fuel
        rw [ErrorChan.poll_queue, hq, List.tail_cons]
        rw [hq, List.length_cons] at hlt
        exact Nat.lt_of_succ_lt_succ hlt

theorem close (h : c.Accounted handed) (hc : c.close = some c') : c'.Accounted handed := by
  obtain ⟨streams, rfl, hl⟩ := close_spec hc
  exact (h.send_frame (by rfl : streamsOf [.close] = [])).frame hl rfl rfl rfl

/-- Requests that wait can be turned down: no stream is there to be lost. -/
theorem foldl_modify {g : Oneshot (Except Error StreamRef) → Oneshot (Except Error StreamRef)}
    (hg : ∀ o, slot o = 0 → slot (g o) = 0) {queue : List (SType × RequestRef)}
    {answers : Store (Oneshot (Except Error StreamRef))}
    (hq : ∀ request ∈ queue, slot (answers.cell request.2) = 0) :
    (queue.foldl (fun h request => Store.modify h request.2 g) answers).next = answers.next ∧
      ∀ r, slot ((queue.foldl (fun h request => Store.modify h request.2 g) answers).cell r) =
        slot (answers.cell r) := by
  induction queue generalizing answers with
  | nil => exact ⟨rfl, fun _ => rfl⟩
  | cons request queue ih =>
    have hhead := hq request List.mem_cons_self
    have hcell : ∀ r, slot ((answers.modify request.2 g).cell r) = slot (answers.cell r) :=
      fun r => Store.modify_cell_congr _ _ slot ((hg _ hhead).trans hhead.symm) r
    have hrest : ∀ request' ∈ queue, slot ((answers.modify request.2 g).cell request'.2) = 0 :=
      fun request' hr => (hcell _).trans (hq request' (List.mem_cons_of_mem _ hr))
    obtain ⟨hn, hc⟩ := ih hrest
    exact ⟨hn, fun r => (hc r).trans (hcell r)⟩

/-- The answers show the same streams, and no request waits any more. -/
theorem of_nil (h : c.Accounted handed) (hl : Laters c.streams c'.streams)
    (hs : streamsOf c'.sendMsg.queue = streamsOf c.sendMsg.queue)
    (hq : c'.recvCreateStream.chan.queue = []) (hn : c'.answers.next = c.answers.next)
    (ha : ∀ r, slot (c'.answers.cell r) = slot (c.answers.cell r)) : c'.Accounted handed where
  placed := by
    refine h.placed.same 0 hl ?_ (by simp)
    rw [underWay, hs, Store.total_congr _ hn ha, underWay, add_zero]
  waits := h.waits.of_nil hq hn fun r h0 => (ha r).trans h0

theorem checkAndHandleError (h : c.Accounted handed) {codes : Codes}
    (hc : c.checkAndHandleError codes = some c') : c'.Accounted handed := by
  cases herr : codes.error.1 with
  | none =>
    obtain rfl := checkAndHandleError_none herr hc
    exact h.frame (.refl _) rfl rfl rfl
  | some err =>
    obtain ⟨streams, chan, c₁, hl, hempty, -, hc₁, hcase⟩ := checkAndHandleError_found herr hc
    have h₁ : c₁.Accounted handed := by
      obtain ⟨hn, ha⟩ := foldl_modify (g := (Oneshot.send · (.error err)))
        (fun o _ => slot_send_error o err) h.waits.empty
      rw [hc₁]
      exact h.of_nil hl rfl hempty hn ha
    rcases hcase with ⟨-, hdrop⟩ | ⟨-, rfl⟩
    · refine dropConnection ?_ hdrop
      exact h₁.frame (.refl _) rfl rfl rfl
    · have hsend : c.sendMsg = c₁.sendMsg := by rw [hc₁]
      rw [hsend]
      exact h₁.send_frame rfl

theorem handleClose (h : c.Accounted handed) {codes : Codes}
    (hc : c.handleClose codes = some c') : c'.Accounted handed := by
  obtain ⟨c₁, hc₁, hc⟩ := Option.bind_eq_some_iff.mp hc
  exact (h.checkAndHandleError hc₁).close hc

theorem poll (h : c.Accounted handed) {a : Async Unit} (hc : c.poll = some (a, c')) :
    c'.Accounted handed := by
  rcases poll_spec hc with ⟨-, rfl⟩ | ⟨-, streams, c₂, hl, hc₂, hend⟩
  · exact h
  · have h₁ : { c with streams }.Accounted handed := h.frame hl rfl rfl rfl
    have h₂ := h₁.checkCreateStreamRequests hc₂
    have h₃ : { c₂ with closeRecv := c₂.closeRecv.poll.2 }.Accounted handed :=
      h₂.frame (.refl _) rfl rfl rfl
    rcases hend with ⟨-, hclose⟩ | ⟨-, rfl⟩
    · exact h₃.close hclose
    · exact h₃

theorem drop (h : c.Accounted handed) (hc : c.drop = some c') : c'.Accounted handed := by
  obtain ⟨streams, c₁, hl, hcase, rfl⟩ := drop_spec hc
  have h₁ : c₁.Accounted handed := by
    rcases hcase with ⟨-, hdrop⟩ | ⟨-, rfl⟩
    · refine dropConnection ?_ hdrop
      exact h.frame hl rfl rfl rfl
    · exact h.frame hl rfl rfl rfl
  obtain ⟨hn, ha⟩ := foldl_modify (g := Oneshot.dropSender) (fun o h => h) h₁.waits.empty
  exact h₁.of_nil (.refl _) rfl rfl hn ha

end Accounted

end Context

/-! ### Runs -/

namespace Ends

open Context

variable {p p' : Ends} {e : Event} {isClient : Bool}

/-- **The streams the application was handed**, by polls of the `Connection` and of the answers
to its requests. -/
def handed (p : Ends) : Multiset StreamRef :=
  (p.outcomes.map fun o => Outcome.streamIn (some o)).sum +
    (p.resolved.map fun answer => streamIn (some answer.2)).sum

theorem new_accounted : (new isClient).ctx.Accounted (new isClient).handed where
  placed := ⟨0, rfl, by simp⟩
  waits := ⟨List.nodup_nil, fun _ hr => absurd hr List.not_mem_nil,
    fun _ hr => absurd hr List.not_mem_nil, fun _ _ => rfl⟩

theorem handed_resolved (p : Ends) (ctx : Context) (r : RequestRef)
    (a : Option (Except Error StreamRef)) :
    { p with ctx, resolved := p.resolved ++ (a.map fun a => (r, a)).toList }.handed =
      p.handed + streamIn a := by
  cases a with
  | none => simp [handed, streamIn]
  | some a => simp [handed, add_assoc]

theorem handed_outcomes (p : Ends) (ctx : Context) (o : Option Outcome) :
    { p with ctx, outcomes := p.outcomes ++ o.toList }.handed =
      p.handed + Outcome.streamIn o := by
  cases o with
  | none => simp [handed, Outcome.streamIn]
  | some o => simp [handed, add_right_comm]

theorem stepApplication_accounted (h : p.ctx.Accounted p.handed)
    (hstep : p.stepApplication e = some p') : p'.ctx.Accounted p'.handed := by
  have hvoid : some p = some p' → p'.ctx.Accounted p'.handed := by
    intro hstep
    obtain rfl := Option.some.inj hstep
    exact h
  cases e with
  | newStream stype =>
    simp only [stepApplication] at hstep
    split at hstep
    · obtain rfl := Option.some.inj hstep
      exact h.newStreamHandle stype
    · exact hvoid hstep
  | cloneHandle =>
    simp only [stepApplication] at hstep
    split at hstep
    · obtain rfl := Option.some.inj hstep
      exact h.frame (.refl _) rfl rfl rfl
    · exact hvoid hstep
  | dropHandle =>
    simp only [stepApplication] at hstep
    split at hstep
    · obtain rfl := Option.some.inj hstep
      exact h.frame (.refl _) rfl rfl rfl
    · exact hvoid hstep
  | pollRequest r =>
    obtain rfl := Option.some.inj hstep
    rw [handed_resolved]
    exact h.pollRequest r
  | dropRequest r =>
    obtain ⟨c, hc, hstep⟩ := Option.bind_eq_some_iff.mp hstep
    obtain rfl := Option.some.inj hstep
    exact h.dropRequest hc
  | pollCreated =>
    obtain ⟨a, c, hp⟩ : ∃ a c, p.ctx.pollCreated = (a, c) := ⟨_, _, rfl⟩
    obtain ⟨created, hc, -⟩ := pollCreated_frame p.ctx
    simp only [stepApplication, hp] at hstep
    rw [hp] at hc
    obtain rfl : c = _ := hc
    obtain rfl := Option.some.inj hstep
    exact h.frame (.refl _) rfl rfl rfl
  | dropCreated =>
    obtain ⟨c, hc, hstep⟩ := Option.bind_eq_some_iff.mp hstep
    obtain rfl := Option.some.inj hstep
    simp only [dropCreated] at hc
    split at hc
    · refine Accounted.dropConnection ?_ hc
      exact h.frame (.refl _) rfl rfl rfl
    · obtain rfl := Option.some.inj hc
      exact h.frame (.refl _) rfl rfl rfl
  | pollConnection =>
    simp only [stepApplication] at hstep
    split at hstep
    · obtain rfl := Option.some.inj hstep
      rw [handed_outcomes]
      exact h.pollConnection
    · exact hvoid hstep
  | dropConnection =>
    simp only [stepApplication] at hstep
    split at hstep
    · obtain ⟨c, hc, hstep⟩ := Option.bind_eq_some_iff.mp hstep
      obtain rfl := Option.some.inj hstep
      exact h.dropConnection hc
    · exact hvoid hstep
  | closeImmediately =>
    simp only [stepApplication] at hstep
    split at hstep
    · obtain ⟨c, hc, hstep⟩ := Option.bind_eq_some_iff.mp hstep
      obtain rfl := Option.some.inj hstep
      refine Accounted.dropConnection ?_ hc
      exact h.frame (.refl _) rfl rfl rfl
    · exact hvoid hstep
  | stream k e =>
    simp only [stepApplication] at hstep
    split at hstep
    · obtain ⟨c, hc, hstep⟩ := Option.bind_eq_some_iff.mp hstep
      obtain rfl := Option.some.inj hstep
      exact h.atStream hc
    · exact hvoid hstep
  | _ => exact hvoid hstep

/-- **Every step accounts for all streams.** -/
theorem step_accounted (h : p.ctx.Accounted p.handed) (hstep : p.step e = some p') :
    p'.ctx.Accounted p'.handed := by
  rw [step] at hstep
  split at hstep
  · split at hstep
    · cases e with
      | callback cb =>
        obtain ⟨c, hc, hstep⟩ := Option.bind_eq_some_iff.mp hstep
        obtain rfl := Option.some.inj hstep
        exact h.handleCallback hc
      | close codes =>
        obtain ⟨c, hc, hstep⟩ := Option.bind_eq_some_iff.mp hstep
        obtain rfl := Option.some.inj hstep
        exact h.handleClose hc
      | poll =>
        obtain ⟨⟨a, c⟩, hc, hstep⟩ := Option.bind_eq_some_iff.mp hstep
        obtain rfl := Option.some.inj hstep
        exact h.poll hc
      | drop =>
        obtain ⟨c, hc, hstep⟩ := Option.bind_eq_some_iff.mp hstep
        obtain rfl := Option.some.inj hstep
        exact h.drop hc
      | _ =>
        obtain rfl := Option.some.inj hstep
        exact h
    · obtain rfl := Option.some.inj hstep
      exact h
  · exact stepApplication_accounted h hstep

/-- **Every stream has one place.** In every run, each stream ever created is one of those handed
to the application, of those announced and not polled yet, of the answers not polled yet, or of
those that were dropped; and it is there once. -/
theorem streams_have_one_place {es : List Event} (hrun : (new isClient).run es = some p) :
    ∃ dropped, p.handed + ↑(streamsOf p.ctx.sendMsg.queue) + p.ctx.answers.total slot + dropped =
      Multiset.range p.ctx.streams.length ∧ ∀ k ∈ dropped, p.ctx.Dropped k := by
  obtain ⟨dropped, hall, hdropped⟩ := (Trace.run_keeps
    (P := fun p : Ends => p.ctx.Accounted p.handed)
    (fun _ _ _ _ h hstep => step_accounted h hstep) new_accounted hrun).placed
  exact ⟨dropped, by rw [← hall, underWay, ← add_assoc], hdropped⟩

/-- Five streams: two were handed out, one is announced, one is an answer, and one was dropped. -/
theorem streams_have_one_place_of_five : ∃ p dropped, (new false).run
      [.newStream .bidirectional, .newStream .unidirectional, .poll, .pollRequest 0,
        .callback (.stream 4 (.data [1] .other)), .callback (.stream 8 (.data [2] .other)),
        .pollConnection, .dropRequest 1, .newStream .bidirectional, .poll] = some p ∧
      p.handed = {0, 2} ∧ streamsOf p.ctx.sendMsg.queue = [3] ∧
      p.ctx.answers.total slot = {4} ∧
      p.handed + ↑(streamsOf p.ctx.sendMsg.queue) + p.ctx.answers.total slot + dropped =
        Multiset.range 5 := by
  obtain ⟨dropped, hall, -⟩ := @streams_have_one_place _ false
    [.newStream .bidirectional, .newStream .unidirectional, .poll, .pollRequest 0,
      .callback (.stream 4 (.data [1] .other)), .callback (.stream 8 (.data [2] .other)),
      .pollConnection, .dropRequest 1, .newStream .bidirectional, .poll] rfl
  exact ⟨_, dropped, rfl, by decide, by decide, by decide, hall⟩

end Ends

end Connections

end PicoquicRs
