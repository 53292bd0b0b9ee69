import Mathlib.Data.List.Flatten
import PicoquicRs.Streams.Steps
import PicoquicRs.Streams.Swapping
import PicoquicRs.Transfer.Wire

/-!
# What the sending end gives to picoquic

Whatever the application and the peer do – items of any size, swaps of the channel, resets, a
`stop_sending`, the end of the connection – what a context gives to picoquic is a prefix of
the bytes that were accepted, and it ends the stream only for a cause
(`PicoquicRs.Streams.Pair.Commits`): a `FIN` means that the `Stream` was dropped and all that was
accepted was given, unless the peer had asked to stop; and a reset, that the application
asked for it, or had nothing to send.

The one premise is that no receiver that holds an item is replaced
(`PicoquicRs.Streams.Pair.swapsEmpty`). As long as nobody gives the stream up, the items are in
order in the sense of `PicoquicRs.Streams.Context.InOrder`. That notion excludes requests to
reset, which change nothing before they are handled, so it is applied to the context without
them (`PicoquicRs.Streams.Context.unreset`).
-/

namespace PicoquicRs

namespace Streams

open Futures Context

/-! ### A context without requests to reset -/

theorem Chained.filter {h : Store (ErrorChan Bytes)} {cur : Option ChanRef} {r : ChanRef}
    {q : List Message} (hc : Chained h cur r q) : Chained h cur r (q.filter (· ≠ .reset)) := by
  induction q generalizing r with
  | nil => exact hc
  | cons m q ih =>
    cases m with
    | reset => exact ih hc
    | swapSendData n o =>
      obtain ⟨ho, rfl, hs, hn, hc⟩ := hc
      exact ⟨ho, rfl, hs, hn, ih hc⟩
    | _ => exact ih hc

namespace Context

/-- The context, without the requests to reset the stream it has not handled yet. -/
def unreset (c : Context) : Context :=
  { c with controlMsg := { c.controlMsg with queue := c.controlMsg.queue.filter (· ≠ .reset) } }

variable {c c' : Context} {cur : Option ChanRef}

theorem mem_unreset {m : Message} :
    m ∈ c.unreset.controlMsg.queue ↔ m ∈ c.controlMsg.queue ∧ m ≠ .reset := by
  simp [unreset]

theorem unreset_of_not_mem (h : Message.reset ∉ c.controlMsg.queue) : c.unreset = c := by
  have hq : c.controlMsg.queue.filter (· ≠ .reset) = c.controlMsg.queue :=
    List.filter_eq_self.mpr fun m hm => decide_eq_true fun heq => h (heq ▸ hm)
  rw [unreset, hq]

theorem Linked.unreset (h : c.Linked cur) : c.unreset.Linked cur where
  recv := h.recv
  control m hm := h.control m (mem_unreset.mp hm).1
  active := h.active
  chain s hs := (h.chain s hs).filter

theorem Idle.unreset (h : Idle c c') : Idle c.unreset c'.unreset where
  sendData := h.sendData
  next := h.next
  chan := h.chan
  control := by simp only [Context.unreset, h.control]
  dataSend := h.dataSend
  stop := h.stop
  activeBuffer := h.activeBuffer
  pulls := h.pulls
  calls := h.calls

theorem unreset_lossless : c.unreset.Lossless ↔ c.Lossless := by
  have hw : c.unreset.waitingReceivers = c.waitingReceivers := by
    rw [waitingReceivers, waitingReceivers, Context.unreset, List.filterMap_filter]
    refine congrArg _ (List.filterMap_congr fun m _ => ?_)
    cases m <;> rfl
  rw [Lossless, Lossless, hw]
  exact Iff.rfl

theorem unreset_pushSwap (c : Context) (a : ChanRef) :
    (c.pushSwap a).unreset = c.unreset.pushSwap a := by
  simp [unreset, pushSwap, Chan.push]

theorem unreset_pushReset (c : Context) : (c.pushControl .reset).unreset = c.unreset := by
  simp [unreset, pushControl, Chan.push]

theorem unreset_handleSendDataDropped (c : Context) :
    c.unreset.handleSendDataDropped = c.handleSendDataDropped.unreset := by
  simp only [handleSendDataDropped, apply_ite Context.unreset]
  rfl

theorem unreset_pollSendData (c : Context) :
    c.unreset.pollSendData = c.pollSendData.unreset := by
  cases ha : c.activeBuffer with
  | some buf =>
    have ha' : c.unreset.activeBuffer = some buf := ha
    rw [pollSendData, pollSendData, ha, ha']
  | none =>
    have ha' : c.unreset.activeBuffer = none := ha
    cases hs : c.sendData with
    | none =>
      have hs' : c.unreset.sendData = none := hs
      rw [pollSendData, pollSendData, ha, ha', hs, hs']
    | some s =>
      have hs' : c.unreset.sendData = some s := hs
      obtain ⟨r, c₁, hp⟩ : ∃ r c₁, c.pull s = (r, c₁) := ⟨_, _, rfl⟩
      have hp' : c.unreset.pull s = (r, c₁.unreset) :=
        congrArg (fun x : Async (Option Bytes) × Context => (x.1, x.2.unreset)) hp
      rcases r with _ | _ | buf <;> simp only [pollSendData, ha, ha', hs, hs', hp, hp']
      · exact unreset_handleSendDataDropped c₁
      · rfl

theorem unreset_handleControlMsg_swap (c : Context) (n o : ChanRef) :
    c.unreset.handleControlMsg (.swapSendData n o) =
      (c.handleControlMsg (.swapSendData n o)).map Context.unreset := by
  simp only [handleControlMsg, Option.map_some]
  cases hs : c.sendData with
  | none =>
    have hs' : c.unreset.sendData = none := hs
    rw [hs']
    rfl
  | some s =>
    have hs' : c.unreset.sendData = some s := hs
    rw [hs']
    rfl

theorem unreset_pop {n o : ChanRef} {q : List Message}
    (hq : c.controlMsg.queue = .swapSendData n o :: q) :
    c.unreset.controlMsg.queue = .swapSendData n o :: q.filter (· ≠ .reset) ∧
      ({ c with controlMsg := c.controlMsg.poll.2 } : Context).unreset =
        { c.unreset with controlMsg := c.unreset.controlMsg.poll.2 } := by
  have hq' : c.unreset.controlMsg.queue = .swapSendData n o :: q.filter (· ≠ .reset) := by
    simp [unreset, hq]
  refine ⟨hq', ?_⟩
  rw [Chan.poll_of_cons hq', Chan.poll_of_cons hq]
  rfl

/-! ### The invariant -/

/-- **The sending side of a context.** The items `accepted` came in, and no more will if the
application's end is `closed`; it asked for a reset if `aborted`. The peer asked to stop if
`stopped`, and the context was dropped if `gone`. -/
structure Commits (c : Context) (accepted : List Bytes) (closed aborted stopped gone : Prop) :
    Prop where
  /-- The items are pulled in order, until the stream is given up for one of three causes. -/
  order : c.unreset.InOrder accepted closed ∨ c.sendData = none ∧ c.pulledItems <+: accepted ∧
    (c.wire.reset = true ∨ stopped ∨ gone)
  /-- What was pulled is what was handed over, and the active buffer. -/
  bytes : c.sentBytes ++ c.activeBytes = c.pulledItems.flatten
  data : c.dataSend = false → c.sentBytes = []
  asked : Message.reset ∈ c.controlMsg.queue → aborted
  fin : c.wire.fin = true → stopped ∨ closed ∧ c.wire.bytes = accepted.flatten
  reset : c.wire.reset = true → aborted ∨ closed ∧ accepted.flatten = []

namespace Commits

variable {accepted : List Bytes} {closed aborted stopped gone : Prop}

theorem pulled_isPrefix (h : c.Commits accepted closed aborted stopped gone) :
    c.pulledItems <+: accepted := h.order.elim (fun h => h.isPrefix) fun h => h.2.1

/-- **What picoquic was given is a prefix of what was accepted.** -/
theorem wire_isPrefix (h : c.Commits accepted closed aborted stopped gone) :
    c.wire.bytes <+: accepted.flatten := by
  refine c.wire_bytes.1.trans ((List.prefix_append _ c.activeBytes).trans ?_)
  obtain ⟨rest, hrest⟩ := h.pulled_isPrefix
  rw [h.bytes, ← hrest, List.flatten_append]
  exact List.prefix_append _ _

theorem mono (h : c.Commits accepted closed aborted stopped gone) {aborted' stopped' : Prop}
    (hab : aborted → aborted') (hst : stopped → stopped') :
    c.Commits accepted closed aborted' stopped' gone where
  order := by
    refine h.order.imp_right ?_
    rintro ⟨hs, hle, hcause⟩
    exact ⟨hs, hle, hcause.imp_right (Or.imp_left hst)⟩
  bytes := h.bytes
  data := h.data
  asked := hab ∘ h.asked
  fin hf := (h.fin hf).imp_left hst
  reset hr := (h.reset hr).imp_left hab

/-- A function that hands over nothing, and pulls no item. -/
theorem of_frame {accepted' : List Bytes} {closed' aborted' stopped' gone' : Prop}
    (h : c.Commits accepted closed aborted stopped gone) {extra : List Call}
    (hcalls : c'.calls = c.calls ++ extra) (hextra : ∀ x ∈ extra, x.handsOver = false)
    (hreset : extra.any Call.isReset = true → aborted' ∨ closed' ∧ accepted'.flatten = [])
    (hact : c'.activeBuffer = c.activeBuffer) (hpulled : c'.pulledItems = c.pulledItems)
    (hdata : c'.dataSend = c.dataSend) (hasked : Message.reset ∈ c'.controlMsg.queue → aborted')
    (hab : aborted → aborted') (hst : stopped → stopped')
    (hcl : closed → closed' ∧ accepted' = accepted)
    (horder : c'.unreset.InOrder accepted' closed' ∨ c'.sendData = none ∧
      c'.pulledItems <+: accepted' ∧ (c'.wire.reset = true ∨ stopped' ∨ gone')) :
    c'.Commits accepted' closed' aborted' stopped' gone' := by
  obtain ⟨hb, hf, hr, hs⟩ := wire_of_not_handsOver hcalls hextra
  exact {
    order := horder
    bytes := by
      rw [hs, hpulled, activeBytes, hact]
      exact h.bytes
    data := by
      rw [hs, hdata]
      exact h.data
    asked := hasked
    fin := by
      rw [hf, hb]
      intro hf
      refine (h.fin hf).imp hst ?_
      rintro ⟨hc, heq⟩
      obtain ⟨hc', rfl⟩ := hcl hc
      exact ⟨hc', heq⟩
    reset := by
      rw [hr, Bool.or_eq_true]
      rintro (hr | hr)
      · refine (h.reset hr).imp hab ?_
        rintro ⟨hc, heq⟩
        obtain ⟨hc', rfl⟩ := hcl hc
        exact ⟨hc', heq⟩
      · exact hreset hr }

theorem of_idle (h : c.Commits accepted closed aborted stopped gone) (hi : Idle c c') :
    c'.Commits accepted closed aborted stopped gone := by
  obtain ⟨extra, hx, hall⟩ := hi.calls
  have hextra : ∀ x ∈ extra, x.handsOver = false ∧ x.isReset = false := fun x hmem => by
    obtain ⟨id, rfl⟩ := hall x hmem
    exact ⟨rfl, rfl⟩
  have hnone : extra.any Call.isReset = false :=
    List.any_eq_false.mpr fun x hmem => by simp [(hextra x hmem).2]
  obtain ⟨-, -, hr, -⟩ := wire_of_not_handsOver hx fun x hmem => (hextra x hmem).1
  rw [hnone, Bool.or_false] at hr
  refine h.of_frame hx (fun x hmem => (hextra x hmem).1) (fun h => by simp [hnone] at h)
    hi.activeBuffer hi.pulledItems hi.dataSend ?_ (fun h => h) (fun h => h) (fun h => ⟨h, rfl⟩) ?_
  · rw [hi.control]
    exact h.asked
  · rw [hi.sendData, hi.pulledItems, hr]
    exact h.order.imp_left fun h => h.of_idle hi.unreset

/-- **The receiver is given up**, for a cause. -/
theorem giveUp (h : c.Commits accepted closed aborted stopped gone) {stopped' gone' : Prop}
    (hst : stopped → stopped') (hcause : stopped' ∨ gone') (hcalls : c'.calls = c.calls)
    (hact : c'.activeBuffer = c.activeBuffer) (hpulls : c'.pulls = c.pulls)
    (hdata : c'.dataSend = c.dataSend) (hs : c'.sendData = none)
    (hq : Message.reset ∈ c'.controlMsg.queue → Message.reset ∈ c.controlMsg.queue) :
    c'.Commits accepted closed aborted stopped' gone' := by
  have hpl : c'.pulledItems = c.pulledItems := by rw [pulledItems, hpulls, pulledItems]
  exact h.of_frame (hcalls.trans (List.append_nil _).symm) (by simp) (by simp) hact hpl hdata
    (fun hm => h.asked (hq hm)) (fun h => h) hst (fun h => ⟨h, rfl⟩)
    (Or.inr ⟨hs, hpl ▸ h.pulled_isPrefix, Or.inr hcause⟩)

/-- While the stream was not given up, the source ends with what was accepted. -/
theorem ended (h : c.Commits accepted closed aborted stopped gone) (hl : c.Linked cur)
    (hclosed : c.sendData ≠ none → c.source.ended = true → closed)
    (he : c.source.ended = true) :
    (closed ∧ c.pulledItems ++ c.source.items = accepted) ∨
      c.sendData = none ∧ (c.wire.reset = true ∨ stopped ∨ gone) := by
  rcases h.order with h | ⟨hs, -, hcause⟩
  · refine Or.inl ?_
    rcases Option.eq_none_or_eq_some c.sendData with hs | ⟨s, hs⟩
    · obtain ⟨hcl, hpl, -⟩ := h.ended (Or.inr hs)
      rw [source_of_none hs, List.append_nil]
      exact ⟨hcl, hpl⟩
    · exact ⟨hclosed (by simp [hs]) he, (h.of_ended hl.unreset hs he).1⟩
  · exact Or.inr ⟨hs, hcause⟩

/-- **A `prepare_to_send` callback** hands over the next bytes, and a `FIN` behind the last. -/
theorem handleSendData (h : c.Commits accepted closed aborted stopped gone) (hl : c.Linked cur)
    (hclosed : c.sendData ≠ none → c.source.ended = true → closed) (hgone : ¬ gone) {n : ℕ}
    (hs : SendSpec c n c') : c'.Commits accepted closed aborted stopped gone := by
  obtain ⟨sd, ch, pl, ab, hframe, hpolled⟩ := hs.frame
  have hcalls : c'.calls = c.calls ++ [.provideStreamDataBuffer (min n c.unsent.length)
      (c.source.ended && decide (c.unsent.length ≤ n)) (decide (n < c.unsent.length))
      (c.unsent.take n)] := by rw [hframe]
  have hctl : c'.controlMsg = c.controlMsg := by rw [hframe]
  have hsent := sentBytes_of_calls hcalls
  have hwire := wire_of_calls hcalls
  -- the items move from the source to picoquic and to the active buffer
  have hbytes : c'.sentBytes ++ c'.activeBytes = c'.pulledItems.flatten := by
    refine (List.append_left_inj c'.source.items.flatten).mp ?_
    rw [List.append_assoc, ← Context.unsent, hs.unsent, hsent, Call.bytes, List.append_assoc,
      List.take_append_drop, Context.unsent, ← List.append_assoc, h.bytes, ← List.flatten_append,
      ← List.flatten_append, hs.pulled]
  have hreset : c'.wire.reset = c.wire.reset := by
    rw [hwire, Wire.call]
    split <;> rfl
  exact {
    order := by
      rcases h.order with h | ⟨hs', hpl, hcause⟩
      · refine Or.inl (h.of_polled hl.unreset hclosed
          (by rw [Context.unreset, Context.unreset, hctl]) ?_ hs.nil hs.pulled hs.sawEnd ?_)
        · rw [hframe]
          exact hpolled
        · have hst : c'.unreset.stopSendingOrFinSent =
              (c.source.ended && decide (c.unsent.length ≤ n)) := by rw [hframe]; rfl
          rw [hst, Bool.and_eq_true, decide_eq_true_eq]
          rintro ⟨he, hle⟩ -
          have hact := hs.active
          rw [if_pos hle] at hact
          exact ⟨hs.ended.trans he, hact.2⟩
      · have hsd : c'.sendData = none := by
          rw [hframe]
          exact Moved.of_none (hs' ▸ hpolled.moved)
        have hpulled := hs.pulled
        rw [source_of_none hs', source_of_none hsd, List.append_nil, List.append_nil] at hpulled
        exact Or.inr ⟨hsd, hpulled ▸ hpl, hreset.symm ▸ hcause⟩
    bytes := hbytes
    data := by
      have hd : c'.dataSend = (c.dataSend || decide (c.unsent ≠ [])) := by rw [hframe]
      rw [hd, Bool.or_eq_false_iff, decide_eq_false_iff_not, not_not, hsent, Call.bytes]
      rintro ⟨hd, hnil⟩
      rw [h.data hd, hnil, List.take_nil, List.append_nil]
    asked := by
      rw [hctl]
      exact h.asked
    fin := by
      rw [hwire, Wire.call]
      split
      · exact h.fin
      · rename_i hend
        obtain ⟨-, hr⟩ : c.wire.fin = false ∧ c.wire.reset = false := by simpa using hend
        simp only [Bool.and_eq_true, decide_eq_true_eq]
        rintro ⟨he, hle⟩
        rcases h.ended hl hclosed he with ⟨hcl, hall⟩ | hcause
        · refine Or.inr ⟨hcl, ?_⟩
          rw [c.wire_bytes.2 (by simpa [Wire.isEnded] using hend), List.take_of_length_le hle,
            Context.unsent, ← List.append_assoc, h.bytes, ← List.flatten_append, hall]
        · exact Or.inl ((hcause.2.resolve_left (by simp [hr])).resolve_right hgone)
    reset := by
      rw [hreset]
      exact h.reset }

/-- **Polling for data** moves an item to the active buffer; where it finds the end and no
byte was there to be sent, the stream is reset. -/
theorem pollSendData (h : c.Commits accepted closed aborted stopped gone) (hl : c.Linked cur)
    (hclosed : c.sendData ≠ none → c.source.ended = true → closed) :
    c.pollSendData.Commits accepted closed aborted stopped gone := by
  have horder : c.unreset.InOrder accepted closed →
      c.pollSendData.unreset.InOrder accepted closed := fun h =>
    unreset_pollSendData c ▸ h.pollSendData hl.unreset hclosed
  rcases pollSendData_cases hl.slotDistinct with
    ⟨-, hc⟩ | ⟨s, s', chans, c₁, ha, hs, hc₁, -, -, hsrc, hcase⟩
  · rw [hc]
    exact h
  have hsome : c.sendData ≠ none := by simp [hs]
  -- there is a receiver, so the stream was not given up
  have horder' := horder (h.order.resolve_right fun h => hsome h.1)
  have hcalls : c₁.calls = c.calls := by rw [hc₁]
  have hpulls : c₁.pulls = c.pulls ++ c.source.poll.1.toList := by rw [hc₁]
  have hpulled := pulledItems_of_poll hpulls hsrc
  have hnil : c.activeBytes = [] := by rw [activeBytes, ha]; rfl
  have hbytes := h.bytes
  rw [hnil, List.append_nil] at hbytes
  rcases hcase with ⟨buf, q, hi, hc⟩ | ⟨hi, he, hc⟩ | ⟨hi, -, hc⟩
  · -- an item is the active buffer now
    have hpl : c.pollSendData.pulledItems = c.pulledItems ++ [buf] := by
      rw [hsrc, Source.poll_of_cons hi, hi] at hpulled
      have heq : c.pollSendData.pulledItems = c₁.pulledItems := by rw [hc]; rfl
      rw [heq]
      exact (List.append_left_inj q).mp (by rw [hpulled, List.append_assoc, List.singleton_append])
    have hcalls' : c.pollSendData.calls = c.calls ++ [.markActiveStream c.id] := by rw [hc]
    have hact : c.pollSendData.activeBytes = buf := by rw [hc]; rfl
    have hwire : c.pollSendData.wire = c.wire := wire_of_calls hcalls'
    have hsent : c.pollSendData.sentBytes = c.sentBytes :=
      (sentBytes_of_calls hcalls').trans (List.append_nil _)
    exact {
      order := Or.inl horder'
      bytes := by rw [hsent, hact, hpl, List.flatten_append, List.flatten_singleton, hbytes]
      data := by
        have hd : c.pollSendData.dataSend = c.dataSend := by rw [hc, hc₁]
        rw [hd, hsent]
        exact h.data
      asked := by
        have hctl : c.pollSendData.controlMsg = c.controlMsg := by rw [hc, hc₁]
        rw [hctl]
        exact h.asked
      fin := by
        rw [hwire]
        exact h.fin
      reset := by
        rw [hwire]
        exact h.reset }
  · -- the end was found, so all was pulled
    obtain ⟨hcl, hall⟩ := (h.ended hl hclosed he).resolve_right fun h => hsome h.1
    rw [hi, List.append_nil] at hall
    have hpl : c₁.pulledItems = c.pulledItems := by
      rw [hsrc, Source.poll_of_nil hi, hi, List.append_nil, List.append_nil] at hpulled
      exact hpulled
    obtain ⟨chans', -, hdrop⟩ := handleSendDataDropped_spec c₁
    rw [hc₁] at hpl hdrop
    rw [hc, hc₁, hdrop] at horder' ⊢
    split at horder'
    · -- no byte was there to be sent
      rename_i hempty
      have hnone : accepted.flatten = [] := by rw [← hall, ← hbytes, h.data hempty.1]
      rw [if_pos hempty]
      exact h.of_frame rfl (by simp [Call.handsOver]) (fun _ => Or.inr ⟨hcl, hnone⟩) rfl hpl rfl
        h.asked (fun h => h) (fun h => h) (fun h => ⟨h, rfl⟩) (Or.inl horder')
    · rename_i hempty
      rw [if_neg hempty]
      split at horder'
      · rename_i hst
        rw [if_pos hst]
        exact h.of_frame rfl (by simp [Call.handsOver]) (by simp [Call.isReset]) rfl hpl rfl
          h.asked (fun h => h) (fun h => h) (fun h => ⟨h, rfl⟩) (Or.inl horder')
      · rename_i hst
        rw [if_neg hst]
        exact h.of_frame (List.append_nil _).symm (by simp) (by simp) rfl hpl rfl
          h.asked (fun h => h) (fun h => h) (fun h => ⟨h, rfl⟩) (Or.inl horder')
  · -- nothing is there yet
    rw [hc] at horder' ⊢
    have hpl : c₁.pulledItems = c.pulledItems := by
      rw [hsrc, Source.poll_of_nil hi, hi, List.append_nil, List.append_nil] at hpulled
      exact hpulled
    rw [hc₁] at hpl horder' ⊢
    exact h.of_frame (List.append_nil _).symm (by simp) (by simp) rfl hpl rfl h.asked (fun h => h)
      (fun h => h) (fun h => ⟨h, rfl⟩) (Or.inl horder')

/-- **A control message**: a reset was asked for, and a swap replaces no item. -/
theorem handleControlMsg (h : c.Commits accepted closed aborted stopped gone) (hl : c.Linked cur)
    (hok : c.sendData ≠ none → c.Lossless) {msg : Message} {q : List Message}
    (hq : c.controlMsg.queue = msg :: q)
    (hc : { c with controlMsg := c.controlMsg.poll.2 }.handleControlMsg msg = some c') :
    c'.Commits accepted closed aborted stopped gone ∧ (c'.sendData ≠ none → c'.Lossless) := by
  have hpop : ∀ {m}, m ∈ c.controlMsg.poll.2.queue → m ∈ c.controlMsg.queue := fun hm => by
    rw [Chan.poll_queue] at hm
    exact List.mem_of_mem_tail hm
  rcases hl.control msg (by simp [hq]) with rfl | ⟨n, o, rfl⟩
  · obtain ⟨chans, hr, -⟩ := reset_spec { c with controlMsg := c.controlMsg.poll.2 }
    obtain rfl := Option.some.inj (congrArg some hr.symm |>.trans hc)
    have hasked : aborted := h.asked (by simp [hq])
    refine ⟨h.of_frame rfl (by simp [Call.handsOver]) (fun _ => Or.inl hasked) rfl rfl rfl
      (fun _ => hasked) (fun h => h) (fun h => h) (fun h => ⟨h, rfl⟩)
      (Or.inr ⟨rfl, h.pulled_isPrefix, Or.inl ?_⟩), absurd rfl⟩
    rw [wire_of_calls (c := c) rfl]
    rfl
  · rcases h.order with h₀ | ⟨hs, hpl, hcause⟩
    · have hs : c.sendData ≠ none := fun hs =>
        (h₀.ended (Or.inr hs)).2.2 n o (mem_unreset.mpr ⟨by simp [hq], by simp⟩)
      obtain ⟨s, hs'⟩ := Option.ne_none_iff_exists'.mp hs
      obtain ⟨hq', hpop'⟩ := unreset_pop hq
      obtain ⟨horder, hless⟩ := h₀.handleControlMsg hl.unreset (unreset_lossless.mpr (hok hs)) hq'
        (by rw [← hpop', unreset_handleControlMsg_swap, hc, Option.map_some])
      obtain ⟨c₁, hc₁, hsw⟩ := handleControlMsg_swap
        (c := { c with controlMsg := c.controlMsg.poll.2 }) hs' n o
      obtain rfl := Option.some.inj (hc₁.symm.trans hc)
      obtain ⟨chans, hframe⟩ := hsw.frame
      refine ⟨?_, fun _ => unreset_lossless.mp hless⟩
      rw [hframe] at horder ⊢
      exact h.of_frame (List.append_nil _).symm (by simp) (by simp) rfl rfl rfl
        (fun hm => h.asked (hpop hm)) (fun h => h) (fun h => h) (fun h => ⟨h, rfl⟩) (Or.inl horder)
    · obtain ⟨chans, hc₁⟩ := handleControlMsg_swap_of_none
        (c := { c with controlMsg := c.controlMsg.poll.2 }) hs n o
      obtain rfl := Option.some.inj (hc₁.symm.trans hc)
      exact ⟨h.of_frame (List.append_nil _).symm (by simp) (by simp) rfl rfl rfl
        (fun hm => h.asked (hpop hm)) (fun h => h) (fun h => h) (fun h => ⟨h, rfl⟩)
        (Or.inr ⟨hs, hpl, hcause⟩), absurd hs⟩

/-- **Polling for control messages**, if no receiver that holds an item is replaced. -/
theorem pollControlMsg (h : c.Commits accepted closed aborted stopped gone) (hl : c.Linked cur)
    (hok : c.Lossless) :
    ∃ r c', c.pollControlMsg = some (r, c') ∧ Kept cur c c' ∧
      c'.Commits accepted closed aborted stopped gone := by
  have hidle : ∀ c₁ c₂ : Context, c₁.Commits accepted closed aborted stopped gone ∧
      (c₁.sendData ≠ none → c₁.Lossless) → Idle c₁ c₂ →
      c₂.Commits accepted closed aborted stopped gone ∧ (c₂.sendData ≠ none → c₂.Lossless) := by
    rintro c₁ c₂ ⟨h₁, hok₁⟩ hi
    refine ⟨h₁.of_idle hi, fun hs r hr => ?_⟩
    rw [waitingReceivers, hi.sendData, hi.control] at hr
    rw [hi.chan]
    exact hok₁ (hi.sendData ▸ hs) r hr
  obtain ⟨r, c', hc', hk, h', -⟩ := hl.pollControlMsg_rule hidle
    (fun c₁ c₂ msg q hl h hq hc => h.1.handleControlMsg hl h.2 hq hc) ⟨h, fun _ => hok⟩
  exact ⟨r, c', hc', hk, h'⟩

end Commits

end Context

/-! ### Steps and runs -/

namespace Pair

variable {p p' : Pair} {aborted stopped : Prop}

/-- The pair, without the requests to reset the stream that were not handled yet. -/
def unreset (p : Pair) : Pair := { p with ctx := p.ctx.unreset }

theorem Linked.unreset (h : p.Linked) : p.unreset.Linked where
  ctx := h.ctx.unreset
  paired := h.paired
  dropped := h.dropped
  ends := h.ends

/-- **The sending end of a stream.** -/
structure Commits (p : Pair) (aborted stopped : Prop) : Prop where
  linked : p.Linked
  ctx : p.ctx.Commits p.accepted (p.stream = none) aborted stopped (p.alive = false)

namespace Commits

theorem mono (h : p.Commits aborted stopped) {aborted' stopped' : Prop} (hab : aborted → aborted')
    (hst : stopped → stopped') : p.Commits aborted' stopped' :=
  ⟨h.linked, h.ctx.mono hab hst⟩

/-- A source that has ended is closed. -/
theorem closed (h : p.Commits aborted stopped) :
    p.ctx.sendData ≠ none → p.ctx.source.ended = true → p.stream = none := fun hs he => by
  obtain ⟨s, hs⟩ := Option.ne_none_iff_exists'.mp hs
  exact (h.linked.stream_eq_none hs he).1

/-- What the application did to the channels. -/
theorem of_stream (h : p.Commits aborted stopped) {s : Stream} (hs : p.stream = some s)
    (hl : p'.Linked) {aborted' : Prop} (hcalls : p'.ctx.calls = p.ctx.calls)
    (hact : p'.ctx.activeBuffer = p.ctx.activeBuffer) (hpulls : p'.ctx.pulls = p.ctx.pulls)
    (hdata : p'.ctx.dataSend = p.ctx.dataSend) (hsd : p'.ctx.sendData = p.ctx.sendData)
    (hacc : p.accepted <+: p'.accepted) (ha : p'.alive = p.alive) (hab : aborted → aborted')
    (hasked : Message.reset ∈ p'.ctx.controlMsg.queue → aborted')
    (horder : p.unreset.InOrder → p'.unreset.InOrder) : p'.Commits aborted' stopped where
  linked := hl
  ctx := by
    have hpl : p'.ctx.pulledItems = p.ctx.pulledItems := by
      rw [pulledItems, hpulls, pulledItems]
    refine h.ctx.of_frame (hcalls.trans (List.append_nil _).symm) (by simp) (by simp) hact hpl hdata
      hasked hab (fun h => h) (fun hn => by simp [hs] at hn) ?_
    rw [hpl, hsd, wire_of_eq hcalls, ha]
    rcases h.ctx.order with h₀ | ⟨hn, hle, hcause⟩
    · exact Or.inl (horder ⟨h.linked.unreset, h₀⟩).ctx
    · exact Or.inr ⟨hn, hle.trans hacc, hcause⟩

/-- **A step of the application.** -/
theorem stepStream (h : p.Commits aborted stopped) {s : Stream} (hs : p.stream = some s)
    (hl : p'.Linked) {e : Event} (he : e.atStream = true) (hstep : p.stepStream s e = some p') :
    p'.Commits (aborted ∨ e.isAbort = true) stopped := by
  have hvoid : p' = p → p'.Commits (aborted ∨ e.isAbort = true) stopped := fun heq => by
    subst heq
    exact h.of_stream hs hl rfl rfl rfl rfl rfl List.prefix_rfl rfl Or.inl
      (fun hm => Or.inl (h.ctx.asked hm)) (fun h => h)
  cases e with
  | startSend item room =>
    rcases stepStream_startSend (p := p) (s := s) item room with ⟨r, hr, -, h'⟩ | h' <;>
      obtain rfl := Option.some.inj (h'.symm.trans hstep)
    · exact h.of_stream hs hl rfl rfl rfl rfl rfl (List.prefix_append _ _) rfl Or.inl
        (fun hm => Or.inl (h.ctx.asked hm)) fun h₀ => h₀.startSend hs hr hl.unreset
    · exact hvoid rfl
  | setSendChannelSize =>
    rcases stepStream_setSendChannelSize hs with
      ⟨-, h'⟩ | ⟨a, c', ha, h', ⟨-, rfl⟩ | ⟨ho, chans, rfl⟩⟩ <;>
      obtain rfl := Option.some.inj (h'.symm.trans hstep)
    · exact hvoid rfl
    · refine h.of_stream hs hl rfl rfl rfl rfl rfl List.prefix_rfl rfl Or.inl (fun hm => ?_)
        fun h₀ => ?_
      · exact Or.inl (h.ctx.asked (by simpa [Context.pushSwap] using hm))
      · have hl' := hl.unreset
        rw [Pair.unreset, Context.unreset_pushSwap] at hl' ⊢
        exact h₀.pushSwap hs ha hl'
    · -- a context that is gone has given up its receiver
      refine h.of_stream hs hl rfl rfl rfl rfl rfl List.prefix_rfl rfl Or.inl
        (fun hm => Or.inl (h.ctx.asked hm)) fun h₀ => ?_
      have hends := congrArg (fun e => e.2.1) h.linked.ends
      exact absurd (h.linked.dropped (hends.symm.trans ho)) (h₀.of_stream hs).1
  | reset =>
    rcases stepStream_reset (p := p) (s := s) with ⟨-, h'⟩ | ⟨-, h'⟩ <;>
      obtain rfl := Option.some.inj (h'.symm.trans hstep)
    · refine h.of_stream hs hl rfl rfl rfl rfl rfl List.prefix_rfl rfl Or.inl
        (fun _ => Or.inr rfl) fun h₀ => ?_
      rw [Pair.unreset, Context.unreset_pushReset]
      exact h₀
    · exact hvoid rfl
  | pollStream =>
    obtain ⟨o, s', hpoll, -⟩ := Stream.poll_frame s p.ctx h.linked.ctx.recv
    obtain rfl := Option.some.inj ((stepStream_pollStream hpoll).symm.trans hstep)
    exact h.of_stream hs hl rfl rfl rfl rfl rfl List.prefix_rfl rfl Or.inl
      (fun hm => Or.inl (h.ctx.asked hm)) fun h₀ =>
        h₀.of_law hs hl.unreset h₀.ctx.control rfl rfl rfl (h₀.ctx.law (h₀.of_stream hs).1)
  | dropStream =>
    obtain rfl := Option.some.inj hstep
    exact h.of_stream hs hl rfl rfl rfl rfl rfl List.prefix_rfl rfl Or.inl
      (fun hm => Or.inl (h.ctx.asked hm)) fun h₀ => h₀.dropStream hs hl.unreset
  | _ => simp [Event.atStream] at he

/-- **The context is dropped.** -/
theorem drop (h : p.Commits aborted stopped) (ha : p.alive = true) :
    { p with ctx := p.ctx.drop, alive := false }.Commits aborted stopped := by
  refine ⟨h.linked.drop ha, ?_⟩
  obtain ⟨chans, hd⟩ := drop_spec p.ctx
  rw [hd]
  exact h.ctx.giveUp (fun h => h) (Or.inr rfl) rfl rfl rfl rfl rfl (by simp [Chan.dropReceiver])

/-- **A step of the event loop**, if it replaces no item. -/
theorem stepContext (h : p.Commits aborted stopped) (ha : p.alive = true) {e : Event}
    (he : e.atStream = false) (hempty : p.swapsEmpty e = true) (hl : p'.Linked)
    (hstep : p.stepContext e = some p') : p'.Commits aborted (stopped ∨ e.isStop = true) := by
  have hmono : ∀ {p₁ : Pair}, p₁.Commits aborted stopped →
      p₁.Commits aborted (stopped ∨ e.isStop = true) := fun h₁ => h₁.mono (fun h => h) Or.inl
  have hgone : ¬ p.alive = false := by simp [ha]
  cases e with
  | callback cb =>
    obtain ⟨c', hc, hstep⟩ := Option.bind_eq_some_iff.mp hstep
    obtain rfl := Option.some.inj hstep
    cases cb with
    | prepareToSend dest n =>
      exact hmono ⟨hl, h.ctx.handleSendData h.linked.ctx h.closed hgone
        (handleCallback_prepareToSend h.linked.ctx.slotDistinct hc)⟩
    | data bytes event =>
      obtain ⟨c₁, heff, -, hc'⟩ := handleCallback_data (c := p.ctx) bytes event
      obtain rfl := Option.some.inj (hc'.symm.trans hc)
      have h₁ := h.ctx.of_idle heff.idle
      by_cases hevent : event = .stopSending
      · subst hevent
        refine ⟨hl, ?_⟩
        obtain ⟨chans, hclose, -⟩ := closeSendData_spec { c₁ with stopSendingOrFinSent := true }
        simp only [if_true, hclose]
        exact h₁.giveUp Or.inl (Or.inl (Or.inr rfl)) rfl rfl rfl rfl rfl fun hm => hm
      · rw [if_neg hevent] at hl ⊢
        exact hmono ⟨hl, h₁⟩
  | pollControlMsg =>
    obtain ⟨r, c', hc', -, h'⟩ := h.ctx.pollControlMsg h.linked.ctx
      (by simpa [swapsEmpty] using hempty)
    obtain rfl := Option.some.inj ((stepContext_pollControlMsg hc').symm.trans hstep)
    exact hmono ⟨hl, h'⟩
  | pollSendData =>
    obtain rfl := Option.some.inj hstep
    exact hmono ⟨hl, h.ctx.pollSendData h.linked.ctx h.closed⟩
  | poll =>
    obtain ⟨r, c', hc', hk, h'⟩ := h.ctx.pollControlMsg h.linked.ctx
      (by simpa [swapsEmpty] using hempty)
    obtain rfl := Option.some.inj ((stepContext_poll hc').symm.trans hstep)
    have h₁ : { p with ctx := c' }.Commits aborted stopped := ⟨h.linked.of_kept hk rfl rfl, h'⟩
    have h₂ : { p with ctx := c'.pollSendData }.Commits aborted stopped :=
      ⟨h₁.linked.of_kept (pollSendData_kept h₁.linked.ctx) rfl rfl,
        h₁.ctx.pollSendData h₁.linked.ctx h₁.closed⟩
    refine hmono ?_
    split
    · exact h₂.drop ha
    · exact h₂
  | connectionError err =>
    obtain rfl := Option.some.inj hstep
    exact hmono ⟨hl, h.ctx.of_idle (handleConnectionError_idle p.ctx err)⟩
  | connectionClose =>
    obtain rfl := Option.some.inj hstep
    exact hmono ⟨hl, h.ctx.of_idle (recvMessage_effect p.ctx .close).idle⟩
  | dropContext =>
    obtain rfl := Option.some.inj hstep
    exact hmono (h.drop ha)
  | _ => simp [Event.atStream] at he

/-- **Every step keeps the invariant**, if it replaces no item. -/
theorem step (h : p.Commits aborted stopped) {e : Event} (hempty : p.swapsEmpty e = true)
    (hstep : p.step e = some p') :
    p'.Commits (aborted ∨ p.stream ≠ none ∧ e.isAbort = true) (stopped ∨ e.isStop = true) := by
  have hl := h.linked.of_step hstep
  rcases step_cases hstep with ⟨s, he, hs, hstep⟩ | ⟨he, ha, hstep⟩ | ⟨rfl, -, -⟩
  · exact (h.stepStream hs hl he hstep).mono (Or.imp_right fun hab => ⟨by simp [hs], hab⟩) Or.inl
  · exact (h.stepContext ha he hempty hl hstep).mono Or.inl fun h => h
  · exact h.mono Or.inl Or.inl

end Commits

theorem new_commits {id : Id} {isClientCon : Bool} (h : HasSendHalf id isClientCon) :
    (Streams.new id isClientCon).Commits False False := by
  have h₀ := new_inOrder h
  have hcalls : (Streams.new id isClientCon).ctx.calls = [] := rfl
  have hwire : (Streams.new id isClientCon).ctx.wire = .blank := by rw [wire, hcalls]; rfl
  have hctl : (Streams.new id isClientCon).ctx.controlMsg.queue = [] := rfl
  refine ⟨h₀.linked, ?_⟩
  exact {
    order := Or.inl
      (unreset_of_not_mem (c := (Streams.new id isClientCon).ctx) (by simp [hctl]) ▸ h₀.ctx)
    bytes := rfl
    data := fun _ => by rw [sentBytes, hcalls]; rfl
    asked := by simp [hctl]
    fin := by simp [hwire, Wire.blank]
    reset := by simp [hwire, Wire.blank] }

end Pair

end Streams

end PicoquicRs
