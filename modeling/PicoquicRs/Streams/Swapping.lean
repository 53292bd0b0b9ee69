import PicoquicRs.Streams.Linked

/-!
# Swapping the channel of a stream

The items an application sends before and after `Stream::set_send_channel_size`
travel in different channels: the active receiver, the one waiting in the slot, and
the ones in the control messages that are still queued. What was pulled and the
items in all of these channels are together, in order, the items that were accepted
(`PicoquicRs.Streams.Context.InOrder`).

There is one slot. A second receiver that arrives while the slot is taken replaces
the first one there, and the items that were in it are lost
(`PicoquicRs.Streams.swap_loses_an_item`). Nothing is lost if the receivers that are
replaced are empty (`PicoquicRs.Streams.swapping_keeps_order`).
-/

namespace PicoquicRs

namespace Streams

open Futures Context

/-! ### The channels under way -/

/-- The items in the channels that control messages carry. -/
def waiting (h : Store (ErrorChan Bytes)) (q : List Message) : List Bytes :=
  q.flatMap fun
    | .swapSendData n _ => (h.cell n).chan.queue
    | _ => []

@[simp] theorem waiting_nil (h : Store (ErrorChan Bytes)) : waiting h [] = [] := rfl

theorem waiting_swap (h : Store (ErrorChan Bytes)) (n o : ChanRef) (q : List Message) :
    waiting h (.swapSendData n o :: q) = (h.cell n).chan.queue ++ waiting h q := rfl

theorem waiting_append (h : Store (ErrorChan Bytes)) (q q' : List Message) :
    waiting h (q ++ q') = waiting h q ++ waiting h q' := List.flatMap_append

theorem waiting_congr {h h' : Store (ErrorChan Bytes)} {q : List Message}
    (hq : ∀ n o, Message.swapSendData n o ∈ q →
      (h'.cell n).chan.queue = (h.cell n).chan.queue) : waiting h' q = waiting h q := by
  rw [waiting, waiting, List.flatMap_def, List.flatMap_def, List.map_congr_left fun m hm => ?_]
  cases m with
  | swapSendData n o => exact hq n o hm
  | _ => rfl

theorem waiting_of_no_swap {h : Store (ErrorChan Bytes)} {q : List Message}
    (hq : ∀ n o, Message.swapSendData n o ∉ q) : waiting h q = [] := by
  rw [waiting, List.flatMap_eq_nil_iff]
  intro m hm
  cases m with
  | swapSendData n o => exact absurd hm (hq n o)
  | _ => rfl

namespace Chained

variable {h : Store (ErrorChan Bytes)} {cur : Option ChanRef} {a r : ChanRef} {q : List Message}

/-- The receivers under way are newer. -/
theorem lt_of_mem (hc : Chained h cur r q) {n o : ChanRef} (hm : Message.swapSendData n o ∈ q) :
    r < n := by
  induction q generalizing r with
  | nil => simp at hm
  | cons m q ih =>
    cases m with
    | swapSendData n' o' =>
      obtain ⟨-, -, -, hlt, hc⟩ := hc
      rcases List.mem_cons.mp hm with heq | hm
      · rw [(Message.swapSendData.inj heq).1]
        exact hlt
      · exact hlt.trans (ih hc hm)
    | _ => exact ih hc (by simpa using hm)

/-- The receivers under way are older than the sender of the application, or its own. -/
theorem mem_le_cur (hc : Chained h (some a) r q) {n o : ChanRef}
    (hm : Message.swapSendData n o ∈ q) : n ≤ a := by
  induction q generalizing r with
  | nil => simp at hm
  | cons m q ih =>
    cases m with
    | swapSendData n' o' =>
      obtain ⟨-, -, -, -, hc⟩ := hc
      rcases List.mem_cons.mp hm with heq | hm
      · rw [(Message.swapSendData.inj heq).1]
        exact hc.le_cur.1
      · exact ih hc hm
    | _ => exact ih hc (by simpa using hm)

/-- **An accepted item is queued last** in the chain, whatever the channel it goes
into. -/
theorem pushData (hc : Chained h (some a) r q) (item : Bytes) :
    let h' := h.modify a fun ch => { ch with chan := ch.chan.push item }
    (h'.cell r).chan.queue ++ waiting h' q =
      (h.cell r).chan.queue ++ waiting h q ++ [item] := by
  intro h'
  induction q generalizing r with
  | nil =>
    obtain ⟨-, rfl, -⟩ := hc
    simp [h']
  | cons m q ih =>
    cases m with
    | swapSendData n o =>
      obtain ⟨-, -, -, hlt, hc⟩ := hc
      have hne : r ≠ a := (hlt.trans_le hc.le_cur.1).ne
      have hr : h'.cell r = h.cell r := h.modify_cell_of_ne _ hne
      rw [waiting_swap, waiting_swap, hr, ih hc, List.append_assoc, List.append_assoc,
        List.append_assoc]
    | _ => exact ih hc

end Chained

namespace Context

/-- **The items still to be pulled**, in order. -/
def backlog (c : Context) : List Bytes := c.source.items ++ waiting c.chans c.controlMsg.queue

/-- The receivers that wait behind the active one, oldest first: the one in the slot,
and the ones under way. -/
def waitingReceivers (c : Context) : List ChanRef :=
  (c.sendData.bind SwappableStream.swapTo).toList ++ c.controlMsg.queue.filterMap fun
    | .swapSendData n _ => some n
    | _ => none

/-- **All receivers that wait are empty, but the newest**: handling the control
messages replaces no receiver that holds an item. -/
def Lossless (c : Context) : Prop :=
  ∀ r ∈ c.waitingReceivers.dropLast, (c.chans.cell r).chan.queue = []

instance (c : Context) : Decidable c.Lossless :=
  inferInstanceAs (Decidable (∀ r ∈ c.waitingReceivers.dropLast, _))

variable {c c' : Context} {cur : Option ChanRef} {s : SwappableStream ChanRef}

/-- The items of the source of a linked context are in its two channels. -/
theorem Linked.source_items (h : c.Linked cur) (hs : c.sendData = some s) :
    c.source.items = (c.chans.cell s.activeStream).chan.queue ++
      (match s.swapTo with
        | some r => (c.chans.cell r).chan.queue
        | none => []) := by
  rw [source_of_some hs, SwappableStream.source]
  cases hn : s.swapTo with
  | none => simp [chanSource]
  | some r =>
    obtain ⟨-, -, hz⟩ := h.active s r hs hn
    have he : (chanSource s.activeStream c.chans).ended = true := by
      simp [chanSource, Chan.isEnded, hz]
    simp only [Source.append_of_ended he]
    rfl

/-- The receivers under way are newer than the ones of the context. -/
theorem Linked.lt_of_mem (h : c.Linked cur) (hs : c.sendData = some s) {n o : ChanRef}
    (hm : Message.swapSendData n o ∈ c.controlMsg.queue) :
    s.activeStream < n ∧ ∀ r, s.swapTo = some r → r < n := by
  have hlt := (h.chain s hs).lt_of_mem hm
  cases hn : s.swapTo with
  | none =>
    rw [hn] at hlt
    exact ⟨hlt, nofun⟩
  | some r =>
    rw [hn] at hlt
    exact ⟨(h.active s r hs hn).1.trans hlt, fun r' hr' => Option.some.inj hr' ▸ hlt⟩

/-- Polling does not reach the receivers under way. -/
theorem Linked.waiting_of_polled (h : c.Linked cur)
    {sendData' : Option (SwappableStream ChanRef)} {h' : Store (ErrorChan Bytes)}
    (hp : Polled c.sendData c.chans sendData' h') :
    waiting h' c.controlMsg.queue = waiting c.chans c.controlMsg.queue := by
  refine waiting_congr fun n o hm => ?_
  rw [hp.other n fun s hs => ?_]
  obtain ⟨hlt, hslot⟩ := h.lt_of_mem hs hm
  exact ⟨hlt.ne', fun hn => lt_irrefl n (hslot n hn)⟩

/-! ### The law -/

/-- **Nothing is lost, duplicated or reordered**: what was pulled and what is still to
be pulled are the items accepted, in order; and the end is seen only when nothing is
left and nothing more can come. -/
structure InOrder (accepted : List Bytes) (closed : Prop) (c : Context) : Prop where
  control : Message.reset ∉ c.controlMsg.queue
  law : c.sendData ≠ none → c.pulledItems ++ c.backlog = accepted
  ended : c.SawEnd ∨ c.sendData = none → closed ∧ c.pulledItems = accepted ∧
    ∀ n o, Message.swapSendData n o ∉ c.controlMsg.queue
  /-- Nothing more is sent once the source is used up. -/
  done : c.stopSendingOrFinSent = true → c.sendData ≠ none →
    c.source.ended = true ∧ c.source.items = []

namespace InOrder

variable {accepted : List Bytes} {closed : Prop}

theorem isPrefix (h : c.InOrder accepted closed) : c.pulledItems <+: accepted := by
  by_cases hs : c.sendData = none
  · exact (h.ended (Or.inr hs)).2.1 ▸ List.prefix_rfl
  · exact ⟨_, h.law hs⟩

/-- A function that changes neither the channels nor what was pulled. -/
theorem of_eq (h : c.InOrder accepted closed) (hs : c'.sendData = c.sendData)
    (hch : c'.chans = c.chans) (hq : c'.controlMsg.queue = c.controlMsg.queue)
    (hpl : c'.pulls = c.pulls) (hst : c'.stopSendingOrFinSent = c.stopSendingOrFinSent) :
    c'.InOrder accepted closed := by
  have hsrc : c'.source = c.source := source_congr hs fun q => by rw [hch]
  exact {
    control := by rw [hq]; exact h.control
    law := by
      rw [hs, pulledItems, hpl, backlog, hsrc, hch, hq]
      exact h.law
    ended := by
      rw [SawEnd, pulledItems, hpl, hs, hq]
      exact h.ended
    done := by
      rw [hst, hs, hsrc]
      exact h.done }

theorem of_idle (h : c.InOrder accepted closed) (hi : Idle c c') : c'.InOrder accepted closed where
  control := by rw [hi.control]; exact h.control
  law := by
    have hw : waiting c'.chans c'.controlMsg.queue = waiting c.chans c.controlMsg.queue := by
      rw [hi.control]
      exact waiting_congr fun n o _ => by rw [hi.chan]
    rw [hi.sendData, hi.pulledItems, backlog, hi.source, hw]
    exact h.law
  ended := by
    rw [SawEnd, hi.pulls, hi.sendData, hi.pulledItems, hi.control]
    exact h.ended
  done := by
    rw [hi.stop, hi.sendData, hi.source]
    exact h.done

/-- What a source that has ended says about the law. -/
theorem of_ended (h : c.InOrder accepted closed) (hl : c.Linked cur) (hs : c.sendData = some s)
    (he : c.source.ended = true) : c.pulledItems ++ c.source.items = accepted ∧
      ∀ n o, Message.swapSendData n o ∉ c.controlMsg.queue := by
  obtain ⟨-, hq⟩ := hl.of_ended hs he
  have hlaw := h.law (by simp [hs])
  rw [backlog, waiting_of_no_swap hq, List.append_nil] at hlaw
  exact ⟨hlaw, hq⟩

/-- **Pulling** moves items from the source to what was pulled. -/
theorem of_polled (h : c.InOrder accepted closed) (hl : c.Linked cur)
    (hclosed : c.sendData ≠ none → c.source.ended = true → closed)
    (hq : c'.controlMsg = c.controlMsg)
    (hp : Polled c.sendData c.chans c'.sendData c'.chans)
    (hnil : c.source.items = [] → c'.source.items = [])
    (hpulled : c'.pulledItems ++ c'.source.items = c.pulledItems ++ c.source.items)
    (hsaw : c'.SawEnd → c.SawEnd ∨
      c.sendData ≠ none ∧ c.source.ended = true ∧ c'.source.items = [])
    (hdone : c'.stopSendingOrFinSent = true → c'.sendData ≠ none →
      c'.source.ended = true ∧ c'.source.items = []) : c'.InOrder accepted closed where
  control := by rw [hq]; exact h.control
  law hs := by
    have hs' : c.sendData ≠ none := fun hn => hs (Moved.of_none (hn ▸ hp.moved))
    rw [backlog, hq, hl.waiting_of_polled hp, ← List.append_assoc, hpulled, List.append_assoc]
    exact h.law hs'
  ended hor := by
    rw [hq]
    by_cases hs : c.sendData = none
    · -- there is no receiver, and there was none
      have hs' : c'.sendData = none := Moved.of_none (hs ▸ hp.moved)
      obtain ⟨hcl, hpl, hno⟩ := h.ended (Or.inr hs)
      rw [source_of_none hs, source_of_none hs', List.append_nil, List.append_nil] at hpulled
      exact ⟨hcl, hpulled.trans hpl, hno⟩
    · have hs' : c'.sendData ≠ none := by
        rcases hp.moved with heq | ⟨_, _, _, _, heq⟩
        · rw [heq]
          exact hs
        · simp [heq]
      obtain ⟨s, hsome⟩ := Option.ne_none_iff_exists'.mp hs
      rcases hsaw (hor.resolve_right hs') with hold | ⟨-, he, hi⟩
      · obtain ⟨hcl, hpl, hno⟩ := h.ended (Or.inl hold)
        have hlaw := h.law hs
        rw [backlog, waiting_of_no_swap hno, List.append_nil, hpl] at hlaw
        have hi := List.append_right_eq_self.mp hlaw
        rw [hi, hnil hi, List.append_nil, List.append_nil] at hpulled
        exact ⟨hcl, hpulled.trans hpl, hno⟩
      · obtain ⟨hlaw, hno⟩ := h.of_ended hl hsome he
        rw [hi, List.append_nil] at hpulled
        exact ⟨hclosed hs he, hpulled.trans hlaw, hno⟩
  done := hdone

/-- **A `prepare_to_send` callback pulls in order.** -/
theorem handleSendData (h : c.InOrder accepted closed) (hl : c.Linked cur)
    (hclosed : c.sendData ≠ none → c.source.ended = true → closed) {n : ℕ}
    (hs : SendSpec c n c') : c'.InOrder accepted closed := by
  obtain ⟨sd, ch, pl, ab, hframe, hp⟩ := hs.frame
  have hsd : c'.sendData = sd := by rw [hframe]
  have hch : c'.chans = ch := by rw [hframe]
  have hst : c'.stopSendingOrFinSent = (c.source.ended && decide (c.unsent.length ≤ n)) := by
    rw [hframe]
  refine h.of_polled hl hclosed (by rw [hframe]) (hsd ▸ hch ▸ hp) hs.nil hs.pulled hs.sawEnd ?_
  rw [hst, Bool.and_eq_true, decide_eq_true_eq]
  rintro ⟨he, hle⟩ -
  have hact := hs.active
  rw [if_pos hle] at hact
  exact ⟨hs.ended.trans he, hact.2⟩

/-- **Polling for data pulls in order.** -/
theorem pollSendData (h : c.InOrder accepted closed) (hl : c.Linked cur)
    (hclosed : c.sendData ≠ none → c.source.ended = true → closed) :
    c.pollSendData.InOrder accepted closed := by
  rcases pollSendData_cases hl.slotDistinct with
    ⟨-, hc⟩ | ⟨s, s', chans, c₁, ha, hs, hc₁, hp, -, hsrc, hcase⟩
  · rw [hc]
    exact h
  have hsome : c.sendData ≠ none := by simp [hs]
  have hpulls : c₁.pulls = c.pulls ++ c.source.poll.1.toList := by rw [hc₁]
  have hsd : c₁.sendData = some s' := by rw [hc₁]
  have hpulled := pulledItems_of_poll hpulls hsrc
  have hsaw := sawEnd_of_poll hpulls
  -- the context after the pull
  have h₁ : c₁.InOrder accepted closed := by
    refine h.of_polled hl hclosed (by rw [hc₁]) (by rw [hc₁]; exact hp) ?_ hpulled ?_ ?_
    · intro hi
      rw [hsrc, Source.poll_of_nil hi]
      exact hi
    · exact fun h' => (hsaw h').imp_right fun h' =>
        ⟨hsome, h'.2, by rw [hsrc, Source.poll_of_nil h'.1]; exact h'.1⟩
    · intro hst _
      obtain ⟨he, hi⟩ := h.done (by rw [hc₁] at hst; exact hst) hsome
      rw [hsrc, Source.poll_of_nil hi]
      exact ⟨he, hi⟩
  rcases hcase with ⟨buf, q, hi, hc⟩ | ⟨hi, he, hc⟩ | ⟨-, -, hc⟩
  · rw [hc]
    exact h₁.of_eq rfl rfl rfl rfl rfl
  · -- the receiver is given up, and all was pulled
    obtain ⟨hlaw, hno⟩ := h.of_ended hl hs he
    rw [hi, List.append_nil] at hlaw
    rw [hsrc, Source.poll_of_nil hi, hi, List.append_nil, List.append_nil] at hpulled
    obtain ⟨chans', -, hdrop⟩ := handleSendDataDropped_spec c₁
    have hq : c₁.controlMsg = c.controlMsg := by rw [hc₁]
    have hafter : c.pollSendData.sendData = none ∧ c.pollSendData.pulledItems = c₁.pulledItems ∧
        c.pollSendData.controlMsg = c₁.controlMsg := by
      rw [hc, hdrop]
      split
      · exact ⟨rfl, rfl, rfl⟩
      · split <;> exact ⟨rfl, rfl, rfl⟩
    obtain ⟨hs', hpl', hq'⟩ := hafter
    exact {
      control := by rw [hq', hq]; exact h.control
      law := absurd hs'
      ended := fun _ => ⟨hclosed hsome he, hpl'.trans (hpulled.trans hlaw),
        by rw [hq', hq]; exact hno⟩
      done := fun _ hne => absurd hs' hne }
  · rw [hc]
    exact h₁

/-- **Handling a control message** loses nothing, if the receivers that wait are
empty but the newest, and leaves it so. -/
theorem handleControlMsg (h : c.InOrder accepted closed) (hl : c.Linked cur) (hok : c.Lossless)
    {msg : Message} {q : List Message} (hq : c.controlMsg.queue = msg :: q)
    (hc : { c with controlMsg := c.controlMsg.poll.2 }.handleControlMsg msg = some c') :
    c'.InOrder accepted closed ∧ c'.Lossless := by
  rcases hl.control msg (by simp [hq]) with rfl | ⟨n, o, rfl⟩
  · exact absurd (by simp [hq]) h.control
  have hsome : c.sendData ≠ none := fun hn =>
    absurd (by simp [hq]) ((h.ended (Or.inr hn)).2.2 n o)
  obtain ⟨s, hs⟩ := Option.ne_none_iff_exists'.mp hsome
  have hopen : ¬ (c.SawEnd ∨ c.sendData = none) := fun hor =>
    absurd (by simp [hq]) ((h.ended hor).2.2 n o)
  have hnotend : c.source.ended = true → False := fun he =>
    absurd (by simp [hq]) ((hl.of_ended hs he).2 n o)
  obtain ⟨c₁, hc', hsw⟩ := Context.handleControlMsg_swap
    (c := { c with controlMsg := c.controlMsg.poll.2 }) hs n o
  obtain rfl := Option.some.inj (hc'.symm.trans hc)
  obtain ⟨chans, hframe⟩ := hsw.frame
  have hs' : c₁.sendData = some (s.setSwapTo n) := by rw [hframe]
  have hq' : c₁.controlMsg.queue = q := by rw [hframe, Chan.poll_queue, hq, List.tail_cons]
  have hpl : c₁.pulls = c.pulls := by rw [hframe]
  have hst : c₁.stopSendingOrFinSent = c.stopSendingOrFinSent := by rw [hframe]
  -- the receivers that are newer than the slot see no change
  have hnewer : ∀ m o', Message.swapSendData m o' ∈ c.controlMsg.queue → s.swapTo ≠ some m :=
    fun m o' hm hn => lt_irrefl m ((hl.lt_of_mem hs hm).2 m hn)
  have hqueue : ∀ m o', Message.swapSendData m o' ∈ c.controlMsg.queue →
      (c₁.chans.cell m).chan.queue = (c.chans.cell m).chan.queue :=
    fun m o' hm => hsw.queue m (hnewer m o' hm)
  have hmem : ∀ {m o'}, Message.swapSendData m o' ∈ q →
      Message.swapSendData m o' ∈ c.controlMsg.queue := fun hm => by
    rw [hq]
    exact List.mem_cons_of_mem _ hm
  have hwr : c.waitingReceivers = s.swapTo.toList ++ n :: q.filterMap (fun
      | .swapSendData n _ => some n
      | _ => none) := by
    rw [waitingReceivers, hs, hq]
    rfl
  have hwr' : c₁.waitingReceivers = n :: q.filterMap (fun
      | .swapSendData n _ => some n
      | _ => none) := by
    rw [waitingReceivers, hs', hq']
    rfl
  have hempty : ∀ r, s.swapTo = some r → (c.chans.cell r).chan.queue = [] := fun r hr => by
    refine hok r ?_
    rw [hwr, hr, List.dropLast_append_of_ne_nil (by simp)]
    simp
  constructor
  · -- the items of the receiver that is swapped in are the next ones
    have hl' : c₁.Linked cur := hl.swapped hs hq hsw
    have hitems : c₁.source.items = c.source.items ++ (c.chans.cell n).chan.queue := by
      rw [hl'.source_items hs', hl.source_items hs]
      have hact : s.swapTo ≠ some s.activeStream := hl.slotDistinct s hs
      have hold : (match s.swapTo with
          | some r => (c.chans.cell r).chan.queue
          | none => []) = [] := by
        cases hr : s.swapTo with
        | none => rfl
        | some r => exact hempty r hr
      rw [hold, List.append_nil]
      exact congrArg₂ (· ++ ·) (hsw.queue _ hact) (hqueue n o (by simp [hq]))
    have hwait : waiting c₁.chans q = waiting c.chans q :=
      waiting_congr fun m o' hm => hqueue m o' (hmem hm)
    exact {
      control := fun hm => h.control (by rw [hq]; exact List.mem_cons_of_mem _ (hq' ▸ hm))
      law := fun _ => by
        have hlaw := h.law hsome
        rw [backlog, hq, waiting_swap] at hlaw
        rw [pulledItems, hpl, backlog, hq', hitems, hwait, ← hlaw, List.append_assoc]
        rfl
      ended := fun hor => by
        refine absurd (hor.imp (fun hsaw => ?_) fun hn => ?_) hopen
        · rwa [SawEnd, ← hpl]
        · simp [hs'] at hn
      done := fun hd _ => absurd (h.done (hst ▸ hd) hsome).1 hnotend }
  · intro r hr
    rw [hwr'] at hr
    have hold : (c.chans.cell r).chan.queue = [] := by
      refine hok r ?_
      rw [hwr, List.dropLast_append_of_ne_nil (by simp)]
      exact List.mem_append_right _ hr
    have hin : ∃ o', Message.swapSendData r o' ∈ c.controlMsg.queue := by
      rcases List.mem_cons.mp (List.dropLast_subset _ hr) with rfl | hr
      · exact ⟨o, by simp [hq]⟩
      · obtain ⟨m, hm, hmr⟩ := List.mem_filterMap.mp hr
        cases m with
        | swapSendData n' o' =>
          obtain rfl := Option.some.inj hmr
          exact ⟨o', hmem hm⟩
        | _ => simp at hmr
    obtain ⟨o', hin⟩ := hin
    rw [hqueue r o' hin, hold]

/-- **Polling for control messages loses nothing**, if the receivers that wait are
empty but the newest. -/
theorem pollControlMsg (h : c.InOrder accepted closed) (hl : c.Linked cur) (hok : c.Lossless) :
    ∃ r c', c.pollControlMsg = some (r, c') ∧ Kept cur c c' ∧ c'.InOrder accepted closed := by
  have hidle : ∀ c₁ c₂ : Context, c₁.InOrder accepted closed ∧ c₁.Lossless → Idle c₁ c₂ →
      c₂.InOrder accepted closed ∧ c₂.Lossless := by
    rintro c₁ c₂ ⟨h₁, hok₁⟩ hi
    refine ⟨h₁.of_idle hi, fun r hr => ?_⟩
    rw [waitingReceivers, hi.sendData, hi.control] at hr
    rw [hi.chan]
    exact hok₁ r hr
  obtain ⟨r, c', hc', hk, h', -⟩ := hl.pollControlMsg_rule hidle
    (fun c₁ c₂ msg q hl₁ h₁ hq hc => h₁.1.handleControlMsg hl₁ h₁.2 hq hc) ⟨h, hok⟩
  exact ⟨r, c', hc', hk, h'⟩

end InOrder

end Context

/-! ### Runs -/

/-- **The premise**: the application resets nothing, the peer does not stop the
sending, and the context is not dropped from outside. -/
def Event.keepsSending : Event → Bool
  | .reset | .dropContext | .callback (.data _ .stopSending) => false
  | _ => true

namespace Pair

variable {p p' : Pair}

/-- **No item is replaced**: whenever the context handles control messages, the
receivers that wait are empty but the newest. -/
def swapsEmpty (p : Pair) : Event → Bool
  | .poll | .pollControlMsg => decide p.ctx.Lossless
  | _ => true

/-- The items of a pair are in order. -/
structure InOrder (p : Pair) : Prop where
  linked : p.Linked
  ctx : p.ctx.InOrder p.accepted (p.stream = none)

namespace InOrder

/-- A source that has ended is closed. -/
theorem closed (h : p.InOrder) : p.ctx.sendData ≠ none → p.ctx.source.ended = true →
    p.stream = none := fun hs he => by
  obtain ⟨s, hs⟩ := Option.ne_none_iff_exists'.mp hs
  exact (h.linked.stream_eq_none hs he).1

/-- While the application has its end, so has the context, and no end was seen. -/
theorem of_stream (h : p.InOrder) {s : Stream} (hs : p.stream = some s) :
    p.ctx.sendData ≠ none ∧ ¬ p.ctx.SawEnd ∧ p.ctx.stopSendingOrFinSent = false := by
  have hopen : ¬ (p.ctx.SawEnd ∨ p.ctx.sendData = none) := fun hor => by
    have := (h.ctx.ended hor).1
    simp [hs] at this
  have hsome : p.ctx.sendData ≠ none := fun hn => hopen (Or.inr hn)
  refine ⟨hsome, fun hsaw => hopen (Or.inl hsaw), ?_⟩
  by_contra hst
  have := h.closed hsome (h.ctx.done (by simpa using hst) hsome).1
  simp [hs] at this

/-- What the application did to the channels keeps the order. -/
theorem of_law (h : p.InOrder) {s : Stream} (hs : p.stream = some s) (hl : p'.Linked)
    (hq : Message.reset ∉ p'.ctx.controlMsg.queue)
    (hsd : p'.ctx.sendData = p.ctx.sendData) (hpl : p'.ctx.pulls = p.ctx.pulls)
    (hst : p'.ctx.stopSendingOrFinSent = p.ctx.stopSendingOrFinSent)
    (hlaw : p'.ctx.pulledItems ++ p'.ctx.backlog = p'.accepted) : p'.InOrder := by
  obtain ⟨hsome, hsaw, hstop⟩ := h.of_stream hs
  refine ⟨hl, hq, fun _ => hlaw, fun hor => absurd hor ?_, fun hd => ?_⟩
  · rw [SawEnd, hpl, hsd]
    exact fun hor => hor.elim hsaw hsome
  · rw [hst, hstop] at hd
    simp at hd

/-- **An accepted item is the last of the backlog.** -/
theorem startSend (h : p.InOrder) {s : Stream} {r : ChanRef} {item : Bytes}
    (hs : p.stream = some s) (hr : s.sendData = some r)
    (hl : { p with ctx := p.ctx.pushData r item, accepted := p.accepted ++ [item] }.Linked) :
    { p with ctx := p.ctx.pushData r item, accepted := p.accepted ++ [item] }.InOrder := by
  have hcur : p.cur = some r := by simp [cur, hs, hr]
  obtain ⟨sw, hsw⟩ := Option.ne_none_iff_exists'.mp (h.of_stream hs).1
  refine h.of_law hs hl h.ctx.control rfl rfl rfl ?_
  have hlaw := h.ctx.law (by simp [hsw])
  have hchain := h.linked.ctx.chain sw hsw
  rw [hcur] at hchain
  have hpush := hchain.pushData item
  -- the channels of the context, before and after
  have hitems := h.linked.ctx.source_items hsw
  have hitems' := hl.ctx.source_items (c := p.ctx.pushData r item) hsw
  have hbacklog : (p.ctx.pushData r item).backlog = p.ctx.backlog ++ [item] := by
    rw [backlog, backlog, hitems, hitems']
    cases hn : sw.swapTo with
    | none =>
      rw [hn] at hpush
      simpa [Context.pushData] using hpush
    | some r' =>
      rw [hn] at hpush
      have hlt : sw.activeStream < r := by
        rw [hn] at hchain
        exact (h.linked.ctx.active sw r' hsw hn).1.trans_le hchain.le_cur.1
      have hact : (p.ctx.pushData r item).chans.cell sw.activeStream =
          p.ctx.chans.cell sw.activeStream :=
        p.ctx.chans.modify_cell_of_ne (fun ch => { ch with chan := ch.chan.push item }) hlt.ne
      rw [hact, List.append_assoc, List.append_assoc, List.append_assoc, List.append_cancel_left_eq,
        ← List.append_assoc]
      exact hpush
  simp only [hbacklog]
  rw [← List.append_assoc]
  exact congrArg (· ++ [item]) hlaw

/-- **A swap by the application** adds an empty channel to the backlog. -/
theorem pushSwap (h : p.InOrder) {s s' : Stream} {a : ChanRef} (hs : p.stream = some s)
    (ha : s.sendData = some a) (hl : { p with stream := some s', ctx := p.ctx.pushSwap a }.Linked) :
    { p with stream := some s', ctx := p.ctx.pushSwap a }.InOrder := by
  have hcur : p.cur = some a := by simp [cur, hs, ha]
  obtain ⟨sw, hsw⟩ := Option.ne_none_iff_exists'.mp (h.of_stream hs).1
  refine h.of_law hs hl (by simpa [Context.pushSwap] using h.ctx.control) rfl rfl rfl ?_
  have hlaw := h.ctx.law (by simp [hsw])
  have hchain := h.linked.ctx.chain sw hsw
  rw [hcur] at hchain
  -- all channels there were are older than the fresh one
  have hold : ∀ r, r ≤ a → (p.ctx.pushSwap a).chans.cell r = p.ctx.chans.cell r := fun r hr =>
    p.ctx.chans.alloc_cell_of_lt _ (hr.trans_lt hchain.le_cur.2.1)
  have hle : ∀ n o, Message.swapSendData n o ∈ p.ctx.controlMsg.queue → n ≤ a := fun n o hm =>
    hchain.mem_le_cur hm
  have hitems : (p.ctx.pushSwap a).source.items = p.ctx.source.items := by
    rw [h.linked.ctx.source_items hsw, hl.ctx.source_items (c := p.ctx.pushSwap a) hsw]
    cases hn : sw.swapTo with
    | none =>
      rw [hn, Option.getD_none] at hchain
      rw [hold _ hchain.le_cur.1]
    | some r =>
      rw [hn, Option.getD_some] at hchain
      simp only [hold _ hchain.le_cur.1,
        hold _ ((h.linked.ctx.active sw r hsw hn).1.le.trans hchain.le_cur.1)]
  have hwait : waiting (p.ctx.pushSwap a).chans (p.ctx.pushSwap a).controlMsg.queue =
      waiting p.ctx.chans p.ctx.controlMsg.queue := by
    have hfresh : (p.ctx.pushSwap a).chans.cell p.ctx.chans.next = ErrorChan.new :=
      p.ctx.chans.alloc_cell_self _
    rw [Context.pushSwap, Chan.push_queue, waiting_append, waiting_swap, waiting_nil,
      List.append_nil]
    refine (congrArg₂ (· ++ ·) (waiting_congr fun n o hm => ?_) ?_).trans (List.append_nil _)
    · rw [← hold n (hle n o hm)]
      rfl
    · exact congrArg (fun c => c.chan.queue) hfresh
  simp only [backlog, hitems, hwait]
  exact hlaw

/-- **Dropping the `Stream`** leaves the items where they are. -/
theorem dropStream (h : p.InOrder) {s : Stream} (hs : p.stream = some s)
    (hl : { p with stream := none, ctx := s.drop p.ctx }.Linked) :
    { p with stream := none, ctx := s.drop p.ctx }.InOrder := by
  obtain ⟨sw, hsw⟩ := Option.ne_none_iff_exists'.mp (h.of_stream hs).1
  refine h.of_law hs hl h.ctx.control rfl rfl rfl ?_
  have hlaw := h.ctx.law (by simp [hsw])
  have hqueue : ∀ r, ((s.drop p.ctx).chans.cell r).chan.queue =
      (p.ctx.chans.cell r).chan.queue := by
    intro r
    simp only [Stream.drop]
    cases s.sendData with
    | none => rfl
    | some a =>
      exact p.ctx.chans.modify_cell_congr ErrorChan.dropSender (fun ch => ch.chan.queue) rfl r
  have hitems : (s.drop p.ctx).source.items = p.ctx.source.items := by
    rw [h.linked.ctx.source_items hsw, hl.ctx.source_items (c := s.drop p.ctx) hsw]
    simp only [hqueue]
  have hwait : waiting (s.drop p.ctx).chans (s.drop p.ctx).controlMsg.queue =
      waiting p.ctx.chans p.ctx.controlMsg.queue := waiting_congr fun n o _ => hqueue n
  simp only [backlog, hitems, hwait]
  exact hlaw

theorem stepStream (h : p.InOrder) {s : Stream} (hs : p.stream = some s) {e : Event}
    (he : e.atStream = true) (hok : e.keepsSending = true) :
    ∃ p', p.stepStream s e = some p' ∧ p'.InOrder := by
  obtain ⟨p', hp', hl⟩ := stepStream_linked h.linked hs he
  refine ⟨p', hp', ?_⟩
  cases e with
  | startSend item room =>
    rcases stepStream_startSend (p := p) (s := s) item room with ⟨r, hr, -, h'⟩ | h'
    · obtain rfl := Option.some.inj (h'.symm.trans hp')
      exact h.startSend hs hr hl
    · obtain rfl := Option.some.inj (h'.symm.trans hp')
      exact h
  | setSendChannelSize =>
    rcases stepStream_setSendChannelSize hs with
      ⟨-, h'⟩ | ⟨a, c', ha, h', ⟨-, rfl⟩ | ⟨ho, -⟩⟩
    · obtain rfl := Option.some.inj (h'.symm.trans hp')
      exact h
    · obtain rfl := Option.some.inj (h'.symm.trans hp')
      exact h.pushSwap hs ha hl
    · -- a context that is gone has given up its receiver
      have hends := congrArg (fun e => e.2.1) h.linked.ends
      exact absurd (h.linked.dropped (hends.symm.trans ho)) (h.of_stream hs).1
  | reset => simp [Event.keepsSending] at hok
  | pollStream =>
    obtain ⟨o, s', hpoll, -⟩ := Stream.poll_frame s p.ctx h.linked.ctx.recv
    obtain rfl := Option.some.inj ((stepStream_pollStream hpoll).symm.trans hp')
    exact h.of_law hs hl h.ctx.control rfl rfl rfl (h.ctx.law (h.of_stream hs).1)
  | dropStream =>
    obtain rfl := Option.some.inj hp'
    exact h.dropStream hs hl
  | _ => simp [Event.atStream] at he

/-- A context that is finished holds no item when it is dropped. -/
theorem drop (h : p.InOrder) (ha : p.alive = true)
    (hst : p.ctx.stopSendingOrFinSent = true) :
    { p with ctx := p.ctx.drop, alive := false }.InOrder := by
  obtain ⟨chans, hd⟩ := drop_spec p.ctx
  have hall : p.stream = none ∧ p.ctx.pulledItems = p.accepted := by
    rcases Option.eq_none_or_eq_some p.ctx.sendData with hn | ⟨s, hs⟩
    · obtain ⟨hcl, hpl, -⟩ := h.ctx.ended (Or.inr hn)
      exact ⟨hcl, hpl⟩
    · obtain ⟨he, hi⟩ := h.ctx.done hst (by simp [hs])
      obtain ⟨hlaw, -⟩ := h.ctx.of_ended h.linked.ctx hs he
      rw [hi, List.append_nil] at hlaw
      exact ⟨h.closed (by simp [hs]) he, hlaw⟩
  have hq : p.ctx.drop.controlMsg.queue = [] := by rw [hd]; rfl
  have hs : p.ctx.drop.sendData = none := by rw [hd]
  have hpl : p.ctx.drop.pulledItems = p.ctx.pulledItems := by rw [hd]; rfl
  exact {
    linked := h.linked.drop ha
    ctx := {
      control := by simp [hq]
      law := absurd hs
      ended := fun _ => ⟨hall.1, hpl.trans hall.2, by simp [hq]⟩
      done := fun _ hne => absurd hs hne } }

/-- **A step of the event loop keeps the order**, if it replaces no item. -/
theorem stepContext (h : p.InOrder) (ha : p.alive = true) {e : Event} (he : e.atStream = false)
    (hok : e.keepsSending = true) (hempty : p.swapsEmpty e = true)
    (hstep : p.stepContext e = some p') (hl : p'.Linked) : p'.InOrder := by
  cases e with
  | callback cb =>
    cases cb with
    | prepareToSend dest n =>
      cases dest with
      | none => simp [Pair.stepContext, handleCallback, Context.handleSendData] at hstep
      | some dest =>
        obtain ⟨c', hc', hspec⟩ := handleSendData_spec dest n h.linked.ctx.slotDistinct
        obtain rfl := Option.some.inj
          ((@stepContext_callback p (.prepareToSend (some dest) n) c' hc').symm.trans hstep)
        exact ⟨hl, h.ctx.handleSendData h.linked.ctx h.closed hspec⟩
    | data bytes event =>
      obtain ⟨c₁, heff, -, hc⟩ := handleCallback_data (c := p.ctx) bytes event
      obtain rfl := Option.some.inj ((stepContext_callback hc).symm.trans hstep)
      have hne : event ≠ .stopSending := by
        rintro rfl
        simp [Event.keepsSending] at hok
      refine ⟨hl, ?_⟩
      simp only [if_neg hne]
      exact h.ctx.of_idle heff.idle
  | pollControlMsg =>
    obtain ⟨r, c', hc', -, h'⟩ := h.ctx.pollControlMsg h.linked.ctx
      (by simpa [swapsEmpty] using hempty)
    obtain rfl := Option.some.inj ((stepContext_pollControlMsg hc').symm.trans hstep)
    exact ⟨hl, h'⟩
  | pollSendData =>
    obtain rfl := Option.some.inj hstep
    exact ⟨hl, h.ctx.pollSendData h.linked.ctx h.closed⟩
  | poll =>
    obtain ⟨r, c', hc', hk, h'⟩ := h.ctx.pollControlMsg h.linked.ctx
      (by simpa [swapsEmpty] using hempty)
    obtain rfl := Option.some.inj ((stepContext_poll hc').symm.trans hstep)
    have h₁ : { p with ctx := c' }.InOrder := ⟨h.linked.of_kept hk rfl rfl, h'⟩
    have h₂ : { p with ctx := c'.pollSendData }.InOrder :=
      ⟨h₁.linked.of_kept (pollSendData_kept h₁.linked.ctx) rfl rfl,
        h₁.ctx.pollSendData h₁.linked.ctx h₁.closed⟩
    split
    · rename_i hfin
      exact h₂.drop ha hfin.1
    · exact h₂
  | connectionError err =>
    obtain rfl := Option.some.inj hstep
    exact ⟨hl, h.ctx.of_idle (handleConnectionError_idle p.ctx err)⟩
  | connectionClose =>
    obtain rfl := Option.some.inj hstep
    exact ⟨hl, h.ctx.of_idle (recvMessage_effect p.ctx .close).idle⟩
  | dropContext => simp [Event.keepsSending] at hok
  | _ => simp [Event.atStream] at he

/-- **Every step keeps the order**, if it replaces no item. -/
theorem step (h : p.InOrder) {e : Event} (hok : e.keepsSending = true ∧ p.swapsEmpty e = true)
    (hstep : p.step e = some p') : p'.InOrder := by
  have hl := h.linked.of_step hstep
  rw [Pair.step] at hstep
  cases he : e.atStream with
  | true =>
    rw [he, if_pos rfl] at hstep
    cases hs : p.stream with
    | none =>
      obtain rfl : p = p' := by simpa [hs] using hstep
      exact h
    | some s =>
      simp only [hs] at hstep
      obtain ⟨p₁, hp₁, h₁⟩ := h.stepStream hs he hok.1
      obtain rfl := Option.some.inj (hp₁.symm.trans hstep)
      exact h₁
  | false =>
    rw [he, if_neg Bool.false_ne_true] at hstep
    split at hstep
    · exact h.stepContext ‹_› he hok.1 hok.2 hstep hl
    · obtain rfl := Option.some.inj hstep
      exact h

end InOrder

theorem new_inOrder {id : Id} {isClientCon : Bool} (h : HasSendHalf id isClientCon) :
    (Streams.new id isClientCon).InOrder := by
  have hd : ¬ (isUnidirectional id && !isUnidirectionalSendAllowed id isClientCon) = true := by
    rcases h with h | h <;> simp [h]
  have hl := new_linked id isClientCon
  simp only [Streams.new, createSendAndRecvData, if_neg hd] at hl ⊢
  exact {
    linked := hl
    ctx := {
      control := by simp [Context.new, Chan.new]
      law := fun _ => rfl
      ended := fun hor => absurd hor (by simp [SawEnd, Context.new])
      done := fun hst => absurd hst hd } }

end Pair

/-- **Swapping keeps the order.** In every run of a stream with a send half in which no
receiver that holds an item is replaced, the items pulled are at every moment a
prefix of the items accepted; and the end is pulled only after the `Stream` was
dropped and every accepted item was pulled. -/
theorem swapping_keeps_order {id : Id} {isClientCon : Bool} (h : HasSendHalf id isClientCon)
    {es : List Event} (hes : ∀ e ∈ es, e.keepsSending = true)
    (hempty : Trace.Obeys Pair.step (fun p e => p.swapsEmpty e) (new id isClientCon) es) {p : Pair}
    (hrun : (new id isClientCon).run es = some p) :
    p.ctx.pulledItems <+: p.accepted ∧
      (p.ctx.SawEnd → p.stream = none ∧ p.ctx.pulledItems = p.accepted) := by
  have hin : p.InOrder := Trace.run_preserves (fun _ _ _ h hok hstep => h.step hok hstep)
    (Pair.new_inOrder h)
    (Trace.obeys_and.mpr ⟨Trace.obeys_of_forall fun e he _ => hes e he, hempty⟩) hrun
  refine ⟨hin.ctx.isPrefix, fun hsaw => ?_⟩
  obtain ⟨hcl, hpl, -⟩ := hin.ctx.ended (Or.inl hsaw)
  exact ⟨hcl, hpl⟩

/-- Two swaps, with the first channel drained before the second. -/
theorem swapping_keeps_order_of_two : ∃ p, (new 4 true).run
      [.startSend [1] true, .setSendChannelSize, .poll, .startSend [2] true,
        .callback (.prepareToSend (some zeroed) 9), .setSendChannelSize, .startSend [3] true,
        .poll, .dropStream, .poll] = some p ∧
      p.ctx.pulledItems = [[1], [2], [3]] ∧ p.ctx.pulledItems <+: p.accepted :=
  ⟨_, rfl, by decide, (@swapping_keeps_order 4 true (by decide)
    [.startSend [1] true, .setSendChannelSize, .poll, .startSend [2] true,
      .callback (.prepareToSend (some zeroed) 9), .setSendChannelSize, .startSend [3] true,
      .poll, .dropStream, .poll] (by decide) (by decide) _ rfl).1⟩

/-- **A swap that loses an item.** Two swaps before the context is polled: the item sent
between them is in the receiver that is replaced. -/
theorem swap_loses_an_item : ∃ es p, (∀ e ∈ es, Event.keepsSending e = true) ∧
    (new 4 true).run es = some p ∧ p.accepted = [[1], [2]] ∧ p.ctx.pulls = [some [2]] ∧
      ¬ p.ctx.pulledItems <+: p.accepted :=
  ⟨[.setSendChannelSize, .startSend [1] true, .setSendChannelSize, .startSend [2] true, .poll], _,
    by decide, rfl, by decide, by decide, by decide⟩

end Streams

end PicoquicRs
