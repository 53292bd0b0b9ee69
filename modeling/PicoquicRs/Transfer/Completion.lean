import PicoquicRs.Transfer.Intact

/-!
# A transfer can always be completed

Once the writer has dropped its `Stream`, and nobody gives the stream up, the two event loops
can bring the transfer to its end from wherever it is: by a poll of the writer's context, a
`prepare_to_send` callback – for which the stream is active then –, the delivery of what is
under way, and polls of the reader (`PicoquicRs.Transfer.Link.can_be_completed`). So no state
that can be reached is a dead end, whatever the order of the steps that led there.
-/

namespace PicoquicRs

namespace Streams

open Futures Context

namespace Context

variable {c c' : Context}

/-- Without a sender, and with no message under way, the source has ended. -/
theorem Linked.ended_of_closed (h : c.Linked none) (hq : c.controlMsg.queue = []) :
    c.source.ended = true := by
  cases hs : c.sendData with
  | none => rw [source_of_none hs]
  | some s =>
    have hc := h.chain s hs
    rw [hq] at hc
    have hend : (chanSource (s.swapTo.getD s.activeStream) c.chans).ended = true := by
      simp [chanSource, Chan.isEnded, hc.2]
    rw [source_of_some hs, SwappableStream.source]
    cases hn : s.swapTo with
    | none =>
      rw [hn] at hend
      exact hend
    | some r =>
      rw [hn, Option.getD_some] at hend
      have hact : (chanSource s.activeStream c.chans).ended = true := by
        simp [chanSource, Chan.isEnded, (h.active s r hs hn).2.2]
      simp [Source.append_of_ended hact, hend]

/-- Polling takes all control messages. -/
theorem Linked.pollControlMsg_queue {cur : Option ChanRef} (h : c.Linked cur) :
    ∃ r c', c.pollControlMsg = some (r, c') ∧ c'.controlMsg.queue = [] := by
  refine Context.pollControlMsg_rule (P := fun c => c.Linked cur) ?_ ?_ ?_ h
  · intro c msg q hl hq
    obtain ⟨c₁, hc₁, hk⟩ := handleControlMsg_kept hl hq
    exact ⟨c₁, hc₁, hk.linked⟩
  · intro c _ hq _
    rw [(recvMessageDropped_effect _).frame_eq.2.2.1]
    simp [hq]
  · intro c _ hq _
    simp [hq]

/-- **With the source at its end**, polling for data leaves a buffer to be sent, or gives the
receiver up. -/
theorem Linked.pollSendData_of_closed (h : c.Linked none) (hq : c.controlMsg.queue = []) :
    c.pollSendData.source.ended = true ∧
      (c.pollSendData.activeBuffer ≠ none ∨ c.pollSendData.sendData = none) := by
  have he := h.ended_of_closed hq
  rcases pollSendData_cases h.slotDistinct with
    ⟨hno, hc⟩ | ⟨s, s', chans, c₁, -, -, hc₁, -, -, hsrc, hcase⟩
  · rw [hc]
    exact ⟨he, hno⟩
  · rcases hcase with ⟨buf, q, hi, hc⟩ | ⟨hi, -, hc⟩ | ⟨-, hopen, -⟩
    · have hsrc' : c.pollSendData.source = c₁.source := by rw [hc]; rfl
      rw [hsrc', hsrc, Source.poll_of_cons hi]
      exact ⟨he, Or.inl (by simp [hc])⟩
    · obtain ⟨chans', -, hdrop⟩ := handleSendDataDropped_spec c₁
      have hs : c.pollSendData.sendData = none := by
        rw [hc, hdrop]
        split
        · rfl
        · split <;> rfl
      exact ⟨by rw [source_of_none hs], Or.inr hs⟩
    · simp [he] at hopen

end Context

namespace Pair

variable {p p' : Pair}

/-! ### The writer -/

/-- **A poll of a closed stream** leaves it active, with nothing more to come into its source;
unless its end was given. -/
theorem Flows.poll (h : p.Flows) (hs : p.stream = none) (hempty : p.ctx.Lossless) :
    ∃ p', p.step .poll = some p' ∧ p'.Flows ∧ p'.stream = none ∧ p'.accepted = p.accepted ∧
      (p'.ctx.wire.isEnded = true ∨
        p'.alive = true ∧ p'.ctx.activeInPicoquic = true ∧ p'.ctx.source.ended = true) := by
  have hl := h.order.linked
  cases ha : p.alive with
  | false =>
    refine ⟨p, ?_, h, hs, rfl, Or.inl (h.gone ha)⟩
    simp [Pair.step, Event.atStream, ha]
  | true =>
    have hcur : p.cur = none := by simp [cur, hs]
    obtain ⟨r, c, hc, hk⟩ := pollControlMsg_kept hl.ctx
    obtain ⟨r', c', hc', hq⟩ := hl.ctx.pollControlMsg_queue
    obtain ⟨-, rfl⟩ := Prod.mk.inj (Option.some.inj (hc'.symm.trans hc))
    have hstep : p.step .poll = some (if c'.pollSendData.stopSendingOrFinSent = true ∧
        c'.pollSendData.finReceivedOrRecvMsgDropped = true then
          { p with ctx := c'.pollSendData.drop, alive := false }
        else { p with ctx := c'.pollSendData }) := by
      rw [Pair.step, if_neg (by simp [Event.atStream]), if_pos ha, stepContext_poll hc]
    have h' := h.step (e := .poll) rfl (decide_eq_true hempty) hstep
    refine ⟨_, hstep, h', ?_⟩
    split at h'
    · rename_i hfin
      rw [if_pos hfin]
      exact ⟨hs, rfl, Or.inl (h'.gone rfl)⟩
    · rename_i hfin
      rw [if_neg hfin]
      refine ⟨hs, rfl, ?_⟩
      obtain ⟨he, hdata⟩ := (hcur ▸ hk.linked).pollSendData_of_closed hq
      rcases h'.fetched.data with hend | ⟨-, hdue⟩
      · exact Or.inl ((Context.wire_isEnded _).mpr
          (hend.imp_right fun h => h.resolve_right False.elim))
      · refine Or.inr ⟨ha, hdue.resolve_right ?_, he⟩
        rintro ⟨hb, hn⟩
        exact hdata.elim (fun hne => hne hb) hn

/-- **A callback that asks for all there is** gets the end behind it. -/
theorem Flows.prepareToSend (h : p.Flows) (hs : p.stream = none) (ha : p.alive = true)
    (he : p.ctx.source.ended = true) :
    ∃ p', p.step (.callback (.prepareToSend (some zeroed) p.ctx.unsent.length)) = some p' ∧
      p'.Flows ∧ p'.stream = none ∧ p'.accepted = p.accepted ∧ p'.ctx.wire.isEnded = true := by
  obtain ⟨c, hc, hspec⟩ := handleSendData_spec zeroed p.ctx.unsent.length
    h.order.linked.ctx.slotDistinct
  have hstep : p.step (.callback (.prepareToSend (some zeroed) p.ctx.unsent.length)) =
      some { p with ctx := c } := by
    rw [Pair.step, if_neg (by simp [Event.atStream]), if_pos ha]
    exact stepContext_callback hc
  refine ⟨_, hstep, h.step rfl rfl hstep, hs, rfl, ?_⟩
  obtain ⟨sd, ch, pl, ab, hframe, -⟩ := hspec.frame
  have hcalls := congrArg Context.calls hframe
  rw [wire_of_calls hcalls, Wire.isEnded_call]
  simp [Call.isFin, he]

/-! ### The reader -/

/-- **Polling the `Stream`** gets to the end, once it was told. -/
theorem Delivers.exists_polls {t : List Outcome} (h : p.Delivers t) (ht : ended t = true) :
    ∃ k p', p.run (List.replicate k .pollStream) = some p' ∧ p'.Delivers t ∧
      ended p'.outcomes = true := by
  generalize hq : p.ctx.recvMsg.queue = q
  induction q generalizing p with
  | nil =>
    refine ⟨0, p, rfl, h, ?_⟩
    have htold := h.told
    rw [hq, List.map_nil, List.append_nil] at htold
    rw [ended_congr htold, ht]
  | cons m q ih =>
    obtain ⟨s, hs, -⟩ := h.stream
    obtain ⟨o, s', hp, -⟩ := Stream.poll_frame s p.ctx h.linked.ctx.recv
    have hstep : p.step .pollStream = some { p with
        stream := some s', ctx := p.ctx.popRecv, outcomes := p.outcomes ++ o.toList } := by
      simp only [Pair.step, Event.atStream, if_true, hs, stepStream_pollStream hp]
    have h' := h.step (by simp) hstep
    have hnil : t ++ Event.news .pollStream = t := List.append_nil t
    rw [hnil] at h'
    obtain ⟨k, p', hrun, hd, hend⟩ := ih h' (by simp [popRecv, hq])
    refine ⟨k + 1, p', ?_, hd, hend⟩
    rw [List.replicate_succ, Pair.run, Trace.run_cons_of_step hstep]
    exact hrun

end Pair

end Streams

namespace Transfer

open Streams

namespace Link

variable {i : Side} {l l' l'' : Link}

/-- A `prepare_to_send` callback comes only for a stream that is active in picoquic. -/
def asks (l : Link) (e : Event) : Prop :=
  ∀ dest n, e.2 = .callback (.prepareToSend dest n) → (l.pair e.1).ctx.activeInPicoquic = true

/-- **What it takes to complete a transfer**: polls of the contexts, callbacks, and polls of the
reader. -/
def drives (i : Side) : Event → Bool
  | (_, .poll) | (_, .callback _) => true
  | (j, .pollStream) => decide (j = i.other)
  | _ => false

/-- **One state leads to the other**, without the writer, and by the rules. -/
def Leads (i : Side) (l l' : Link) : Prop :=
  ∃ es, (∀ e ∈ es, drives i e = true ∧ keeps i e = true) ∧
    Trace.Obeys step (fun l e => l.carries e ∧ l.swapsEmpty i e ∧ l.asks e) l es ∧
      l.run es = some l'

namespace Leads

theorem refl (i : Side) (l : Link) : Leads i l l := ⟨[], by simp, trivial, rfl⟩

theorem single (e : Event) (hdrives : drives i e = true) (hkeeps : keeps i e = true)
    (hok : l.carries e ∧ l.swapsEmpty i e ∧ l.asks e) (hstep : l.step e = some l') : Leads i l l' :=
  ⟨[e], by simp [hdrives, hkeeps], ⟨hok, fun _ _ => trivial⟩, Trace.run_cons_of_step hstep⟩

theorem trans (h : Leads i l l') (h' : Leads i l' l'') : Leads i l l'' := by
  obtain ⟨es, hes, hok, hrun⟩ := h
  obtain ⟨es', hes', hok', hrun'⟩ := h'
  refine ⟨es ++ es', fun e he => (List.mem_append.mp he).elim (hes e) (hes' e), ?_, ?_⟩
  · refine Trace.obeys_append.mpr ⟨hok, fun l₁ hl₁ => ?_⟩
    obtain rfl := Option.some.inj (hl₁.symm.trans hrun)
    exact hok'
  · rw [run] at hrun hrun' ⊢
    rw [Trace.run_append, hrun, Option.bind_some, hrun']

/-- What is intact stays intact. -/
theorem intact (h : Leads i l l') (hi : Intact i l) : Intact i l' := by
  obtain ⟨es, hes, hok, hrun⟩ := h
  exact Trace.run_preserves (P := Intact i)
    (fun l e l' h hok hstep => h.step hok.1 hok.2.1 hok.2.2.1 hstep) hi
    (Trace.obeys_and.mpr ⟨Trace.obeys_of_forall fun e he _ => (hes e he).2, hok⟩) hrun

end Leads

/-- An endpoint takes an event. -/
theorem exists_step {j : Side} {e : Streams.Event} {p : Pair} (h : (l.pair j).step e = some p) :
    ∃ l', l.step (j, e) = some l' ∧ l'.pair j = p ∧ l'.arrived j = (l.arrived j).after e ∧
      l'.pair j.other = l.pair j.other ∧ l'.arrived j.other = l.arrived j.other := by
  refine ⟨_, by rw [step, h]; rfl, ?_⟩
  simp

namespace Intact

/-- **The writer gives the end to picoquic.** -/
theorem gives (h : Intact i l) (hs : (l.pair i).stream = none) (hempty : (l.pair i).ctx.Lossless) :
    ∃ l', Leads i l l' ∧ (l'.wire i).isEnded = true ∧
      (l'.pair i).accepted = (l.pair i).accepted := by
  obtain ⟨p₁, hp₁, hf, hs₁, ha₁, hend⟩ := h.flows.poll hs hempty
  obtain ⟨l₁, hstep₁, hpair₁, -⟩ := exists_step hp₁
  have hlead₁ : Leads i l l₁ := .single (i, .poll) rfl (by simp [keeps, Event.keepsSending])
    ⟨trivial, fun _ => decide_eq_true hempty, by simp [asks]⟩ hstep₁
  rcases hend with hend | ⟨halive, hactive, he⟩
  · exact ⟨l₁, hlead₁, by rw [wire, hpair₁]; exact hend, by rw [hpair₁]; exact ha₁⟩
  · obtain ⟨p₂, hp₂, -, -, ha₂, hend⟩ := hf.prepareToSend hs₁ halive he
    rw [← hpair₁] at hp₂
    obtain ⟨l₂, hstep₂, hpair₂, -⟩ := exists_step hp₂
    have hlead₂ : Leads i l₁ l₂ := .single
      (i, .callback (.prepareToSend (some zeroed) (l₁.pair i).ctx.unsent.length)) rfl
      (by simp [keeps, Event.keepsSending])
      ⟨trivial, fun _ => rfl, fun _ _ _ => by rw [hpair₁]; exact hactive⟩ hstep₂
    exact ⟨l₂, hlead₁.trans hlead₂, by rw [wire, hpair₂]; exact hend, by rw [hpair₂, ha₂, ha₁]⟩

/-- **What is under way arrives**, with the end. -/
theorem arrives_all (h : Intact i l) (hend : (l.wire i).isEnded = true) :
    ∃ l', Leads i l l' ∧ (l'.arrived i.other).isEnded = true ∧ l'.pair i = l.pair i := by
  cases ha : (l.arrived i.other).isEnded with
  | true => exact ⟨l, .refl i l, ha, rfl⟩
  | false =>
    obtain ⟨t, hd, hn⟩ := h.arrives
    -- the reader's context is there, as it was not told the end
    have halive : (l.pair i.other).alive = true := by
      by_contra hdead
      have := hd.gone (by simpa using hdead)
      rcases hn.of_ended this with ⟨hf, -⟩ | hr <;> simp [Wire.isEnded, *] at ha
    -- and a callback with what is left is allowed
    have hcb : ∀ bytes event, event ≠ .stopSending →
        ((l.arrived i.other).told (.data bytes event)).Within (l.wire i) →
        ((l.arrived i.other).told (.data bytes event)).isEnded = true →
        ∃ l', Leads i l l' ∧ (l'.arrived i.other).isEnded = true ∧ l'.pair i = l.pair i := by
      intro bytes event hne hwithin htold
      obtain ⟨c, hc⟩ : ∃ c, (l.pair i.other).ctx.handleCallback (.data bytes event) = some c := by
        obtain ⟨c, -, -, hc⟩ := Context.handleCallback_data (c := (l.pair i.other).ctx) bytes event
        exact ⟨_, hc⟩
      have hstep : (l.pair i.other).step (.callback (.data bytes event)) =
          some { l.pair i.other with ctx := c } := by
        rw [Pair.step, if_neg (by simp [Event.atStream]), if_pos halive]
        exact Pair.stepContext_callback hc
      obtain ⟨l', hstep', -, harr, hpair, -⟩ := exists_step hstep
      rw [Side.other_other] at hpair
      refine ⟨l', .single (i.other, .callback (.data bytes event)) rfl ?_ ⟨?_, ?_, ?_⟩ hstep',
        ?_, hpair⟩
      · simp [keeps, Event.keepsReceiving]
      · rw [carries, Side.other_other]
        exact ⟨fun _ => ha, hwithin⟩
      · exact fun hi => absurd hi (Side.other_ne i)
      · simp [asks]
      · rw [harr]
        exact htold
    have hstop := h.carried.stop
    have hreset := h.carried.reset
    rw [Wire.isEnded, Bool.or_eq_true] at hend
    rcases hend with hfin | hr
    · refine hcb (l.inFlight i) .streamFin (by simp) ⟨?_, ?_, ?_, ?_⟩
        (by simp [Wire.isEnded, Wire.told])
      · simp only [Wire.told, h.bytes_append]
        exact List.prefix_rfl
      · exact fun _ => ⟨hfin, by simp only [Wire.told, h.bytes_append]⟩
      · simpa [Wire.told] using hreset
      · simpa [Wire.told] using hstop
    · refine hcb [] .streamReset (by simp) ⟨?_, ?_, ?_, ?_⟩ (by simp [Wire.isEnded, Wire.told])
      · simpa [Wire.told] using h.carried.bytes
      · simpa [Wire.told] using h.carried.fin
      · exact fun _ => hr
      · simpa [Wire.told] using hstop

/-- **The reader reads to the end.** -/
theorem reads_all (h : Intact i l) (hend : (l.arrived i.other).isEnded = true) :
    ∃ l', Leads i l l' ∧ ended (l'.pair i.other).outcomes = true ∧ l'.pair i = l.pair i := by
  obtain ⟨t, hd, hn⟩ := h.arrives
  obtain ⟨k, p', hrun, -, he⟩ := hd.exists_polls (hn.told hend)
  suffices hloop : ∀ (k : ℕ) (l : Link),
      (l.pair i.other).run (List.replicate k .pollStream) = some p' →
      ∃ l', Leads i l l' ∧ l'.pair i.other = p' ∧ l'.pair i = l.pair i by
    obtain ⟨l', hlead, hpair, hi⟩ := hloop k l hrun
    exact ⟨l', hlead, by rw [hpair]; exact he, hi⟩
  intro k
  induction k with
  | zero =>
    intro l hrun
    exact ⟨l, .refl i l, Option.some.inj hrun, rfl⟩
  | succ k ih =>
    intro l hrun
    obtain ⟨p, hp, hrun⟩ := Option.bind_eq_some_iff.mp hrun
    obtain ⟨l₁, hstep, hpair, -, hi, -⟩ := exists_step hp
    obtain ⟨l', hlead, hpair', hi'⟩ := ih l₁ (by rw [hpair]; exact hrun)
    rw [Side.other_other] at hi
    refine ⟨l', Leads.trans (.single (i.other, .pollStream) (by simp [drives])
      (by simp [keeps, Event.keepsReceiving]) ⟨trivial, fun _ => rfl, by simp [asks]⟩ hstep) hlead,
      hpair', ?_⟩
    rw [hi', hi]

/-- A reader that was told the end has received all there is. -/
theorem received_all (h : Intact i l) (hend : ended (l.pair i.other).outcomes = true) :
    received (l.pair i.other).outcomes = (l.pair i).accepted.flatten := by
  obtain ⟨t, hd, hn⟩ := h.arrives
  have ht : ended t = true := by rw [← ended_congr hd.told, ended_append, hend, Bool.true_or]
  have hrec := h.received_append
  rw [Pair.unread, if_pos hend, List.append_nil] at hrec
  rw [hrec]
  rcases hn.of_ended ht with ⟨hfin, -⟩ | hreset
  · obtain ⟨hf, heq⟩ := h.carried.fin hfin
    exact heq.trans (h.flows.wire_bytes (Bool.or_eq_true_iff.mpr (Or.inl hf)))
  · have hnil := ((h.flows.commits.ctx.reset (h.carried.reset hreset)).resolve_left False.elim).2
    have hle := h.carried.bytes.trans h.flows.commits.ctx.wire_isPrefix
    rw [hnil, List.prefix_nil] at hle
    rw [hle, hnil]

end Intact

/-- **A transfer can always be completed.** From every state of a stream that nobody has given up
and that has lost no item to a swap, once the writer has dropped its `Stream` and no receiver that
holds an item is due to be replaced, the contexts, picoquic and the polls of the reader can lead
to a state in which the reader is told the end and has received all items accepted. On the way,
data is asked for only while the stream is active. -/
theorem can_be_completed {id : Id} {es : List Event} (h : HasSendHalf id i.isClientCon)
    (hkeep : ∀ e ∈ es, keeps i e = true) (hcarry : Trace.Obeys step carries (new id) es)
    (hswap : Trace.Obeys step (fun l e => l.swapsEmpty i e) (new id) es)
    (hrun : (new id).run es = some l) (hclosed : (l.pair i).stream = none)
    (hempty : (l.pair i).ctx.Lossless) :
    ∃ es' l', (∀ e ∈ es', drives i e = true ∧ keeps i e = true) ∧
      Trace.Obeys step (fun l e => l.carries e ∧ l.swapsEmpty i e ∧ l.asks e) l es' ∧
      l.run es' = some l' ∧ ended (l'.pair i.other).outcomes = true ∧
      received (l'.pair i.other).outcomes = (l.pair i).accepted.flatten := by
  have hi := run_intact h hkeep hcarry hswap hrun
  obtain ⟨l₁, h₁, hend₁, ha⟩ := hi.gives hclosed hempty
  have hi₁ := h₁.intact hi
  obtain ⟨l₂, h₂, hend₂, hp₂⟩ := hi₁.arrives_all hend₁
  have hi₂ := h₂.intact hi₁
  obtain ⟨l₃, h₃, hend₃, hp₃⟩ := hi₂.reads_all hend₂
  have hi₃ := h₃.intact hi₂
  obtain ⟨es', hes', hok, hrun'⟩ := h₁.trans (h₂.trans h₃)
  exact ⟨es', l₃, hes', hok, hrun', hend₃, by rw [hi₃.received_all hend₃, hp₃, hp₂, ha]⟩

/-- Three bytes are accepted, and only the first is asked for before the writer is gone. -/
theorem can_be_completed_of_part : ∃ l es' l', (new 4).run
      [(.client, .startSend [1, 2] true), (.client, .startSend [3] true), (.client, .poll),
        (.client, .callback (.prepareToSend (some zeroed) 1)), (.client, .dropStream)] = some l ∧
      l.run es' = some l' ∧ received (l'.pair .server).outcomes = [1, 2, 3] := by
  obtain ⟨es', l', -, -, hrun, -, hall⟩ := @can_be_completed .client _ 4
    [(.client, .startSend [1, 2] true), (.client, .startSend [3] true), (.client, .poll),
      (.client, .callback (.prepareToSend (some zeroed) 1)), (.client, .dropStream)]
    (by decide) (by simp [keeps, Event.keepsSending]) (by decide) (by decide) rfl rfl (by decide)
  exact ⟨_, es', l', rfl, hrun, hall⟩

end Link

end Transfer

end PicoquicRs
