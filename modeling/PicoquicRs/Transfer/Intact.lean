import PicoquicRs.Streams.Stalling
import PicoquicRs.Transfer.Refinement

/-!
# Where the bytes are

As long as nobody gives the stream up – the writer asks for no reset, the reader keeps its
`Stream`, and no connection is lost – a byte that was accepted is not lost on the way. It was
read, or it waits for the reader, is under way between the two endpoints, in the active buffer
of the writer's context, or in one of its channels; and it is at exactly one of these places,
in order (`PicoquicRs.Transfer.Link.bytes_are_conserved`). The writer may drop its `Stream` at
any time.
-/

namespace PicoquicRs

namespace Streams

open Futures Context

/-- The application keeps its `Stream`, and the stream is not cut off. -/
def Event.keepsReceiving : Event → Bool
  | .dropStream | .connectionError _ | .connectionClose | .dropContext => false
  | _ => true

namespace Wire

variable {w : Wire}

theorem isEnded_call (w : Wire) (x : Call) :
    (w.call x).isEnded = (w.isEnded || x.isFin || x.isReset) := by
  cases x with
  | provideStreamDataBuffer n fin act data =>
    rw [call]
    split
    · rename_i hend
      have hw : w.isEnded = true := hend
      simp [hw]
    · rename_i hend
      obtain ⟨hf, hr⟩ : w.fin = false ∧ w.reset = false := by simpa using hend
      simp [isEnded, hf, hr, Call.isFin, Call.isReset]
  | _ => simp [isEnded, call, Call.isFin, Call.isReset]

/-- An end was given if one of the calls gave it. -/
theorem isEnded_foldl (w : Wire) (calls : List Call) : (calls.foldl Wire.call w).isEnded =
    (w.isEnded || calls.any fun x => x.isFin || x.isReset) := by
  induction calls generalizing w with
  | nil => simp
  | cons x calls ih =>
    rw [List.foldl_cons, ih, isEnded_call, List.any_cons, Bool.or_assoc, Bool.or_assoc,
      Bool.or_assoc]

end Wire

/-- The end was given by a `FIN` or a reset. -/
theorem Context.wire_isEnded (c : Context) :
    c.wire.isEnded = true ↔ c.fins ≠ 0 ∨ c.resets ≠ 0 := by
  have hblank : Wire.blank.isEnded = false := rfl
  rw [wire, Wire.isEnded_foldl, hblank, Bool.false_or, fins, resets, ← Nat.pos_iff_ne_zero,
    ← Nat.pos_iff_ne_zero, List.countP_pos_iff, List.countP_pos_iff, List.any_eq_true]
  simp only [Bool.or_eq_true, and_or_left, exists_or]

namespace Pair

variable {p p' : Pair} {e : Event}

/-- Items that are in order are all there. -/
theorem InOrder.law (h : p.InOrder) : p.ctx.pulledItems ++ p.ctx.backlog = p.accepted := by
  by_cases hs : p.ctx.sendData = none
  · obtain ⟨-, hpl, hno⟩ := h.ctx.ended (Or.inr hs)
    rw [backlog, source_of_none hs, waiting_of_no_swap hno, hpl]
    exact List.append_nil _
  · exact h.ctx.law hs

/-- A context that drops itself counts the send half as finished. -/
theorem stop_of_step (hl : p.Linked) (ha : p.alive = true) (he : e ≠ .dropContext)
    (hstep : p.step e = some p') (ha' : p'.alive = false) :
    p'.ctx.stopSendingOrFinSent = true := by
  have hkeep : p'.alive = p.alive → p'.ctx.stopSendingOrFinSent = true := fun h => by
    simp [h, ha] at ha'
  rcases step_cases hstep with ⟨s, -, -, hstep⟩ | ⟨hat, -, hstep⟩ | ⟨rfl, -⟩
  · exact hkeep (stepStream_alive hstep)
  · cases e with
    | poll =>
      obtain ⟨r, c, hc, -⟩ := pollControlMsg_kept hl.ctx
      obtain rfl := Option.some.inj ((stepContext_poll hc).symm.trans hstep)
      split
      · rename_i hfin
        obtain ⟨chans, hdrop⟩ := drop_spec c.pollSendData
        rw [hdrop]
        exact hfin.1
      · rename_i hfin
        simp [hfin, ha] at ha'
    | callback cb =>
      obtain ⟨c, -, hstep⟩ := Option.bind_eq_some_iff.mp hstep
      exact hkeep (Option.some.inj hstep ▸ rfl)
    | pollControlMsg =>
      obtain ⟨c, -, hstep⟩ := Option.bind_eq_some_iff.mp hstep
      exact hkeep (Option.some.inj hstep ▸ rfl)
    | dropContext => exact absurd rfl he
    | _ => exact hkeep (Option.some.inj hstep ▸ rfl)
  · exact hkeep rfl

/-! ### The writer -/

/-- **The sending end of a stream nobody gives up.** -/
structure Flows (p : Pair) : Prop where
  order : p.InOrder
  commits : p.Commits False False
  fetched : p.ctx.Fetched False
  gone : p.alive = false → p.ctx.wire.isEnded = true

namespace Flows

/-- **Every step keeps the invariant**, if it replaces no item. -/
theorem step (h : p.Flows) (hkeep : e.keepsSending = true) (hempty : p.swapsEmpty e = true)
    (hstep : p.step e = some p') : p'.Flows := by
  have hl := h.order.linked
  have hstop : ∀ bytes, e = .callback (.data bytes .stopSending) → False := by
    rintro bytes rfl
    simp [Event.keepsSending] at hkeep
  have hdrop : e ≠ .dropContext := by
    rintro rfl
    simp [Event.keepsSending] at hkeep
  have hf := Pair.fetched_step hl h.fetched hstep hstop hdrop
  refine ⟨h.order.step ⟨hkeep, hempty⟩ hstep, (h.commits.step hempty hstep).mono ?_ ?_, hf, ?_⟩
  · rintro (h | ⟨-, hab⟩)
    · exact h
    · cases e <;> simp [Event.isAbort, Event.keepsSending] at hab hkeep
  · rintro (h | hst)
    · exact h
    · cases e with
      | callback cb =>
        cases cb with
        | prepareToSend dest n => simp [Event.isStop] at hst
        | data bytes event => cases event <;> simp [Event.isStop, Event.keepsSending] at hst hkeep
      | _ => simp [Event.isStop] at hst
  · intro ha'
    cases ha : p.alive with
    | false =>
      obtain ⟨extra, hcalls, -⟩ := (step_grown hl hstep).1.calls
      rw [wire_of_append hcalls, Wire.isEnded_foldl, h.gone ha, Bool.true_or]
    | true =>
      rw [Context.wire_isEnded]
      have hst := stop_of_step hl ha hdrop hstep ha'
      exact (hf.data.resolve_right fun hd => by simp [hst] at hd).imp_right
        fun h => h.resolve_right False.elim

/-- What ends the wire is all there is. -/
theorem wire_bytes (h : p.Flows) (hend : p.ctx.wire.isEnded = true) :
    p.ctx.wire.bytes = p.accepted.flatten := by
  rw [Wire.isEnded, Bool.or_eq_true] at hend
  rcases hend with hfin | hreset
  · exact ((h.commits.ctx.fin hfin).resolve_left False.elim).2
  · have hnil := ((h.commits.ctx.reset hreset).resolve_left False.elim).2
    have hle := h.commits.ctx.wire_isPrefix
    rw [hnil] at hle ⊢
    exact List.prefix_nil.mp hle

/-- **Every byte accepted** was given to picoquic, or is in the active buffer or in a channel. -/
theorem bytes (h : p.Flows) :
    p.ctx.wire.bytes ++ (p.ctx.activeBytes ++ p.ctx.backlog.flatten) = p.accepted.flatten := by
  have hall : p.ctx.sentBytes ++ (p.ctx.activeBytes ++ p.ctx.backlog.flatten) =
      p.accepted.flatten := by
    rw [← List.append_assoc, h.commits.ctx.bytes, ← List.flatten_append, h.order.law]
  cases hend : p.ctx.wire.isEnded with
  | false => rw [p.ctx.wire_bytes.2 hend, hall]
  | true =>
    -- nothing was handed over behind the end, and nothing is left
    obtain ⟨rest, hrest⟩ := p.ctx.wire_bytes.1
    have heq := h.wire_bytes hend
    rw [← hrest, List.append_assoc, ← heq] at hall
    have hnil := List.append_right_eq_self.mp hall
    rw [(List.append_eq_nil_iff.mp hnil).2, List.append_nil, heq]

end Flows

theorem new_flows {id : Id} {isClientCon : Bool} (h : HasSendHalf id isClientCon) :
    (Streams.new id isClientCon).Flows where
  order := new_inOrder h
  commits := new_commits h
  fetched := new_fetched (Or.inl h)
  gone := fun ha => by simp [Streams.new] at ha

/-! ### The reader -/

/-- What the reader was told and has not read yet, up to the end. -/
def unread (p : Pair) : Bytes :=
  if ended p.outcomes then [] else received (p.ctx.recvMsg.queue.map (Stream.outcome false))

/-- What was told was read, or waits. -/
theorem Delivers.received_append {t : List Outcome} (h : p.Delivers t) :
    received p.outcomes ++ p.unread = received t := by
  have htold : received (p.outcomes ++ p.ctx.recvMsg.queue.map (Stream.outcome false)) =
      received t := by rw [received, h.told, received]
  rw [unread, ← htold]
  cases hend : ended p.outcomes with
  | true => rw [if_pos rfl, received_append_of_ended hend, List.append_nil]
  | false => rw [if_neg Bool.false_ne_true, Streams.received_append hend]

end Pair

/-- Without a lost connection, an end in the news has arrived, a clean one behind the last
byte. -/
theorem News.of_ended {t : List Outcome} {a : Wire} (h : News t a False) (ht : ended t = true) :
    a.fin = true ∧ received t = a.bytes ∨ a.reset = true := by
  rw [← ended_upToEnd, ended, List.any_eq_true] at ht
  obtain ⟨o, ho, hend⟩ := ht
  cases o with
  | item d => simp [Outcome.isEnd] at hend
  | none isReset =>
    cases isReset with
    | false => exact Or.inl ((h.fin ho).resolve_left False.elim)
    | true => exact Or.inr (h.reset ho)
  | error err => exact (h.error err ho).elim

end Streams

namespace Transfer

open Streams

namespace Link

variable {i : Side} {l l' : Link}

/-- **Nobody gives the stream up**, which the endpoint `i` sends and the other one receives. -/
def keeps (i : Side) (e : Event) : Bool :=
  if e.1 = i then e.2.keepsSending else e.2.keepsReceiving

/-- **A stream nobody has given up.** -/
structure Intact (i : Side) (l : Link) : Prop where
  flows : (l.pair i).Flows
  arrives : ∃ t, (l.pair i.other).Delivers t ∧ News t (l.arrived i.other) False
  carried : (l.arrived i.other).Within (l.wire i)

namespace Intact

/-- **Every step keeps the stream intact.** -/
theorem step (h : Intact i l) {e : Event} (hkeep : keeps i e = true) (hcarry : l.carries e)
    (hswap : l.swapsEmpty i e) (hstep : l.step e = some l') : Intact i l' := by
  obtain ⟨hp, harr, hpo, harro⟩ := step_eq_some hstep
  obtain ⟨j, e⟩ := e
  by_cases hj : j = i
  · subst hj
    rw [keeps, if_pos rfl] at hkeep
    refine ⟨h.flows.step hkeep (hswap rfl) hp, ?_, ?_⟩
    · rw [hpo, harro]
      exact h.arrives
    · rw [harro]
      exact h.flows.order.linked.within_step hp h.carried
  · obtain rfl := Side.eq_other_of_ne hj
    rw [keeps, if_neg (Side.other_ne i)] at hkeep
    simp only [Side.other_other] at hpo harro
    have hpermits : (l.arrived i.other).Permits (l.wire i) e := by
      have := hcarry
      rwa [carries, Side.other_other] at this
    obtain ⟨t, hd, hn⟩ := h.arrives
    refine ⟨by rw [hpo]; exact h.flows, ⟨t ++ e.news, ?_, ?_⟩, ?_⟩
    · exact hd.step (by rintro rfl; simp [Event.keepsReceiving] at hkeep) hp
    · rw [harr]
      refine (hn.step hpermits).mono ?_
      rintro (h | hcut)
      · exact h
      · cases e <;> simp [Event.isCut, Event.keepsReceiving] at hcut hkeep
    · rw [harr, wire, hpo]
      exact hpermits.within h.carried

end Intact

/-- What was given to picoquic and has not arrived yet. -/
def inFlight (l : Link) (i : Side) : Bytes :=
  (l.wire i).bytes.drop (l.arrived i.other).bytes.length

theorem Intact.bytes_append (h : Intact i l) :
    (l.arrived i.other).bytes ++ l.inFlight i = (l.wire i).bytes := by
  obtain ⟨rest, hrest⟩ := h.carried.bytes
  rw [Link.inFlight, ← hrest, List.drop_left]

/-- What arrived was read, or waits. -/
theorem Intact.received_append (h : Intact i l) :
    received (l.pair i.other).outcomes ++ (l.pair i.other).unread = (l.arrived i.other).bytes := by
  obtain ⟨t, hd, hn⟩ := h.arrives
  rw [hd.received_append]
  cases ht : ended t with
  | false => exact hn.bytes ht
  | true =>
    rcases hn.of_ended ht with ⟨-, heq⟩ | hreset
    · exact heq
    · -- the writer has reset the stream as nothing was written
      have hw := h.carried.reset hreset
      have hnil := ((h.flows.commits.ctx.reset hw).resolve_left False.elim).2
      have hle := h.carried.bytes.trans h.flows.commits.ctx.wire_isPrefix
      rw [hnil, List.prefix_nil] at hle
      have hr := hn.isPrefix
      rw [hle, List.prefix_nil] at hr
      rw [hr, hle]

section

variable {id : Id} {es : List Event}

theorem run_intact (h : HasSendHalf id i.isClientCon) (hkeep : ∀ e ∈ es, keeps i e = true)
    (hcarry : Trace.Obeys step carries (new id) es)
    (hswap : Trace.Obeys step (fun l e => l.swapsEmpty i e) (new id) es)
    (hrun : (new id).run es = some l) : Intact i l := by
  have hok : Trace.Obeys step (fun l e => l.carries e ∧ l.swapsEmpty i e ∧ keeps i e = true)
      (new id) es :=
    Trace.obeys_and.mpr ⟨hcarry, Trace.obeys_and.mpr
      ⟨hswap, Trace.obeys_of_forall fun e he _ => hkeep e he⟩⟩
  exact Trace.run_preserves (P := Intact i)
    (fun l e l' h hok hstep => h.step hok.2.2 hok.1 hok.2.1 hstep)
    ⟨Pair.new_flows h, ⟨[], Pair.new_delivers (Side.hasRecvHalf_other.mpr h), News.nil⟩,
      Wire.blank_within⟩ hok hrun

/-- **No byte is lost on the way.** As long as nobody gives the stream up, and no receiver that
holds an item is replaced, the bytes accepted are those read, those the reader was told and has
not read, those under way, those in the active buffer and those in the channels of the writer; in
this order. -/
theorem bytes_are_conserved (h : HasSendHalf id i.isClientCon)
    (hkeep : ∀ e ∈ es, keeps i e = true) (hcarry : Trace.Obeys step carries (new id) es)
    (hswap : Trace.Obeys step (fun l e => l.swapsEmpty i e) (new id) es)
    (hrun : (new id).run es = some l) :
    received (l.pair i.other).outcomes ++ (l.pair i.other).unread ++ l.inFlight i ++
      (l.pair i).ctx.activeBytes ++ (l.pair i).ctx.backlog.flatten =
        (l.pair i).accepted.flatten := by
  have hi := run_intact h hkeep hcarry hswap hrun
  rw [hi.received_append, hi.bytes_append, ← hi.flows.bytes, wire, List.append_assoc]

/-- A run that ends with a byte at each of the five places. -/
theorem bytes_are_conserved_of_five : ∃ l, (new 4).run
      [(.client, .startSend [1, 2] true), (.client, .startSend [3, 4] true),
        (.client, .callback (.prepareToSend (some zeroed) 3)),
        (.server, .callback (.data [1] .other)), (.server, .pollStream),
        (.server, .callback (.data [2] .other)), (.client, .startSend [5] true),
        (.client, .dropStream)] = some l ∧
      received (l.pair .server).outcomes = [1] ∧ (l.pair .server).unread = [2] ∧
      l.inFlight .client = [3] ∧ (l.pair .client).ctx.activeBytes = [4] ∧
      (l.pair .client).ctx.backlog = [[5]] ∧
      received (l.pair .server).outcomes ++ (l.pair .server).unread ++ l.inFlight .client ++
        (l.pair .client).ctx.activeBytes ++ (l.pair .client).ctx.backlog.flatten =
          (l.pair .client).accepted.flatten :=
  ⟨_, rfl, by decide, by decide, by decide, by decide, by decide,
    @bytes_are_conserved .client _ 4
      [(.client, .startSend [1, 2] true), (.client, .startSend [3, 4] true),
        (.client, .callback (.prepareToSend (some zeroed) 3)),
        (.server, .callback (.data [1] .other)), (.server, .pollStream),
        (.server, .callback (.data [2] .other)), (.client, .startSend [5] true),
        (.client, .dropStream)]
      (by decide) (by simp [keeps, Event.keepsSending, Event.keepsReceiving]) (by decide)
      (by decide) rfl⟩

end

end Link

end Transfer

end PicoquicRs
