import PicoquicRs.Streams.Receive
import PicoquicRs.Streams.Steps
import PicoquicRs.Transfer.Wire

/-!
# What the receiving end makes of what it is told

The receiving end is told bytes and an end by the callbacks of picoquic, and an end or an
error by the connection. What the application reads up to the end
(`PicoquicRs.Streams.received`) is a prefix of the bytes that arrived, and the end it is told
says what has happened (`PicoquicRs.Streams.News`). As long as the application keeps its
`Stream`, the peer is not asked to stop (`PicoquicRs.Streams.Pair.Receives`).
-/

namespace PicoquicRs

namespace Streams

open Futures Context

/-! ### What was read -/

/-- The bytes of an outcome. -/
def Outcome.bytes : Outcome → Bytes
  | .item d => d
  | _ => []

/-- **The bytes the application has read**, up to the end. -/
def received (l : List Outcome) : Bytes := (upToEnd l).flatMap Outcome.bytes

theorem upToEnd_prefix_append (l l' : List Outcome) : upToEnd l <+: upToEnd (l ++ l') := by
  rw [upToEnd_append]
  split
  · exact List.prefix_rfl
  · rename_i h
    rw [upToEnd_of_not_ended (by simpa using h)]
    exact List.prefix_append _ _

theorem received_of_not_ended {l : List Outcome} (h : ended l = false) :
    received l = l.flatMap Outcome.bytes := by rw [received, upToEnd_of_not_ended h]

theorem received_append_of_ended {l : List Outcome} (h : ended l = true) (l' : List Outcome) :
    received (l ++ l') = received l := by rw [received, upToEnd_append, if_pos h, received]

/-- As long as there was no end, what comes next is read. -/
theorem received_append {l : List Outcome} (h : ended l = false) (l' : List Outcome) :
    received (l ++ l') = received l ++ received l' := by
  rw [received, upToEnd_append, if_neg (by simp [h]), List.flatMap_append, ← received,
    received_of_not_ended h]

theorem received_singleton (o : Outcome) : received [o] = o.bytes := by
  rw [received, upToEnd]
  cases o.isEnd <;> simp

theorem received_isPrefix {l l' : List Outcome} (h : upToEnd l <+: upToEnd l') :
    received l <+: received l' := by
  obtain ⟨rest, hrest⟩ := h
  rw [received, received, ← hrest, List.flatMap_append]
  exact List.prefix_append _ _

/-! ### What has arrived -/

/-- What the receiving end knows after an event. -/
def Wire.after (a : Wire) : Event → Wire
  | .callback cb => a.told cb
  | _ => a

/-- The stream is cut off from the connection. -/
def Event.isCut : Event → Bool
  | .connectionError _ | .connectionClose | .dropContext => true
  | _ => false

/-- What the transport may do with an event at an end that was told `a`, if the other end has
given `w`. -/
def Wire.Permits (a w : Wire) : Event → Prop
  | .callback cb => a.Carries w cb
  | _ => True

instance (a w : Wire) (e : Event) : Decidable (a.Permits w e) := by
  cases e <;> first | exact inferInstanceAs (Decidable (Wire.Carries _ _ _)) |
    exact inferInstanceAs (Decidable True)

namespace Wire

variable {a w : Wire} {e : Event}

/-- A stop arrives by being told. -/
theorem after_stop : (a.after e).stop = true ↔ a.stop = true ∨ e.isStop = true := by
  cases e with
  | callback cb =>
    cases cb with
    | prepareToSend dest n => simp [after, told, Event.isStop]
    | data bytes event => cases event <;> simp [after, told, Event.isStop]
  | _ => simp [after, Event.isStop]

/-- What is told was given. -/
theorem Permits.within (hp : a.Permits w e) (h : a.Within w) : (a.after e).Within w := by
  cases e with
  | callback cb => exact Carries.within hp h
  | _ => exact h

/-- Who is told to stop was asked to. -/
theorem Permits.stop (hp : a.Permits w e) (he : e.isStop = true) : w.stop = true := by
  cases e with
  | callback cb =>
    cases cb with
    | prepareToSend dest n => simp [Event.isStop] at he
    | data bytes event => exact hp.2.stop (after_stop.mpr (Or.inr he))
  | _ => simp [Event.isStop] at he

end Wire

/-- **The news `t`, and what has arrived.** Before the end, the one is the other. A clean end
is told behind the last byte, or because the stream was `cut` off. -/
structure News (t : List Outcome) (a : Wire) (cut : Prop) : Prop where
  isPrefix : received t <+: a.bytes
  bytes : ended t = false → received t = a.bytes
  fin : Outcome.none false ∈ upToEnd t → cut ∨ a.fin = true ∧ received t = a.bytes
  reset : Outcome.none true ∈ upToEnd t → a.reset = true
  error : ∀ err, Outcome.error err ∈ upToEnd t → cut
  told : a.isEnded = true → ended t = true

namespace News

variable {t : List Outcome} {a w : Wire} {cut cut' : Prop} {e : Event}

theorem mono (h : News t a cut) (himp : cut → cut') : News t a cut' :=
  ⟨h.isPrefix, h.bytes, fun hm => (h.fin hm).imp_left himp, h.reset,
    fun err hm => himp (h.error err hm), h.told⟩

theorem nil : News [] .blank cut :=
  ⟨List.prefix_rfl, fun _ => rfl, by simp, by simp, by simp, by simp [Wire.isEnded, Wire.blank]⟩

/-- The bytes that arrived are still there. -/
theorem bytes_after (a : Wire) (e : Event) : a.bytes <+: (a.after e).bytes := by
  cases e with
  | callback cb =>
    cases cb with
    | prepareToSend dest n => exact List.prefix_rfl
    | data bytes event => exact List.prefix_append _ _
  | _ => exact List.prefix_rfl

/-- Nothing arrives behind the end. -/
theorem after_of_isEnded (hp : a.Permits w e) (he : a.isEnded = true) :
    (a.after e).bytes = a.bytes := by
  cases e with
  | callback cb =>
    cases cb with
    | prepareToSend dest n => rfl
    | data bytes event =>
      have hnil : bytes = [] := by
        by_contra hne
        have := hp.1 (Or.inl hne)
        simp [he] at this
      rw [hnil]
      exact List.append_nil _
  | _ => rfl

/-- What has arrived stays. -/
theorem after_mono (a : Wire) (e : Event) :
    (a.fin = true → (a.after e).fin = true) ∧ (a.reset = true → (a.after e).reset = true) := by
  cases e with
  | callback cb =>
    cases cb with
    | prepareToSend dest n => exact ⟨fun h => h, fun h => h⟩
    | data bytes event => exact ⟨fun h => Bool.or_eq_true_iff.mpr (Or.inl h),
        fun h => Bool.or_eq_true_iff.mpr (Or.inl h)⟩
  | _ => exact ⟨fun h => h, fun h => h⟩

/-- An end is found where it is. -/
theorem mem_upToEnd_append {x : List Outcome} {o : Outcome} (ht : ended t = false)
    (ho : o.isEnd = true) (hm : o ∈ upToEnd (t ++ x)) : o ∈ upToEnd x := by
  rw [upToEnd_append, if_neg (by simp [ht]), List.mem_append] at hm
  refine hm.resolve_left fun hm => ?_
  have := List.any_eq_false.mp ht o hm
  simp [ho] at this

/-- **More news before the end.** -/
theorem append (h : News t a cut) (ht : ended t = false) {x : List Outcome} {a' : Wire}
    (hbytes : a'.bytes = a.bytes ++ received x)
    (hfin : Outcome.none false ∈ upToEnd x → cut' ∨ a'.fin = true)
    (hreset : Outcome.none true ∈ upToEnd x → a'.reset = true)
    (herror : ∀ err, Outcome.error err ∈ upToEnd x → cut')
    (htold : a'.isEnded = true → ended x = true) : News (t ++ x) a' cut' := by
  have heq : received (t ++ x) = a'.bytes := by
    rw [received_append ht, h.bytes ht, hbytes]
  exact {
    isPrefix := heq ▸ List.prefix_rfl
    bytes := fun _ => heq
    fin := fun hm => (hfin (mem_upToEnd_append ht rfl hm)).imp_right fun hf => ⟨hf, heq⟩
    reset := fun hm => hreset (mem_upToEnd_append ht rfl hm)
    error := fun err hm => herror err (mem_upToEnd_append ht rfl hm)
    told := fun he => by rw [ended_append, htold he, Bool.or_true] }

/-- News behind the end make no difference. -/
theorem append_of_ended (h : News t a cut) (ht : ended t = true) (hp : a.Permits w e)
    (x : List Outcome) : News (t ++ x) (a.after e) cut := by
  have hup : upToEnd (t ++ x) = upToEnd t := by rw [upToEnd_append, if_pos ht]
  have hrec := received_append_of_ended ht x
  have hend : ended (t ++ x) = true := by rw [ended_append, ht, Bool.true_or]
  obtain ⟨hf, hr⟩ := after_mono a e
  exact {
    isPrefix := hrec ▸ h.isPrefix.trans (bytes_after a e)
    bytes := fun hne => by simp [hend] at hne
    fin := by
      intro hm
      refine (h.fin (hup ▸ hm)).imp_right ?_
      rintro ⟨hfin, heq⟩
      exact ⟨hf hfin,
        by rw [hrec, heq, after_of_isEnded hp (Bool.or_eq_true_iff.mpr (Or.inl hfin))]⟩
    reset := fun hm => hr (h.reset (hup ▸ hm))
    error := fun err hm => h.error err (hup ▸ hm)
    told := fun _ => hend }

/-- **An event brings its news**, and what they are of arrives. -/
theorem step (h : News t a cut) (hp : a.Permits w e) :
    News (t ++ e.news) (a.after e) (cut ∨ e.isCut = true) := by
  cases ht : ended t with
  | true => exact (h.append_of_ended ht hp e.news).mono Or.inl
  | false =>
    have hopen : a.isEnded = false := by
      rw [Bool.eq_false_iff]
      intro he
      have := h.told he
      simp [ht] at this
    have hquiet : e.news = [] → a.after e = a →
        News (t ++ e.news) (a.after e) (cut ∨ e.isCut = true) := fun hn ha => by
      rw [hn, ha, List.append_nil]
      exact h.mono Or.inl
    cases e with
    | callback cb =>
      cases cb with
      | prepareToSend dest n => exact hquiet rfl rfl
      | data bytes event =>
        have hend : (a.told (.data bytes event)).isEnded =
            (event == .streamFin || event == .streamReset) := by
          have ⟨h₁, h₂⟩ : a.fin = false ∧ a.reset = false := by
            simpa [Wire.isEnded] using hopen
          simp [Wire.isEnded, Wire.told, h₁, h₂]
        refine h.append ht ?_ ?_ ?_ ?_ ?_
        · by_cases hb : bytes = [] <;> cases event <;>
            simp [Wire.after, Wire.told, Event.news, hb, received, upToEnd, Outcome.isEnd,
              Outcome.bytes]
        · by_cases hb : bytes = [] <;> cases event <;>
            simp [Wire.after, Wire.told, Event.news, hb, upToEnd, Outcome.isEnd]
        · by_cases hb : bytes = [] <;> cases event <;>
            simp [Wire.after, Wire.told, Event.news, hb, upToEnd, Outcome.isEnd]
        · by_cases hb : bytes = [] <;> cases event <;>
            simp [Event.news, hb, upToEnd, Outcome.isEnd]
        · rw [Wire.after, hend]
          cases event <;> simp [Event.news, ended, Outcome.isEnd]
    | connectionError err =>
      exact h.append ht (by simp [Wire.after, Event.news, received, upToEnd, Outcome.isEnd,
          Outcome.bytes]) (by simp [Event.news, upToEnd]) (by simp [Event.news, upToEnd])
        (fun _ _ => Or.inr rfl) (fun he => by simp [Wire.after, hopen] at he)
    | connectionClose | dropContext =>
      exact h.append ht (by simp [Wire.after, Event.news, received, upToEnd, Outcome.isEnd,
          Outcome.bytes]) (fun _ => Or.inl (Or.inr rfl)) (by simp [Event.news, upToEnd])
        (fun _ _ => Or.inr rfl) (fun he => by simp [Wire.after, hopen] at he)
    | _ => exact hquiet rfl rfl

end News

/-! ### Steps -/

namespace Context

variable {c c' : Context}

/-- A callback with data asks the peer for nothing while the application listens. -/
theorem handleCallback_data_calls (ho : c.recvMsg.isOpen = true) {bytes : Bytes}
    {event : StreamEvent} (hc : c.handleCallback (.data bytes event) = some c') :
    c'.calls = c.calls := by
  obtain ⟨c₁, hc₁⟩ : ∃ c₁, c₁ = if !bytes.isEmpty && !c.finReceivedOrRecvMsgDropped then
      c.recvMessage (.recvData bytes) else c := ⟨_, rfl⟩
  have h₁ : c₁.calls = c.calls ∧ c₁.recvMsg.isOpen = true := by
    rw [hc₁]
    split
    · rw [recvMessage_of_open _ ho]
      exact ⟨rfl, ho⟩
    · exact ⟨rfl, ho⟩
  have hend : ∀ msg, ({ c₁ with finReceivedOrRecvMsgDropped := true }.recvMessage msg).calls =
      c.calls := fun msg => by
    rw [recvMessage_of_open (c := { c₁ with finReceivedOrRecvMsgDropped := true }) msg h₁.2]
    exact h₁.1
  cases event with
  | streamReset =>
    rw [handleCallback, ← hc₁] at hc
    obtain rfl := Option.some.inj hc
    exact hend .reset
  | streamFin =>
    rw [handleCallback, ← hc₁] at hc
    obtain rfl := Option.some.inj hc
    exact hend .close
  | stopSending =>
    rw [handleCallback, ← hc₁] at hc
    obtain rfl := Option.some.inj hc
    obtain ⟨chans, hclose, -⟩ := closeSendData_spec { c₁ with stopSendingOrFinSent := true }
    rw [hclose]
    exact h₁.1
  | other =>
    rw [handleCallback, ← hc₁] at hc
    obtain rfl := Option.some.inj hc
    exact h₁.1

end Context

namespace Pair

variable {p p' : Pair} {t : List Outcome} {e : Event}

/-- **The peer is not asked to stop while the application keeps its `Stream`.** -/
theorem Delivers.stopSendings_step (h : p.Delivers t) (hstep : p.step e = some p') :
    p'.ctx.stopSendings = p.ctx.stopSendings := by
  obtain ⟨hro, hco⟩ := h.isOpen
  have hcalls : p'.ctx.calls = p.ctx.calls → p'.ctx.stopSendings = p.ctx.stopSendings := fun h => by
    rw [stopSendings, h, stopSendings]
  rcases step_cases hstep with ⟨s, -, hs, hstep⟩ | ⟨he, ha, hstep⟩ | ⟨rfl, -, -⟩
  · exact hcalls (stepStream_calls hs hstep)
  · cases e with
    | callback cb =>
      obtain ⟨c', hc, hstep⟩ := Option.bind_eq_some_iff.mp hstep
      obtain rfl := Option.some.inj hstep
      cases cb with
      | prepareToSend dest n =>
        exact (handleSendData_recvSame
          (handleCallback_prepareToSend h.linked.ctx.slotDistinct hc)).stopSendings
      | data bytes event => exact hcalls (handleCallback_data_calls hro hc)
    | pollControlMsg =>
      obtain ⟨r, c', hc', -, -, hr⟩ := h.linked.ctx.pollControlMsg_recv
      obtain rfl := Option.some.inj ((stepContext_pollControlMsg hc').symm.trans hstep)
      exact (hr (hco ha)).stopSendings
    | pollSendData =>
      obtain rfl := Option.some.inj hstep
      exact (pollSendData_recvSame h.linked.ctx.slotDistinct).stopSendings
    | poll =>
      obtain ⟨r, c', hc', hk, -, hr⟩ := h.linked.ctx.pollControlMsg_recv
      obtain rfl := Option.some.inj ((stepContext_poll hc').symm.trans hstep)
      have hsame := (hr (hco ha)).trans (pollSendData_recvSame hk.linked.slotDistinct)
      split
      · obtain ⟨chans, hd⟩ := drop_spec c'.pollSendData
        rw [hd]
        exact hsame.stopSendings
      · exact hsame.stopSendings
    | connectionError err =>
      obtain rfl := Option.some.inj hstep
      obtain ⟨c₁, chans, hc₁, hc, -⟩ := handleConnectionError_spec p.ctx err
      refine hcalls ?_
      rw [hc, hc₁, recvMessage_of_open _ hro]
    | connectionClose =>
      obtain rfl := Option.some.inj hstep
      refine hcalls ?_
      rw [handleConnectionClose, recvMessage_of_open _ hro]
    | dropContext =>
      obtain rfl := Option.some.inj hstep
      obtain ⟨chans, hd⟩ := drop_spec p.ctx
      exact hcalls (by rw [hd])
    | _ => simp [Event.atStream] at he
  · rfl

/-- **The receiving end of a stream**, with the news so far. -/
structure Receives (p : Pair) (t : List Outcome) : Prop where
  linked : p.Linked
  isPrefix : upToEnd p.outcomes <+: upToEnd t
  /-- While the application keeps the `Stream`, all is delivered, and nobody is stopped. -/
  kept : p.stream ≠ none → p.Delivers t ∧ p.ctx.stopSendings = 0

namespace Receives

theorem of_delivers (h : p.Delivers t) (hstop : p.ctx.stopSendings = 0) : p.Receives t :=
  ⟨h.linked, h.told ▸ upToEnd_prefix_append _ _, fun _ => ⟨h, hstop⟩⟩

/-- **Every step keeps the invariant.** -/
theorem step (h : p.Receives t) (hstep : p.step e = some p') : p'.Receives (t ++ e.news) := by
  have hl := h.linked.of_step hstep
  cases hs : p.stream with
  | none =>
    obtain ⟨hs', ho, -⟩ := step_of_stream_eq_none hs hstep
    exact ⟨hl, ho ▸ h.isPrefix.trans (upToEnd_prefix_append _ _), absurd hs'⟩
  | some s =>
    obtain ⟨hd, hstop⟩ := h.kept (by simp [hs])
    by_cases hdrop : e = .dropStream
    · subst hdrop
      rcases step_cases hstep with ⟨s, -, -, hstep⟩ | ⟨he, -⟩ | ⟨-, hn, -⟩
      · obtain rfl := Option.some.inj hstep
        exact ⟨hl, h.isPrefix.trans (upToEnd_prefix_append _ _), absurd rfl⟩
      · simp [Event.atStream] at he
      · simp [hs, Event.atStream] at hn
    · exact of_delivers (hd.step hdrop hstep) ((hd.stopSendings_step hstep).trans hstop)

end Receives

theorem new_receives {id : Id} {isClientCon : Bool} (h : HasRecvHalf id isClientCon) :
    (Streams.new id isClientCon).Receives [] :=
  .of_delivers (new_delivers h) (by rw [stopSendings, (new_recv id isClientCon).1]; rfl)

end Pair

end Streams

end PicoquicRs
