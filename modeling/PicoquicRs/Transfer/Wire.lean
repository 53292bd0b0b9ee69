import PicoquicRs.Streams.Receive

/-!
# What passes between the two ends of a connection about a stream

What one endpoint has given to picoquic about a stream, read off its calls, is a
`PicoquicRs.Streams.Wire`: the bytes, the end of them, a reset, and the request to the peer to
stop. What picoquic has told the other endpoint is a wire too, read off the callbacks. QUIC
relates the two by `PicoquicRs.Streams.Wire.Within`: what is told was given, the bytes in
order and from the start, and the end comes behind the last of them.
-/

namespace PicoquicRs

namespace Streams

open Futures Context

/-- The call hands over data. -/
def Call.handsOver : Call → Bool
  | provideStreamDataBuffer .. => true
  | _ => false

/-- The application asks for a reset. -/
def Event.isAbort : Event → Bool
  | .reset => true
  | _ => false

/-- The peer asks to stop sending. -/
def Event.isStop : Event → Bool
  | .callback (.data _ .stopSending) => true
  | _ => false

/-- **What is known about a stream at one end of the wire.** -/
structure Wire where
  /-- The bytes. -/
  bytes : Bytes
  /-- They are all there are. -/
  fin : Bool
  /-- The stream was reset. -/
  reset : Bool
  /-- The peer is to stop sending. -/
  stop : Bool
  deriving DecidableEq, Repr

namespace Wire

/-- Nothing is known yet. -/
def blank : Wire := ⟨[], false, false, false⟩

/-- What a call into picoquic adds. Behind a `FIN` or a reset nothing is sent any more. -/
def call (w : Wire) : Call → Wire
  | .provideStreamDataBuffer _ fin _ data =>
    if w.fin || w.reset then w else { w with bytes := w.bytes ++ data, fin }
  | .resetStream _ => { w with reset := true }
  | .stopSending _ => { w with stop := true }
  | .markActiveStream _ => w

/-- What a callback of picoquic adds. -/
def told (w : Wire) : Callback → Wire
  | .prepareToSend .. => w
  | .data bytes event =>
    { bytes := w.bytes ++ bytes
      fin := w.fin || event == .streamFin
      reset := w.reset || event == .streamReset
      stop := w.stop || event == .stopSending }

/-- The stream has come to an end. -/
def isEnded (w : Wire) : Bool := w.fin || w.reset

/-- **What is told was given.** -/
structure Within (a w : Wire) : Prop where
  bytes : a.bytes <+: w.bytes
  /-- The end comes behind the last byte. -/
  fin : a.fin = true → w.fin = true ∧ a.bytes = w.bytes
  reset : a.reset = true → w.reset = true
  stop : a.stop = true → w.stop = true

instance (a w : Wire) : Decidable (a.Within w) :=
  decidable_of_iff (a.bytes <+: w.bytes ∧ (a.fin = true → w.fin = true ∧ a.bytes = w.bytes) ∧
    (a.reset = true → w.reset = true) ∧ (a.stop = true → w.stop = true))
    ⟨fun h => ⟨h.1, h.2.1, h.2.2.1, h.2.2.2⟩, fun h => ⟨h.bytes, h.fin, h.reset, h.stop⟩⟩

/-- **What a callback may tell**: nothing comes behind the end, and all of it was given. -/
def Carries (a w : Wire) : Callback → Prop
  | .prepareToSend .. => True
  | .data bytes event =>
    (bytes ≠ [] ∨ event.message ≠ none → a.isEnded = false) ∧ (a.told (.data bytes event)).Within w

instance (a w : Wire) (cb : Callback) : Decidable (a.Carries w cb) := by
  cases cb
  · exact inferInstanceAs (Decidable True)
  · exact inferInstanceAs (Decidable (_ ∧ _))

variable {a w : Wire} {x : Call}

theorem blank_within : blank.Within w :=
  ⟨List.nil_prefix, by simp [blank], by simp [blank], by simp [blank]⟩

/-- **More calls give more.** What was told is still within. -/
theorem Within.call (h : a.Within w) : a.Within (w.call x) := by
  cases x with
  | provideStreamDataBuffer n fin act data =>
    rw [Wire.call]
    split
    · exact h
    · -- no `FIN` was given, hence none was told
      rename_i hend
      obtain ⟨hf, -⟩ : w.fin = false ∧ w.reset = false := by simpa using hend
      refine ⟨h.bytes.trans (List.prefix_append _ _), fun haf => ?_, h.reset, h.stop⟩
      have := (h.fin haf).1
      simp [hf] at this
  | resetStream id => exact ⟨h.bytes, h.fin, fun _ => rfl, h.stop⟩
  | stopSending id => exact ⟨h.bytes, h.fin, h.reset, fun _ => rfl⟩
  | markActiveStream id => exact h

theorem Within.calls (h : a.Within w) (extra : List Call) : a.Within (extra.foldl Wire.call w) := by
  induction extra generalizing w with
  | nil => exact h
  | cons x extra ih => exact ih h.call

/-- A callback tells nothing that was not given. -/
theorem Carries.within {cb : Callback} (hc : a.Carries w cb) (h : a.Within w) :
    (a.told cb).Within w := by
  cases cb with
  | prepareToSend dest n => exact h
  | data bytes event => exact hc.2

end Wire

namespace Context

variable {c c' : Context}

/-- **What the context has given to picoquic.** -/
def wire (c : Context) : Wire := c.calls.foldl Wire.call .blank

theorem wire_of_append {extra : List Call} (h : c'.calls = c.calls ++ extra) :
    c'.wire = extra.foldl Wire.call c.wire := by
  rw [wire, h, List.foldl_append, wire]

theorem wire_of_calls {x : Call} (h : c'.calls = c.calls ++ [x]) : c'.wire = c.wire.call x :=
  wire_of_append h

theorem wire_of_eq (h : c'.calls = c.calls) : c'.wire = c.wire := by
  rw [wire, h, wire]

/-- Calls that hand over nothing leave the bytes and the `FIN` as they were. -/
theorem wire_of_not_handsOver {extra : List Call} (h : c'.calls = c.calls ++ extra)
    (hx : ∀ x ∈ extra, x.handsOver = false) :
    c'.wire.bytes = c.wire.bytes ∧ c'.wire.fin = c.wire.fin ∧
      c'.wire.reset = (c.wire.reset || extra.any Call.isReset) ∧ c'.sentBytes = c.sentBytes := by
  induction extra generalizing c with
  | nil =>
    rw [List.append_nil] at h
    rw [wire_of_eq h, sentBytes, h, sentBytes]
    simp
  | cons x extra ih =>
    obtain ⟨hb, hf, hr, hs⟩ := @ih { c with calls := c.calls ++ [x] }
      (by rw [h, List.append_assoc, List.singleton_append])
      fun y hy => hx y (List.mem_cons_of_mem _ hy)
    have hw : ({ c with calls := c.calls ++ [x] } : Context).wire = c.wire.call x :=
      wire_of_calls rfl
    have hs' : ({ c with calls := c.calls ++ [x] } : Context).sentBytes = c.sentBytes ++ x.bytes :=
      sentBytes_of_calls rfl
    rw [hb, hf, hr, hs, hw, hs']
    have hx' := hx x List.mem_cons_self
    cases x with
    | provideStreamDataBuffer n fin act data => simp [Call.handsOver] at hx'
    | _ => simp [Wire.call, Call.isReset, Call.bytes]

/-- The bytes given are the first of the ones handed over, and all of them up to the end. -/
theorem wire_bytes (c : Context) : c.wire.bytes <+: c.sentBytes ∧
    (c.wire.isEnded = false → c.wire.bytes = c.sentBytes) := by
  rw [wire, sentBytes]
  induction c.calls using List.reverseRecOn with
  | nil => exact ⟨List.prefix_rfl, fun _ => rfl⟩
  | append_singleton calls x ih =>
    obtain ⟨hle, heq⟩ := ih
    rw [List.foldl_append, List.flatMap_append, List.flatMap_singleton, List.foldl_cons,
      List.foldl_nil]
    generalize calls.foldl Wire.call .blank = w at *
    cases x with
    | provideStreamDataBuffer n fin act data =>
      cases hend : w.isEnded with
      | true =>
        have hw : w.call (.provideStreamDataBuffer n fin act data) = w := if_pos hend
        rw [hw, hend]
        exact ⟨hle.trans (List.prefix_append _ _), fun h => by simp at h⟩
      | false =>
        have hw : w.call (.provideStreamDataBuffer n fin act data) =
            { w with bytes := w.bytes ++ data, fin } := if_neg (by simpa [Wire.isEnded] using hend)
        rw [hw, heq hend]
        exact ⟨List.prefix_rfl, fun _ => rfl⟩
    | resetStream id =>
      simp only [Call.bytes, List.append_nil]
      exact ⟨hle, fun h => by simp [Wire.isEnded, Wire.call] at h⟩
    | stopSending id =>
      simp only [Call.bytes, List.append_nil]
      exact ⟨hle, heq⟩
    | markActiveStream id =>
      simp only [Call.bytes, List.append_nil]
      exact ⟨hle, heq⟩

/-- The peer is asked to stop by one call. -/
theorem wire_stop (c : Context) : c.wire.stop = true ↔ c.stopSendings ≠ 0 := by
  rw [wire, stopSendings]
  induction c.calls using List.reverseRecOn with
  | nil => simp [Wire.blank]
  | append_singleton calls x ih =>
    rw [List.foldl_append, List.countP_append, List.foldl_cons, List.foldl_nil]
    generalize calls.foldl Wire.call .blank = w at *
    cases x with
    | provideStreamDataBuffer n fin act data =>
      rw [Wire.call]
      split <;> simpa [Call.isStopSending] using ih
    | stopSending id => simp [Wire.call, Call.isStopSending]
    | _ => simpa [Wire.call, Call.isStopSending] using ih

end Context

end Streams

end PicoquicRs
