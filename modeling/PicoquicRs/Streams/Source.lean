import Mathlib.Data.List.ReduceOption
import PicoquicRs.Streams.Context

/-!
# The data a stream has to send, as one source

Wherever the items are – in the channel of the active receiver or in the one
waiting in the slot – the context pulls them as if from one first in first out
source, `PicoquicRs.Streams.Context.source`. This file proves it
(`PicoquicRs.Streams.Context.pull_spec`), and derives what collecting buffers for
picoquic takes from that source (`PicoquicRs.Streams.Context.collectLoop_spec`).
-/

namespace PicoquicRs

namespace Streams

open Futures

namespace Context

/-! ### Polling leaves the ends of the channels alone -/

/-- **Two stores with the same ends**: of every channel, the senders alive, whether
the receiver is open and the error left are the same. -/
structure SameEnds (h h' : Store (ErrorChan Bytes)) : Prop where
  next : h'.next = h.next
  senders : ∀ q, (h'.cell q).chan.senders = (h.cell q).chan.senders
  isOpen : ∀ q, (h'.cell q).chan.isOpen = (h.cell q).chan.isOpen
  errorState : ∀ q, (h'.cell q).errorState = (h.cell q).errorState

namespace SameEnds

variable {h h' h'' : Store (ErrorChan Bytes)}

theorem refl (h : Store (ErrorChan Bytes)) : SameEnds h h :=
  ⟨rfl, fun _ => rfl, fun _ => rfl, fun _ => rfl⟩

theorem trans (h₁ : SameEnds h h') (h₂ : SameEnds h' h'') : SameEnds h h'' where
  next := h₂.next.trans h₁.next
  senders q := (h₂.senders q).trans (h₁.senders q)
  isOpen q := (h₂.isOpen q).trans (h₁.isOpen q)
  errorState q := (h₂.errorState q).trans (h₁.errorState q)

end SameEnds

theorem pollReceiver_sameEnds (r : ChanRef) (h : Store (ErrorChan Bytes)) :
    SameEnds h (pollReceiver r h).2 where
  next := rfl
  senders := h.modify_cell_congr (fun ch => ch.poll.2) (fun ch => ch.chan.senders)
    (by simp [ErrorChan.poll])
  isOpen := h.modify_cell_congr (fun ch => ch.poll.2) (fun ch => ch.chan.isOpen)
    (by simp [ErrorChan.poll])
  errorState := h.modify_cell_congr (fun ch => ch.poll.2) (fun ch => ch.errorState)
    (by simp [ErrorChan.poll])

/-! ### The source of the data to send -/

/-- What the receiver `r` can still get. -/
def chanSource (r : ChanRef) (h : Store (ErrorChan Bytes)) : Source Bytes := (h.cell r).chan.source

/-- Polling a receiver takes the next item of its source. -/
theorem pollReceiver_source (r : ChanRef) (h : Store (ErrorChan Bytes)) :
    (pollReceiver r h).1 = (chanSource r h).poll.1 ∧
      chanSource r (pollReceiver r h).2 = (chanSource r h).poll.2 := by
  simp only [pollReceiver, chanSource, Store.modify_cell_self, ErrorChan.poll]
  exact Chan.poll_source _

theorem pollReceiver_source_of_ne {r q : ChanRef} (h : Store (ErrorChan Bytes)) (hq : q ≠ r) :
    chanSource q (pollReceiver r h).2 = chanSource q h := by
  simp only [pollReceiver, chanSource, Store.modify_cell_of_ne h _ hq]

/-- The receiver waiting in the slot is another one than the active one. -/
def SlotDistinct (c : Context) : Prop :=
  ∀ s, c.sendData = some s → s.swapTo ≠ some s.activeStream

variable (c : Context)

/-- **The source of the data to send.** Without a receiver it has ended. -/
def source : Source Bytes :=
  match c.sendData with
  | some s => s.source chanSource c.chans
  | none => { items := [], ended := true }

/-- The bytes of the buffer being sent. -/
def activeBytes : Bytes := c.activeBuffer.getD []

/-- **The bytes that are still to be handed to picoquic**, in order. -/
def unsent : Bytes := c.activeBytes ++ c.source.items.flatten

variable {c}

theorem source_of_some {s : SwappableStream ChanRef} (hs : c.sendData = some s) :
    c.source = s.source chanSource c.chans := by
  simp [source, hs]

theorem source_of_none (hs : c.sendData = none) : c.source = { items := [], ended := true } := by
  simp [source, hs]

/-- The rounds of the collecting loop are bounded by what is there. -/
theorem length_items_le_queued : c.source.items.length ≤ c.queued := by
  cases hs : c.sendData with
  | none => simp [source_of_none hs]
  | some s =>
    cases hn : s.swapTo with
    | none => simp [source_of_some hs, queued, hs, hn, SwappableStream.source, chanSource]
    | some r =>
      simp only [source_of_some hs, queued, hs, hn, SwappableStream.source, chanSource,
        Source.append, Chan.source_items, List.length_append]
      by_cases he : (c.chans.cell s.activeStream).chan.isEnded = true <;> simp [he]

/-- **The receiver after polling**: the one before, or its successor, once the
active one has ended. -/
def Moved (sendData sendData' : Option (SwappableStream ChanRef)) : Prop :=
  sendData' = sendData ∨
    ∃ s r, sendData = some s ∧ s.swapTo = some r ∧ sendData' = some (.new r)

theorem Moved.refl (sendData : Option (SwappableStream ChanRef)) : Moved sendData sendData :=
  Or.inl rfl

theorem Moved.trans {sendData₁ sendData₂ sendData₃ : Option (SwappableStream ChanRef)}
    (h : Moved sendData₁ sendData₂) (h' : Moved sendData₂ sendData₃) :
    Moved sendData₁ sendData₃ := by
  rcases h with rfl | ⟨s, r, hs, hr, rfl⟩
  · exact h'
  · rcases h' with rfl | ⟨s', r', hs', hr', -⟩
    · exact Or.inr ⟨s, r, hs, hr, rfl⟩
    · obtain rfl := Option.some.inj hs'
      simp [SwappableStream.new] at hr'

/-- Without a receiver there is none afterwards either. -/
theorem Moved.of_none {sendData' : Option (SwappableStream ChanRef)} (h : Moved none sendData') :
    sendData' = none := by
  rcases h with h | ⟨s, r, hs, -, -⟩
  · exact h
  · simp at hs

/-- **The effect of polling the receiver** any number of times: the ends of all channels
are the same, and so is all of a channel the receiver does not consist of. -/
structure Polled (sendData : Option (SwappableStream ChanRef)) (h : Store (ErrorChan Bytes))
    (sendData' : Option (SwappableStream ChanRef)) (h' : Store (ErrorChan Bytes)) : Prop where
  moved : Moved sendData sendData'
  ends : SameEnds h h'
  other : ∀ q, (∀ s, sendData = some s → q ≠ s.activeStream ∧ s.swapTo ≠ some q) →
    h'.cell q = h.cell q

theorem Polled.refl (sendData : Option (SwappableStream ChanRef)) (h : Store (ErrorChan Bytes)) :
    Polled sendData h sendData h :=
  ⟨Moved.refl _, SameEnds.refl _, fun _ _ => rfl⟩

theorem Polled.trans {sendData₁ sendData₂ sendData₃ : Option (SwappableStream ChanRef)}
    {h₁ h₂ h₃ : Store (ErrorChan Bytes)} (h : Polled sendData₁ h₁ sendData₂ h₂)
    (h' : Polled sendData₂ h₂ sendData₃ h₃) : Polled sendData₁ h₁ sendData₃ h₃ where
  moved := h.moved.trans h'.moved
  ends := h.ends.trans h'.ends
  other q hq := by
    refine (h'.other q fun s hs => ?_).trans (h.other q hq)
    rcases h.moved with heq | ⟨s₁, r, hs₁, hr, heq⟩
    · exact hq s (heq ▸ hs)
    · obtain rfl := Option.some.inj (hs.symm.trans heq)
      exact ⟨fun h => (hq s₁ hs₁).2 (by rw [hr, h]; rfl), by simp [SwappableStream.new]⟩

/-- The items pulled so far. -/
def pulledItems (c : Context) : List Bytes := c.pulls.reduceOption

/-- The end of the data was pulled. -/
def SawEnd (c : Context) : Prop := none ∈ c.pulls

/-- The successor of a swappable stream, if polling it moved on, or itself. -/
theorem SwappableStream.poll_cases (s : SwappableStream ChanRef) (h : Store (ErrorChan Bytes)) :
    (s.poll pollReceiver h).2.1 = s ∨
      ∃ r, s.swapTo = some r ∧ (s.poll pollReceiver h).2.1 = .new r := by
  simp only [SwappableStream.poll]
  split
  · split
    · rename_i r hr
      exact Or.inr ⟨r, hr, rfl⟩
    · exact Or.inl rfl
  · exact Or.inl rfl

theorem SwappableStream.poll_sameEnds (s : SwappableStream ChanRef)
    (h : Store (ErrorChan Bytes)) : SameEnds h (s.poll pollReceiver h).2.2 := by
  have h₁ := pollReceiver_sameEnds s.activeStream h
  obtain ⟨r, h', hp⟩ : ∃ r h', pollReceiver s.activeStream h = (r, h') := ⟨_, _, rfl⟩
  rw [hp] at h₁
  rcases r with _ | _ | a <;> simp only [SwappableStream.poll, hp]
  · exact h₁
  · cases s.swapTo with
    | none => exact h₁
    | some r => exact h₁.trans (pollReceiver_sameEnds r h')
  · exact h₁

theorem SwappableStream.poll_other (s : SwappableStream ChanRef) (h : Store (ErrorChan Bytes))
    {q : ChanRef} (hq : q ≠ s.activeStream) (hq' : s.swapTo ≠ some q) :
    (s.poll pollReceiver h).2.2.cell q = h.cell q := by
  have hother : ∀ (r : ChanRef) (h : Store (ErrorChan Bytes)), q ≠ r →
      (pollReceiver r h).2.cell q = h.cell q := fun r h hq =>
    h.modify_cell_of_ne (fun ch => ch.poll.2) hq
  have h₁ := hother s.activeStream h hq
  obtain ⟨r, h', hp⟩ : ∃ r h', pollReceiver s.activeStream h = (r, h') := ⟨_, _, rfl⟩
  rw [hp] at h₁
  rcases r with _ | _ | a <;> simp only [SwappableStream.poll, hp]
  · exact h₁
  · cases hr : s.swapTo with
    | none => exact h₁
    | some r => exact (hother r h' fun h => hq' (by rw [hr, h])).trans h₁
  · exact h₁

/-- **One pull** takes the next item of the source, and touches nothing else than
the channels and the record of pulls. -/
theorem pull_spec {s : SwappableStream ChanRef} (hs : c.sendData = some s) (hd : c.SlotDistinct) :
    ∃ s' chans, (c.pull s).2 =
        { c with sendData := some s', chans, pulls := c.pulls ++ c.source.poll.1.toList } ∧
      (c.pull s).1 = c.source.poll.1 ∧ (c.pull s).2.source = c.source.poll.2 ∧
      Polled c.sendData c.chans (some s') chans ∧ (c.pull s).2.SlotDistinct := by
  obtain ⟨hr, hsrc⟩ := SwappableStream.poll_source pollReceiver_source
    (fun r q h hq => pollReceiver_source_of_ne h hq) s c.chans (hd s hs)
  rw [← source_of_some hs] at hr hsrc
  have hcases := SwappableStream.poll_cases s c.chans
  refine ⟨(s.poll pollReceiver c.chans).2.1, (s.poll pollReceiver c.chans).2.2, ?_, hr, ?_,
    ⟨?_, SwappableStream.poll_sameEnds s c.chans, ?_⟩, ?_⟩
  · simp only [pull, hr]
  · rw [← hsrc]
    rfl
  · rcases hcases with h | ⟨r, hr, h⟩
    · exact Or.inl (by rw [h, hs])
    · exact Or.inr ⟨s, r, hs, hr, by rw [h]⟩
  · exact fun q hq => SwappableStream.poll_other s c.chans (hq s hs).1 (hq s hs).2
  · intro s' hs'
    obtain rfl : (s.poll pollReceiver c.chans).2.1 = s' := by simpa [pull] using hs'
    rcases hcases with h | ⟨r, -, h⟩
    · rw [h]
      exact hd s hs
    · rw [h]
      simp [SwappableStream.new]

/-- A pull moves an item from the source to the record, or records the end. -/
theorem pulledItems_of_poll {c' : Context} (hp : c'.pulls = c.pulls ++ c.source.poll.1.toList)
    (hsrc : c'.source = c.source.poll.2) :
    c'.pulledItems ++ c'.source.items = c.pulledItems ++ c.source.items := by
  rw [pulledItems, pulledItems, hp, hsrc, List.reduceOption_append]
  cases hi : c.source.items with
  | nil =>
    rw [Source.poll_of_nil hi]
    cases c.source.ended <;> simp [hi]
  | cons a q =>
    rw [Source.poll_of_cons hi]
    simp

theorem sawEnd_of_poll {c' : Context} (hp : c'.pulls = c.pulls ++ c.source.poll.1.toList)
    (h : c'.SawEnd) : c.SawEnd ∨ c.source.items = [] ∧ c.source.ended = true := by
  rw [SawEnd, hp, List.mem_append] at h
  refine h.imp_right fun h => Source.poll_eq_end.mp ?_
  cases hr : c.source.poll.1 with
  | notReady => simp [hr] at h
  | ready o =>
    rw [hr, Async.toList_ready, List.mem_singleton] at h
    rw [← h]

/-! ### Collecting buffers -/

/-- What the collecting loop leaves behind, of everything it may touch. -/
structure CollectSpec (c : Context) (maxLength size : ℕ) (buffers : List Bytes)
    (r : Collected) : Prop where
  /-- Only the channels and the record of pulls change. -/
  frame : ∃ sendData chans pulls, r.ctx = { c with sendData, chans, pulls } ∧
    Polled c.sendData c.chans sendData chans
  distinct : r.ctx.SlotDistinct
  /-- What was pulled is recorded. -/
  pulled : r.ctx.pulledItems ++ r.ctx.source.items = c.pulledItems ++ c.source.items
  sawEnd : r.ctx.SawEnd → c.SawEnd ∨
    c.sendData ≠ none ∧ c.source.ended = true ∧ r.ctx.source.items = []
  /-- The loop takes the first items of the source. -/
  taken : ∃ k, k ≤ c.source.items.length ∧ r.buffers = buffers ++ c.source.items.take k ∧
    r.ctx.source = { items := c.source.items.drop k, ended := c.source.ended } ∧
    r.size = size + (c.source.items.take k).flatten.length ∧
    -- it stops beyond the length asked for, or when nothing is left
    (maxLength < r.size ∨ k = c.source.items.length) ∧
    -- and takes an item only as long as the length asked for is not exceeded
    (∀ j < k, size + (c.source.items.take j).flatten.length ≤ maxLength)
  /-- `fin` is for a source that has ended and was taken completely. -/
  fin : r.fin = (c.source.ended && decide (r.size ≤ maxLength))

/-- The loop does nothing beyond the length asked for. -/
theorem collectLoop_of_lt {maxLength fuel size : ℕ} {buffers : List Bytes}
    (h : maxLength < size) :
    collectLoop maxLength fuel c size buffers = ⟨c, size, false, buffers⟩ := by
  cases fuel with
  | zero => rfl
  | succ n => rw [collectLoop, if_neg (by omega)]

theorem collectSpec_stop {maxLength size : ℕ} {buffers : List Bytes} (hd : c.SlotDistinct)
    (h : maxLength < size) : CollectSpec c maxLength size buffers ⟨c, size, false, buffers⟩ where
  frame := ⟨c.sendData, c.chans, c.pulls, rfl, Polled.refl _ _⟩
  distinct := hd
  pulled := rfl
  sawEnd := Or.inl
  taken := ⟨0, by simp, by simp, by simp, by simp, Or.inl h, by simp⟩
  fin := by simp [Nat.not_le.mpr h]

/-- **The collecting loop**, with enough fuel for what is there. -/
theorem collectLoop_spec {maxLength : ℕ} : ∀ (fuel : ℕ) (c : Context) (size : ℕ)
    (buffers : List Bytes), c.source.items.length < fuel → c.SlotDistinct →
    CollectSpec c maxLength size buffers (collectLoop maxLength fuel c size buffers) := by
  intro fuel
  induction fuel with
  | zero =>
    intro c size buffers h
    omega
  | succ fuel ih =>
    intro c size buffers hfuel hd
    rcases Nat.lt_or_ge maxLength size with hlt | hle
    · rw [collectLoop_of_lt hlt]
      exact collectSpec_stop hd hlt
    rw [collectLoop, if_pos hle]
    cases hs : c.sendData with
    | none =>
      have hsrc := source_of_none hs
      exact {
        frame := ⟨c.sendData, c.chans, c.pulls, rfl, Polled.refl _ _⟩
        distinct := hd
        pulled := rfl
        sawEnd := Or.inl
        taken := ⟨0, by simp, by simp, by simp, by simp, Or.inr (by simp [hsrc]), by simp⟩
        fin := by simp [hsrc, hle] }
    | some s =>
      obtain ⟨s', chans, hctx, hres, hsrc, hpoll, hd'⟩ := pull_spec hs hd
      obtain ⟨res, c', hpull⟩ : ∃ res c', c.pull s = (res, c') := ⟨_, _, rfl⟩
      rw [hpull] at hctx hres hsrc hd'
      simp only at hctx hres hsrc hd' ⊢
      rw [hpull]
      have hpulls : c'.pulls = c.pulls ++ c.source.poll.1.toList := by rw [hctx]
      have hpulled := pulledItems_of_poll hpulls hsrc
      have hsaw := sawEnd_of_poll hpulls
      cases hi : c.source.items with
      | nil =>
        -- nothing is there: the loop ends, with `fin` at the end of the source
        rw [Source.poll_of_nil hi] at hres hsrc
        have hframe : ∃ sendData chans pulls, c' = { c with sendData, chans, pulls } ∧
            Polled c.sendData c.chans sendData chans := ⟨_, _, _, hctx, hpoll⟩
        cases he : c.source.ended with
        | true =>
          simp only [he, if_true] at hres
          subst hres
          exact {
            frame := hframe
            distinct := hd'
            pulled := hpulled
            sawEnd := fun h => (hsaw h).imp_right fun h => ⟨by simp [hs], h.2, by simp [hsrc, h.1]⟩
            taken := ⟨0, by simp, by simp, by simpa using hsrc, by simp,
              Or.inr (by simp [hi]), by simp⟩
            fin := by simp [he, hle] }
        | false =>
          simp only [he, Bool.false_eq_true, if_false] at hres
          subst hres
          exact {
            frame := hframe
            distinct := hd'
            pulled := hpulled
            sawEnd := fun h => (hsaw h).imp_right fun h => ⟨by simp [hs], h.2, by simp [hsrc, h.1]⟩
            taken := ⟨0, by simp, by simp, by simpa using hsrc, by simp,
              Or.inr (by simp [hi]), by simp⟩
            fin := by simp [he] }
      | cons buf items =>
        -- an item is taken, and the loop goes on with the rest of the source
        rw [Source.poll_of_cons hi] at hres hsrc
        simp only at hres hsrc
        subst hres
        have hrec := ih c' (size + buf.length) (buffers ++ [buf])
          (by rw [hsrc]; simpa [hi] using hfuel) hd'
        obtain ⟨⟨sd, ch, pl, hframe, hpoll'⟩, hdist, hpulled', hsaw',
          ⟨k, hk, hb, hsr, hsz, hstop, hpre⟩, hfin⟩ := hrec
        have hend' : c'.source.ended = c.source.ended := by rw [hsrc]
        simp only [hsrc] at hk hb hsr hsz hstop hpre hfin
        have hc' : c'.chans = chans := by rw [hctx]
        have hsd' : c'.sendData = some s' := by rw [hctx]
        exact {
          frame := ⟨sd, ch, pl, by rw [hframe, hctx], hpoll.trans (hsd' ▸ hc' ▸ hpoll')⟩
          distinct := hdist
          pulled := hpulled'.trans hpulled
          sawEnd := by
            intro h
            rcases hsaw' h with h | ⟨-, he, hnil⟩
            · refine (hsaw h).imp_right fun h => ?_
              rw [hi] at h
              exact absurd h.1 (List.cons_ne_nil _ _)
            · exact Or.inr ⟨by simp [hs], hend' ▸ he, hnil⟩
          taken := by
            refine ⟨k + 1, by simpa [hi] using hk, ?_, ?_, ?_, ?_, ?_⟩
            · rw [hb, hi, List.take_succ_cons, List.append_assoc, List.singleton_append]
            · rw [hsr, hi, List.drop_succ_cons]
            · rw [hsz, hi, List.take_succ_cons, List.flatten_cons, List.length_append]
              omega
            · simpa [hi] using hstop
            · intro j hj
              cases j with
              | zero => simpa using hle
              | succ j =>
                have := hpre j (by omega)
                rw [hi, List.take_succ_cons, List.flatten_cons, List.length_append]
                omega
          fin := hfin }

end Context

end Streams

end PicoquicRs
