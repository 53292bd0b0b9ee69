import PicoquicRs.Streams.Source

/-!
# What one `prepare_to_send` callback does

Picoquic asks for at most `maxLength` bytes. The context collects buffers from
its source until they exceed that length, copies what fits into the memory of
picoquic and keeps the rest of the last buffer. The result is stated on bytes
(`PicoquicRs.Streams.Context.handleSendData_spec`): the callback hands over the
first `maxLength` bytes that are unsent, whatever the sizes of the items they
come in, and none of the panics of the copying loop is reached.
-/

namespace PicoquicRs

namespace Streams

open Futures

namespace Context

/-! ### The copying loop -/

section Copying

variable {length : ℕ} {w : Copied} {buf : Bytes}

/-- One buffer is copied up to the end of the memory, and no slice is out of
range. -/
theorem copyBuffer_eq (hlen : w.dest.length = length) (hw : w.written ≤ length) :
    copyBuffer length w buf = some
      ({ w with
          dest := w.dest.take w.written ++ buf.take (length - w.written) ++
            w.dest.drop (min (w.written + buf.length) length)
          written := min (w.written + buf.length) length },
        buf.drop (length - w.written)) := by
  rcases Nat.lt_or_ge w.written length with hlt | hge
  · have hend : min (w.written + buf.length) length - w.written =
        min (length - w.written) buf.length := by omega
    have hslice : slicePrefix buf (min (length - w.written) buf.length) =
        some (buf.take (length - w.written)) := by
      rw [slicePrefix, if_pos (Nat.min_le_right _ _), ← List.take_eq_take_min]
    have hadv : advance buf (min (length - w.written) buf.length) =
        some (buf.drop (length - w.written)) := by
      rw [advance, if_pos (Nat.min_le_right _ _), ← List.drop_eq_drop_min]
    have hcopy : copyFromSlice w.dest w.written (min (w.written + buf.length) length)
        (buf.take (length - w.written)) = some (w.dest.take w.written ++
          buf.take (length - w.written) ++ w.dest.drop (min (w.written + buf.length) length)) := by
      rw [copyFromSlice, if_pos ⟨by omega, by omega, by rw [List.length_take]; omega⟩]
    simp [copyBuffer, hlt, hend, hslice, hadv, hcopy]
  · obtain rfl : length = w.written := Nat.le_antisymm hge hw
    simp [copyBuffer]

/-- A buffer that fits is copied completely. -/
theorem sendBuffer_of_fits (hlen : w.dest.length = length)
    (hfit : w.written + buf.length ≤ length) :
    sendBuffer length w buf = some { w with
      dest := w.dest.take w.written ++ buf ++ w.dest.drop (w.written + buf.length)
      written := w.written + buf.length } := by
  have hdrop : buf.drop (length - w.written) = [] := List.drop_eq_nil_of_le (by omega)
  have htake : buf.take (length - w.written) = buf := List.take_of_length_le (by omega)
  rw [sendBuffer, copyBuffer_eq hlen (by omega), hdrop, htake, Nat.min_eq_left hfit]
  rfl

/-- Of a buffer that does not fit, the rest becomes the active buffer. -/
theorem sendBuffer_of_exceeds (hlen : w.dest.length = length) (hw : w.written ≤ length)
    (hlt : length < w.written + buf.length) (ha : w.activeBuffer = none) :
    sendBuffer length w buf = some {
      dest := w.dest.take w.written ++ buf.take (length - w.written)
      written := length
      activeBuffer := some (buf.drop (length - w.written)) } := by
  have hrest : length - w.written < buf.length := by omega
  have hdest : w.dest.drop length = [] := List.drop_eq_nil_of_le (Nat.le_of_eq hlen)
  rw [sendBuffer, copyBuffer_eq hlen hw, Nat.min_eq_right (by omega), hdest]
  simp [hrest, ha]

/-- **The copying loop**, on buffers of which only the last may exceed the length:
it fills the memory with their bytes, and what does not fit – the end of the last
buffer – becomes the active buffer. -/
theorem foldlM_sendBuffer : ∀ (buffers : List Bytes) (w : Copied), w.dest.length = length →
    w.activeBuffer = none → w.written ≤ length →
    (∀ j < buffers.length, w.written + (buffers.take j).flatten.length ≤ length) →
    ∃ w', buffers.foldlM (sendBuffer length) w = some w' ∧
      w'.dest = w.dest.take w.written ++ buffers.flatten.take (length - w.written) ++
        w.dest.drop (w.written + buffers.flatten.length) ∧
      w'.activeBuffer =
        if w.written + buffers.flatten.length ≤ length then none
        else some (buffers.flatten.drop (length - w.written)) := by
  intro buffers
  induction buffers with
  | nil =>
    intro w _ ha hw _
    exact ⟨w, rfl, by simp, by simp [ha, hw]⟩
  | cons buf buffers ih =>
    intro w hlen ha hw hpre
    rcases Nat.lt_or_ge length (w.written + buf.length) with hlt | hfit
    · -- the buffer exceeds the length, so it is the last one
      obtain rfl : buffers = [] := by
        cases buffers with
        | nil => rfl
        | cons b bs =>
          have := hpre 1 (by simp)
          simp at this
          omega
      refine ⟨_, by rw [List.foldlM_cons, sendBuffer_of_exceeds hlen hw hlt ha]; rfl, ?_, ?_⟩
      · have : w.dest.drop (w.written + buf.length) = [] := by
          rw [List.drop_eq_nil_iff]
          omega
        simp [this]
      · simp [Nat.not_le.mpr hlt]
    · have hA : (w.dest.take w.written ++ buf).length = w.written + buf.length := by
        rw [List.length_append, List.length_take]
        omega
      obtain ⟨w', hw', hdest, hact⟩ := ih
        { w with
          dest := w.dest.take w.written ++ buf ++ w.dest.drop (w.written + buf.length)
          written := w.written + buf.length }
        (by simp only [List.length_append, List.length_take, List.length_drop]; omega) ha hfit
        (fun j hj => by
          have := hpre (j + 1) (by simpa using hj)
          simp only [List.take_succ_cons, List.flatten_cons, List.length_append] at this ⊢
          omega)
      refine ⟨w', by rw [List.foldlM_cons, sendBuffer_of_fits hlen hfit]; exact hw', ?_, ?_⟩
      · have hbuf : buf.length ≤ length - w.written := by omega
        simp only [hdest]
        rw [List.take_left' hA, ← List.drop_drop (i := buffers.flatten.length),
          List.drop_left' hA, List.drop_drop, List.flatten_cons, List.take_append,
          List.take_of_length_le hbuf, ← Nat.sub_sub, List.length_append]
        simp only [List.append_assoc, Nat.add_assoc]
      · have hbuf : buf.length ≤ length - w.written := by omega
        simp only [hact]
        rw [List.flatten_cons, List.drop_append, List.drop_eq_nil_of_le hbuf, List.length_append,
          ← Nat.sub_sub, ← Nat.add_assoc, List.nil_append]

end Copying

/-! ### The callback -/

variable {c : Context}

/-- What `Context::collect_buffers_to_send` gathers, on bytes: the buffers are a
first part of what is unsent, of which only the last buffer may go beyond
`maxLength`, and they are all of it unless they exceed `maxLength`. -/
structure BuffersSpec (c : Context) (maxLength : ℕ) (r : Collected) : Prop where
  frame : ∃ sendData chans pulls,
    r.ctx = { c with activeBuffer := none, sendData, chans, pulls } ∧
    Polled c.sendData c.chans sendData chans
  distinct : r.ctx.SlotDistinct
  pulled : r.ctx.pulledItems ++ r.ctx.source.items = c.pulledItems ++ c.source.items
  sawEnd : r.ctx.SawEnd → c.SawEnd ∨
    c.sendData ≠ none ∧ c.source.ended = true ∧ r.ctx.source.items = []
  ended : r.ctx.source.ended = c.source.ended
  nil : c.source.items = [] → r.ctx.source.items = []
  size : r.size = r.buffers.flatten.length
  bytes : c.unsent = r.buffers.flatten ++ r.ctx.source.items.flatten
  stop : maxLength < r.size ∨ r.ctx.source.items = []
  before : ∀ j < r.buffers.length, (r.buffers.take j).flatten.length ≤ maxLength
  fin : r.fin = (c.source.ended && decide (r.size ≤ maxLength))

/-- The loop started with the active buffer, or with nothing, collects buffers. -/
theorem CollectSpec.buffersSpec {c' : Context} {maxLength : ℕ} {start : List Bytes} {r : Collected}
    (hc : c' = { c with activeBuffer := none }) (hstart : start.length ≤ 1)
    (hact : c.activeBytes = start.flatten)
    (h : CollectSpec c' maxLength start.flatten.length start r) : BuffersSpec c maxLength r := by
  have hsrc : c'.source = c.source := by rw [hc]; rfl
  have hch : c'.chans = c.chans := by rw [hc]
  have hsd : c'.sendData = c.sendData := by rw [hc]
  have hpl : c'.pulls = c.pulls := by rw [hc]
  obtain ⟨⟨sd, ch, pl, hframe, hpoll⟩, hdist, hpulled, hsaw,
    ⟨k, hk, hb, hrs, hsz, hstop, hpre⟩, hfin⟩ := h
  rw [hsrc] at hk hb hrs hsz hstop hpre hfin
  exact {
    frame := ⟨sd, ch, pl, by rw [hframe, hc], hsd ▸ hch ▸ hpoll⟩
    distinct := hdist
    pulled := by rw [hpulled, pulledItems, hpl, hsrc, pulledItems]
    sawEnd := by simpa only [SawEnd, hpl, hsd, hsrc] using hsaw
    ended := by rw [hrs]
    nil := fun hnil => by rw [hrs, hnil, List.drop_nil]
    size := by rw [hsz, hb, List.flatten_append, List.length_append]
    bytes := by
      have hsplit := congrArg List.flatten (List.take_append_drop k c.source.items)
      rw [List.flatten_append] at hsplit
      rw [unsent, hact, ← hsplit, hb, hrs, List.flatten_append, List.append_assoc]
    stop := by
      refine hstop.imp_right fun hk' => ?_
      rw [hrs, hk']
      exact List.drop_length
    before := by
      intro j hj
      rw [hb] at hj ⊢
      have hlen : (start ++ c.source.items.take k).length = start.length + k := by
        rw [List.length_append, List.length_take, Nat.min_eq_left hk]
      rw [hlen] at hj
      rcases Nat.lt_or_ge j start.length with hlt | hge
      · obtain rfl : j = 0 := by omega
        simp
      · have h := hpre (j - start.length) (by omega)
        rw [List.take_append, List.take_of_length_le hge, List.take_take,
          Nat.min_eq_left (by omega), List.flatten_append, List.length_append]
        exact h
    fin := hfin }

theorem collectBuffersToSend_spec (maxLength : ℕ) (hd : c.SlotDistinct) :
    BuffersSpec c maxLength (c.collectBuffersToSend maxLength) := by
  have hfuel := Nat.lt_succ_of_le (length_items_le_queued (c := c))
  unfold collectBuffersToSend
  cases ha : c.activeBuffer with
  | none =>
    exact @CollectSpec.buffersSpec c c maxLength [] _ (by rw [← ha]) (by simp)
      (by simp [activeBytes, ha]) (collectLoop_spec _ c 0 [] hfuel hd)
  | some buf =>
    have h := @collectLoop_spec maxLength _ { c with activeBuffer := none } buf.length [buf]
      hfuel hd
    exact CollectSpec.buffersSpec rfl (by simp) (by simp [activeBytes, ha])
      (show CollectSpec _ maxLength [buf].flatten.length [buf] _ by simpa using h)

/-- **What a `prepare_to_send` callback does.** It hands over the first
`maxLength` unsent bytes and keeps the others. `fin` is set when the source has
ended and nothing is left, and the stream stays active when something is left in
the active buffer. No panic is reached. -/
structure SendSpec (c : Context) (maxLength : ℕ) (c' : Context) : Prop where
  frame : ∃ sendData chans pulls activeBuffer, c' = { c with
      sendData, chans, pulls, activeBuffer
      dataSend := c.dataSend || decide (c.unsent ≠ [])
      stopSendingOrFinSent := c.source.ended && decide (c.unsent.length ≤ maxLength)
      calls := c.calls ++ [.provideStreamDataBuffer (min maxLength c.unsent.length)
        (c.source.ended && decide (c.unsent.length ≤ maxLength))
        (decide (maxLength < c.unsent.length)) (c.unsent.take maxLength)] } ∧
    Polled c.sendData c.chans sendData chans
  distinct : c'.SlotDistinct
  pulled : c'.pulledItems ++ c'.source.items = c.pulledItems ++ c.source.items
  sawEnd : c'.SawEnd → c.SawEnd ∨
    c.sendData ≠ none ∧ c.source.ended = true ∧ c'.source.items = []
  ended : c'.source.ended = c.source.ended
  nil : c.source.items = [] → c'.source.items = []
  unsent : c'.unsent = c.unsent.drop maxLength
  /-- Items are left in the source only if the active buffer is not empty. -/
  active : if c.unsent.length ≤ maxLength then c'.activeBuffer = none ∧ c'.source.items = []
    else ∃ buf, c'.activeBuffer = some buf ∧ buf ≠ []

theorem handleSendData_spec (dest : DataBuffer) (maxLength : ℕ) (hd : c.SlotDistinct) :
    ∃ c', c.handleSendData (some dest) maxLength = some c' ∧ SendSpec c maxLength c' := by
  obtain ⟨⟨sd, ch, pl, hframe, hpoll⟩, hdist, hpulled, hsaw, hended, hnil, hsize, hbytes,
    hstop, hbefore, hfin⟩ := collectBuffersToSend_spec maxLength hd
  generalize hr : c.collectBuffersToSend maxLength = r at *
  -- what is collected is all that is unsent, or more than asked for
  have hall : r.size ≤ maxLength → r.ctx.source.items = [] := fun h =>
    hstop.resolve_left (Nat.not_lt.mpr h)
  have hallBytes : r.size ≤ maxLength → c.unsent = r.buffers.flatten := fun h => by
    rw [hbytes, hall h, List.flatten_nil, List.append_nil]
  have hle : r.size ≤ c.unsent.length := by
    rw [hbytes, List.length_append, ← hsize]
    omega
  have hiff : r.size ≤ maxLength ↔ c.unsent.length ≤ maxLength :=
    ⟨fun h => by rwa [hallBytes h, ← hsize], Nat.le_trans hle⟩
  have hmin : min maxLength r.size = min maxLength c.unsent.length := by
    rcases Nat.lt_or_ge maxLength r.size with hlt | hge
    · omega
    · rw [hallBytes hge, hsize]
  have htake : r.buffers.flatten.take (min maxLength r.size) = c.unsent.take maxLength := by
    rcases Nat.lt_or_ge maxLength r.size with hlt | hge
    · rw [Nat.min_eq_left (Nat.le_of_lt hlt), hbytes, List.take_append_of_le_length (by omega)]
    · rw [Nat.min_eq_right hge, hallBytes hge, hsize, List.take_length,
        List.take_of_length_le (by omega)]
  obtain ⟨w, hw, hdest, hact⟩ := @foldlM_sendBuffer (min maxLength r.size) r.buffers
    { dest := dest.1 (min maxLength r.size), written := 0, activeBuffer := none } (dest.2 _) rfl
    (Nat.zero_le _) (fun j hj => by
      have h₁ := hbefore j hj
      have h₂ : (r.buffers.take j).flatten.length ≤ r.size := by
        have h := congrArg (fun l => l.flatten.length) (List.take_append_drop j r.buffers)
        simp only [List.flatten_append, List.length_append] at h
        omega
      simp only
      omega)
  simp only [List.take_zero, List.nil_append, Nat.sub_zero, Nat.zero_add] at hdest hact
  have hdest' : w.dest = c.unsent.take maxLength := by
    rw [hdest, htake, List.drop_eq_nil_of_le (by rw [dest.2]; omega), List.append_nil]
  have hstill : (decide (maxLength < r.size) && !r.fin) = decide (maxLength < c.unsent.length) := by
    rcases Nat.lt_or_ge maxLength r.size with hlt | hge
    · have hlt' : maxLength < c.unsent.length := by omega
      rw [hfin, decide_eq_true hlt, decide_eq_true hlt', decide_eq_false (Nat.not_le.mpr hlt)]
      simp
    · rw [decide_eq_false (Nat.not_lt.mpr hge), decide_eq_false (Nat.not_lt.mpr (hiff.mp hge))]
      rfl
  have hdata : decide (0 < r.size) = decide (c.unsent ≠ []) := by
    refine decide_eq_decide.mpr ⟨fun h hun => ?_, fun h => Nat.pos_of_ne_zero fun h0 => h ?_⟩
    · simp [hun] at hle
      omega
    · rw [hallBytes (by omega), List.eq_nil_iff_length_eq_zero, ← hsize, h0]
  have hfin' : r.fin = (c.source.ended && decide (c.unsent.length ≤ maxLength)) := by
    rw [hfin, decide_eq_decide.mpr hiff]
  have hactLt : maxLength < r.size → w.activeBuffer = some (r.buffers.flatten.drop maxLength) :=
    fun h => by rw [hact, Nat.min_eq_left (Nat.le_of_lt h), if_neg (by omega)]
  have hactGe : r.size ≤ maxLength → w.activeBuffer = none := fun h => by
    rw [hact, Nat.min_eq_right h, if_pos (by omega)]
  have hactive : r.ctx.activeBuffer = none := by rw [hframe]
  obtain ⟨c', hc'⟩ : ∃ c' : Context, c' = { r.ctx with
    dataSend := r.ctx.dataSend || decide (0 < r.size)
    stopSendingOrFinSent := r.fin
    activeBuffer := w.activeBuffer
    calls := r.ctx.calls ++ [.provideStreamDataBuffer (min maxLength r.size) r.fin
      (decide (maxLength < r.size) && !r.fin) w.dest] } := ⟨_, rfl⟩
  have hsrc : c'.source = r.ctx.source := by rw [hc']; rfl
  have hact' : c'.activeBuffer = w.activeBuffer := by rw [hc']
  refine ⟨c', ?_, ?_⟩
  · simp only [handleSendData, hr, hactive, hw, hc', Option.bind_eq_bind, Option.bind_some]
  · exact {
      frame := by
        refine ⟨sd, ch, pl, w.activeBuffer, ?_, hpoll⟩
        rw [hc', hstill, hdata, hdest', hmin, hfin', hframe]
      distinct := by rw [hc']; exact hdist
      pulled := by rw [hsrc, hc']; exact hpulled
      sawEnd := by rw [hsrc, hc']; exact hsaw
      ended := by rw [hsrc, hended]
      nil := fun h => by rw [hsrc, hnil h]
      unsent := by
        rw [unsent, activeBytes, hsrc, hact']
        rcases Nat.lt_or_ge maxLength r.size with hlt | hge
        · rw [hactLt hlt, hbytes, List.drop_append_of_le_length (by omega)]
          rfl
        · rw [hactGe hge, hall hge, List.drop_eq_nil_of_le (hiff.mp hge)]
          rfl
      active := by
        rw [hact', hsrc]
        rcases Nat.lt_or_ge maxLength r.size with hlt | hge
        · rw [if_neg (by omega)]
          refine ⟨_, hactLt hlt, fun hnil => ?_⟩
          rw [List.drop_eq_nil_iff] at hnil
          omega
        · rw [if_pos (hiff.mp hge)]
          exact ⟨hactGe hge, hall hge⟩ }

end Context

end Streams

end PicoquicRs
