import PicoquicRs.Connections.Steps
import PicoquicRs.Streams.ConnError

/-!
# A connection error, and the streams that send

A close callback that finds an error tells every context in the map
(`PicoquicRs.Connections.Context.handleClose_told`). What a `Stream` makes of it is
decided by the stream alone: the result is
`PicoquicRs.Streams.Pair.Sends.error_found_iff`, read for the streams of a
connection (`PicoquicRs.Connections.connection_error_reaches`).
-/

namespace PicoquicRs

namespace Connections

open Futures

/-- **A close callback that finds an error** tells it to every context in the map,
before anything else happens to the stream. -/
theorem Context.handleClose_told {c c' : Context} {codes : Codes} {err : Error} {k : StreamRef}
    {en : Entry} (h : c.handleClose codes = some c') (herr : codes.error.1 = some err)
    (hk : c.streams[k]? = some en) (ha : en.pair.alive = true) :
    ∃ en₁ en', en.take (.connectionError err) = some en₁ ∧ c'.streams[k]? = some en' ∧
      en₁.Later en' := by
  obtain ⟨c₂, hc₂, h⟩ := Option.bind_eq_some_iff.mp h
  rcases checkAndHandleError_spec hc₂ with ⟨hnone, -⟩ | ⟨err', calls, c₁, herr', hc₁, hs⟩
  · simp [hnone] at herr
  · obtain rfl := Option.some.inj (herr'.symm.trans herr)
    obtain ⟨en₁, hen₁, hk₁⟩ := eachContext_getElem? (c := { c with calls }) hc₁ hk
    rw [Entry.takeInMap, ha, Bool.and_true, if_pos rfl] at hen₁
    obtain ⟨en', hk', hl⟩ := (hs.trans (close_same h)).streams.getElem? hk₁
    exact ⟨en₁, en', hen₁, hk', hl⟩

/-- **When a connection error reaches the streams that send.** In a run of a connection,
a close callback finds the error `err` while the stream `k` has a context, whose send
half was not ended before, and the run goes on until that context is dropped. Then every
`start_send` fails with `err` exactly if no swap was outstanding at the callback and the
application swapped its sender not once since. -/
theorem connection_error_reaches {isClient : Bool} {es₁ es₂ : List Event} {codes : Codes}
    {err : Error} {p₁ p : Ends} {k : StreamRef} {en₁ en : Entry} {s : Streams.Stream}
    (hrun₁ : (new isClient).run es₁ = some p₁) (ha₁ : p₁.alive = true)
    (hk₁ : p₁.ctx.streams[k]? = some en₁) (hmap : en₁.pair.alive = true)
    (hsend : Streams.HasSendHalf en₁.id isClient)
    (hbefore : ∀ e ∈ en₁.seen, e.endsSending = false ∧ e.isConnectionError = false)
    (herr : codes.error.1 = some err) (hrun : p₁.run (.close codes :: es₂) = some p)
    (hk : p.ctx.streams[k]? = some en)
    (honce : ∀ e ∈ en.seen.drop (en₁.seen.length + 1), e.isConnectionError = false)
    (hgone : en.pair.alive = false) (hs : en.pair.stream = some s) :
    (∀ item room, (s.startSend en.pair.ctx item room).1 = .error err) ↔
      en₁.pair.ctx.NoSwap ∧ ∀ e ∈ en.seen.drop (en₁.seen.length + 1), e.isSwap = false := by
  -- the stream is a run of its own, and its send half was kept so far
  have hsound := (Ends.run_sound hrun₁).2 en₁ (List.mem_of_getElem? hk₁)
  have hsends : en₁.pair.Sends := Trace.run_keeps
    (fun _ e he _ h hstep => h.step (hbefore e he).1 (hbefore e he).2 hstep)
    (Streams.Pair.new_sends hsend) hsound
  -- the error is the next event of the stream
  obtain ⟨p₂, hp₂, hrun₂⟩ := Option.bind_eq_some_iff.mp hrun
  simp only [Ends.step, Ends.atContext, ha₁, if_true, Ends.stepContext] at hp₂
  obtain ⟨c₂, hc₂, hp₂⟩ := Option.bind_eq_some_iff.mp hp₂
  obtain rfl := Option.some.inj hp₂
  obtain ⟨en₂, en₃, htake, hk₃, hl₃⟩ := Context.handleClose_told hc₂ herr hk₁ hmap
  obtain ⟨en', hk', hl'⟩ := Ends.run_later (p := { p₁ with ctx := c₂, alive := true }) hk₃ hrun₂
  obtain rfl := Option.some.inj (hk'.symm.trans hk)
  obtain ⟨after, hseen, hafter⟩ := (hl₃.trans hl').run
  obtain ⟨pair, hpair, htake⟩ := Option.bind_eq_some_iff.mp htake
  obtain rfl := Option.some.inj htake
  have hdrop : en'.seen.drop (en₁.seen.length + 1) = after := by
    rw [hseen]
    exact List.drop_left' (by simp)
  rw [hdrop] at honce ⊢
  refine hsends.error_found_iff hmap honce ?_ hgone hs
  rw [Streams.Pair.run, Trace.run_cons, hpair, Option.bind_some]
  exact hafter

/-- A swap the context has taken before the handshake fails. -/
theorem connection_error_reaches_after_a_swap : ∃ p₁ p en₁ en s,
    (new false).run [.newStream .bidirectional, .poll, .stream 0 .setSendChannelSize, .poll] =
      some p₁ ∧ p₁.ctx.streams[0]? = some en₁ ∧
    p₁.run [.close ⟨0, 7, fun _ => true⟩, .poll, .drop] = some p ∧
    p.ctx.streams[0]? = some en ∧ en.pair.stream = some s ∧
    ∀ item room, (s.startSend en.pair.ctx item room).1 = .error ErrorKind.tlsHandshakeError :=
  ⟨_, _, _, _, _, rfl, rfl, rfl, rfl, rfl, (@connection_error_reaches false
    [.newStream .bidirectional, .poll, .stream 0 .setSendChannelSize, .poll] [.poll, .drop]
    ⟨0, 7, fun _ => true⟩ ErrorKind.tlsHandshakeError _ _ 0 _ _ _ rfl rfl rfl rfl (by decide)
    (by decide) rfl rfl rfl (by decide) rfl rfl).mpr
    ⟨⟨fun s hs => by cases hs; rfl, fun n o h => nomatch h⟩, by decide⟩⟩

/-- **A swap that loses the error.** The swap is still under way when the handshake fails,
and the error stays in the channel the application does not send on any more. -/
theorem swap_loses_the_error : ∃ p₁ p en₁ en s,
    (new false).run [.newStream .bidirectional, .poll, .stream 0 .setSendChannelSize] = some p₁ ∧
    p₁.ctx.streams[0]? = some en₁ ∧ en₁.pair.alive = true ∧
    Streams.HasSendHalf en₁.id false ∧ (∀ e ∈ en₁.seen, e.endsSending = false) ∧
    p₁.run [.close ⟨0, 7, fun _ => true⟩, .poll, .drop] = some p ∧
    p.ctx.streams[0]? = some en ∧ en.pair.alive = false ∧ en.pair.stream = some s ∧
    (s.startSend en.pair.ctx [1] true).1 = .error (ErrorKind.sendError [1]) :=
  ⟨_, _, _, _, _, rfl, rfl, rfl, by decide, by decide, rfl, rfl, rfl, rfl, rfl⟩

end Connections

end PicoquicRs
