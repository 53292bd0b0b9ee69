import PicoquicRs.Lib.Futures

/-!
# A stream that can be swapped for another

`swappable_stream.rs`: a stream with one slot for a successor, which takes over
when the active stream has ended. The streams themselves are handles, and what
they stand for lives in a state `H` that polling changes.
-/

namespace PicoquicRs

open Futures

/-- `SwappableStream` -/
structure SwappableStream (S : Type) where
  /-- The stream polled. -/
  activeStream : S
  /-- Its successor. -/
  swapTo : Option S
  deriving DecidableEq, Repr

namespace SwappableStream

variable {S H Item : Type}

/-- `SwappableStream::new` -/
def new (activeStream : S) : SwappableStream S where
  activeStream := activeStream
  swapTo := none

/-- `SwappableStream::set_swap_to` -/
def setSwapTo (s : SwappableStream S) (swapTo : S) : SwappableStream S :=
  { s with swapTo := some swapTo }

variable (pollStream : S → H → Async (Option Item) × H)

/-- `<SwappableStream as Stream>::poll`. The loop goes round at most twice: the
second time the slot is empty, so whatever the successor answers is returned. -/
def poll (s : SwappableStream S) (h : H) : Async (Option Item) × SwappableStream S × H :=
  match pollStream s.activeStream h with
  | (.ready none, h) =>
    match s.swapTo with
    | some newStream =>
      match pollStream newStream h with
      | (r, h) => (r, new newStream, h)
    | none => (.ready none, s, h)
  | (r, h) => (r, s, h)

/-! ### What the two streams hold together -/

/-- What can still be got from the two streams: the source of the active one, and
the source of its successor behind it. -/
def source (view : S → H → Source Item) (s : SwappableStream S) (h : H) : Source Item :=
  match s.swapTo with
  | some next => (view s.activeStream h).append (view next h)
  | none => view s.activeStream h

variable {pollStream : S → H → Async (Option Item) × H} {view : S → H → Source Item}

/-- **A swappable stream is its two streams, one after the other**, whenever
polling the handles is taking the next item of what they stand for. -/
theorem poll_source
    (hpoll : ∀ r h, (pollStream r h).1 = (view r h).poll.1 ∧
      view r (pollStream r h).2 = (view r h).poll.2)
    (hframe : ∀ r q h, q ≠ r → view q (pollStream r h).2 = view q h)
    (s : SwappableStream S) (h : H) (hne : s.swapTo ≠ some s.activeStream) :
    (s.poll pollStream h).1 = (s.source view h).poll.1 ∧
      (s.poll pollStream h).2.1.source view (s.poll pollStream h).2.2 =
        (s.source view h).poll.2 := by
  obtain ⟨hr, hv⟩ := hpoll s.activeStream h
  obtain ⟨r, h', hp⟩ : ∃ r h', pollStream s.activeStream h = (r, h') := ⟨_, _, rfl⟩
  rw [hp] at hr hv
  simp only at hr hv
  cases hs : s.swapTo with
  | none =>
    have : s.poll pollStream h = (r, s, h') := by
      rcases r with _ | _ | a <;> simp [poll, hp, hs]
    rw [this]
    simp only [source, hs]
    exact ⟨hr, hv⟩
  | some next =>
    have hne' : next ≠ s.activeStream := fun h => hne (by rw [hs, h])
    by_cases hend : r = .ready none
    · -- the active stream has ended: its successor answers
      obtain ⟨hi, he⟩ := Source.poll_eq_end.mp (hend ▸ hr.symm)
      have : s.poll pollStream h = ((pollStream next h').1, new next, (pollStream next h').2) := by
        simp [poll, hp, hs, hend]
      rw [this]
      simp only [source, hs, new, Source.append_of_used_up hi he]
      have hfr := hframe s.activeStream next h hne'
      rw [hp] at hfr
      rw [(hpoll next h').1, (hpoll next h').2, hfr]
      exact ⟨rfl, rfl⟩
    · have : s.poll pollStream h = (r, s, h') := by
        rcases r with _ | _ | a
        · simp [poll, hp]
        · exact absurd rfl hend
        · simp [poll, hp]
      have hfr := hframe s.activeStream next h hne'
      rw [hp] at hfr
      rw [this]
      simp only [source, hs, hfr, hr, hv]
      cases hi : (view s.activeStream h).items with
      | nil =>
        have he : (view s.activeStream h).ended = false := by
          by_contra he
          exact hend (hr ▸ Source.poll_eq_end.mpr ⟨hi, by simpa using he⟩)
        rw [Source.append_of_not_ended he, Source.poll_of_nil hi]
        exact ⟨rfl, Source.append_of_not_ended he⟩
      | cons a q =>
        rw [Source.poll_of_cons hi, Source.poll_of_cons (q := q ++ _) (by
          rw [Source.append, hi, List.cons_append])]
        exact ⟨rfl, rfl⟩

end SwappableStream

end PicoquicRs
