import PicoquicRs.Streams.Direction
import PicoquicRs.Transfer.Link

/-!
# A stream is a pipe

In each of its directions, a stream between two endpoints is a pipe: whatever the two
applications, the two event loops and the transport do, and in whatever order, what the two
applications see of it is a run of the specification `Pipe`
(`PicoquicRs.Transfer.Link.refines_pipe`). So what is read is a prefix of what was written; a
clean end means that the writer has dropped its `Stream` and all was read; a reset, that the
writer asked for it or wrote nothing; and only a lost connection changes that.

The one premise besides the rules of the transport is that no receiver that holds an item is
replaced by swaps of the channel.
-/

namespace PicoquicRs

namespace Streams

open Futures Context

namespace Pair

variable {p p' : Pair} {e : Event}

/-- What an endpoint has given stays given. -/
theorem Linked.within_step (h : p.Linked) (hstep : p.step e = some p') {a : Wire}
    (ha : a.Within p.ctx.wire) : a.Within p'.ctx.wire := by
  obtain ⟨extra, hcalls, -⟩ := (step_grown h hstep).1.calls
  rw [wire_of_append hcalls]
  exact ha.calls extra

end Pair

end Streams

namespace Transfer

open Streams

namespace Link

section

variable {p p' : Pair} {e : Streams.Event}

/-- **What the writer does by a step**: it writes, asks for a reset, closes the stream, or does
nothing. -/
theorem writes_cases (hstep : p.step e = some p') :
    (∃ item, writes p e = [.write item] ∧ p.stream ≠ none ∧ e.isAbort = false ∧
      p'.stream = p.stream ∧ p'.accepted = p.accepted ++ [item]) ∨
    (writes p e = [.abort] ∧ p.stream ≠ none ∧ p'.stream = p.stream ∧
      p'.accepted = p.accepted) ∨
    (writes p e = [.close] ∧ p.stream ≠ none ∧ e.isAbort = false ∧ p'.stream = none ∧
      p'.accepted = p.accepted) ∨
    (writes p e = [] ∧ (p.stream ≠ none → e.isAbort = false) ∧
      p'.stream.isNone = p.stream.isNone ∧ p'.accepted = p.accepted) := by
  rcases Pair.step_cases hstep with ⟨s, he, hs, hstep⟩ | ⟨he, -, hstep⟩ | ⟨rfl, hn, -⟩
  · have hsome : p.stream ≠ none := by simp [hs]
    cases e with
    | startSend item room =>
      rcases Stream.startSend_cases s p.ctx item room with ⟨r, -, -, hstart⟩ | ⟨hne, -⟩
      · have hw : writes p (.startSend item room) = [.write item] := by
          simp only [writes, hs, hstart]
        simp only [Pair.stepStream, hstart, Option.some.injEq] at hstep
        exact Or.inl ⟨item, hw, hsome, rfl, by rw [← hstep], by rw [← hstep]⟩
      · obtain ⟨r, c', hr⟩ : ∃ r c', s.startSend p.ctx item room = (r, c') := ⟨_, _, rfl⟩
        rw [hr] at hne
        simp only [Pair.stepStream, hr, Option.some.injEq] at hstep
        refine Or.inr (Or.inr (Or.inr ⟨?_, fun _ => rfl, by rw [← hstep], ?_⟩))
        · simp only [writes, hs, hr]
        · rw [← hstep]
    | reset =>
      obtain rfl := Option.some.inj hstep
      exact Or.inr (Or.inl ⟨by simp [writes, hs], hsome, rfl, rfl⟩)
    | dropStream =>
      obtain rfl := Option.some.inj hstep
      exact Or.inr (Or.inr (Or.inl ⟨by simp [writes, hs], hsome, rfl, rfl, rfl⟩))
    | setSendChannelSize =>
      obtain rfl := Option.some.inj hstep
      exact Or.inr (Or.inr (Or.inr ⟨rfl, fun _ => rfl, by simp [hs], rfl⟩))
    | pollStream =>
      obtain ⟨⟨o, s', c'⟩, -, hstep⟩ := Option.bind_eq_some_iff.mp hstep
      obtain rfl := Option.some.inj hstep
      exact Or.inr (Or.inr (Or.inr ⟨rfl, fun _ => rfl, by simp [hs], rfl⟩))
    | _ => simp [Event.atStream] at he
  · obtain ⟨hs, -, ha⟩ := Pair.stepContext_application hstep
    refine Or.inr (Or.inr (Or.inr ⟨?_, fun _ => ?_, by rw [hs], ha⟩)) <;> cases e <;>
      first | rfl | simp [Event.atStream] at he
  · refine Or.inr (Or.inr (Or.inr ⟨?_, fun hne => ?_, rfl, rfl⟩))
    · cases e <;> first | rfl | simp [writes, hn rfl]
    · cases e <;> first | rfl | exact absurd (hn rfl) hne

/-- **What the reader sees of a step**: an outcome before the end, a lost connection, or
nothing. -/
theorem reads_cases (hl : p.Linked) (hstep : p.step e = some p') :
    (∃ o, e = .pollStream ∧ reads p e = [told o] ∧ p'.stream ≠ none ∧
      ended p.outcomes = false ∧ p'.outcomes = p.outcomes ++ [o]) ∨
    (reads p e = [.cut] ∧ e.isCut = true ∧ p'.outcomes = p.outcomes) ∨
    (reads p e = [] ∧ e.isCut = false ∧ upToEnd p'.outcomes = upToEnd p.outcomes ∧
      ended p'.outcomes = ended p.outcomes) := by
  have hsame : e ≠ .pollStream → p'.outcomes = p.outcomes := fun hne => by
    rcases Pair.step_cases hstep with ⟨s, he, -, hstep⟩ | ⟨-, -, hstep⟩ | ⟨rfl, -, -⟩
    · cases e with
      | pollStream => exact absurd rfl hne
      | _ => exact Option.some.inj hstep ▸ rfl
    · exact (Pair.stepContext_application hstep).2.1
    · rfl
  by_cases hpoll : e = .pollStream
  · subst hpoll
    rcases Pair.step_cases hstep with ⟨s, -, hs, hstep⟩ | ⟨he, -⟩ | ⟨rfl, hn, -⟩
    · obtain ⟨o, s', hp, -⟩ := Stream.poll_frame s p.ctx hl.ctx.recv
      obtain rfl := Option.some.inj ((Pair.stepStream_pollStream hp).symm.trans hstep)
      cases o with
      | none => exact Or.inr (Or.inr ⟨by simp [reads, hs, hp], rfl, by simp, by simp⟩)
      | some o =>
        cases hend : ended p.outcomes with
        | false => exact Or.inl ⟨o, rfl, by simp [reads, hs, hp, hend], by simp, rfl, rfl⟩
        | true =>
          exact Or.inr (Or.inr ⟨by simp [reads, hs, hp, hend], rfl,
            by rw [Option.toList_some, upToEnd_append, if_pos hend],
            by rw [Option.toList_some, ended_append, hend, Bool.true_or]⟩)
    · simp [Event.atStream] at he
    · exact Or.inr (Or.inr ⟨by simp [reads, hn rfl], rfl, rfl, rfl⟩)
  · have ho := hsame hpoll
    cases hcut : e.isCut with
    | true =>
      refine Or.inr (Or.inl ⟨?_, rfl, ho⟩)
      cases e <;> first | rfl | simp [Event.isCut] at hcut
    | false =>
      refine Or.inr (Or.inr ⟨?_, rfl, by rw [ho], by rw [ho]⟩)
      cases e <;> first | rfl | exact absurd rfl hpoll | simp [Event.isCut] at hcut

end

variable {i : Side} {l l' : Link} {q : Pipe UInt8} {o : Outcome}

theorem told_ne : told o ≠ .abort ∧ told o ≠ .cut := by
  rcases o with d | isReset | err
  · simp [told]
  · cases isReset <;> simp [told]
  · simp [told]

/-- The reader moves nothing but what is read, and the end. -/
theorem after_told (q : Pipe UInt8) (o : Outcome) :
    q.after (told o) = { q with read := q.read ++ o.bytes, done := q.done || o.isEnd } := by
  rcases o with d | isReset | err
  · simp [Pipe.after, told, Outcome.bytes, Outcome.isEnd]
  · cases isReset <;> simp [Pipe.after, told, Outcome.bytes, Outcome.isEnd]
  · simp [Pipe.after, told, Outcome.bytes, Outcome.isEnd]

/-- **The link `l` behaves as the pipe `q`**, in the direction from the endpoint `i` to the other
one. -/
structure Refines (i : Side) (l : Link) (q : Pipe UInt8) : Prop where
  commits : (l.pair i).Commits (q.aborted = true) ((l.arrived i).stop = true)
  receives : ∃ t, (l.pair i.other).Receives t ∧ News t (l.arrived i.other) (q.cut = true)
  carried : (l.arrived i.other).Within (l.wire i)
  /-- The writer is stopped by the reader only. -/
  stops : (l.arrived i).stop = true → (l.wire i.other).stop = true
  written : q.written = (l.pair i).accepted.flatten
  closed : q.closed = (l.pair i).stream.isNone
  read : q.read = received (l.pair i.other).outcomes
  done : q.done = ended (l.pair i.other).outcomes

/-- What a step of the link does. -/
theorem step_eq_some {e : Event} (h : l.step e = some l') :
    (l.pair e.1).step e.2 = some (l'.pair e.1) ∧
      l'.arrived e.1 = (l.arrived e.1).after e.2 ∧
      l'.pair e.1.other = l.pair e.1.other ∧ l'.arrived e.1.other = l.arrived e.1.other := by
  obtain ⟨p, hp, h⟩ := Option.bind_eq_some_iff.mp h
  obtain rfl := Option.some.inj h
  simp [hp]

/-- An endpoint was told to stop by the other one only. -/
theorem stop_step (hl : (l.pair i.other).Linked)
    (h : (l.arrived i).stop = true → (l.wire i.other).stop = true) {e : Event}
    (hcarry : l.carries e) (hstep : l.step e = some l') :
    (l'.arrived i).stop = true → (l'.wire i.other).stop = true := by
  obtain ⟨hp, harr, hpo, harro⟩ := step_eq_some hstep
  obtain ⟨j, e⟩ := e
  intro hs
  by_cases hj : j = i
  · subst hj
    rw [wire, hpo]
    rw [harr] at hs
    rcases Wire.after_stop.mp hs with hs | hs
    · exact h hs
    · exact Wire.Permits.stop hcarry hs
  · obtain rfl := Side.eq_other_of_ne hj
    simp only [Side.other_other] at harro
    rw [harro] at hs
    have hwithin := hl.within_step hp (a := { Wire.blank with stop := true })
      ⟨List.nil_prefix, by simp [Wire.blank], by simp [Wire.blank], fun _ => h hs⟩
    exact hwithin.stop rfl

namespace Refines

/-- **What the reader is told, a pipe allows.** -/
theorem allowed (h : Refines i l q) {o : Outcome} {t : List Outcome}
    (hopen : ended (l.pair i.other).outcomes = false)
    (hd : upToEnd ((l.pair i.other).outcomes ++ [o]) <+: upToEnd t)
    (hall : o.isEnd = true → received t = received ((l.pair i.other).outcomes ++ [o]))
    (hstop : (l.pair i.other).ctx.stopSendings = 0)
    (hn : News t (l.arrived i.other) (q.cut = true)) : q.Allowed (told o) := by
  have hrec := received_append hopen [o]
  rw [received_singleton, ← h.read] at hrec
  have hmem : o ∈ upToEnd t := hd.subset (by
    rw [upToEnd_append, if_neg (by simp [hopen]), upToEnd]
    split <;> simp)
  have hdone : q.done = false := h.done.trans hopen
  cases o with
  | item d =>
    refine ⟨hdone, ?_⟩
    rw [h.written]
    have hle := (received_isPrefix hd).trans (hn.isPrefix.trans h.carried.bytes)
    rw [hrec] at hle
    exact hle.trans h.commits.ctx.wire_isPrefix
  | none isReset =>
    cases isReset with
    | true =>
      refine ⟨hdone, (h.commits.ctx.reset (h.carried.reset (hn.reset hmem))).imp id fun h' => ?_⟩
      rw [h.closed, h.written, Option.isNone_iff_eq_none]
      exact h'
    | false =>
      refine ⟨hdone, (hn.fin hmem).imp id ?_⟩
      rintro ⟨hf, heq⟩
      obtain ⟨hwf, hwb⟩ := h.carried.fin hf
      -- the reader has not dropped its end, so the writer was not stopped
      have hns : ¬ (l.arrived i).stop = true := fun hs =>
        (Context.wire_stop _).mp (h.stops hs) hstop
      obtain ⟨hcl, hb⟩ := (h.commits.ctx.fin hwf).resolve_left hns
      refine ⟨by rw [h.closed, Option.isNone_iff_eq_none]; exact hcl, ?_⟩
      have hread : q.read = received t := by
        rw [hall rfl, hrec]
        exact (List.append_nil _).symm
      rw [hread, heq, hwb, h.written]
      exact hb
  | error err => exact ⟨hdone, hn.error err hmem⟩

/-- **A step of the writer.** -/
theorem step_writer (h : Refines i l q) {e : Streams.Event} (hcarry : l.carries (i, e))
    (hswap : l.swapsEmpty i (i, e)) (hstep : l.step (i, e) = some l') :
    ∃ q', q.run (l.observe i (i, e)) = some q' ∧ Refines i l' q' := by
  obtain ⟨hp, harr, hpo, harro⟩ := step_eq_some hstep
  have hobs : l.observe i (i, e) = writes (l.pair i) e := if_pos rfl
  have hcommits := h.commits.step (hswap rfl) hp
  have hstop : (l'.arrived i).stop = true ↔ (l.arrived i).stop = true ∨ e.isStop = true := by
    rw [harr]
    exact Wire.after_stop
  obtain ⟨t, hrecv, hnews⟩ := h.receives
  have hstops := stop_step hrecv.linked h.stops hcarry hstep
  have hwithin := h.commits.linked.within_step hp h.carried
  -- nothing changes for the reader
  have hall : ∀ q' : Pipe UInt8, (q.aborted = true ∨
        (l.pair i).stream ≠ none ∧ e.isAbort = true → q'.aborted = true) → q'.cut = q.cut →
      q'.written = (l'.pair i).accepted.flatten → q'.closed = (l'.pair i).stream.isNone →
      q'.read = q.read → q'.done = q.done → Refines i l' q' := fun q' hab hcut hw hcl hr hd =>
    { commits := hcommits.mono hab hstop.mpr
      receives := ⟨t, by rw [hpo]; exact hrecv, by rw [harro, hcut]; exact hnews⟩
      carried := by rw [harro]; exact hwithin
      stops := hstops
      written := hw
      closed := hcl
      read := by rw [hr, hpo]; exact h.read
      done := by rw [hd, hpo]; exact h.done }
  have hopen : (l.pair i).stream ≠ none → q.closed = false := fun hne => by
    rw [h.closed, Option.isNone_eq_false_iff, Option.isSome_iff_ne_none]
    exact hne
  rw [hobs]
  rcases writes_cases hp with ⟨item, hw, hne, hab, hs, ha⟩ | ⟨hw, hne, hs, ha⟩ |
      ⟨hw, hne, hab, hs, ha⟩ | ⟨hw, hab, hs, ha⟩
  · rw [hw]
    refine ⟨_, Pipe.run_singleton (hopen hne), hall _ ?_ rfl ?_ ?_ rfl rfl⟩
    · exact fun h => h.elim id fun h => by simp [hab] at h
    · rw [ha, List.flatten_append, List.flatten_singleton, ← h.written]
      rfl
    · rw [hs]
      exact h.closed
  · rw [hw]
    refine ⟨_, Pipe.run_singleton (hopen hne), hall _ (fun _ => rfl) rfl ?_ ?_ rfl rfl⟩
    · rw [ha]
      exact h.written
    · rw [hs]
      exact h.closed
  · rw [hw]
    refine ⟨_, Pipe.run_singleton (hopen hne), hall _ ?_ rfl ?_ ?_ rfl rfl⟩
    · exact fun h => h.elim id fun h => by simp [hab] at h
    · rw [ha]
      exact h.written
    · rw [hs]
      rfl
  · rw [hw]
    refine ⟨q, rfl, hall q ?_ rfl ?_ ?_ rfl rfl⟩
    · exact fun h => h.elim id fun h => by simp [hab h.1] at h
    · rw [ha]
      exact h.written
    · rw [hs]
      exact h.closed

/-- **A step of the reader.** -/
theorem step_reader (h : Refines i l q) {e : Streams.Event} (hcarry : l.carries (i.other, e))
    (hstep : l.step (i.other, e) = some l') :
    ∃ q', q.run (l.observe i (i.other, e)) = some q' ∧ Refines i l' q' := by
  obtain ⟨hp, harr, hpo, harro⟩ := step_eq_some hstep
  simp only [Side.other_other] at hpo harro
  have hobs : l.observe i (i.other, e) = reads (l.pair i.other) e := if_neg (Side.other_ne i)
  have hcarry' : (l.arrived i.other).Permits (l.wire i) e := by
    have := hcarry
    rwa [carries, Side.other_other] at this
  obtain ⟨t, hrecv, hnews⟩ := h.receives
  have hrecv' := hrecv.step hp
  have hnews' := hnews.step hcarry'
  have hstops := stop_step hrecv.linked h.stops hcarry hstep
  -- nothing changes for the writer
  have hall : ∀ q' : Pipe UInt8, q'.aborted = q.aborted →
      (q.cut = true ∨ e.isCut = true → q'.cut = true) → q'.written = q.written →
      q'.closed = q.closed → q'.read = received (l'.pair i.other).outcomes →
      q'.done = ended (l'.pair i.other).outcomes → Refines i l' q' :=
    fun q' hab hcut hw hcl hr hd =>
    { commits := by rw [hpo, harro, hab]; exact h.commits
      receives := ⟨t ++ e.news, hrecv', by rw [harr]; exact hnews'.mono hcut⟩
      carried := by rw [harr, wire, hpo]; exact hcarry'.within h.carried
      stops := hstops
      written := by rw [hw, hpo]; exact h.written
      closed := by rw [hcl, hpo]; exact h.closed
      read := hr
      done := hd }
  rw [hobs]
  rcases reads_cases hrecv.linked hp with ⟨o, rfl, hr, hne, hopen, ho⟩ | ⟨hr, hcut, ho⟩ |
      ⟨hr, hcut, hrec, hend⟩
  · rw [hr]
    have hnil : t ++ Event.news .pollStream = t := List.append_nil t
    rw [hnil] at hrecv'
    obtain ⟨hd, hstop⟩ := hrecv'.kept hne
    have hle := hrecv'.isPrefix
    rw [ho] at hle
    have hallowed : q.Allowed (told o) := by
      refine h.allowed hopen hle (fun he => ?_) ?_ hnews
      · -- the end was reached, so nothing that was told is left
        have htold := hd.told
        have hended : ended ((l.pair i.other).outcomes ++ [o]) = true := by
          rw [ended_append]
          simp [ended, he]
        rw [ho, upToEnd_append, if_pos hended] at htold
        rw [received, ← htold, received]
      · -- the application has its `Stream`
        have hs : (l.pair i.other).stream ≠ none := fun hs =>
          hne (Pair.step_of_stream_eq_none hs hp).1
        exact (hrecv.kept hs).2
    refine ⟨_, Pipe.run_singleton hallowed, hall _ ?_ ?_ ?_ ?_ ?_ ?_⟩ <;> rw [after_told]
    · exact fun h => h.elim id fun h => by simp [Event.isCut] at h
    · rw [ho, received_append hopen, received_singleton, ← h.read]
    · rw [ho, ended_append, ← h.done, ended, List.any_cons, List.any_nil, Bool.or_false]
  · rw [hr]
    refine ⟨_, Pipe.run_singleton trivial, hall _ rfl (fun _ => rfl) rfl rfl ?_ ?_⟩
    · rw [ho]
      exact h.read
    · rw [ho]
      exact h.done
  · rw [hr]
    refine ⟨q, rfl, hall q rfl ?_ rfl rfl ?_ ?_⟩
    · exact fun h => h.elim id fun h => by simp [hcut] at h
    · rw [received, hrec]
      exact h.read
    · rw [hend]
      exact h.done

/-- **Every step keeps the link behaving as a pipe.** -/
theorem step (h : Refines i l q) {e : Event} (hcarry : l.carries e) (hswap : l.swapsEmpty i e)
    (hstep : l.step e = some l') :
    ∃ q', q.run (l.observe i e) = some q' ∧ Refines i l' q' := by
  obtain ⟨j, e⟩ := e
  by_cases hj : j = i
  · subst hj
    exact h.step_writer hcarry hswap hstep
  · obtain rfl := Side.eq_other_of_ne hj
    exact h.step_reader hcarry hstep

end Refines

theorem new_refines {id : Id} (h : HasSendHalf id i.isClientCon) :
    Refines i (Link.new id) Pipe.empty where
  commits := (Pair.new_commits h).mono False.elim False.elim
  receives := ⟨[], Pair.new_receives (Side.hasRecvHalf_other.mpr h), News.nil⟩
  carried := Wire.blank_within
  stops := fun h => by simp [Link.new, Wire.blank] at h
  written := rfl
  closed := rfl
  read := rfl
  done := rfl

/-! ### What the two applications see -/

section

variable {id : Id} {es : List Event}

/-- At the end of every run the link behaves as a pipe. -/
theorem run_refines (h : HasSendHalf id i.isClientCon)
    (hcarry : Trace.Obeys step carries (new id) es)
    (hswap : Trace.Obeys step (fun l e => l.swapsEmpty i e) (new id) es)
    (hrun : (new id).run es = some l) :
    ∃ q, Pipe.empty.run (Trace.log step (fun l e => l.observe i e) (new id) es) = some q ∧
      Refines i l q := by
  have hok := Trace.obeys_and.mpr ⟨hcarry, hswap⟩
  exact Trace.run_refines (fun l q e l' (h : Refines i l q) hok hstep => h.step hok.1 hok.2 hstep)
    (new_refines h) hok hrun

/-- What the reader was told up to the end was seen. -/
theorem run_told (hrun : (new id).run es = some l) :
    (l.pair i.other).Linked ∧ ∀ o ∈ upToEnd (l.pair i.other).outcomes,
      told o ∈ Trace.log step (fun l e => l.observe i e) (new id) es := by
  refine Trace.run_records (R := fun es l => (l.pair i.other).Linked ∧
    ∀ o ∈ upToEnd (l.pair i.other).outcomes,
      told o ∈ Trace.log step (fun l e => l.observe i e) (new id) es)
    (fun es e l l' hrun h hstep => ?_) ⟨Pair.new_linked _ _, by simp [new, Streams.new]⟩ hrun
  obtain ⟨hl, ih⟩ := h
  obtain ⟨hp, -, hpo, -⟩ := step_eq_some hstep
  rw [Trace.log_append hrun, Trace.log_singleton]
  obtain ⟨j, e⟩ := e
  by_cases hj : j = i
  · subst hj
    rw [hpo]
    exact ⟨hl, fun o ho => List.mem_append_left _ (ih o ho)⟩
  · obtain rfl := Side.eq_other_of_ne hj
    refine ⟨hl.of_step hp, fun o ho => ?_⟩
    rw [observe, if_neg (Side.other_ne i)]
    rcases reads_cases hl hp with ⟨o', -, hr, -, hopen, ho'⟩ | ⟨-, -, ho'⟩ | ⟨-, -, ho', -⟩
    · rw [ho', upToEnd_append, if_neg (by simp [hopen]), List.mem_append] at ho
      rcases ho with ho | ho
      · exact List.mem_append_left _ (ih o ((upToEnd_of_not_ended hopen).symm ▸ ho))
      · obtain rfl : o = o' := by
          rw [upToEnd] at ho
          split at ho <;> simpa using ho
        rw [hr]
        exact List.mem_append_right _ (List.mem_singleton_self _)
    · exact List.mem_append_left _ (ih o (ho' ▸ ho))
    · exact List.mem_append_left _ (ih o (ho' ▸ ho))

/-- The writer aborts the pipe by a reset. -/
theorem of_mem_writes {p : Pair} {e : Streams.Event} {x : Pipe.Op UInt8} (h : x ∈ writes p e) :
    x ≠ .cut ∧ (x = .abort → e.isAbort = true) := by
  cases e with
  | startSend item room =>
    rw [writes] at h
    split at h
    · split at h <;> simp_all
    · simp at h
  | reset =>
    rw [writes] at h
    split at h <;> simp_all [Event.isAbort]
  | dropStream =>
    rw [writes] at h
    split at h <;> simp_all
  | _ => simp [writes] at h

/-- The reader finds the pipe cut when the connection is lost. -/
theorem of_mem_reads {p : Pair} {e : Streams.Event} {x : Pipe.Op UInt8} (h : x ∈ reads p e) :
    x ≠ .abort ∧ (x = .cut → e.isCut = true) := by
  cases e with
  | pollStream =>
    rw [reads] at h
    split at h
    · split at h
      · split at h
        · simp at h
        · rw [List.mem_singleton.mp h]
          exact ⟨told_ne.1, fun h => absurd h told_ne.2⟩
      · simp at h
    · simp at h
  | connectionError err | connectionClose | dropContext =>
    obtain rfl : x = .cut := by simpa [reads, Event.isCut] using h
    simp [Event.isCut]
  | _ => simp [reads, Event.isCut] at h

/-- Who has aborted the pipe, or cut it. -/
theorem exists_of_mem_log {x : Pipe.Op UInt8}
    (h : x ∈ Trace.log step (fun l e => l.observe i e) (new id) es) :
    (x = .abort → ∃ e ∈ es, e.1 = i ∧ e.2.isAbort = true) ∧
      (x = .cut → ∃ e ∈ es, e.1 = i.other ∧ e.2.isCut = true) := by
  obtain ⟨e, he, l, hx⟩ := Trace.exists_of_mem_log h
  rw [observe] at hx
  split at hx
  · rename_i hi
    obtain ⟨hne, hab⟩ := of_mem_writes hx
    exact ⟨fun hx => ⟨e, he, hi, hab hx⟩, fun hx => absurd hx hne⟩
  · rename_i hi
    obtain ⟨hne, hcut⟩ := of_mem_reads hx
    exact ⟨fun hx => absurd hx hne, fun hx => ⟨e, he, Side.eq_other_of_ne hi, hcut hx⟩⟩

/-- **A stream is a pipe**, in each direction it has. In every run in which the transport keeps
to its rules, and no receiver of the writer that holds an item is replaced, what the two
applications see is a run of a pipe: the items accepted are what was written to it, and
what was received up to the end is what was read from it. -/
theorem refines_pipe (h : HasSendHalf id i.isClientCon)
    (hcarry : Trace.Obeys step carries (new id) es)
    (hswap : Trace.Obeys step (fun l e => l.swapsEmpty i e) (new id) es)
    (hrun : (new id).run es = some l) :
    ∃ q, Pipe.empty.run (Trace.log step (fun l e => l.observe i e) (new id) es) = some q ∧
      q.written = (l.pair i).accepted.flatten ∧ (q.closed = true ↔ (l.pair i).stream = none) ∧
      q.read = received (l.pair i.other).outcomes ∧ q.done = ended (l.pair i.other).outcomes := by
  obtain ⟨q, hq, hr⟩ := run_refines h hcarry hswap hrun
  exact ⟨q, hq, hr.written, by rw [hr.closed, Option.isNone_iff_eq_none], hr.read, hr.done⟩

/-- Three bytes, sent in two parts, and the end. -/
theorem refines_pipe_of_parts : ∃ l q, (new 4).run
      [(.client, .startSend [1, 2, 3] true), (.client, .poll),
        (.client, .callback (.prepareToSend (some zeroed) 2)),
        (.server, .callback (.data [1, 2] .other)), (.server, .pollStream), (.client, .dropStream),
        (.client, .callback (.prepareToSend (some zeroed) 2)),
        (.server, .callback (.data [3] .streamFin)), (.server, .pollStream),
        (.server, .pollStream)] = some l ∧
      Pipe.empty.run [.write [1, 2, 3], .read [1, 2], .close, .read [3], .eof] = some q ∧
      q.read = received (l.pair .server).outcomes := by
  obtain ⟨q, hq, -, -, hread, -⟩ := @refines_pipe .client _ 4
    [(.client, .startSend [1, 2, 3] true), (.client, .poll),
      (.client, .callback (.prepareToSend (some zeroed) 2)),
      (.server, .callback (.data [1, 2] .other)), (.server, .pollStream), (.client, .dropStream),
      (.client, .callback (.prepareToSend (some zeroed) 2)),
      (.server, .callback (.data [3] .streamFin)), (.server, .pollStream),
      (.server, .pollStream)]
    (by decide) (by decide) (by decide) rfl
  exact ⟨_, q, rfl, hq, hread⟩

/-- **What the reader has got**, where the writer may have `aborted` the stream and the reader may
have been `cut` off. -/
structure Delivered (i : Side) (l : Link) (aborted cut : Prop) : Prop where
  isPrefix : received (l.pair i.other).outcomes <+: (l.pair i).accepted.flatten
  clean : Outcome.none false ∈ upToEnd (l.pair i.other).outcomes → ¬cut →
    (l.pair i).stream = none ∧ received (l.pair i.other).outcomes = (l.pair i).accepted.flatten
  reset : Outcome.none true ∈ upToEnd (l.pair i.other).outcomes →
    aborted ∨ (l.pair i).stream = none ∧ (l.pair i).accepted.flatten = []
  error : ∀ err, Outcome.error err ∈ upToEnd (l.pair i.other).outcomes → cut

theorem run_delivered (h : HasSendHalf id i.isClientCon)
    (hcarry : Trace.Obeys step carries (new id) es)
    (hswap : Trace.Obeys step (fun l e => l.swapsEmpty i e) (new id) es)
    (hrun : (new id).run es = some l) :
    Delivered i l (∃ e ∈ es, e.1 = i ∧ e.2.isAbort = true)
      (∃ e ∈ es, e.1 = i.other ∧ e.2.isCut = true) := by
  obtain ⟨q, hq, hr⟩ := run_refines h hcarry hswap hrun
  obtain ⟨-, htold⟩ := run_told (i := i) hrun
  obtain ⟨hbroken, hfail⟩ := Pipe.run_failure hq
  have hclosed : q.closed = true ↔ (l.pair i).stream = none := by
    rw [hr.closed, Option.isNone_iff_eq_none]
  refine ⟨?_, fun hm hkeep => ?_, fun hm => ?_, fun err hm => ?_⟩
  · rw [← hr.read, ← hr.written]
    exact (Pipe.run_isPrefix hq).2.2
  · -- nobody has cut the pipe
    have hcut : Pipe.Op.cut ∉ Trace.log step (fun l e => l.observe i e) (new id) es :=
      fun hm => hkeep ((exists_of_mem_log hm).2 rfl)
    obtain ⟨hcl, -, hall⟩ := Pipe.run_eof hq (htold _ hm) hcut
    rw [← hr.read, ← hr.written]
    exact ⟨hclosed.mp hcl, hall⟩
  · rw [← hclosed, ← hr.written]
    exact (hbroken (htold _ hm)).imp_left fun hab => (exists_of_mem_log hab).1 rfl
  · exact (exists_of_mem_log (hfail (htold _ hm))).2 rfl

/-- **What the reader gets.** In every such run, what was received up to the end is a prefix of
the items accepted at the other endpoint. If the reader is told a clean end, and its own
connection was not lost, the writer has dropped its `Stream` and all was received. It is told
of a reset only if the writer asked for it, or dropped its `Stream` without a byte written,
and of an error only if its connection was lost. -/
theorem received_of_run (h : HasSendHalf id i.isClientCon)
    (hcarry : Trace.Obeys step carries (new id) es)
    (hswap : Trace.Obeys step (fun l e => l.swapsEmpty i e) (new id) es)
    (hrun : (new id).run es = some l) :
    received (l.pair i.other).outcomes <+: (l.pair i).accepted.flatten ∧
      (Outcome.none false ∈ upToEnd (l.pair i.other).outcomes →
        (∀ e ∈ es, e.1 = i.other → e.2.isCut = false) →
        (l.pair i).stream = none ∧
          received (l.pair i.other).outcomes = (l.pair i).accepted.flatten) ∧
      (Outcome.none true ∈ upToEnd (l.pair i.other).outcomes →
        (∃ e ∈ es, e.1 = i ∧ e.2.isAbort = true) ∨
          (l.pair i).stream = none ∧ (l.pair i).accepted.flatten = []) ∧
      ∀ err, Outcome.error err ∈ upToEnd (l.pair i.other).outcomes →
        ∃ e ∈ es, e.1 = i.other ∧ e.2.isCut = true := by
  have hd := run_delivered h hcarry hswap hrun
  refine ⟨hd.isPrefix, fun hm hkeep => hd.clean hm ?_, hd.reset, hd.error⟩
  rintro ⟨e, he, hi, hcut⟩
  rw [hkeep e he hi] at hcut
  exact Bool.false_ne_true hcut

/-- The server is asked on a stream of the client, and answers; the client reads all of it. -/
def askAndAnswer : List Event := [(.client, .startSend [1] true), (.client, .poll),
  (.client, .callback (.prepareToSend (some zeroed) 9)), (.server, .callback (.data [1] .other)),
  (.server, .pollStream), (.server, .startSend [7] true), (.server, .startSend [8, 9] true),
  (.server, .dropStream), (.server, .poll),
  (.server, .callback (.prepareToSend (some zeroed) 9)),
  (.client, .callback (.data [7, 8] .other)), (.client, .callback (.data [9] .streamFin)),
  (.client, .pollStream), (.client, .pollStream), (.client, .pollStream)]

theorem received_of_answer : ∃ l, (new 4).run askAndAnswer = some l ∧
    Outcome.none false ∈ upToEnd (l.pair .client).outcomes ∧
    received (l.pair .client).outcomes = [7, 8, 9] ∧
    received (l.pair .client).outcomes = (l.pair .server).accepted.flatten := by
  obtain ⟨-, hend, -, -⟩ := @received_of_run .server _ 4 askAndAnswer (by decide) (by decide)
    (by decide) rfl
  exact ⟨_, rfl, by decide, by decide, (hend (by decide) (by simp [askAndAnswer, Event.isCut])).2⟩

end

end Link

end Transfer

end PicoquicRs
