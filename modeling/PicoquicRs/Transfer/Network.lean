import PicoquicRs.Connections.StreamIds
import PicoquicRs.Connections.Taken
import PicoquicRs.Transfer.Refinement

/-!
# Two connections, and the network between them

The results about a stream between two endpoints are carried over to whole connections: two
endpoints run all that `PicoquicRs.Connections.Ends` does – streams made by requests and by
callbacks, the `Connection` and its handles, closing and dropping – and picoquic calls back at
each of them. Seen through one stream id, such a run is a run of a
`PicoquicRs.Transfer.Link` (`PicoquicRs.Transfer.Net.run_link`): the other streams do not
disturb it, and the connection gives it no event but those a link takes. Hence, for every id,
what the application reads at one end is what was sent on the stream with the same id at the
other end (`PicoquicRs.Transfer.Net.delivered_of_run`).

The rules are those under which no id is used twice
(`PicoquicRs.Connections.one_stream_per_id`), and that picoquic tells an endpoint about an id
what the other one gave to it for this id (`PicoquicRs.Transfer.Net.carries`).
-/

namespace PicoquicRs

namespace Connections

namespace Context

variable {c : Context}

/-- What was given to picoquic for an id. -/
def wireOf (c : Context) (id : Id) : Streams.Wire :=
  ((c.streams.filter (·.id == id)).flatMap (·.pair.ctx.calls)).foldl Streams.Wire.call .blank

/-- What picoquic has told about an id. -/
def toldOf (c : Context) (id : Id) : Streams.Wire :=
  ((c.streams.filter (·.id == id)).flatMap (·.seen)).foldl Streams.Wire.after .blank

/-- Where no id is used twice, the streams with an id are the one that is found. -/
theorem Apart.filter_eq (h : c.Apart) (id : Id) :
    c.streams.filter (·.id == id) = (c.streams.find? (·.id == id)).toList := by
  have hnodup : (c.streams.map Entry.id).Nodup := h.nodup
  generalize c.streams = l at hnodup ⊢
  induction l with
  | nil => rfl
  | cons en l ih =>
    rw [List.map_cons, List.nodup_cons] at hnodup
    rw [List.filter_cons, List.find?_cons]
    cases hen : en.id == id with
    | false => exact ih hnodup.2
    | true =>
      obtain rfl : en.id = id := by simpa using hen
      have hnil : l.filter (·.id == en.id) = [] := by
        refine List.filter_eq_nil_iff.mpr fun x hx heq => hnodup.1 ?_
        exact List.mem_map.mpr ⟨x, hx, by simpa using heq⟩
      rw [if_pos rfl, hnil, Option.toList_some]

theorem Apart.wireOf_eq (h : c.Apart) (id : Id) :
    c.wireOf id = (c.streamOf id).pair.ctx.wire := by
  rw [wireOf, h.filter_eq, streamOf]
  cases c.streams.find? (·.id == id) with
  | none => rfl
  | some en =>
    rw [Option.toList_some, List.flatMap_singleton]
    rfl

theorem Apart.toldOf_eq (h : c.Apart) (id : Id) :
    c.toldOf id = (c.streamOf id).seen.foldl Streams.Wire.after .blank := by
  rw [toldOf, h.filter_eq, streamOf]
  cases c.streams.find? (·.id == id) with
  | none => rfl
  | some en =>
    rw [Option.toList_some, List.flatMap_singleton]
    rfl

end Context

end Connections

namespace Transfer

open Streams

namespace Link

variable {i : Side} {l : Link} {es : List Streams.Event}

/-- **A run at one of the endpoints.** -/
theorem run_map (l : Link) (j : Side) (es : List Streams.Event) :
    l.run (es.map (Prod.mk j)) = ((l.pair j).run es).map fun p =>
      { pair := Function.update l.pair j p
        arrived := Function.update l.arrived j (es.foldl Wire.after (l.arrived j)) } := by
  induction es generalizing l with
  | nil => simp
  | cons e es ih =>
    simp only [run] at ih
    simp only [run, Pair.run, List.map_cons, Trace.run_cons, step, Option.bind_eq_bind]
    cases (l.pair j).step e with
    | none => rfl
    | some p =>
      simp only [Option.bind_some]
      rw [ih]
      simp

/-- No rule is about an event that is neither a callback nor a poll. -/
theorem obeys_of_quiet {j : Side}
    (h : ∀ e ∈ es, e.atStream = true ∨ e.isCut = true) :
    Trace.Obeys step (fun l e => l.carries e ∧ l.swapsEmpty i e) l (es.map (Prod.mk j)) := by
  refine Trace.obeys_of_forall fun x hx l => ?_
  obtain ⟨e, he, rfl⟩ := List.mem_map.mp hx
  rcases h e he with hat | hcut
  · cases e <;> first | exact ⟨trivial, fun _ => rfl⟩ | simp [Event.atStream] at hat
  · cases e <;> first | exact ⟨trivial, fun _ => rfl⟩ | simp [Event.isCut] at hcut

end Link

/-- **Two connections.** -/
abbrev Net := Side → Connections.Ends

namespace Net

/-- Two connections right after they were made. -/
def new : Net := fun i => Connections.new i.isClientCon

variable (n : Net)

/-- An event, at one of the endpoints. -/
abbrev Event := Side × Connections.Event

/-- **One step**: an endpoint takes an event. -/
def step (e : Event) : Option Net := do
  let p ← (n e.1).step e.2
  some (Function.update n e.1 p)

/-- **A run.** -/
abbrev run : Net → List Event → Option Net := Trace.run step

/-- **The rules of the transport**: an endpoint is told about an id what the other one gave. -/
def carries : Event → Prop
  | (i, .callback (.stream id cb)) => (n i).alive = true → id ≠ 0 →
    ((n i).ctx.toldOf id).Carries ((n i.other).ctx.wireOf id) cb
  | _ => True

instance : DecidablePred n.carries := by
  rintro ⟨i, e⟩
  cases e with
  | callback cb =>
    cases cb with
    | stream id cb =>
      exact inferInstanceAs (Decidable ((n i).alive = true → id ≠ 0 → Wire.Carries _ _ _))
    | almostReady => exact inferInstanceAs (Decidable True)
  | _ => exact inferInstanceAs (Decidable True)

/-- **What picoquic keeps to**, such that no id is used twice. -/
def apart (e : Event) : Prop :=
  (n e.1).picoquicRules e.2 = true ∧ (n e.1).inTime e.2 = true ∧ (n e.1).idsLeft e.2 = true

instance : DecidablePred n.apart := fun _ => inferInstanceAs (Decidable (_ ∧ _ ∧ _))

/-- The stream with an id, at the endpoint `i`. -/
def pair (id : Id) (i : Side) : Pair := ((n i).ctx.streamOf id).pair

/-- **No item is replaced** at the endpoint `i` of a stream, by swaps of its channel. -/
def swapsEmpty (id : Id) (i : Side) : Event → Prop
  | (j, .poll) => j = i → (n.pair id i).swapsEmpty .poll = true
  | _ => True

instance (id : Id) (i : Side) : DecidablePred (n.swapsEmpty id i) := by
  rintro ⟨j, e⟩
  cases e <;> first | exact inferInstanceAs (Decidable (_ → _)) |
    exact inferInstanceAs (Decidable True)

/-- **A stream of the two connections.** -/
def link (id : Id) : Link where
  pair := n.pair id
  arrived i := ((n i).ctx.streamOf id).seen.foldl Wire.after .blank

variable {n} {n' : Net} {id : Id} {i : Side}

/-- What a step does to the endpoints. -/
theorem step_eq_some {e : Event} (h : n.step e = some n') :
    ∃ p, (n e.1).step e.2 = some p ∧ n' = Function.update n e.1 p := by
  obtain ⟨p, hp, h⟩ := Option.bind_eq_some_iff.mp h
  exact ⟨p, hp, (Option.some.inj h).symm⟩

/-- What the change of an endpoint does to a stream. -/
theorem link_update (n : Net) (id : Id) (j : Side) (p : Connections.Ends) :
    link (Function.update n j p) id =
      { pair := Function.update (n.link id).pair j (p.ctx.streamOf id).pair
        arrived := Function.update (n.link id).arrived j
          ((p.ctx.streamOf id).seen.foldl Wire.after .blank) } := by
  have hk : ∀ k, (Function.update n j p k).ctx.streamOf id =
      if k = j then p.ctx.streamOf id else (n k).ctx.streamOf id := by
    intro k
    rcases eq_or_ne k j with rfl | hk
    · rw [Function.update_self, if_pos rfl]
    · rw [Function.update_of_ne hk, if_neg hk]
  rw [link, Link.mk.injEq]
  constructor <;> funext k
  · rw [pair, hk, Function.update_apply]
    split <;> rfl
  · rw [hk, Function.update_apply]
    split <;> rfl

/-- **Seen through one id, a step is a run of the stream with this id.** -/
theorem step_link {e : Event} (hapart : ∀ j, (n j).ctx.Apart) (hcarry : n.carries e)
    (hswap : n.swapsEmpty id i e) (hstep : n.step e = some n') :
    ∃ es : List Streams.Event, (n.link id).run (es.map (Prod.mk e.1)) = some (n'.link id) ∧
      Trace.Obeys Link.step (fun l e => l.carries e ∧ l.swapsEmpty i e) (n.link id)
        (es.map (Prod.mk e.1)) ∧
      ((n' e.1).ctx.streamOf id).seen = ((n e.1).ctx.streamOf id).seen ++ es ∧
      ∀ x ∈ es, x.isCut = true → (n' e.1).ctx.closed = true ∨ (n' e.1).alive = false := by
  obtain ⟨p, hp, rfl⟩ := step_eq_some hstep
  obtain ⟨j, e⟩ := e
  obtain ⟨c, -, hrest, hfirst⟩ := Connections.Ends.step_takes
    (P := fun x => x.atStream = true ∨ x.isCut = true ∧ (p.ctx.closed = true ∨ p.alive = false))
    (fun x hx => Or.inl hx)
    (fun hover => ⟨fun _ => Or.inr ⟨rfl, hover⟩, Or.inr ⟨rfl, hover⟩, Or.inr ⟨rfl, hover⟩⟩) hp
  obtain ⟨first, hstart, ht⟩ := hfirst id
  obtain ⟨rest, hquiet, ht'⟩ := hrest.took id
  have htook := ht.trans ht'
  refine ⟨first ++ rest, ?_, ?_, ?_, ?_⟩
  · rw [Link.run_map]
    have hrun : ((n.link id).pair j).run (first ++ rest) = some (p.ctx.streamOf id).pair :=
      htook.run
    have harrived : (n.link id).arrived j =
        ((n j).ctx.streamOf id).seen.foldl Wire.after .blank := rfl
    rw [hrun, Option.map_some, link_update, htook.seen, harrived, ← List.foldl_append]
  · have hrules : ∀ l, Trace.Obeys Link.step (fun l e => l.carries e ∧ l.swapsEmpty i e) l
        (rest.map (Prod.mk j)) := fun l =>
      Link.obeys_of_quiet fun x hx => (hquiet x hx).imp_right And.left
    cases hstart with
    | nothing => exact hrules _
    | poll => exact ⟨⟨trivial, hswap⟩, fun l _ => hrules l⟩
    | callback cb halive hid =>
      refine ⟨⟨?_, fun _ => rfl⟩, fun l _ => hrules l⟩
      have hc := hcarry halive hid
      rw [(hapart j).toldOf_eq, (hapart j.other).wireOf_eq] at hc
      exact hc
  · rw [Function.update_self]
    exact htook.seen
  · rw [Function.update_self]
    intro x hx hcut
    rcases List.mem_append.mp hx with hx | hx
    · cases hstart <;> simp at hx <;> subst hx <;> simp [Event.isCut] at hcut
    · rcases hquiet x hx with hat | ⟨-, hover⟩
      · cases x <;> simp [Event.atStream, Event.isCut] at hat hcut
      · exact hover

/-! ### Runs -/

/-- **What the events of a stream say about the two connections**: each was seen at its endpoint,
and the stream is cut off only where the connection is closed or the context dropped. -/
structure Covers (id : Id) (ls : List Link.Event) (n : Net) : Prop where
  apart : ∀ j, (n j).ctx.Apart
  seen : ∀ x ∈ ls, x.2 ∈ ((n x.1).ctx.streamOf id).seen
  cut : ∀ x ∈ ls, x.2.isCut = true → (n x.1).ctx.closed = true ∨ (n x.1).alive = false

theorem Covers.step {ls : List Link.Event} {e : Event} (h : Covers id ls n) (hap : n.apart e)
    (hcarry : n.carries e) (hswap : n.swapsEmpty id i e) (hstep : n.step e = some n') :
    ∃ l, (n.link id).run l = some (n'.link id) ∧
      Trace.Obeys Link.step (fun l e => l.carries e ∧ l.swapsEmpty i e) (n.link id) l ∧
      Covers id (ls ++ l) n' := by
  obtain ⟨es, hrun, hob, hseen, hcut⟩ := step_link h.apart hcarry hswap hstep
  obtain ⟨p, hp, rfl⟩ := step_eq_some hstep
  refine ⟨es.map (Prod.mk e.1), hrun, hob, fun j => ?_, fun x hx => ?_, fun x hx hxc => ?_⟩
  · rcases eq_or_ne j e.1 with rfl | hj
    · rw [Function.update_self]
      exact Connections.Ends.apart_step (h.apart _) hap hp
    · rw [Function.update_of_ne hj]
      exact h.apart j
  · rcases List.mem_append.mp hx with hx | hx
    · rcases eq_or_ne x.1 e.1 with hj | hj
      · have hold := h.seen x hx
        rw [hj] at hold ⊢
        rw [hseen]
        exact List.mem_append_left _ hold
      · rw [Function.update_of_ne hj]
        exact h.seen x hx
    · obtain ⟨y, hy, rfl⟩ := List.mem_map.mp hx
      rw [hseen]
      exact List.mem_append_right _ hy
  · rcases List.mem_append.mp hx with hx | hx
    · rcases eq_or_ne x.1 e.1 with hj | hj
      · have hold := h.cut x hx hxc
        rw [hj] at hold ⊢
        rw [Function.update_self]
        exact Connections.Ends.step_over hp hold
      · rw [Function.update_of_ne hj]
        exact h.cut x hx hxc
    · obtain ⟨y, hy, rfl⟩ := List.mem_map.mp hx
      exact hcut y hy hxc

theorem new_covers : Covers id [] new where
  apart j := ⟨by simp [new, Connections.new, Connections.Context.new, Connections.Context.ids],
    by simp [new, Connections.new, Connections.Context.new, Connections.Context.ids]⟩
  seen := by simp
  cut := by simp

section

variable {es : List Event}

/-- **Seen through one id, a run of two connections is a run of a stream.** -/
theorem run_link (hapart : Trace.Obeys step apart new es) (hcarry : Trace.Obeys step carries new es)
    (hswap : Trace.Obeys step (fun n e => n.swapsEmpty id i e) new es)
    (hrun : new.run es = some n) :
    ∃ ls, (Link.new id).run ls = some (n.link id) ∧
      Trace.Obeys Link.step Link.carries (Link.new id) ls ∧
      Trace.Obeys Link.step (fun l e => l.swapsEmpty i e) (Link.new id) ls ∧ Covers id ls n := by
  have hok : Trace.Obeys step (fun n e => n.apart e ∧ n.carries e ∧ n.swapsEmpty id i e) new es :=
    Trace.obeys_and.mpr ⟨hapart, Trace.obeys_and.mpr ⟨hcarry, hswap⟩⟩
  obtain ⟨ls, hls, hob, hcov⟩ := Trace.run_projects
    (fun ls n e n' (h : Covers id ls n) hok hstep => h.step hok.1 hok.2.1 hok.2.2 hstep)
    new_covers hok hrun
  obtain ⟨hcarry, hswap⟩ := Trace.obeys_and.mp hob
  exact ⟨ls, hls, hcarry, hswap, hcov⟩

/-- **What is read is what was sent.** In every run of two connections in which picoquic keeps to
its rules, no id is used twice and the bytes are carried, and for every id of which no receiver
that holds an item is replaced, what was received on the stream at one
endpoint is a prefix of what was accepted for it at the other one. A clean end, on a connection
that is neither closed nor dropped, means that the writer has dropped its `Stream` and all was
received. A reset means that the writer has asked for it, or dropped its `Stream` without a byte
written; and an error, that the connection of the reader is closed or dropped. -/
theorem delivered_of_run (h : HasSendHalf id i.isClientCon)
    (hapart : Trace.Obeys step apart new es) (hcarry : Trace.Obeys step carries new es)
    (hswap : Trace.Obeys step (fun n e => n.swapsEmpty id i e) new es)
    (hrun : new.run es = some n) :
    received (n.pair id i.other).outcomes <+: (n.pair id i).accepted.flatten ∧
      (Outcome.none false ∈ upToEnd (n.pair id i.other).outcomes →
        (n i.other).ctx.closed = false → (n i.other).alive = true →
        (n.pair id i).stream = none ∧
          received (n.pair id i.other).outcomes = (n.pair id i).accepted.flatten) ∧
      (Outcome.none true ∈ upToEnd (n.pair id i.other).outcomes →
        .reset ∈ ((n i).ctx.streamOf id).seen ∨
          (n.pair id i).stream = none ∧ (n.pair id i).accepted.flatten = []) ∧
      ∀ err, Outcome.error err ∈ upToEnd (n.pair id i.other).outcomes →
        (n i.other).ctx.closed = true ∨ (n i.other).alive = false := by
  obtain ⟨ls, hls, hcarries, hswaps, hcov⟩ := run_link hapart hcarry hswap hrun
  have hd := Link.run_delivered h hcarries hswaps hls
  have hover : (∃ x ∈ ls, x.1 = i.other ∧ x.2.isCut = true) →
      (n i.other).ctx.closed = true ∨ (n i.other).alive = false := by
    rintro ⟨x, hx, hi, hcut⟩
    rw [← hi]
    exact hcov.cut x hx hcut
  refine ⟨hd.isPrefix, fun hm hcl ha => hd.clean hm fun hcut => ?_, fun hm => ?_,
    fun err hm => hover (hd.error err hm)⟩
  · have hover := hover hcut
    simp [hcl, ha] at hover
  · refine (hd.reset hm).imp_left ?_
    rintro ⟨⟨j, x⟩, hx, rfl, hab⟩
    have hseen := hcov.seen _ hx
    cases x <;> first | exact hseen | simp [Event.isAbort] at hab

/-- The client asks for a stream, writes two bytes and drops it; the server is told about them
and the end in one callback, gets the stream from its `Connection`, and reads all of it. -/
theorem delivered_of_request : ∃ n, new.run
      [(.client, .callback .almostReady), (.client, .pollCreated),
        (.client, .newStream .bidirectional), (.client, .poll), (.client, .pollRequest 0),
        (.client, .stream 0 (.startSend [1, 2] true)), (.client, .poll),
        (.client, .stream 0 .dropStream),
        (.client, .callback (.stream 4 (.prepareToSend (some zeroed) 9))),
        (.server, .callback (.stream 4 (.data [1, 2] .streamFin))), (.server, .pollConnection),
        (.server, .stream 0 .pollStream), (.server, .stream 0 .pollStream)] = some n ∧
      Outcome.none false ∈ upToEnd (n.pair 4 .server).outcomes ∧
      received (n.pair 4 .server).outcomes = (n.pair 4 .client).accepted.flatten := by
  obtain ⟨-, hend, -, -⟩ := @delivered_of_run _ 4 .client
    [(.client, .callback .almostReady), (.client, .pollCreated),
      (.client, .newStream .bidirectional), (.client, .poll), (.client, .pollRequest 0),
      (.client, .stream 0 (.startSend [1, 2] true)), (.client, .poll),
      (.client, .stream 0 .dropStream),
      (.client, .callback (.stream 4 (.prepareToSend (some zeroed) 9))),
      (.server, .callback (.stream 4 (.data [1, 2] .streamFin))), (.server, .pollConnection),
      (.server, .stream 0 .pollStream), (.server, .stream 0 .pollStream)]
    (by decide) (by decide) (by decide) (by decide) rfl
  exact ⟨_, rfl, by decide, (hend (by decide) (by decide) (by decide)).2⟩

end

end Net

end Transfer

end PicoquicRs
