import PicoquicRs.Lib.Pipe
import PicoquicRs.Transfer.Receiving
import PicoquicRs.Transfer.Sending

/-!
# A stream between two endpoints

The two endpoints of a connection run the same program. For a stream they have a pair each,
and QUIC between them: a `PicoquicRs.Transfer.Link` is made of the two pairs and of what
picoquic has told each of them about the other. Its steps are those of the pairs, in any
order. That the endpoint which did not open the stream creates its pair on the first callback
makes no difference to it, as nothing can have happened there before.

What picoquic may tell is not up to the program: the rules are those of
`PicoquicRs.Streams.Wire.Permits`, that the bytes of a stream arrive in order, the end behind
them, and nothing that was not given (`PicoquicRs.Transfer.Link.carries`). When it asks an
endpoint for data is left open.
-/

namespace PicoquicRs

namespace Transfer

open Streams

/-- The two endpoints of a connection. -/
inductive Side where
  | client
  | server
  deriving DecidableEq, Repr

namespace Side

/-- The other endpoint. -/
def other : Side → Side
  | client => server
  | server => client

@[simp] theorem other_other (i : Side) : i.other.other = i := by cases i <;> rfl

@[simp] theorem other_ne (i : Side) : i.other ≠ i := by cases i <;> decide

@[simp] theorem ne_other (i : Side) : i ≠ i.other := by cases i <;> decide

theorem eq_other_of_ne {i j : Side} (h : i ≠ j) : i = j.other := by
  cases i <;> cases j <;> first | rfl | exact absurd rfl h

/-- Is the connection a client connection, seen from this endpoint? -/
def isClientCon : Side → Bool
  | client => true
  | server => false

/-- **The half one endpoint sends on is the one the other receives on.** -/
theorem hasRecvHalf_other {id : Id} {i : Side} :
    HasRecvHalf id i.other.isClientCon ↔ HasSendHalf id i.isClientCon := by
  rw [HasRecvHalf, HasSendHalf, isUnidirectionalSendAllowed, isUnidirectionalSendAllowed]
  cases i <;> cases isClientInitiated id <;> simp [other, isClientCon]

end Side

/-- **A stream between two endpoints.** -/
structure Link where
  /-- The stream at each endpoint. -/
  pair : Side → Pair
  /-- What picoquic has told each endpoint about the other end of the stream. -/
  arrived : Side → Wire

namespace Link

/-- A stream before anything has happened to it. -/
def new (id : Id) : Link where
  pair i := Streams.new id i.isClientCon
  arrived _ := .blank

variable (l : Link)

/-- An event, at one of the endpoints. -/
abbrev Event := Side × Streams.Event

/-- **One step**: an endpoint takes an event. -/
def step (e : Event) : Option Link := do
  let p ← (l.pair e.1).step e.2
  some {
    pair := Function.update l.pair e.1 p
    arrived := Function.update l.arrived e.1 ((l.arrived e.1).after e.2) }

/-- **A run.** -/
abbrev run : Link → List Event → Option Link := Trace.run step

/-- What the endpoint `i` has given to picoquic. -/
def wire (i : Side) : Wire := (l.pair i).ctx.wire

/-- **The rules of the transport**: an endpoint is told what the other one gave, and in
order. -/
def carries (e : Event) : Prop := (l.arrived e.1).Permits (l.wire e.1.other) e.2

instance : DecidablePred l.carries := fun _ => inferInstanceAs (Decidable (Wire.Permits _ _ _))

/-- **No item is replaced** at the endpoint `i`, by swaps of its channel. -/
def swapsEmpty (i : Side) (e : Event) : Prop := e.1 = i → (l.pair i).swapsEmpty e.2 = true

instance (i : Side) : DecidablePred (l.swapsEmpty i) := fun _ =>
  inferInstanceAs (Decidable (_ → _))

/-! ### What an endpoint sees -/

/-- What the writer does by an event: an item is accepted, a reset is asked for, and the
`Stream` is dropped. -/
def writes (p : Pair) : Streams.Event → List (Pipe.Op UInt8)
  | .startSend item room =>
    match p.stream with
    | some s =>
      match (s.startSend p.ctx item room).1 with
      | .ok .ready => [.write item]
      | _ => []
    | none => []
  | .reset => if p.stream.isSome then [.abort] else []
  | .dropStream => if p.stream.isSome then [.close] else []
  | _ => []

/-- What the reader is told by an outcome. -/
def told : Outcome → Pipe.Op UInt8
  | .item d => .read d
  | .none false => .eof
  | .none true => .broken
  | .error _ => .fail

/-- What the reader sees of an event, up to the end: the outcomes of its polls, and that the
connection is lost. -/
def reads (p : Pair) : Streams.Event → List (Pipe.Op UInt8)
  | .pollStream =>
    match p.stream with
    | some s =>
      match s.poll p.ctx with
      | some (some o, _, _) => if ended p.outcomes then [] else [told o]
      | _ => []
    | none => []
  | e => if e.isCut then [.cut] else []

/-- **What the two applications see of an event**, in the direction from the endpoint `i` to the
other one. -/
def observe (i : Side) (e : Event) : List (Pipe.Op UInt8) :=
  if e.1 = i then writes (l.pair i) e.2 else reads (l.pair i.other) e.2

end Link

end Transfer

end PicoquicRs
