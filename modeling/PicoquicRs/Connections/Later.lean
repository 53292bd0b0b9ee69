import Mathlib.Data.List.Forall2
import PicoquicRs.Connections.Ends
import PicoquicRs.Lib.Each

/-!
# The streams of a connection, and what becomes of them

Whatever a connection does, it does to a stream through the events of
`PicoquicRs.Streams.Pair`: every stream it has was made by `Stream::new` and has
taken the events it has seen since (`PicoquicRs.Connections.Entry.Sound`). Hence all
that holds of every run of a stream holds of every stream of every connection
(`PicoquicRs.Connections.Ends.run_sound`). Later on a stream has taken some more events
(`PicoquicRs.Connections.Laters`).
-/

namespace PicoquicRs

namespace Connections

open Futures

namespace Entry

variable {en en' en'' : Entry} {e : Streams.Event}

/-- The stream is in the state its events lead to. -/
def Sound (en : Entry) (isClient : Bool) : Prop :=
  (Streams.new en.id isClient).run en.seen = some en.pair

/-- **The stream later on**: it has taken some more events. -/
structure Later (en en' : Entry) : Prop where
  id : en'.id = en.id
  requested : en'.requested = en.requested
  run : ∃ es, en'.seen = en.seen ++ es ∧ en.pair.run es = some en'.pair

theorem Later.refl (en : Entry) : en.Later en := ⟨rfl, rfl, [], by simp, rfl⟩

theorem Later.trans (h : en.Later en') (h' : en'.Later en'') : en.Later en'' := by
  obtain ⟨es, hseen, hrun⟩ := h.run
  obtain ⟨es', hseen', hrun'⟩ := h'.run
  refine ⟨h'.id.trans h.id, h'.requested.trans h.requested, es ++ es', ?_, ?_⟩
  · rw [hseen', hseen, List.append_assoc]
  · simp only [Streams.Pair.run] at hrun hrun' ⊢
    rw [Trace.run_append, hrun, Option.bind_some, hrun']

theorem new_sound (id : Id) (isClient requested : Bool) :
    (Entry.new id isClient requested).Sound isClient := rfl

theorem Sound.later {isClient : Bool} (h : en.Sound isClient) (hl : en.Later en') :
    en'.Sound isClient := by
  obtain ⟨es, hseen, hrun⟩ := hl.run
  simp only [Sound, Streams.Pair.run] at h hrun ⊢
  rw [hl.id, hseen, Trace.run_append, h, Option.bind_some, hrun]

theorem take_later (h : en.take e = some en') : en.Later en' := by
  obtain ⟨pair, hp, h⟩ := Option.bind_eq_some_iff.mp h
  obtain rfl := Option.some.inj h
  exact ⟨rfl, rfl, [e], rfl, by simp [hp]⟩

theorem takeInMap_later {sel : Entry → Bool} (h : en.takeInMap sel e = some en') :
    en.Later en' := by
  rw [takeInMap] at h
  split at h
  · exact take_later h
  · obtain rfl := Option.some.inj h
    exact .refl en

end Entry

/-! ### All streams -/

/-- **The same streams later on.** -/
abbrev Laters : List Entry → List Entry → Prop := List.Forall₂ Entry.Later

namespace Laters

variable {l l' l'' : List Entry}

theorem refl (l : List Entry) : Laters l l := List.forall₂_same.mpr fun en _ => .refl en

theorem trans (h : Laters l l') (h' : Laters l' l'') : Laters l l'' := by
  induction h generalizing l'' with
  | nil => exact h'
  | cons hab _ ih =>
    cases h' with
    | cons hbc h' => exact .cons (hab.trans hbc) (ih h')

theorem of_mapM {f : Entry → Option Entry} (hf : ∀ en en', f en = some en' → en.Later en')
    (h : l.mapM f = some l') : Laters l l' :=
  (Each.mapM_eq_some.mp h).imp hf

theorem of_set {k : ℕ} {en en' : Entry} (hk : l[k]? = some en) (h : en.Later en') :
    Laters l (l.set k en') := by
  induction l generalizing k with
  | nil => simp at hk
  | cons x l ih =>
    cases k with
    | zero =>
      obtain rfl : x = en := by simpa using hk
      exact .cons h (refl l)
    | succ k => exact .cons (.refl x) (ih (by simpa using hk))

/-- The keys do not change. -/
theorem map_id (h : Laters l l') : l'.map Entry.id = l.map Entry.id := by
  induction h with
  | nil => rfl
  | cons hab _ ih => rw [List.map_cons, List.map_cons, hab.id, ih]

/-- A stream keeps its place. -/
theorem getElem? {k : ℕ} {en : Entry} (h : Laters l l') (hk : l[k]? = some en) :
    ∃ en', l'[k]? = some en' ∧ en.Later en' := by
  induction h generalizing k with
  | nil => simp at hk
  | cons hab _ ih =>
    cases k with
    | zero => exact ⟨_, rfl, by simpa using (Option.some.inj hk) ▸ hab⟩
    | succ k => exact ih (by simpa using hk)

/-- What holds of each stream later on, if it did before. -/
theorem forall_mem {P : Entry → Prop} (h : Laters l l') (hP : ∀ en en', en.Later en' → P en → P en')
    (hl : ∀ en ∈ l, P en) : ∀ en ∈ l', P en := by
  induction h with
  | nil => simp
  | cons hab _ ih =>
    intro en hen
    rcases List.mem_cons.mp hen with rfl | hen
    · exact hP _ _ hab (hl _ List.mem_cons_self)
    · exact ih (fun en hen => hl en (List.mem_cons_of_mem _ hen)) en hen

end Laters

/-! ### The functions of the context -/

namespace Context

variable {c c' : Context}

theorem eachContext_spec {sel : Entry → Bool} {e : Streams.Event}
    (h : c.eachContext sel e = some c') :
    ∃ streams, c' = { c with streams } ∧ Laters c.streams streams := by
  obtain ⟨streams, hs, h⟩ := Option.bind_eq_some_iff.mp h
  exact ⟨streams, (Option.some.inj h).symm, .of_mapM (fun _ _ => Entry.takeInMap_later) hs⟩

theorem atStream_spec {k : StreamRef} {e : Streams.Event} (h : c.atStream k e = some c') :
    ∃ streams, c' = { c with streams } ∧ Laters c.streams streams := by
  rw [atStream] at h
  split at h
  · rename_i en hen
    obtain ⟨en', hen', h⟩ := Option.bind_eq_some_iff.mp h
    exact ⟨_, (Option.some.inj h).symm, .of_set hen (Entry.take_later hen')⟩
  · exact ⟨c.streams, (Option.some.inj h).symm, .refl _⟩

/-- A stream in the map takes the event, if it is selected. -/
theorem eachContext_getElem? {sel : Entry → Bool} {e : Streams.Event} {k : StreamRef} {en : Entry}
    (h : c.eachContext sel e = some c') (hk : c.streams[k]? = some en) :
    ∃ en', en.takeInMap sel e = some en' ∧ c'.streams[k]? = some en' := by
  obtain ⟨streams, hs, h⟩ := Option.bind_eq_some_iff.mp h
  obtain rfl := Option.some.inj h
  exact Each.mapM_getElem? (f := (Entry.takeInMap · sel e)) hs hk

end Context

end Connections

end PicoquicRs
