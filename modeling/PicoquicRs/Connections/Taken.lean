import PicoquicRs.Connections.Steps

/-!
# Which events the streams of a connection take

A step of a connection makes each of its streams take some events
(`PicoquicRs.Connections.Laters`). Here it is said which ones
(`PicoquicRs.Connections.Context.Takes`), function by function: beside what a function is for,
only drops of streams the application is not going to get.

A stream is found by its id (`PicoquicRs.Connections.Context.streamOf`). One that has not been
made yet is there too, as it will be made, since nothing can have happened to it.
-/

namespace PicoquicRs

namespace Connections

open Futures

/-- The stream has taken the events `es`. -/
structure Entry.Took (en : Entry) (es : List Streams.Event) (en' : Entry) : Prop where
  seen : en'.seen = en.seen ++ es
  run : en.pair.run es = some en'.pair

namespace Entry

variable {en en' en'' : Entry} {es es' : List Streams.Event} {e : Streams.Event}

theorem Took.refl (en : Entry) : en.Took [] en := ⟨(List.append_nil _).symm, rfl⟩

theorem Took.trans (h : en.Took es en') (h' : en'.Took es' en'') : en.Took (es ++ es') en'' where
  seen := by rw [h'.seen, h.seen, List.append_assoc]
  run := by
    obtain ⟨-, hrun⟩ := h
    obtain ⟨-, hrun'⟩ := h'
    simp only [Streams.Pair.run] at hrun hrun' ⊢
    rw [Trace.run_append, hrun, Option.bind_some, hrun']

theorem take_id (h : en.take e = some en') : en'.id = en.id := (take_later h).id

theorem take_took (h : en.take e = some en') : en.Took [e] en' := by
  obtain ⟨pair, hp, h⟩ := Option.bind_eq_some_iff.mp h
  obtain rfl := Option.some.inj h
  exact ⟨rfl, by simp [hp]⟩

/-- A context in the map that is selected takes the event. -/
theorem takeInMap_cases {sel : Entry → Bool} (h : en.takeInMap sel e = some en') :
    sel en = true ∧ en.take e = some en' ∨ en' = en := by
  rw [takeInMap] at h
  split at h
  · rename_i hsel
    exact Or.inl ⟨(Bool.and_eq_true_iff.mp hsel).2, h⟩
  · exact Or.inr (Option.some.inj h).symm

end Entry

/-! ### Lists of streams -/

section

variable {α : Type*} {f : α → Option α} {q : α → Bool} {l l' : List α} {x y : α} {k : ℕ}

/-- What is found in a list is found where the list is changed item by item. -/
theorem find?_mapM (hq : ∀ x y, f x = some y → q y = q x) (h : l.mapM f = some l') :
    l.find? q = none ∧ l'.find? q = none ∨
      ∃ x y, l.find? q = some x ∧ f x = some y ∧ l'.find? q = some y := by
  have hrel := Each.mapM_eq_some.mp h
  induction hrel with
  | nil => exact Or.inl ⟨rfl, rfl⟩
  | @cons x y l l' hy hrel ih =>
    rw [List.find?_cons, List.find?_cons, hq x y hy]
    cases q x with
    | true => exact Or.inr ⟨x, y, rfl, hy, rfl⟩
    | false => exact ih (Each.mapM_eq_some.mpr hrel)

/-- What is found in a list is found where one item is changed. -/
theorem find?_set (hk : l[k]? = some x) (hq : q y = q x) :
    (l.set k y).find? q = l.find? q ∨ l.find? q = some x ∧ (l.set k y).find? q = some y := by
  induction l generalizing k with
  | nil => simp at hk
  | cons z l ih =>
    cases k with
    | zero =>
      obtain rfl : z = x := by simpa using hk
      rw [List.set_cons_zero, List.find?_cons, List.find?_cons, hq]
      cases q z with
      | true => exact Or.inr ⟨rfl, rfl⟩
      | false => exact Or.inl rfl
    | succ k =>
      rw [List.set_cons_succ, List.find?_cons, List.find?_cons]
      cases q z with
      | true => exact Or.inl rfl
      | false => exact ih (by simpa using hk)

end

namespace Context

/-- **The stream with the id**, as it is made if it was not made yet. -/
def streamOf (c : Context) (id : Id) : Entry :=
  (c.streams.find? (·.id == id)).getD (Entry.new id c.isClient false)

/-- **What the streams take**: events that `P` holds of. A closed connection stays closed. -/
structure Takes (P : Streams.Event → Prop) (c c' : Context) : Prop where
  isClient : c'.isClient = c.isClient
  closed : c.closed = true → c'.closed = true
  took : ∀ id, ∃ es, (∀ e ∈ es, P e) ∧ (c.streamOf id).Took es (c'.streamOf id)

variable {c c' c'' : Context} {P : Streams.Event → Prop}

namespace Takes

/-- The streams were not touched. -/
theorem of_eq (hs : c'.streams = c.streams) (hc : c'.isClient = c.isClient)
    (hcl : c.closed = true → c'.closed = true) : Takes P c c' where
  isClient := hc
  closed := hcl
  took id := by
    refine ⟨[], by simp, ?_⟩
    rw [streamOf, streamOf, hs, hc]
    exact .refl _

theorem refl (c : Context) : Takes P c c := of_eq rfl rfl id

theorem trans (h : Takes P c c') (h' : Takes P c' c'') : Takes P c c'' where
  isClient := h'.isClient.trans h.isClient
  closed hcl := h'.closed (h.closed hcl)
  took id := by
    obtain ⟨es, hes, ht⟩ := h.took id
    obtain ⟨es', hes', ht'⟩ := h'.took id
    refine ⟨es ++ es', fun e he => ?_, ht.trans ht'⟩
    rcases List.mem_append.mp he with he | he
    · exact hes e he
    · exact hes' e he

/-- The streams were not touched before. -/
theorem after (h : Takes P c' c'') (hs : c'.streams = c.streams) (hc : c'.isClient = c.isClient)
    (hcl : c.closed = true → c'.closed = true) : Takes P c c'' := (of_eq hs hc hcl).trans h

/-- A stream that is made is as it was to be. -/
theorem insertStream (c : Context) (id : Id) (requested : Bool) :
    Takes P c (c.insertStream id requested) where
  isClient := rfl
  closed hcl := hcl
  took j := by
    refine ⟨[], by simp, ?_⟩
    have hfind : (c.insertStream id requested).streams.find? (·.id == j) =
        (c.streams.find? (·.id == j)).or
          ([Entry.new id c.isClient requested].find? (·.id == j)) := List.find?_append
    rw [streamOf, streamOf, hfind]
    cases c.streams.find? (·.id == j) with
    | some en => exact .refl en
    | none =>
      rw [Option.none_or, List.find?_singleton]
      split
      · rename_i hid
        obtain rfl : id = j := by simpa [Entry.new] using hid
        exact ⟨rfl, rfl⟩
      · exact .refl _

end Takes

/-! ### The functions of the context -/

/-- **Every context that is selected takes an event**, and no other stream does. -/
theorem eachContext_took {sel : Entry → Bool} {e : Streams.Event}
    (h : c.eachContext sel e = some c') (id : Id) :
    (c.streamOf id).Took [] (c'.streamOf id) ∨
      (∃ en, en.id = id ∧ sel en = true) ∧ (c.streamOf id).Took [e] (c'.streamOf id) := by
  obtain ⟨streams, hs, h⟩ := Option.bind_eq_some_iff.mp h
  obtain rfl := Option.some.inj h
  have hid : ∀ x y : Entry, x.takeInMap sel e = some y → (y.id == id) = (x.id == id) :=
    fun x y h => by rw [(Entry.takeInMap_later h).id]
  rw [streamOf, streamOf]
  rcases find?_mapM hid hs with ⟨hx, hy⟩ | ⟨x, y, hx, hxy, hy⟩
  · rw [hx, hy]
    exact Or.inl (.refl _)
  · rw [hx, hy]
    rcases Entry.takeInMap_cases hxy with ⟨hsel, htake⟩ | rfl
    · exact Or.inr ⟨⟨x, by simpa using List.find?_some hx, hsel⟩, Entry.take_took htake⟩
    · exact Or.inl (.refl _)

/-- **One stream takes an event**, and no other one does. -/
theorem atStream_took {k : StreamRef} {e : Streams.Event} (h : c.atStream k e = some c')
    (id : Id) : (c.streamOf id).Took [] (c'.streamOf id) ∨
      (∃ en, c.streams[k]? = some en ∧ en.id = id) ∧
        (c.streamOf id).Took [e] (c'.streamOf id) := by
  rw [atStream] at h
  split at h
  · rename_i en hk
    obtain ⟨en', hen', h⟩ := Option.bind_eq_some_iff.mp h
    obtain rfl := Option.some.inj h
    have hid : (en'.id == id) = (en.id == id) := by rw [Entry.take_id hen']
    rw [streamOf, streamOf]
    rcases find?_set (q := (·.id == id)) hk hid with heq | ⟨hx, hy⟩
    · rw [heq]
      exact Or.inl (.refl _)
    · rw [hx, hy]
      exact Or.inr ⟨⟨en, hk, by simpa using List.find?_some hx⟩, Entry.take_took hen'⟩
  · obtain rfl := Option.some.inj h
    exact Or.inl (.refl _)

/-- At most one event was taken, and `P` holds of it. -/
theorem Takes.of_took {e : Streams.Event} (hc : c'.isClient = c.isClient)
    (hcl : c'.closed = c.closed) (he : P e)
    (h : ∀ id, (c.streamOf id).Took [] (c'.streamOf id) ∨
      (c.streamOf id).Took [e] (c'.streamOf id)) : Takes P c c' := by
  refine ⟨hc, fun h => hcl.trans h, fun id => ?_⟩
  rcases h id with ht | ht
  · exact ⟨[], by simp, ht⟩
  · exact ⟨[e], by simpa using he, ht⟩

theorem eachContext_takes {sel : Entry → Bool} {e : Streams.Event} (he : P e)
    (h : c.eachContext sel e = some c') : Takes P c c' := by
  have htook := eachContext_took h
  obtain ⟨streams, rfl, -⟩ := eachContext_spec h
  exact .of_took rfl rfl he fun id => (htook id).imp_right And.right

theorem atStream_takes {k : StreamRef} {e : Streams.Event} (he : P e)
    (h : c.atStream k e = some c') : Takes P c c' := by
  have htook := atStream_took h
  obtain ⟨streams, rfl, -⟩ := atStream_spec h
  exact .of_took rfl rfl he fun id => (htook id).imp_right And.right

section

variable (hd : P .dropStream)

include hd

theorem dropStreams_takes {ks : List StreamRef}
    (h : ks.foldlM (atStream · · .dropStream) c = some c') : Takes P c c' := by
  induction ks generalizing c with
  | nil =>
    obtain rfl : c = c' := by simpa using h
    exact .refl c
  | cons k ks ih =>
    rw [List.foldlM_cons] at h
    obtain ⟨c₁, hc₁, h⟩ := Option.bind_eq_some_iff.mp h
    exact (atStream_takes hd hc₁).trans (ih h)

theorem dropConnection_takes (h : c.dropConnection = some c') : Takes P c c' := by
  obtain ⟨c₁, hc₁, h⟩ := Option.bind_eq_some_iff.mp h
  obtain rfl := Option.some.inj h
  exact (dropStreams_takes hd hc₁).trans (.of_eq rfl rfl id)

theorem answer_takes {r : RequestRef} {a : Except Error StreamRef} (h : c.answer r a = some c') :
    Takes P c c' := by
  cases a with
  | ok k =>
    simp only [answer] at h
    split at h
    · obtain rfl := Option.some.inj h
      exact .of_eq rfl rfl id
    · exact (atStream_takes hd h).after rfl rfl id
  | error err =>
    obtain rfl := Option.some.inj h
    exact .of_eq rfl rfl id

theorem processWaitForReadyState_takes (h : c.processWaitForReadyState = some c') :
    Takes P c c' := by
  obtain ⟨-, c₁, rfl, ⟨-, rfl⟩ | ⟨-, hdrop⟩⟩ := processWaitForReadyState_spec h
  · exact .of_eq rfl rfl id
  · exact (dropConnection_takes hd hdrop).after rfl rfl id

theorem checkCreateStreamRequests_takes (h : c.checkCreateStreamRequests = some c') :
    Takes P c c' := by
  suffices hloop : ∀ (fuel : ℕ) (c : Context), createLoop fuel c = some c' → Takes P c c' from
    hloop _ c h
  intro fuel
  induction fuel with
  | zero =>
    intro c h
    obtain rfl := Option.some.inj h
    exact .refl c
  | succ fuel ih =>
    intro c h
    cases hq : c.recvCreateStream.chan.queue with
    | nil =>
      rw [createLoop_nil hq] at h
      obtain rfl := Option.some.inj h
      exact .of_eq rfl rfl id
    | cons request q =>
      obtain ⟨stype, r⟩ := request
      rw [createLoop_cons hq] at h
      split at h
      · simp at h
      · obtain ⟨c₁, hc₁, h⟩ := Option.bind_eq_some_iff.mp h
        have hinsert : Takes P c (c.createStream stype) :=
          (Takes.insertStream _ _ _).after rfl rfl id
        exact (hinsert.trans (answer_takes hd hc₁)).trans (ih c₁ h)

theorem checkAndHandleError_takes (he : ∀ err, P (.connectionError err)) {codes : Codes}
    (h : c.checkAndHandleError codes = some c') : Takes P c c' := by
  obtain ⟨err, calls, hcodes⟩ : ∃ err calls, codes.error = (err, calls) := ⟨_, _, rfl⟩
  simp only [checkAndHandleError, hcodes] at h
  cases err with
  | none =>
    obtain rfl := Option.some.inj h
    exact .of_eq rfl rfl id
  | some err =>
    obtain ⟨c₁, hc₁, h⟩ := Option.bind_eq_some_iff.mp h
    obtain ⟨c₂, hc₂, h⟩ := Option.bind_eq_some_iff.mp h
    have h₁ : Takes P c c₁ := (eachContext_takes (he err) hc₁).after rfl rfl id
    obtain ⟨chan, rfl, -, -⟩ := failLoop_spec (Nat.lt_succ_self _) hc₂
    refine h₁.trans ?_
    split at h
    · exact (dropConnection_takes hd h).after rfl rfl id
    · split at h <;> obtain rfl := Option.some.inj h <;> exact .of_eq rfl rfl id

theorem drop_takes (hx : P .dropContext) (h : c.drop = some c') : Takes P c c' := by
  obtain ⟨c₁, hc₁, h⟩ := Option.bind_eq_some_iff.mp h
  obtain ⟨c₂, hc₂, h⟩ := Option.bind_eq_some_iff.mp h
  obtain rfl := Option.some.inj h
  have h₁ : Takes P c c₁ := (eachContext_takes hx hc₁).after rfl rfl id
  have h₂ : Takes P c₁ c₂ := by
    rw [dropWaitForReadyState] at hc₂
    split at hc₂
    · exact (dropConnection_takes hd hc₂).after rfl rfl id
    · obtain rfl := Option.some.inj hc₂
      exact .of_eq rfl rfl id
  exact (h₁.trans h₂).trans (.of_eq rfl rfl id)

end

theorem close_takes (hcl : P .connectionClose) (h : c.close = some c') :
    Takes P c c' ∧ c'.closed = true := by
  obtain ⟨c₁, hc₁, h⟩ := Option.bind_eq_some_iff.mp h
  have h₁ : Takes P c c₁ := (eachContext_takes hcl hc₁).after rfl rfl fun _ => rfl
  obtain ⟨streams, rfl, -⟩ := eachContext_spec hc₁
  simp only at h
  split at h <;> obtain rfl := Option.some.inj h <;> exact ⟨h₁.trans (.of_eq rfl rfl id), rfl⟩

end Context

/-! ### The steps -/

namespace Ends

open Context

variable {p p' : Ends} {e : Event} {P : Streams.Event → Prop}

/-- **The application's end**: the streams take what the application does to them. -/
theorem stepApplication_takes (hP : ∀ e, e.atStream = true → P e)
    (h : p.stepApplication e = some p') : Takes P p.ctx p'.ctx := by
  have hd : P .dropStream := hP .dropStream rfl
  have hvoid : some p = some p' → Takes P p.ctx p'.ctx := fun h => by
    obtain rfl := Option.some.inj h
    exact .refl _
  cases e with
  | newStream stype =>
    simp only [stepApplication] at h
    split at h
    · obtain rfl := Option.some.inj h
      rcases newStreamHandle_spec p.ctx stype with ⟨-, hc⟩ | ⟨-, hc⟩ <;> rw [hc] <;>
        exact .of_eq rfl rfl id
    · exact hvoid h
  | cloneHandle | dropHandle =>
    simp only [stepApplication] at h
    split at h
    · obtain rfl := Option.some.inj h
      exact .of_eq rfl rfl id
    · exact hvoid h
  | pollRequest r =>
    obtain ⟨answers, hc, -⟩ := pollRequest_frame p.ctx r
    obtain rfl := Option.some.inj h
    change Takes P p.ctx (p.ctx.pollRequest r).2
    rw [hc]
    exact .of_eq rfl rfl id
  | dropRequest r =>
    obtain ⟨c, hc, h⟩ := Option.bind_eq_some_iff.mp h
    obtain rfl := Option.some.inj h
    simp only [dropRequest] at hc
    split at hc
    · exact (atStream_takes hd hc).after rfl rfl id
    · obtain rfl := Option.some.inj hc
      exact .of_eq rfl rfl id
  | pollCreated =>
    obtain ⟨created, hc, -⟩ := pollCreated_frame p.ctx
    obtain rfl := Option.some.inj h
    change Takes P p.ctx p.ctx.pollCreated.2
    rw [hc]
    exact .of_eq rfl rfl id
  | dropCreated =>
    obtain ⟨c, hc, h⟩ := Option.bind_eq_some_iff.mp h
    obtain rfl := Option.some.inj h
    simp only [dropCreated] at hc
    split at hc
    · exact (dropConnection_takes hd hc).after rfl rfl id
    · obtain rfl := Option.some.inj hc
      exact .of_eq rfl rfl id
  | pollConnection =>
    simp only [stepApplication] at h
    split at h
    · obtain ⟨sendMsg, hc⟩ := pollConnection_frame p.ctx
      obtain rfl := Option.some.inj h
      change Takes P p.ctx p.ctx.pollConnection.2
      rw [hc]
      exact .of_eq rfl rfl id
    · exact hvoid h
  | dropConnection =>
    simp only [stepApplication] at h
    split at h
    · obtain ⟨c, hc, h⟩ := Option.bind_eq_some_iff.mp h
      obtain rfl := Option.some.inj h
      exact dropConnection_takes hd hc
    · exact hvoid h
  | closeImmediately =>
    simp only [stepApplication] at h
    split at h
    · obtain ⟨c, hc, h⟩ := Option.bind_eq_some_iff.mp h
      obtain rfl := Option.some.inj h
      exact (dropConnection_takes hd hc).after rfl rfl id
    · exact hvoid h
  | stream k e =>
    simp only [stepApplication] at h
    split at h
    · rename_i hat
      obtain ⟨c, hc, h⟩ := Option.bind_eq_some_iff.mp h
      obtain rfl := Option.some.inj h
      exact atStream_takes (hP e hat) hc
    · exact hvoid h
  | _ => exact hvoid h

/-- What a step tells a stream first, if anything. -/
inductive Starts (p : Ends) (id : Id) : Event → List Streams.Event → Prop
  | nothing (e : Event) : Starts p id e []
  | poll : Starts p id .poll [.poll]
  | callback (cb : Streams.Callback) (halive : p.alive = true) (hid : id ≠ 0) :
      Starts p id (.callback (.stream id cb)) [.callback cb]

/-- **What the streams take in a step**: what they are told first, and what becomes of them. If
it is not a drop by the application, the connection is closed or the context dropped. -/
theorem step_takes (hP : ∀ e, e.atStream = true → P e)
    (hcut : p'.ctx.closed = true ∨ p'.alive = false →
      (∀ err, P (.connectionError err)) ∧ P .connectionClose ∧ P .dropContext)
    (h : p.step e = some p') :
    ∃ c, c.closed = p.ctx.closed ∧ Takes P c p'.ctx ∧
      ∀ id, ∃ first, Starts p id e first ∧ (p.ctx.streamOf id).Took first (c.streamOf id) := by
  have hd : P .dropStream := hP .dropStream rfl
  have hnothing : Takes P p.ctx p'.ctx → ∃ c, c.closed = p.ctx.closed ∧ Takes P c p'.ctx ∧
      ∀ id, ∃ first, Starts p id e first ∧ (p.ctx.streamOf id).Took first (c.streamOf id) :=
    fun ht => ⟨p.ctx, rfl, ht, fun id => ⟨[], .nothing e, .refl _⟩⟩
  rw [step] at h
  split at h
  swap
  · exact hnothing (stepApplication_takes hP h)
  split at h
  swap
  · obtain rfl := Option.some.inj h
    exact hnothing (.refl _)
  rename_i halive
  cases e with
  | callback cb =>
    obtain ⟨c, hc, h⟩ := Option.bind_eq_some_iff.mp h
    obtain rfl := Option.some.inj h
    cases cb with
    | almostReady =>
      rw [handleCallback] at hc
      split at hc
      · exact hnothing (processWaitForReadyState_takes hd hc)
      · obtain rfl := Option.some.inj hc
        exact hnothing (.refl _)
    | stream id' cb =>
      rw [handleCallback] at hc
      split at hc
      swap
      · obtain rfl := Option.some.inj hc
        exact hnothing (.refl _)
      rename_i hid'
      rw [handleStreamCallback] at hc
      split at hc
      · have hcl : c.closed = p.ctx.closed := by
          obtain ⟨streams, rfl, -⟩ := eachContext_spec hc
          rfl
        refine ⟨c, hcl, .refl _, fun id => ?_⟩
        rcases eachContext_took hc id with ht | ⟨⟨en, rfl, hsel⟩, ht⟩
        · exact ⟨[], .nothing _, ht⟩
        · obtain rfl : en.id = id' := by simpa using hsel
          exact ⟨[.callback cb], .callback cb halive hid', ht⟩
      · obtain ⟨c₁, hc₁, hc⟩ := Option.bind_eq_some_iff.mp hc
        have hcl : c₁.closed = p.ctx.closed := by
          obtain ⟨streams, rfl, -⟩ := atStream_spec hc₁
          rfl
        refine ⟨c₁, hcl, ?_, fun id => ?_⟩
        · split at hc
          · obtain rfl := Option.some.inj hc
            exact .of_eq rfl rfl id
          · exact atStream_takes hd hc
        · -- the stream is made first
          obtain ⟨es, hes, hnew⟩ :=
            (Takes.insertStream (P := fun _ => False) p.ctx id' false).took id
          obtain rfl : es = [] := List.eq_nil_iff_forall_not_mem.mpr hes
          rcases atStream_took hc₁ id with ht | ⟨⟨en, hk, rfl⟩, ht⟩
          · exact ⟨[], .nothing _, hnew.trans ht⟩
          · have hen : en.id = id' := by
              rw [insertStream, List.getElem?_append_right (Nat.le_refl _), Nat.sub_self] at hk
              exact (Option.some.inj hk) ▸ rfl
            subst hen
            exact ⟨[.callback cb], .callback cb halive hid', hnew.trans ht⟩
  | close codes =>
    obtain ⟨c, hc, h⟩ := Option.bind_eq_some_iff.mp h
    obtain rfl := Option.some.inj h
    obtain ⟨c₁, hc₁, hc⟩ := Option.bind_eq_some_iff.mp hc
    have hclosed : c.closed = true := (close_takes (P := fun _ => True) trivial hc).2
    have hcut := hcut (Or.inl hclosed)
    exact hnothing ((checkAndHandleError_takes hd hcut.1 hc₁).trans (close_takes hcut.2.1 hc).1)
  | poll =>
    obtain ⟨⟨r, c⟩, hc, h⟩ := Option.bind_eq_some_iff.mp h
    obtain rfl := Option.some.inj h
    rw [Context.poll] at hc
    split at hc
    · obtain ⟨-, rfl⟩ := Prod.mk.inj (Option.some.inj hc)
      exact hnothing (.refl _)
    · obtain ⟨c₁, hc₁, hc⟩ := Option.bind_eq_some_iff.mp hc
      obtain ⟨c₂, hc₂, hc⟩ := Option.bind_eq_some_iff.mp hc
      have hcl : c₁.closed = p.ctx.closed := by
        obtain ⟨streams, rfl, -⟩ := eachContext_spec hc₁
        rfl
      refine ⟨c₁, hcl, (checkCreateStreamRequests_takes hd hc₂).trans ?_, fun id => ?_⟩
      · split at hc
        · obtain ⟨c₃, hc₃, hc⟩ := Option.bind_eq_some_iff.mp hc
          obtain ⟨-, rfl⟩ := Prod.mk.inj (Option.some.inj hc)
          have hclosed : c₃.closed = true := (close_takes (P := fun _ => True) trivial hc₃).2
          exact (close_takes (hcut (Or.inl hclosed)).2.1 hc₃).1.after rfl rfl id
        · obtain ⟨-, rfl⟩ := Prod.mk.inj (Option.some.inj hc)
          exact .of_eq rfl rfl id
      · rcases eachContext_took hc₁ id with ht | ⟨-, ht⟩
        · exact ⟨[], .nothing _, ht⟩
        · exact ⟨[.poll], .poll, ht⟩
  | drop =>
    obtain ⟨c, hc, h⟩ := Option.bind_eq_some_iff.mp h
    obtain rfl := Option.some.inj h
    exact hnothing (drop_takes hd (hcut (Or.inr rfl)).2.2 hc)
  | _ =>
    obtain rfl := Option.some.inj h
    exact hnothing (.refl _)

/-- A connection that is closed, or whose context was dropped, stays so. -/
theorem step_over (h : p.step e = some p') (hover : p.ctx.closed = true ∨ p.alive = false) :
    p'.ctx.closed = true ∨ p'.alive = false := by
  rcases hover with hcl | ha
  · obtain ⟨c, hc, ht, -⟩ := step_takes (P := fun _ => True) (fun _ _ => trivial)
      (fun _ => ⟨fun _ => trivial, trivial, trivial⟩) h
    exact Or.inl (ht.closed (hc.trans hcl))
  · rw [step] at h
    split at h
    · rw [if_neg (by simp [ha])] at h
      obtain rfl := Option.some.inj h
      exact Or.inr ha
    · exact Or.inr ((stepApplication_spec h).1.trans ha)

end Ends

end Connections

end PicoquicRs
