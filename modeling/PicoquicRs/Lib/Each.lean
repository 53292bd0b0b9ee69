import Mathlib.Data.List.Forall2

/-!
# Lists whose items step together

A list is mapped by a step that can fail; the whole fails with the first item that does.
That it succeeds is a relation between the two lists, item by item
(`Each.mapM_eq_some`), and what is known of one item is then known of the list:

* `Each.exists_mapM` – the step that fails on no item fails on no list;
* `Each.of_mapM_getElem?` and `Each.mapM_getElem?` – each item has come from one, and
  each item has become one, at the same place;
* `Each.mapM_map` – what the step keeps of an item is kept of the list.
-/

namespace Each

variable {α β γ : Type*} {f : α → Option β} {l : List α} {l' : List β}

/-- **What it means that all items step.** -/
theorem mapM_eq_some : l.mapM f = some l' ↔ List.Forall₂ (fun a b => f a = some b) l l' := by
  induction l generalizing l' with
  | nil =>
    rw [List.mapM_nil, List.forall₂_nil_left_iff]
    exact ⟨fun h => (Option.some.inj h).symm, fun h => congrArg some h.symm⟩
  | cons a l ih =>
    rw [List.mapM_cons, List.forall₂_cons_left_iff]
    constructor
    · intro h
      obtain ⟨b, hb, h⟩ := Option.bind_eq_some_iff.mp h
      obtain ⟨l₁, hl, h⟩ := Option.bind_eq_some_iff.mp h
      exact ⟨b, l₁, hb, ih.mp hl, (Option.some.inj h).symm⟩
    · rintro ⟨b, l₁, hb, hl, rfl⟩
      rw [hb, ih.mpr hl]
      rfl

theorem exists_mapM (h : ∀ a ∈ l, ∃ b, f a = some b) : ∃ l', l.mapM f = some l' := by
  induction l with
  | nil => exact ⟨[], rfl⟩
  | cons a l ih =>
    obtain ⟨b, hb⟩ := h a List.mem_cons_self
    obtain ⟨l', hl'⟩ := ih fun x hx => h x (List.mem_cons_of_mem _ hx)
    exact ⟨b :: l', mapM_eq_some.mpr (.cons hb (mapM_eq_some.mp hl'))⟩

theorem mapM_length (h : l.mapM f = some l') : l'.length = l.length :=
  (mapM_eq_some.mp h).length_eq.symm

/-- The two lists, item by item. -/
theorem mapM_map_getElem? (h : l.mapM f = some l') (k : ℕ) :
    l[k]?.map f = l'[k]?.map some := by
  have hrel := mapM_eq_some.mp h
  induction hrel generalizing k with
  | nil => rfl
  | cons hab hrel ih =>
    cases k with
    | zero => exact congrArg some hab
    | succ k => exact ih (mapM_eq_some.mpr hrel) k

variable {k : ℕ} {a : α} {b : β}

/-- Each item has become one. -/
theorem mapM_getElem? (h : l.mapM f = some l') (hk : l[k]? = some a) :
    ∃ b, f a = some b ∧ l'[k]? = some b := by
  have hmap := mapM_map_getElem? h k
  rw [hk, Option.map_some] at hmap
  obtain ⟨b, hb, heq⟩ := Option.map_eq_some_iff.mp hmap.symm
  exact ⟨b, heq.symm, hb⟩

/-- Each item has come from one. -/
theorem of_mapM_getElem? (h : l.mapM f = some l') (hk : l'[k]? = some b) :
    ∃ a, l[k]? = some a ∧ f a = some b := by
  have hmap := mapM_map_getElem? h k
  rw [hk, Option.map_some] at hmap
  exact Option.map_eq_some_iff.mp hmap

/-- What the step keeps of an item. -/
theorem mapM_map {g : α → γ} {g' : β → γ} (hg : ∀ a b, f a = some b → g' b = g a)
    (h : l.mapM f = some l') : l'.map g' = l.map g := by
  have hrel := mapM_eq_some.mp h
  induction hrel with
  | nil => rfl
  | cons hab hrel ih =>
    rw [List.map_cons, List.map_cons, hg _ _ hab, ih (mapM_eq_some.mpr hrel)]

end Each
