import Mathlib.Data.List.Forall2
import Mathlib.Data.List.Induction

/-!
# Loops that an exception may end

Compositions and loops of computations that end in a value or in an exception: the value of a loop
comes from the values of its rounds, and what each round keeps holds at the end.
-/

namespace NetBridge.Base

variable {ε : Type}

/-- The value of a composition comes through a value of its first part. -/
theorem bind_eq_ok {α β : Type} {c : Except ε α} {f : α → Except ε β} {b : β} :
    c >>= f = .ok b ↔ ∃ a, c = .ok a ∧ f a = .ok b := by
  cases c with
  | ok a =>
    constructor
    · intro h
      exact ⟨a, rfl, h⟩
    · intro h
      obtain ⟨a', ha, hb⟩ := h
      cases ha
      exact hb
  | error e =>
    constructor
    · intro h
      cases h
    · intro h
      obtain ⟨a, ha, -⟩ := h
      cases ha

/-- The results of a loop come from its elements. -/
theorem exists_of_mem_mapM {α β : Type} {f : α → Except ε β} {l : List α} {l' : List β}
    (h : l.mapM f = Except.ok l') {b : β} (hb : b ∈ l') : ∃ a ∈ l, f a = .ok b := by
  induction l generalizing l' with
  | nil =>
    rw [List.mapM_nil] at h
    cases h
    exact absurd hb List.not_mem_nil
  | cons a l ih =>
    rw [List.mapM_cons] at h
    obtain ⟨first, ha, h⟩ := bind_eq_ok.mp h
    obtain ⟨rest, hl, h⟩ := bind_eq_ok.mp h
    cases h
    cases List.mem_cons.mp hb with
    | inl he =>
      rw [he]
      exact ⟨a, List.mem_cons_self, ha⟩
    | inr hb =>
      obtain ⟨a', ha', he⟩ := ih hl hb
      exact ⟨a', List.mem_cons_of_mem a ha', he⟩

/-- A loop whose elements all have results has a list of results. -/
theorem exists_mapM {α β : Type} {f : α → Except ε β} {l : List α}
    (h : ∀ a ∈ l, ∃ b, f a = .ok b) : ∃ l', l.mapM f = Except.ok l' := by
  induction l with
  | nil => exact ⟨[], List.mapM_nil⟩
  | cons a l ih =>
    obtain ⟨b, hb⟩ := h a List.mem_cons_self
    obtain ⟨l', hl'⟩ := ih fun a' hm ↦ h a' (List.mem_cons_of_mem a hm)
    refine ⟨b :: l', ?_⟩
    rw [List.mapM_cons]
    exact bind_eq_ok.mpr ⟨b, hb, bind_eq_ok.mpr ⟨l', hl', rfl⟩⟩

/-- The results of a loop are those of its elements, place by place. -/
theorem mapM_eq_ok {α β : Type} {f : α → Except ε β} {l : List α} {l' : List β} :
    l.mapM f = Except.ok l' ↔ List.Forall₂ (fun a b ↦ f a = .ok b) l l' := by
  induction l generalizing l' with
  | nil =>
    rw [List.mapM_nil, List.forall₂_nil_left_iff]
    constructor
    · intro h
      cases h
      rfl
    · intro h
      rw [h]
      rfl
  | cons a l ih =>
    rw [List.mapM_cons, bind_eq_ok, List.forall₂_cons_left_iff]
    constructor
    · rintro ⟨b, hb, h⟩
      obtain ⟨rest, hrest, h⟩ := bind_eq_ok.mp h
      cases h
      exact ⟨b, rest, hb, ih.mp hrest, rfl⟩
    · rintro ⟨b, rest, hb, hrest, rfl⟩
      exact ⟨b, hb, bind_eq_ok.mpr ⟨rest, ih.mpr hrest, rfl⟩⟩

/-- Two lists are related through a third one exactly when they are so place by place. -/
theorem exists_forall₂_iff {α β γ : Type} {R : α → γ → Prop} {S : β → γ → Prop} {l : List α}
    {l' : List β} : (∃ through, List.Forall₂ R l through ∧ List.Forall₂ S l' through) ↔
      List.Forall₂ (fun a b ↦ ∃ c, R a c ∧ S b c) l l' := by
  induction l generalizing l' with
  | nil =>
    rw [List.forall₂_nil_left_iff]
    constructor
    · rintro ⟨through, hleft, hright⟩
      rw [List.forall₂_nil_left_iff.mp hleft, List.forall₂_nil_right_iff] at hright
      exact hright
    · rintro rfl
      exact ⟨[], .nil, .nil⟩
  | cons a l ih =>
    rw [List.forall₂_cons_left_iff]
    constructor
    · rintro ⟨through, hleft, hright⟩
      obtain ⟨c, rest, hc, hrest, rfl⟩ := List.forall₂_cons_left_iff.mp hleft
      obtain ⟨b, l', hb, hl', rfl⟩ := List.forall₂_cons_right_iff.mp hright
      exact ⟨b, l', ⟨c, hc, hb⟩, ih.mp ⟨rest, hrest, hl'⟩, rfl⟩
    · rintro ⟨b, l', ⟨c, hc, hb⟩, hrest, rfl⟩
      obtain ⟨rest, hleft, hright⟩ := ih.mpr hrest
      exact ⟨c :: rest, .cons hc hleft, .cons hb hright⟩

/-- A loop that ends has had a round for each element. -/
theorem exists_round_of_mem {α β : Type} {round : β → α → Except ε β} {l : List α} {b b' : β}
    (h : l.foldlM round b = Except.ok b') {a : α} (hm : a ∈ l) :
    ∃ before after, round before a = .ok after := by
  induction l generalizing b with
  | nil => exact absurd hm List.not_mem_nil
  | cons first l ih =>
    rw [List.foldlM_cons] at h
    obtain ⟨mid, hr, h⟩ := bind_eq_ok.mp h
    cases List.mem_cons.mp hm with
    | inl hf =>
      rw [hf]
      exact ⟨b, mid, hr⟩
    | inr hm => exact ih h hm

/-- Invariant rule for a loop that ends: what holds of the elements so far, a round keeps for one
element more. -/
theorem foldlM_invariant {α β : Type} {round : β → α → Except ε β} {P : List α → β → Prop}
    (hround : ∀ l a b b', P l b → round b a = .ok b' → P (l ++ [a]) b') {l : List α} {b b' : β}
    (hinit : P [] b) (h : l.foldlM round b = Except.ok b') : P l b' := by
  induction l using List.reverseRecOn generalizing b' with
  | nil =>
    cases h
    exact hinit
  | append_singleton l a ih =>
    rw [List.foldlM_append] at h
    obtain ⟨mid, hmid, h⟩ := bind_eq_ok.mp h
    rw [List.foldlM_cons] at h
    obtain ⟨last, hlast, h⟩ := bind_eq_ok.mp h
    cases h
    exact hround l a mid b' (ih hmid) hlast

/-- A loop that reads each element before it handles it, as two loops. -/
theorem foldlM_eq_mapM {α β σ : Type} {read : α → Except ε β} {handle : σ → β → Except ε σ}
    {l : List α} {s s' : σ}
    (h : l.foldlM (fun s a ↦ read a >>= handle s) s = Except.ok s') :
    ∃ l', l.mapM read = Except.ok l' ∧ l'.foldlM handle s = Except.ok s' := by
  induction l generalizing s with
  | nil =>
    cases h
    exact ⟨[], rfl, rfl⟩
  | cons a l ih =>
    rw [List.foldlM_cons] at h
    obtain ⟨mid, hr, h⟩ := bind_eq_ok.mp h
    obtain ⟨b, hb, hr⟩ := bind_eq_ok.mp hr
    obtain ⟨l', hl, h⟩ := ih h
    refine ⟨b :: l', ?_, ?_⟩
    · rw [List.mapM_cons]
      exact bind_eq_ok.mpr ⟨b, hb, bind_eq_ok.mpr ⟨l', hl, rfl⟩⟩
    · rw [List.foldlM_cons]
      exact bind_eq_ok.mpr ⟨mid, hr, h⟩

end NetBridge.Base
