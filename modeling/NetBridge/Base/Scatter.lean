import NetBridge.Base.Checked

/-!
# Gathering and scattering

Code that walks over a buffer and appends what it reads gathers the bytes at a list of
addresses; code that walks the same way and stores consecutive values scatters them. Both
compose along the address list, so nested loops gather and scatter at the addresses their
rounds contribute.
-/

namespace NetBridge.Base

variable {α : Type}

/-- The values at the addresses, in order; addresses outside the buffer are skipped. -/
def gather (data : List α) (addresses : List Nat) : List α :=
  addresses.filterMap fun a ↦ data[a]?

/-- The buffer with the values stored at the addresses, in order. -/
def scatter (data : List α) : List Nat → List α → List α
  | a :: addresses, v :: values => scatter (data.set a v) addresses values
  | _, _ => data

/-- Nothing is read at no address. -/
@[simp] theorem gather_nil (data : List α) : gather data [] = [] := rfl

/-- Gathering composes. -/
@[simp] theorem gather_append (data : List α) (A B : List Nat) :
    gather data (A ++ B) = gather data A ++ gather data B := List.filterMap_append

/-- The first address inside the buffer. -/
theorem gather_cons {data : List α} {a : Nat} (h : a < data.length) (A : List Nat) :
    gather data (a :: A) = data[a] :: gather data A := by
  rw [gather, List.filterMap_cons, List.getElem?_eq_getElem h]
  rfl

/-- Addresses inside the buffer contribute one value each. -/
theorem length_gather {data : List α} {A : List Nat} (h : ∀ a ∈ A, a < data.length) :
    (gather data A).length = A.length := by
  induction A with
  | nil => rfl
  | cons a A ih =>
    rw [gather_cons (h a List.mem_cons_self), List.length_cons, List.length_cons,
      ih fun b hb ↦ h b (List.mem_cons_of_mem a hb)]

/-- Addresses inside the buffer contribute their values. -/
theorem map_some_gather {data : List α} {A : List Nat} (h : ∀ a ∈ A, a < data.length) :
    (gather data A).map some = A.map (data[·]?) := by
  induction A with
  | nil => rfl
  | cons a A ih =>
    have ha := h a List.mem_cons_self
    rw [gather_cons ha, List.map_cons, List.map_cons, List.getElem?_eq_getElem ha,
      ih fun b hb ↦ h b (List.mem_cons_of_mem a hb)]

/-- Buffers that agree at the addresses gather the same. -/
theorem gather_congr {data data' : List α} {A : List Nat} (h : ∀ a ∈ A, data[a]? = data'[a]?) :
    gather data A = gather data' A := by
  induction A with
  | nil => rfl
  | cons a A ih =>
    rw [gather, List.filterMap_cons, gather, List.filterMap_cons, h a List.mem_cons_self]
    have hrest : gather data A = gather data' A :=
      ih fun b hb ↦ h b (List.mem_cons_of_mem a hb)
    unfold gather at hrest
    rw [hrest]

/-- Buffers that gather the same at addresses inside them agree there. -/
theorem getElem?_eq_of_gather {data data' : List α} {A : List Nat}
    (hA : ∀ a ∈ A, a < data.length) (hA' : ∀ a ∈ A, a < data'.length)
    (h : gather data A = gather data' A) : ∀ a ∈ A, data[a]? = data'[a]? := by
  induction A with
  | nil => exact fun a ha ↦ absurd ha List.not_mem_nil
  | cons b A ih =>
    have hb := hA b List.mem_cons_self
    have hb' := hA' b List.mem_cons_self
    rw [gather_cons hb, gather_cons hb'] at h
    intro a ha
    cases List.mem_cons.mp ha with
    | inl he =>
      rw [he, List.getElem?_eq_getElem hb, List.getElem?_eq_getElem hb', (List.cons.inj h).1]
    | inr ha =>
      exact ih (fun c hc ↦ hA c (List.mem_cons_of_mem b hc))
        (fun c hc ↦ hA' c (List.mem_cons_of_mem b hc)) (List.cons.inj h).2 a ha

/-- Nothing is written at no address. -/
@[simp] theorem scatter_nil (data values : List α) : scatter data [] values = data := by
  cases values <;> rfl

/-- Without values nothing is written. -/
@[simp] theorem scatter_nil_values (data : List α) (A : List Nat) : scatter data A [] = data := by
  cases A <;> rfl

/-- The first value is written first. -/
@[simp] theorem scatter_cons (data : List α) (a : Nat) (A : List Nat) (v : α)
    (values : List α) :
    scatter data (a :: A) (v :: values) = scatter (data.set a v) A values := rfl

/-- Scattering keeps the size of the buffer. -/
@[simp] theorem length_scatter (data : List α) (A : List Nat) (values : List α) :
    (scatter data A values).length = data.length := by
  induction A generalizing data values with
  | nil => rw [scatter_nil]
  | cons a A ih =>
    cases values with
    | nil => rfl
    | cons v values => rw [scatter_cons, ih, List.length_set]

/-- Other addresses keep their values. -/
theorem getElem?_scatter_of_not_mem {data : List α} {A : List Nat} {b : Nat} (h : b ∉ A)
    (values : List α) : (scatter data A values)[b]? = data[b]? := by
  induction A generalizing data values with
  | nil => rw [scatter_nil]
  | cons a A ih =>
    cases values with
    | nil => rfl
    | cons v values =>
      have hne : a ≠ b := fun he ↦ h (he ▸ List.mem_cons_self)
      rw [scatter_cons, ih fun hb ↦ h (List.mem_cons_of_mem a hb), List.getElem?_set_ne hne]

/-- Scattering composes, each part with its share of the values. -/
theorem scatter_append (data : List α) (A B : List Nat) (values : List α)
    (h : A.length ≤ values.length) :
    scatter data (A ++ B) values = scatter (scatter data A values) B (values.drop A.length) := by
  induction A generalizing data values with
  | nil => rw [scatter_nil, List.nil_append, List.length_nil, List.drop_zero]
  | cons a A ih =>
    cases values with
    | nil => exact absurd h (by simp)
    | cons v values =>
      rw [List.cons_append, scatter_cons, scatter_cons, List.length_cons,
        List.drop_succ_cons, ih _ _ (Nat.le_of_succ_le_succ h)]

/-- Values behind the last address are not used. -/
theorem scatter_values_append (data : List α) (A : List Nat) (values rest : List α)
    (h : A.length ≤ values.length) :
    scatter data A (values ++ rest) = scatter data A values := by
  induction A generalizing data values with
  | nil => rw [scatter_nil, scatter_nil]
  | cons a A ih =>
    cases values with
    | nil => exact absurd h (by simp)
    | cons v values =>
      rw [List.cons_append, scatter_cons, scatter_cons, ih _ _ (Nat.le_of_succ_le_succ h)]

/-- Scattering composes, values and addresses part by part. -/
theorem scatter_append_append (data : List α) {A : List Nat} (B : List Nat) {values : List α}
    (rest : List α) (h : values.length = A.length) :
    scatter data (A ++ B) (values ++ rest) = scatter (scatter data A values) B rest := by
  rw [scatter_append _ _ _ _ (by rw [List.length_append]; omega),
    scatter_values_append _ _ _ _ (by omega), ← h, List.drop_left]

/-- What is scattered at distinct addresses is gathered there. -/
theorem gather_scatter {data : List α} {A : List Nat} {values : List α} (hnodup : A.Nodup)
    (hA : ∀ a ∈ A, a < data.length) (hlen : values.length = A.length) :
    gather (scatter data A values) A = values := by
  induction A generalizing data values with
  | nil => rw [List.length_eq_zero_iff.mp hlen, gather_nil]
  | cons a A ih =>
    cases values with
    | nil => exact absurd hlen (by simp)
    | cons v values =>
      have hn := List.nodup_cons.mp hnodup
      have ha : a < data.length := hA a List.mem_cons_self
      have hlt : a < (scatter (data.set a v) A values).length := by
        rw [length_scatter, List.length_set]
        exact ha
      have hv : (scatter (data.set a v) A values)[a] = v := by
        have hq := @getElem?_scatter_of_not_mem α (data.set a v) A a hn.1 values
        rw [List.getElem?_set_self ha, List.getElem?_eq_getElem hlt] at hq
        exact Option.some.inj hq
      rw [scatter_cons, gather_cons hlt, hv]
      congr 1
      apply ih hn.2
      · intro b hb
        rw [List.length_set]
        exact hA b (List.mem_cons_of_mem a hb)
      · exact Nat.succ.inj hlen

/-- Scattering what another buffer holds at the same addresses copies it, repeated addresses
included. -/
theorem getElem?_scatter_gather {data source : List α} {A : List Nat}
    (hA : ∀ a ∈ A, a < data.length) (hA' : ∀ a ∈ A, a < source.length) {b : Nat} (hb : b ∈ A) :
    (scatter data A (gather source A))[b]? = source[b]? := by
  induction A generalizing data with
  | nil => exact absurd hb List.not_mem_nil
  | cons a A ih =>
    have ha' := hA' a List.mem_cons_self
    rw [gather_cons ha', scatter_cons]
    have hset : ∀ c ∈ A, c < (data.set a source[a]).length := fun c hc ↦ by
      rw [List.length_set]
      exact hA c (List.mem_cons_of_mem a hc)
    by_cases hm : b ∈ A
    · exact ih hset (fun c hc ↦ hA' c (List.mem_cons_of_mem a hc)) hm
    · have he : b = a := by
        cases List.mem_cons.mp hb with
        | inl he => exact he
        | inr hb => exact absurd hb hm
      rw [he] at hm ⊢
      rw [getElem?_scatter_of_not_mem hm, List.getElem?_set_self (hA a List.mem_cons_self),
        List.getElem?_eq_getElem ha']

/-! ## Loops that gather and scatter -/

/-- The step appends the values at `A` to its output. -/
def Gathers (data : List α) (A : List Nat) (step : List α → Checked (List α)) : Prop :=
  ∀ out, step out = .ok (out ++ gather data A)

/-- The step takes the next values of `source`, from the cursor on, and stores them at `A`. -/
def Scatters (source : List α) (size : Nat) (A : List Nat)
    (step : List α × Nat → Checked (List α × Nat)) : Prop :=
  ∀ data cursor, data.length = size → cursor + A.length ≤ source.length →
    step (data, cursor) = .ok (scatter data A (source.drop cursor), cursor + A.length)

/-- A loop of gathering rounds gathers at all their addresses. -/
theorem gathers_forRange {data : List α} {A : Nat → List Nat}
    {body : Nat → List α → Checked (List α)} {n : Nat}
    (h : ∀ i, i < n → Gathers data (A i) (body i)) :
    Gathers data ((List.range n).flatMap A) (forRange n body) := by
  intro out
  induction n with
  | zero => rw [forRange, List.range_zero, List.flatMap_nil, gather_nil, List.append_nil]
  | succ n ih =>
    rw [Checked.forRange_succ, ih fun i hi ↦ h i (Nat.lt_succ_of_lt hi), Checked.ok_bind,
      h n (Nat.lt_succ_self n), List.range_succ, List.flatMap_append, gather_append,
      List.append_assoc, List.flatMap_cons, List.flatMap_nil, List.append_nil]

/-- One gathering step after another. -/
theorem Gathers.bind {data : List α} {A B : List Nat} {f g : List α → Checked (List α)}
    (hf : Gathers data A f) (hg : Gathers data B g) :
    Gathers data (A ++ B) fun out ↦ f out >>= g := by
  intro out
  show (f out >>= g) = _
  rw [hf out, Checked.ok_bind, hg, gather_append, List.append_assoc]

/-- A loop of scattering rounds scatters at all their addresses. -/
theorem scatters_forRange {source : List α} {size : Nat} {A : Nat → List Nat}
    {body : Nat → List α × Nat → Checked (List α × Nat)} {n : Nat}
    (h : ∀ i, i < n → Scatters source size (A i) (body i)) :
    Scatters source size ((List.range n).flatMap A) (forRange n body) := by
  intro data cursor hsize hc
  induction n with
  | zero => rw [forRange, List.range_zero, List.flatMap_nil, scatter_nil, List.length_nil,
      Nat.add_zero]
  | succ n ih =>
    have hA : (List.range (n + 1)).flatMap A = (List.range n).flatMap A ++ A n := by
      rw [List.range_succ, List.flatMap_append, List.flatMap_cons, List.flatMap_nil,
        List.append_nil]
    rw [hA] at hc ⊢
    rw [List.length_append] at hc
    rw [Checked.forRange_succ, ih (fun i hi ↦ h i (Nat.lt_succ_of_lt hi)) (by omega),
      Checked.ok_bind, h n (Nat.lt_succ_self n) _ _ (by rw [length_scatter, hsize]) (by omega),
      scatter_append _ _ _ _ (by rw [List.length_drop]; omega), List.drop_drop,
      List.length_append, Nat.add_assoc]

/-- One scattering step after another. -/
theorem Scatters.bind {source : List α} {size : Nat} {A B : List Nat}
    {f g : List α × Nat → Checked (List α × Nat)}
    (hf : Scatters source size A f) (hg : Scatters source size B g) :
    Scatters source size (A ++ B) fun s ↦ f s >>= g := by
  intro data cursor hsize hc
  rw [List.length_append] at hc
  show (f (data, cursor) >>= g) = _
  rw [hf data cursor hsize (by omega), Checked.ok_bind,
    hg _ _ (by rw [length_scatter, hsize]) (by omega),
    scatter_append _ _ _ _ (by rw [List.length_drop]; omega), List.drop_drop,
    List.length_append, Nat.add_assoc]

end NetBridge.Base
