/-!
# Padded grids of records

A buffer of `height` rows of `rowStep` bytes, each beginning with `width` records of
`pointStep` bytes. Every byte belongs to exactly one record or to the padding behind a row.
-/

namespace NetBridge.Base

/-- The dimensions of a padded grid; the records of a row fit into the row. -/
structure Grid where
  width : Nat
  height : Nat
  pointStep : Nat
  rowStep : Nat
  fits : width * pointStep ≤ rowStep

namespace Grid

variable (g : Grid)

/-- The number of records. -/
def count : Nat := g.width * g.height

/-- The number of bytes. -/
def size : Nat := g.rowStep * g.height

/-- The address of record `j`, counted row by row. -/
def point (j : Nat) : Nat := j / g.width * g.rowStep + j % g.width * g.pointStep

/-- The bytes of a record that are not in `bytes`. -/
def rest (bytes : List Nat) : List Nat := (List.range g.pointStep).filter fun b ↦ b ∉ bytes

/-- The addresses of a row outside the given bytes of its records: record by record, then the
padding. -/
def rowRest (bytes : List Nat) (row : Nat) : List Nat :=
  (List.range g.width).flatMap (fun column ↦
    (g.rest bytes).map fun b ↦ row * g.rowStep + column * g.pointStep + b) ++
  List.range' (row * g.rowStep + g.width * g.pointStep) (g.rowStep - g.width * g.pointStep)

/-- The addresses outside the given bytes of all records, row by row. -/
def outside (bytes : List Nat) : List Nat := (List.range g.height).flatMap (g.rowRest bytes)

variable {g}

private theorem div_of_split {n k d : Nat} (h : d < n) : (k * n + d) / n = k := by
  rw [Nat.mul_comm, Nat.mul_add_div (by omega), Nat.div_eq_of_lt h, Nat.add_zero]

/-- A record address from its row and column. -/
theorem point_row_column {row column : Nat} (h : column < g.width) :
    g.point (row * g.width + column) = row * g.rowStep + column * g.pointStep := by
  have hd : (row * g.width + column) / g.width = row := div_of_split h
  have hm : (row * g.width + column) % g.width = column := by
    rw [Nat.mul_comm, Nat.mul_add_mod, Nat.mod_eq_of_lt h]
  rw [point, hd, hm]

private theorem column_end {column b : Nat} (hc : column < g.width) (hb : b < g.pointStep) :
    column * g.pointStep + b < g.width * g.pointStep := by
  have h : (column + 1) * g.pointStep ≤ g.width * g.pointStep := Nat.mul_le_mul_right _ hc
  rw [Nat.add_mul, Nat.one_mul] at h
  omega

private theorem row_end {row r : Nat} (hrow : row < g.height) (hr : r < g.rowStep) :
    row * g.rowStep + r < g.size := by
  have h : (row + 1) * g.rowStep ≤ g.height * g.rowStep := Nat.mul_le_mul_right _ hrow
  rw [Nat.add_mul, Nat.one_mul, Nat.mul_comm g.height] at h
  unfold size
  omega

private theorem row_of_lt_count {j : Nat} (hj : j < g.count) :
    j / g.width < g.height ∧ j % g.width < g.width := by
  have hw : 0 < g.width := by
    apply Nat.pos_of_ne_zero
    intro h
    rw [count, h, Nat.zero_mul] at hj
    omega
  refine ⟨?_, Nat.mod_lt _ hw⟩
  rw [Nat.div_lt_iff_lt_mul hw, Nat.mul_comm]
  exact hj

/-- The bytes of a record lie in the buffer. -/
theorem point_lt {j b : Nat} (hj : j < g.count) (hb : b < g.pointStep) :
    g.point j + b < g.size := by
  obtain ⟨hrow, hcol⟩ := row_of_lt_count hj
  have hc := column_end hcol hb
  have hf := g.fits
  rw [point, Nat.add_assoc]
  exact row_end hrow (by omega)

/-- A byte belongs to one record and has one position in it. -/
theorem point_inj {j j' b b' : Nat} (hj : j < g.count) (hj' : j' < g.count)
    (hb : b < g.pointStep) (hb' : b' < g.pointStep) (h : g.point j + b = g.point j' + b') :
    j = j' ∧ b = b' := by
  obtain ⟨_, hcol⟩ := row_of_lt_count hj
  obtain ⟨_, hcol'⟩ := row_of_lt_count hj'
  have hc := column_end hcol hb
  have hc' := column_end hcol' hb'
  have hf := g.fits
  rw [point, point, Nat.add_assoc, Nat.add_assoc] at h
  have hrow : j / g.width = j' / g.width := by
    have hd := congrArg (· / g.rowStep) h
    rwa [div_of_split (by omega), div_of_split (by omega)] at hd
  rw [hrow] at h
  have hin := Nat.add_left_cancel h
  have hcolumn : j % g.width = j' % g.width := by
    have hd := congrArg (· / g.pointStep) hin
    rwa [div_of_split hb, div_of_split hb'] at hd
  rw [hcolumn] at hin
  refine ⟨?_, Nat.add_left_cancel hin⟩
  rw [← Nat.div_add_mod j g.width, ← Nat.div_add_mod j' g.width, hrow, hcolumn]

/-- The addresses of a row's rest lie in the row. -/
theorem rowRest_bounds {bytes : List Nat} {row a : Nat} (h : a ∈ g.rowRest bytes row) :
    row * g.rowStep ≤ a ∧ a < row * g.rowStep + g.rowStep := by
  have hf := g.fits
  cases List.mem_append.mp h with
  | inl ha =>
    obtain ⟨column, hcol, ha⟩ := List.mem_flatMap.mp ha
    obtain ⟨b, hb, rfl⟩ := List.mem_map.mp ha
    have hb := List.mem_range.mp (List.mem_filter.mp hb).1
    have hc := column_end (List.mem_range.mp hcol) hb
    omega
  | inr ha =>
    rw [List.mem_range'_1] at ha
    omega

/-- The addresses outside the records' bytes lie in the buffer. -/
theorem outside_lt {bytes : List Nat} {a : Nat} (h : a ∈ g.outside bytes) : a < g.size := by
  obtain ⟨row, hrow, ha⟩ := List.mem_flatMap.mp h
  have hb := rowRest_bounds ha
  have hlt : a = row * g.rowStep + (a - row * g.rowStep) := by omega
  rw [hlt]
  exact row_end (List.mem_range.mp hrow) (by omega)

private theorem pairwise_rowRest (bytes : List Nat) (row : Nat) :
    (g.rowRest bytes row).Pairwise (· < ·) := by
  rw [rowRest, List.pairwise_append, List.pairwise_flatMap]
  refine ⟨⟨?_, ?_⟩, List.pairwise_lt_range', ?_⟩
  · intro column _
    rw [List.pairwise_map]
    apply (List.pairwise_lt_range.sublist List.filter_sublist).imp
    intro b b' hlt
    omega
  · apply List.pairwise_lt_range.imp
    intro c c' hlt a ha a' ha'
    obtain ⟨b, hb, rfl⟩ := List.mem_map.mp ha
    obtain ⟨b', _, rfl⟩ := List.mem_map.mp ha'
    have hb := List.mem_range.mp (List.mem_filter.mp hb).1
    have hm : (c + 1) * g.pointStep ≤ c' * g.pointStep := Nat.mul_le_mul_right _ hlt
    rw [Nat.add_mul, Nat.one_mul] at hm
    omega
  · intro a ha a' ha'
    obtain ⟨column, hcol, ha⟩ := List.mem_flatMap.mp ha
    obtain ⟨b, hb, rfl⟩ := List.mem_map.mp ha
    have hb := List.mem_range.mp (List.mem_filter.mp hb).1
    have hc := column_end (List.mem_range.mp hcol) hb
    rw [List.mem_range'_1] at ha'
    omega

/-- The addresses outside the records' bytes are visited in increasing order. -/
theorem pairwise_outside (bytes : List Nat) : (g.outside bytes).Pairwise (· < ·) := by
  rw [outside, List.pairwise_flatMap]
  refine ⟨fun row _ ↦ pairwise_rowRest bytes row, ?_⟩
  apply List.pairwise_lt_range.imp
  intro row row' hlt a ha a' ha'
  have hb := rowRest_bounds ha
  have hb' := rowRest_bounds ha'
  have hm : (row + 1) * g.rowStep ≤ row' * g.rowStep := Nat.mul_le_mul_right _ hlt
  rw [Nat.add_mul, Nat.one_mul] at hm
  omega

/-- No address outside the records' bytes is visited twice. -/
theorem nodup_outside (bytes : List Nat) : (g.outside bytes).Nodup :=
  (pairwise_outside bytes).imp Nat.ne_of_lt

/-- Every byte of the buffer is one of the given bytes of a record, or outside them. -/
theorem mem_point_or_outside {bytes : List Nat} {a : Nat} (h : a < g.size) :
    (∃ j b, j < g.count ∧ b ∈ bytes ∧ b < g.pointStep ∧ a = g.point j + b) ∨
      a ∈ g.outside bytes := by
  have hr : 0 < g.rowStep := by
    apply Nat.pos_of_ne_zero
    intro he
    rw [size, he, Nat.zero_mul] at h
    omega
  have hrow : a / g.rowStep < g.height := by
    rw [Nat.div_lt_iff_lt_mul hr, Nat.mul_comm]
    exact h
  have hmod := Nat.mod_lt a hr
  have hsplit : a = a / g.rowStep * g.rowStep + a % g.rowStep := by
    rw [Nat.mul_comm, Nat.div_add_mod]
  by_cases hin : a % g.rowStep < g.width * g.pointStep
  · have hp : 0 < g.pointStep := by
      apply Nat.pos_of_ne_zero
      intro he
      rw [he, Nat.mul_zero] at hin
      omega
    have hcol : a % g.rowStep / g.pointStep < g.width := by
      rw [Nat.div_lt_iff_lt_mul hp]
      exact hin
    have hb := Nat.mod_lt (a % g.rowStep) hp
    have hsplit' : a % g.rowStep =
        a % g.rowStep / g.pointStep * g.pointStep + a % g.rowStep % g.pointStep := by
      rw [Nat.mul_comm, Nat.div_add_mod]
    by_cases hm : a % g.rowStep % g.pointStep ∈ bytes
    · apply Or.inl
      refine ⟨a / g.rowStep * g.width + a % g.rowStep / g.pointStep,
        a % g.rowStep % g.pointStep, ?_, hm, hb, ?_⟩
      · have hle : (a / g.rowStep + 1) * g.width ≤ g.height * g.width :=
          Nat.mul_le_mul_right _ hrow
        rw [Nat.add_mul, Nat.one_mul, Nat.mul_comm g.height] at hle
        unfold count
        omega
      · rw [point_row_column hcol]
        omega
    · apply Or.inr
      apply List.mem_flatMap.mpr
      refine ⟨a / g.rowStep, List.mem_range.mpr hrow, ?_⟩
      apply List.mem_append.mpr
      apply Or.inl
      apply List.mem_flatMap.mpr
      refine ⟨a % g.rowStep / g.pointStep, List.mem_range.mpr hcol, ?_⟩
      apply List.mem_map.mpr
      refine ⟨a % g.rowStep % g.pointStep, ?_, by omega⟩
      apply List.mem_filter.mpr
      exact ⟨List.mem_range.mpr hb, decide_eq_true hm⟩
  · apply Or.inr
    apply List.mem_flatMap.mpr
    refine ⟨a / g.rowStep, List.mem_range.mpr hrow, ?_⟩
    apply List.mem_append.mpr
    apply Or.inr
    rw [List.mem_range'_1]
    omega

/-- The given bytes of a record are not outside them. -/
theorem point_not_mem_outside {bytes : List Nat} {j b : Nat} (hj : j < g.count)
    (hb : b < g.pointStep) (hm : b ∈ bytes) : g.point j + b ∉ g.outside bytes := by
  intro ho
  obtain ⟨row, hrow, ha⟩ := List.mem_flatMap.mp ho
  rw [List.mem_range] at hrow
  cases List.mem_append.mp ha with
  | inl ha =>
    obtain ⟨column, hcol, ha⟩ := List.mem_flatMap.mp ha
    rw [List.mem_range] at hcol
    obtain ⟨b', hb', he⟩ := List.mem_map.mp ha
    have hrest := List.mem_filter.mp hb'
    rw [← point_row_column hcol] at he
    have hj' : row * g.width + column < g.count := by
      have hle : (row + 1) * g.width ≤ g.height * g.width := Nat.mul_le_mul_right _ hrow
      rw [Nat.add_mul, Nat.one_mul, Nat.mul_comm g.height] at hle
      unfold count
      omega
    have hbb := (point_inj hj' hj (List.mem_range.mp hrest.1) hb he).2
    rw [hbb] at hrest
    exact of_decide_eq_true hrest.2 hm
  | inr ha =>
    obtain ⟨_, hcol⟩ := row_of_lt_count hj
    have hc := column_end hcol hb
    have hf := g.fits
    rw [List.mem_range'_1, point, Nat.add_assoc] at ha
    have hrow' : j / g.width = row := by
      have hd : (j / g.width * g.rowStep + (j % g.width * g.pointStep + b)) / g.rowStep =
          (row * g.rowStep + (j / g.width * g.rowStep + (j % g.width * g.pointStep + b) -
            row * g.rowStep)) / g.rowStep := by
        congr 1
        omega
      rwa [div_of_split (by omega), div_of_split (by omega)] at hd
    rw [hrow'] at ha
    omega

private theorem length_flatMap_range {β : Type} (n c : Nat) (f : Nat → List β)
    (h : ∀ i, i < n → (f i).length = c) : ((List.range n).flatMap f).length = n * c := by
  induction n with
  | zero => rw [List.range_zero, List.flatMap_nil, List.length_nil, Nat.zero_mul]
  | succ n ih =>
    rw [List.range_succ, List.flatMap_append, List.flatMap_cons, List.flatMap_nil,
      List.append_nil, List.length_append, ih fun i hi ↦ h i (Nat.lt_succ_of_lt hi),
      h n (Nat.lt_succ_self n), Nat.succ_mul]

/-- The number of addresses outside the given bytes. -/
theorem length_outside (bytes : List Nat) :
    (g.outside bytes).length = (g.rest bytes).length * g.width * g.height +
      (g.rowStep - g.width * g.pointStep) * g.height := by
  rw [outside, length_flatMap_range g.height
    (g.width * (g.rest bytes).length + (g.rowStep - g.width * g.pointStep))]
  · rw [Nat.mul_add, Nat.mul_comm g.height, Nat.mul_comm g.height, Nat.mul_comm g.width]
  · intro row _
    rw [rowRest, List.length_append, List.length_range',
      length_flatMap_range g.width (g.rest bytes).length]
    intro column _
    rw [List.length_map]

end Grid

end NetBridge.Base
