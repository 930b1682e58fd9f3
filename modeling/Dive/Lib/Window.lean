import Mathlib.Data.List.DropRight

/-!
# A window over the last rows of a table

* `pushWithin limit w a`: a queue that gives up its oldest element when it is full.
* **`pushWithin_rtake`**: it holds the last `limit` elements.
* `columns n rows`: the entries of the rows, one list for each of the `n` places of a row.
* **`columns_pushWithin`**: the columns where the rows come through such a queue.
-/

namespace List

variable {α : Type*}

/-! ## The queue -/

/-- The queue after `a` has come; a full queue has lost its first element. -/
def pushWithin (limit : ℕ) (w : List α) (a : α) : List α :=
  (if w.length = limit then w.tail else w) ++ [a]

theorem rtake_of_length_le {l : List α} {n : ℕ} (h : l.length ≤ n) : l.rtake n = l := by
  rw [rtake, Nat.sub_eq_zero_of_le h, drop_zero]

theorem length_rtake (l : List α) (n : ℕ) : (l.rtake n).length = min l.length n := by
  rw [rtake, length_drop]
  omega

theorem rtake_suffix (l : List α) (n : ℕ) : l.rtake n <:+ l := drop_suffix _ l

theorem IsSuffix.rtake_eq {l l' : List α} (h : l' <:+ l) (n : ℕ) :
    l.rtake (min l'.length n) = l'.rtake n := by
  have hlen := h.length_le
  have hsuffix : l.rtake (min l'.length n) <:+ l'.rtake n := by
    apply suffix_of_suffix_length_le (rtake_suffix l _) ((rtake_suffix l' n).trans h)
    rw [length_rtake, length_rtake]
    omega
  apply hsuffix.eq_of_length
  rw [length_rtake, length_rtake]
  omega

theorem tail_rtake {l : List α} {n : ℕ} (h : (l.rtake (n + 1)).length = n + 1) :
    (l.rtake (n + 1)).tail = l.rtake n := by
  rw [length_rtake] at h
  rw [rtake, tail_drop, rtake]
  congr 1
  omega

theorem map_pushWithin {β : Type*} (f : α → β) (limit : ℕ) (w : List α) (a : α) :
    (pushWithin limit w a).map f = pushWithin limit (w.map f) (f a) := by
  rw [pushWithin, pushWithin, map_append, length_map]
  split_ifs
  · rw [map_tail, map_singleton]
  · rw [map_singleton]

/-- **The queue holds the last `limit` elements.** -/
theorem pushWithin_rtake {limit : ℕ} (hlimit : 0 < limit) (l : List α) (a : α) :
    pushWithin limit (l.rtake limit) a = (l ++ [a]).rtake limit := by
  obtain ⟨n, rfl⟩ := Nat.exists_eq_add_one.mpr hlimit
  rw [rtake_concat_succ, pushWithin]
  split_ifs with hfull
  · rw [tail_rtake hfull]
  · rw [length_rtake] at hfull
    rw [rtake_of_length_le (by omega : l.length ≤ n + 1),
      rtake_of_length_le (by omega : l.length ≤ n)]

/-! ## Columns -/

/-- Column `i` holds the entries at place `i`, in the order of the rows. -/
def columns (n : ℕ) (rows : List (List α)) : List (List α) :=
  (range n).map fun i => rows.filterMap (·[i]?)

variable {n : ℕ} {rows : List (List α)} {row : List α}

@[simp] theorem length_columns : (columns n rows).length = n := by simp [columns]

@[simp] theorem columns_nil : columns n ([] : List (List α)) = replicate n [] := by
  simp [columns, map_const']

theorem columns_concat (h : row.length = n) :
    columns n (rows ++ [row]) = zipWith (fun column a => column ++ [a]) (columns n rows) row := by
  apply ext_getElem
  · simp [h]
  · intro i hi _
    have hrow : i < row.length := by simpa [h] using hi
    simp [columns, hrow]

theorem columns_tail (h : ∀ r ∈ rows, r.length = n) :
    columns n rows.tail = (columns n rows).map tail := by
  cases rows with
  | nil => simp
  | cons r rows =>
    apply ext_getElem
    · simp
    · intro i hi _
      have hr : i < r.length := by simpa [h r mem_cons_self] using hi
      simp [columns, hr]

/-- **The columns follow the queue of the rows.** -/
theorem columns_pushWithin {limit : ℕ} (h : ∀ r ∈ rows, r.length = n) (hrow : row.length = n) :
    columns n (pushWithin limit rows row) =
      zipWith (fun column a => column ++ [a])
        (if rows.length = limit then (columns n rows).map tail else columns n rows) row := by
  rw [pushWithin, columns_concat hrow]
  split_ifs
  · rw [columns_tail h]
  · rfl

theorem length_of_mem_columns (h : ∀ r ∈ rows, r.length = n) {column : List α}
    (hc : column ∈ columns n rows) : column.length = rows.length := by
  obtain ⟨i, hi, rfl⟩ := mem_map.mp hc
  induction rows with
  | nil => rfl
  | cons r rows ih =>
    have hr : i < r.length := by simpa [h r mem_cons_self] using hi
    have hcolumn := ih (fun r hr => h r (mem_cons_of_mem _ hr))
      (mem_map.mpr ⟨i, hi, rfl⟩)
    simp [hr, hcolumn]

end List
