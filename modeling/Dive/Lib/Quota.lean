import Mathlib.Data.List.Induction
import Mathlib.Data.Nat.Notation

/-!
# A machine that grants its first requests

* `requests step request s t`: the requests that a machine meets in a run.
* `Grants`: a step counts its request, and logs it where fewer than `n` came before it.
* **`Grants.run`**: the log of a run is the first `n` of its requests.
-/

namespace Quota

variable {S A B : Type*} (step : S → A → S) (request : S → A → Option B)

/-- The requests of a run, each in the state that it comes in. -/
def requests (s : S) : List A → List B
  | [] => []
  | a :: t => (request s a).toList ++ requests (step s a) t

theorem requests_append (s : S) (t t' : List A) :
    requests step request s (t ++ t') =
      requests step request s t ++ requests step request (t.foldl step s) t' := by
  induction t generalizing s with
  | nil => rfl
  | cons a t ih => rw [List.cons_append, requests, ih, requests, List.append_assoc, List.foldl_cons]

theorem requests_concat (s : S) (t : List A) (a : A) :
    requests step request s (t ++ [a]) =
      requests step request s t ++ (request (t.foldl step s) a).toList := by
  rw [requests_append, requests, requests, List.append_nil]

theorem length_requests_le {p : A → Bool} (hp : ∀ s a, (request s a).isSome → p a) (s : S)
    (t : List A) : (requests step request s t).length ≤ t.countP p := by
  induction t generalizing s with
  | nil => exact Nat.le_refl 0
  | cons a t ih =>
    rw [requests, List.length_append, List.countP_cons]
    have htail := ih (step s a)
    have hhead : (request s a).toList.length ≤ if p a then 1 else 0 := by
      cases hreq : request s a with
      | none => exact Nat.zero_le _
      | some b => rw [if_pos (hp s a (by rw [hreq]; rfl))]; exact Nat.le_refl 1
    omega

/-- **A step counts its request and logs it below the quota**: `counted s k` says that the state
has counted `k` requests, which works for fewer than `bound` of them. -/
structure Grants (counted : S → ℕ → Prop) (log : S → List B) (good : A → Prop)
    (n bound : ℕ) : Prop where
  counts : ∀ {s k a}, counted s k → good a →
    counted (step s a) (k + (request s a).toList.length)
  logs : ∀ {s k a}, counted s k → good a → k < bound →
    log (step s a) = log s ++ if k < n then (request s a).toList else []

theorem take_append_toList (n : ℕ) (l : List B) (b : Option B) :
    (l ++ b.toList).take n = l.take n ++ if l.length < n then b.toList else [] := by
  rw [List.take_append]
  split_ifs with h
  · have hlen : b.toList.length ≤ 1 := by cases b <;> simp
    rw [List.take_of_length_le (l := b.toList) (by omega)]
  · rw [Nat.sub_eq_zero_of_le (by omega), List.take_zero]

variable {step request} {counted : S → ℕ → Prop} {log : S → List B} {good : A → Prop}
  {n bound : ℕ}

/-- **The first `n` requests of a run are granted.** -/
theorem Grants.run (h : Grants step request counted log good n bound) {s : S}
    (hs : counted s 0) (t : List A) (ht : ∀ a ∈ t, good a)
    (hbound : (requests step request s t).length < bound) :
    counted (t.foldl step s) (requests step request s t).length ∧
      log (t.foldl step s) = log s ++ (requests step request s t).take n := by
  induction t using List.reverseRecOn with
  | nil => exact ⟨hs, by simp [requests]⟩
  | append_singleton t a ih =>
    have hlen := requests_concat step request s t a
    rw [hlen, List.length_append] at hbound
    have hgood := ht a List.mem_concat_self
    obtain ⟨hcounted, hlog⟩ :=
      ih (fun b hb => ht b (List.mem_append_left _ hb)) (by omega)
    rw [List.foldl_append, List.foldl_cons, List.foldl_nil, hlen]
    constructor
    · rw [List.length_append]
      exact h.counts hcounted hgood
    · rw [h.logs hcounted hgood (by omega), hlog, take_append_toList, List.append_assoc]

end Quota
