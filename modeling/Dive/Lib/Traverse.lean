import Mathlib.Data.List.Forall2
import Mathlib.Data.Nat.Notation

/-!
# Maps that may fail

* `mapM_eq_some_iff`, `isSome_mapM_iff`: a list mapped with `mapM` in `Option`.
* `isSome_foldlM_iff`: a loop in `Option`.
* `exists_of_mem_mapM`: where an element of the result comes from.
* `forall₂_and_of_mapM`: relations between the elements and the result.
-/

namespace List

variable {α β γ : Type*} {f : α → Option β}

theorem mapM_eq_some_iff : ∀ {l : List α} {r : List β}, l.mapM f = some r ↔ l.map f = r.map some
  | [], r => by cases r <;> simp
  | a :: l, [] => by simp [Option.bind_eq_some_iff]
  | a :: l, b :: r => by
    rw [mapM_cons, map_cons, map_cons, cons.injEq, ← mapM_eq_some_iff]
    simp [Option.bind_eq_some_iff]

theorem length_of_mapM {l : List α} {r : List β} (h : l.mapM f = some r) : r.length = l.length := by
  have hmap := congrArg length (mapM_eq_some_iff.mp h)
  rw [length_map, length_map] at hmap
  exact hmap.symm

theorem getElem?_of_mapM {l : List α} {r : List β} (h : l.mapM f = some r) (k : ℕ) :
    (l[k]?).map f = (r[k]?).map some := by
  rw [← getElem?_map, mapM_eq_some_iff.mp h, getElem?_map]

theorem mapM_eq_some_map_iff {g : α → β} {l : List α} :
    l.mapM f = some (l.map g) ↔ ∀ a ∈ l, f a = some (g a) := by
  rw [mapM_eq_some_iff, map_map, map_inj_left]
  rfl

theorem isSome_mapM_iff {l : List α} : (l.mapM f).isSome ↔ ∀ a ∈ l, (f a).isSome := by
  induction l with
  | nil => simp
  | cons a l ih =>
    rw [mapM_cons, forall_mem_cons, ← ih]
    cases f a <;> cases l.mapM f <;> simp

theorem isSome_foldlM_iff {g : γ → α → Option γ} {P : α → Prop}
    (h : ∀ c a, (g c a).isSome ↔ P a) (l : List α) (c : γ) :
    (l.foldlM g c).isSome ↔ ∀ a ∈ l, P a := by
  induction l generalizing c with
  | nil => simp
  | cons a l ih =>
    have ha := h c a
    rw [foldlM_cons, forall_mem_cons, ← ha]
    cases hg : g c a with
    | none => simp
    | some d => simpa using ih d

theorem exists_of_mem_mapM {l : List α} {r : List β} (h : l.mapM f = some r) {b : β} (hb : b ∈ r) :
    ∃ a ∈ l, f a = some b := by
  have hmap : some b ∈ l.map f := by
    rw [mapM_eq_some_iff.mp h]
    exact mem_map_of_mem hb
  exact mem_map.mp hmap

theorem forall₂_and_of_mapM {P R : α → β → Prop} {Q : α → Prop} : ∀ {l : List α} {r : List β},
    l.mapM f = some r → (∀ a ∈ l, ∀ b, f a = some b → (P a b ∧ R a b ↔ Q a)) →
      (Forall₂ P l r ∧ Forall₂ R l r ↔ ∀ a ∈ l, Q a)
  | [], r, h, _ => by
    obtain rfl : [] = r := by simpa using h
    simp
  | a :: l, r, h, hiff => by
    rw [mapM_eq_some_iff] at h
    cases r with
    | nil => simp at h
    | cons b r =>
      rw [map_cons, map_cons, cons.injEq] at h
      have hrest := forall₂_and_of_mapM (mapM_eq_some_iff.mpr h.2)
        fun a ha => hiff a (mem_cons_of_mem _ ha)
      have hhead := hiff a (mem_cons_self ..) b h.1
      rw [forall₂_cons, forall₂_cons, forall_mem_cons, ← hhead, ← hrest]
      exact and_and_and_comm

end List
