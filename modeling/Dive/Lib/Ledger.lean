import Mathlib.Data.List.AList
import Mathlib.Data.Finset.Basic
import Mathlib.Data.Finset.Card

/-!
# Resources in use and the records that hold them

* `Holds used held`: the records name each resource in use once, and no other.
* `collect f m`: what the entries of a table hold; `collect_insert`, `collect_of_lookup`.
-/

namespace Ledger

variable {α κ β : Type*}

section Resources

variable [DecidableEq α]

/-- The resources `used` are those of the list, and the list names none twice. -/
def Holds (used : Finset α) (held : List α) : Prop := held.Nodup ∧ held.toFinset = used

namespace Holds

variable {used : Finset α} {held held' : List α} {x : α}

theorem card (h : Holds used held) : used.card = held.length := by
  rw [← h.2, List.toFinset_card_of_nodup h.1]

theorem mem_iff (h : Holds used held) : x ∈ used ↔ x ∈ held := by
  rw [← h.2, List.mem_toFinset]

theorem perm (h : Holds used held) (hp : held.Perm held') : Holds used held' :=
  ⟨hp.nodup_iff.mp h.1, (List.toFinset_eq_of_perm _ _ hp).symm.trans h.2⟩

theorem take (h : Holds used held) (hx : x ∉ used) : Holds (insert x used) (x :: held) := by
  refine ⟨List.nodup_cons.mpr ⟨fun hc => hx (h.mem_iff.mpr hc), h.1⟩, ?_⟩
  rw [List.toFinset_cons, h.2]

theorem giveBack (h : Holds used (held' ++ held)) : Holds (used \ held'.toFinset) held := by
  obtain ⟨-, hnodup, hdisj⟩ := List.nodup_append'.mp h.1
  refine ⟨hnodup, ?_⟩
  rw [← h.2, List.toFinset_append]
  ext x
  simp only [List.mem_toFinset, Finset.mem_sdiff, Finset.mem_union]
  exact ⟨fun hx => ⟨Or.inr hx, fun hc => hdisj hc hx⟩, fun hx => hx.1.resolve_left hx.2⟩

end Holds

end Resources

/-- What the entries of a table hold. -/
def collect (f : β → List α) (m : AList fun _ : κ => β) : List α := m.entries.flatMap fun e => f e.2

variable {f : β → List α} {m : AList fun _ : κ => β} {k : κ} {b b' : β}

@[simp] theorem collect_empty : collect f (∅ : AList fun _ : κ => β) = [] := rfl

variable [DecidableEq κ]

theorem mem_collect {x : α} : x ∈ collect f m ↔ ∃ k b, m.lookup k = some b ∧ x ∈ f b := by
  simp only [collect, List.mem_flatMap]
  constructor
  · rintro ⟨⟨k, b⟩, he, hx⟩
    exact ⟨k, b, AList.mem_lookup_iff.mpr he, hx⟩
  · rintro ⟨k, b, he, hx⟩
    exact ⟨⟨k, b⟩, AList.mem_lookup_iff.mp he, hx⟩

theorem collect_insert : collect f (m.insert k b) = f b ++ collect f (m.erase k) := by
  rw [collect, AList.entries_insert, List.flatMap_cons]
  rfl

theorem collect_insert_of_notMem (h : k ∉ m) : collect f (m.insert k b) = f b ++ collect f m := by
  rw [collect, AList.entries_insert_of_notMem h, List.flatMap_cons]
  rfl

theorem collect_of_lookup (h : m.lookup k = some b) :
    (collect f m).Perm (f b ++ collect f (m.erase k)) := by
  have hmem : k ∈ m.entries.keys := List.dlookup_isSome.mp (Option.isSome_iff_exists.mpr ⟨b, h⟩)
  obtain ⟨b', l₁, l₂, -, hentries, herase⟩ := List.exists_of_kerase hmem
  have hb : b' = b := by
    have hin : (⟨k, b'⟩ : Sigma fun _ : κ => β) ∈ m.entries := by simp [hentries]
    rw [← Option.some.injEq, ← h]
    exact (AList.mem_lookup_iff.mpr hin).symm
  have hrest : collect f (m.erase k) = (l₁ ++ l₂).flatMap fun e => f e.2 := by
    rw [← herase]
    rfl
  rw [hrest, collect, hentries, hb, List.flatMap_append, List.flatMap_append, List.flatMap_cons]
  exact List.perm_append_comm_assoc _ _ _

theorem collect_erase_insert :
    (collect f ((m.insert k b).erase k)).Perm (collect f (m.erase k)) := by
  have hp := collect_of_lookup (f := f) (AList.lookup_insert (b := b) (a := k) m)
  rw [collect_insert, List.perm_append_left_iff] at hp
  exact hp.symm

end Ledger
