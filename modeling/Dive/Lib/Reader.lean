import Mathlib.Data.List.Forall2

/-!
# Readers over a buffer

* `Reader`: from a buffer and an offset, a value and the offset behind it, or an error.
* `Reader.Reads r l a`: wherever the items `l` stand in a buffer, the reader takes them and yields
  `a`. The rules `Reads.pure`, `Reads.bind` and **`Reads.times`** compose such facts along
  the reader's code.
* `Reads.whole`: on a buffer that holds these items and nothing else, it ends at the end.
* `Fails r l e`: the reader fails on these items.
* `Takes r P`: what the reader takes for a value satisfies `P`; the rules **`Takes.bind`** and
  `Takes.times`, and `Takes.field` for the fields of a record one after the other.
-/

/-- Code that reads a buffer of `β`s from an offset on. -/
abbrev Reader (β ε : Type) : Type → Type := ReaderT (List β) (StateT ℕ (Except ε))

namespace Reader

variable {β ε α α' : Type} {r : Reader β ε α} {l l' : List β} {a : α} {b : α'}

/-- A call on a buffer, at an offset. -/
def call (r : Reader β ε α) (src : List β) (offset : ℕ) : Except ε (α × ℕ) := (r.run src).run offset

/-- The reader takes the items `l`, wherever they stand, for an `a`. -/
def Reads (r : Reader β ε α) (l : List β) (a : α) : Prop :=
  ∀ before after : List β, r.call (before ++ l ++ after) before.length =
    .ok (a, before.length + l.length)

/-- As many values as asked. -/
def times (r : Reader β ε α) : ℕ → Reader β ε (List α)
  | 0 => pure []
  | n + 1 => do
    let a ← r
    let as ← times r n
    return a :: as

namespace Reads

theorem pure : Reads (pure a : Reader β ε α) [] a := fun _ _ => rfl

theorem bind {f : α → Reader β ε α'} (h : Reads r l a) (h' : Reads (f a) l' b) :
    Reads (r >>= f) (l ++ l') b := by
  intro before after
  have h1 := h before (l' ++ after)
  have h2 := h' (before ++ l) after
  rw [List.append_assoc (before ++ l)] at h2
  rw [List.append_assoc, List.append_assoc, ← List.append_assoc before,
    @List.length_append _ l, ← Nat.add_assoc, ← List.length_append, ← h2]
  show (r.call _ _).bind (fun p => (f p.1).call _ p.2) = _
  rw [h1, List.length_append]
  rfl

theorem bind_pure {f : α → α'} (h : Reads r l a) :
    Reads (r >>= fun a => Pure.pure (f a)) l (f a) := by
  have := h.bind (f := fun a => Pure.pure (f a)) pure
  rwa [List.append_nil] at this

/-- **A counted loop** reads encodings one after the other. -/
theorem times_map {γ : Type} {enc : γ → List β} {f : γ → α} : ∀ {xs : List γ},
    (∀ x ∈ xs, Reads r (enc x) (f x)) →
      Reads (Reader.times r xs.length) (xs.flatMap enc) (xs.map f)
  | [], _ => pure
  | x :: xs, h => by
    have htail : Reads (Reader.times r xs.length) (xs.flatMap enc) (xs.map f) :=
      times_map fun y hy => h y (List.mem_cons_of_mem x hy)
    exact (h x List.mem_cons_self).bind htail.bind_pure

theorem times {enc : α → List β} {as : List α} (h : ∀ a ∈ as, Reads r (enc a) a) :
    Reads (Reader.times r as.length) (as.flatMap enc) as := by
  have := times_map (f := fun a => a) h
  rwa [List.map_id'] at this

theorem whole (h : Reads r l a) : r.call l 0 = .ok (a, l.length) := by
  have := h [] []
  simpa using this

end Reads

/-- The reader fails on the items `l`, wherever they stand. -/
def Fails (r : Reader β ε α) (l : List β) (e : ε) : Prop :=
  ∀ before after : List β, r.call (before ++ l ++ after) before.length = .error e

namespace Fails

variable {e : ε} {f : α → Reader β ε α'}

theorem append (h : Fails r l e) : Fails r (l ++ l') e := by
  intro before after
  rw [← List.append_assoc, List.append_assoc (before ++ l)]
  exact h before (l' ++ after)

theorem bind (h : Fails r l e) : Fails (r >>= f) l e := by
  intro before after
  show (r.call _ _).bind (fun p => (f p.1).call _ p.2) = _
  rw [h before after]
  rfl

theorem bind_right (h : Reads r l a) (h' : Fails (f a) l' e) : Fails (r >>= f) (l ++ l') e := by
  intro before after
  have h1 := h before (l' ++ after)
  have h2 := h' (before ++ l) after
  rw [List.length_append] at h2
  rw [← List.append_assoc, List.append_assoc (before ++ l)]
  rw [List.append_assoc (before ++ l)] at h2
  show (r.call _ _).bind (fun p => (f p.1).call _ p.2) = _
  rw [h1]
  exact h2

theorem times_of_mem {enc : α → List β} {P : α → Prop} : ∀ {as : List α},
    (∀ a ∈ as, P a → Reads r (enc a) a) → (∀ a ∈ as, ¬ P a → Fails r (enc a) e) →
      (∃ a ∈ as, ¬ P a) → Fails (Reader.times r as.length) (as.flatMap enc) e
  | [], _, _, h => by simp at h
  | a :: as, hreads, hfails, h => by
    by_cases ha : P a
    · have htail : ∃ b ∈ as, ¬ P b := by
        obtain ⟨b, hb, hbad⟩ := h
        rcases List.mem_cons.mp hb with rfl | hb
        · exact absurd ha hbad
        · exact ⟨b, hb, hbad⟩
      have hrest := times_of_mem (fun b hb => hreads b (List.mem_cons_of_mem a hb))
        (fun b hb => hfails b (List.mem_cons_of_mem a hb)) htail
      exact bind_right (hreads a List.mem_cons_self ha) hrest.bind
    · exact (hfails a List.mem_cons_self ha).append.bind

end Fails

/-- **What the reader takes** for a value is related to it. -/
def Takes (r : Reader β ε α) (P : α → List β → Prop) : Prop :=
  ∀ src offset a offset', offset ≤ src.length → r.call src offset = .ok (a, offset') →
    ∃ l, src.drop offset = l ++ src.drop offset' ∧ offset' = offset + l.length ∧
      offset' ≤ src.length ∧ P a l

namespace Takes

variable {P P' : α → List β → Prop} {Q : α → α' → List β → Prop} {f : α → Reader β ε α'}

theorem pure (h : P a []) : Takes (pure a : Reader β ε α) P := by
  intro src offset b offset' hoff hcall
  cases hcall
  exact ⟨[], by simp, by simp, hoff, h⟩

theorem throw (e : ε) : Takes (fun _ _ => .error e : Reader β ε α) P :=
  fun _ _ _ _ _ h => by cases h

theorem ite {c : Prop} [Decidable c] {r' : Reader β ε α} (h : c → Takes r P)
    (h' : ¬ c → Takes r' P) : Takes (if c then r else r') P := by
  by_cases hc : c
  · rw [if_pos hc]
    exact h hc
  · rw [if_neg hc]
    exact h' hc

theorem mono (h : Takes r P) (hP : ∀ a l, P a l → P' a l) : Takes r P' := by
  intro src offset a offset' hoff hcall
  obtain ⟨l, hl, hend, hle, ha⟩ := h src offset a offset' hoff hcall
  exact ⟨l, hl, hend, hle, hP a l ha⟩

/-- **One reader after the other.** -/
theorem bind (h : Takes r P) (h' : ∀ a, Takes (f a) (Q a)) :
    Takes (r >>= f) fun b l => ∃ a l₁ l₂, l = l₁ ++ l₂ ∧ P a l₁ ∧ Q a b l₂ := by
  intro src offset b offset' hoff hcall
  have hbind : (r >>= f).call src offset =
      (r.call src offset).bind fun p => (f p.1).call src p.2 := rfl
  rw [hbind] at hcall
  cases hr : r.call src offset with
  | error e =>
    rw [hr] at hcall
    cases hcall
  | ok p =>
    obtain ⟨a, mid⟩ := p
    rw [hr] at hcall
    obtain ⟨l, hl, hmid, hle, ha⟩ := h src offset a mid hoff hr
    obtain ⟨l', hl', hend, hle', hb⟩ := h' a src mid b offset' hle hcall
    refine ⟨l ++ l', by rw [hl, hl', List.append_assoc], ?_, hle', a, l, l', rfl, ha, hb⟩
    rw [List.length_append]
    omega

theorem times_parts (h : Takes r P) : ∀ n, Takes (Reader.times r n) fun as l =>
    as.length = n ∧ ∃ parts, l = parts.flatten ∧ List.Forall₂ P as parts
  | 0 => pure ⟨rfl, [], rfl, .nil⟩
  | n + 1 => by
    have hreturn : ∀ (a : α) (as : List α), Takes (Pure.pure (a :: as) : Reader β ε (List α))
        fun bs l => bs = a :: as ∧ l = [] := fun a as => pure ⟨rfl, rfl⟩
    refine (h.bind fun a => (times_parts h n).bind fun as => hreturn a as).mono ?_
    rintro bs l ⟨a, l₁, l₂, rfl, ha, as, l₃, l₄, rfl, ⟨hlen, parts, rfl, hparts⟩, rfl, rfl⟩
    exact ⟨by rw [List.length_cons, hlen], l₁ :: parts,
      by rw [List.flatten_cons, List.append_nil], .cons ha hparts⟩

section Encodings

variable {γ : Type} {S : γ → β → Prop} {c : α → List γ} {C : α' → List γ} {pre : List γ}

/-- **A counted loop** takes encodings one after the other. -/
theorem times (h : Takes r fun a l => List.Forall₂ S (c a) l) (n : ℕ) :
    Takes (Reader.times r n) fun as l => as.length = n ∧ List.Forall₂ S (as.flatMap c) l := by
  refine (times_parts h n).mono ?_
  rintro as l ⟨hlen, parts, rfl, hparts⟩
  rw [List.flatMap_def]
  exact ⟨hlen, List.rel_flatten (List.forall₂_map_left_iff.mpr hparts)⟩

/-- The items stand for what follows `pre` in the encoding of the value. -/
def After (S : γ → β → Prop) (C : α' → List γ) (pre : List γ) (b : α') (l : List β) : Prop :=
  ∃ rest, C b = pre ++ rest ∧ List.Forall₂ S rest l

/-- **A field** of a record, and the fields after it. -/
theorem field (h : Takes r fun a l => List.Forall₂ S (c a) l)
    (h' : ∀ a, Takes (f a) (After S C (pre ++ c a))) : Takes (r >>= f) (After S C pre) := by
  refine (h.bind h').mono ?_
  rintro b l ⟨a, l₁, l₂, rfl, ha, rest, hC, hrest⟩
  exact ⟨c a ++ rest, by rw [hC, List.append_assoc], List.rel_append ha hrest⟩

theorem record (h : C b = pre) : Takes (Pure.pure b : Reader β ε α') (After S C pre) :=
  pure ⟨[], by rw [h, List.append_nil], List.Forall₂.nil⟩

theorem of_after {r : Reader β ε α'} (h : Takes r (After S C [])) :
    Takes r fun b l => List.Forall₂ S (C b) l := by
  refine h.mono ?_
  rintro b l ⟨rest, hC, hrest⟩
  rwa [hC]

end Encodings

theorem whole (h : Takes r P) {src : List β} (hcall : r.call src 0 = .ok (a, src.length)) :
    P a src := by
  obtain ⟨l, hl, -, -, ha⟩ := h src 0 a _ (Nat.zero_le _) hcall
  rw [List.drop_length, List.append_nil, List.drop_zero] at hl
  exact hl ▸ ha

end Takes

end Reader
