import Mathlib.Algebra.Order.Floor.Semiring
import Mathlib.Data.Rat.Floor
import Mathlib.Tactic.IntervalCases
import Mathlib.Tactic.Ring
import Mathlib.Tactic.FieldSimp
import Mathlib.Tactic.Linarith

/-!
# Numbers in text

* `getlines d l`: the pieces that repeated calls of `std::getline` with the delimiter `d` give.
* `stoi`, `stof`: the numbers at the start of a text; floating-point values are exact.
* `fixedText p q`: `q` with `p` fraction digits; **`stof_fixedText`**: it is read as the number that
  is written.
-/

namespace Dive.Text

/-! ## Pieces -/

section Pieces

variable {α : Type*} [DecidableEq α] (d : α)

/-- The pieces between delimiters; an empty piece behind the last delimiter does not count. -/
def getlines : List α → List (List α)
  | [] => []
  | a :: l =>
    if a = d then [] :: getlines l
    else match getlines l with
      | [] => [[a]]
      | p :: ps => if l.head? = some d then [a] :: ps else (a :: p) :: ps

@[simp] theorem getlines_nil : getlines d [] = [] := rfl

theorem getlines_eq_nil {l : List α} : getlines d l = [] ↔ l = [] := by
  cases l with
  | nil => exact iff_of_true rfl rfl
  | cons a l =>
    refine iff_of_false (fun h => ?_) (List.cons_ne_nil a l)
    rw [getlines] at h
    split at h
    · cases h
    · split at h
      · cases h
      · split at h <;> cases h

/-- **The first piece.** -/
theorem getlines_append {p : List α} (h : d ∉ p) (rest : List α) :
    getlines d (p ++ d :: rest) = p :: getlines d rest := by
  induction p with
  | nil => simp [getlines]
  | cons a p ih =>
    rw [List.mem_cons, not_or] at h
    rw [List.cons_append, getlines, if_neg (Ne.symm h.1), ih h.2]
    cases p with
    | nil => simp
    | cons b p =>
      have hb : b ≠ d := fun hb => h.2 (hb ▸ List.mem_cons_self)
      simp [hb]

theorem getlines_of_notMem {p : List α} (h : d ∉ p) (hne : p ≠ []) : getlines d p = [p] := by
  induction p with
  | nil => exact absurd rfl hne
  | cons a p ih =>
    rw [List.mem_cons, not_or] at h
    rw [getlines, if_neg (Ne.symm h.1)]
    cases p with
    | nil => rfl
    | cons b p =>
      have hb : b ≠ d := fun hb => h.2 (hb ▸ List.mem_cons_self)
      rw [ih h.2 (List.cons_ne_nil b p)]
      simp [hb]

end Pieces

/-! ## Reading numbers -/

/-- The exceptions of the conversions. -/
inductive ParseError
  | invalidArgument
  | outOfRange
  deriving DecidableEq

/-- What `isspace` accepts. -/
def isSpace (c : Char) : Bool :=
  c == ' ' || (9 ≤ c.toNat && c.toNat ≤ 13)

/-- A sign, and the rest. -/
def sign : List Char → Bool × List Char
  | '-' :: l => (true, l)
  | '+' :: l => (false, l)
  | l => (false, l)

def negateIf {α : Type} [Neg α] (negative : Bool) (a : α) : α :=
  if negative then -a else a

/-- `std::stoi`: what comes behind the digits is ignored. -/
def stoi (l : List Char) : Except ParseError ℤ :=
  let (negative, l) := sign (l.dropWhile isSpace)
  let digits := l.takeWhile Char.isDigit
  if digits = [] then .error .invalidArgument
  else
    let value := negateIf negative (Nat.ofDigitChars 10 digits 0 : ℤ)
    if value < -2 ^ 31 ∨ 2 ^ 31 ≤ value then .error .outOfRange else .ok value

/-- A value that `std::stof` returns, as an exact number. -/
inductive FloatValue
  | finite (q : ℚ)
  | infinity (negative : Bool)
  | nan
  deriving DecidableEq, Inhabited

/-- Digits with at most one point: their value, the number of fraction digits, and the rest. -/
def significand (isDigit : Char → Bool) (value : List Char → ℕ) (l : List Char) :
    Option (ℕ × ℕ × List Char) :=
  let whole := l.takeWhile isDigit
  let (fraction, rest) := match l.dropWhile isDigit with
    | '.' :: l => (l.takeWhile isDigit, l.dropWhile isDigit)
    | l => ([], l)
  if whole = [] ∧ fraction = [] then none
  else some (value (whole ++ fraction), fraction.length, rest)

/-- The exponent behind one of the markers; without digits there is none. -/
def exponent (markers : List Char) : List Char → ℤ
  | [] => 0
  | c :: l =>
    if c ∈ markers then
      let (negative, l) := sign l
      negateIf negative (Nat.ofDigitChars 10 (l.takeWhile Char.isDigit) 0 : ℤ)
    else 0

def isHexDigit (c : Char) : Bool :=
  c.isDigit || (97 ≤ c.toLower.toNat && c.toLower.toNat ≤ 102)

def hexDigitValue (c : Char) : ℕ :=
  if c.isDigit then c.toNat - 48 else c.toLower.toNat - 87

/-- A hexadecimal number, behind its `0x`. -/
def hexadecimal : List Char → Option ℚ
  | '0' :: x :: l =>
    if x.toLower = 'x' then
      (significand isHexDigit (fun ds => ds.foldl (fun v c => 16 * v + hexDigitValue c) 0) l).map
        fun (v, k, rest) => (v : ℚ) / 16 ^ k * 2 ^ exponent ['p', 'P'] rest
    else none
  | _ => none

def decimal (l : List Char) : Option ℚ :=
  (significand Char.isDigit (fun ds => Nat.ofDigitChars 10 ds 0) l).map
    fun (v, k, rest) => (v : ℚ) / 10 ^ k * 10 ^ exponent ['e', 'E'] rest

/-- `std::stof`, without the range and the precision of `float`. -/
def stof (l : List Char) : Except ParseError FloatValue :=
  let (negative, l) := sign (l.dropWhile isSpace)
  let lower := (l.take 3).map Char.toLower
  if lower = ['i', 'n', 'f'] then .ok (.infinity negative)
  else if lower = ['n', 'a', 'n'] then .ok .nan
  else match (hexadecimal l).orElse fun _ => decimal l with
    | some q => .ok (.finite (negateIf negative q))
    | none => .error .invalidArgument

/-! ## Writing numbers -/

/-- `std::to_string`. -/
def toText (n : ℕ) : List Char := Nat.toDigits 10 n

/-- The last `p` digits of `n`. -/
def lastDigits : ℕ → ℕ → List Char
  | 0, _ => []
  | p + 1, n => lastDigits p (n / 10) ++ [(n % 10).digitChar]

/-- The nearest natural number, an even one in the middle. -/
def roundHalfEven (q : ℚ) : ℕ :=
  let n := ⌊q⌋₊
  if q - n < 1 / 2 ∨ (q - n = 1 / 2 ∧ n % 2 = 0) then n else n + 1

/-- The number of units of `10 ^ (-p)`. -/
def units (p : ℕ) (q : ℚ) : ℕ := roundHalfEven (|q| * 10 ^ p)

/-- `std::fixed` with the precision `p`. -/
def fixedText (p : ℕ) (q : ℚ) : List Char :=
  (if q < 0 then ['-'] else []) ++ toText (units p q / 10 ^ p) ++ '.' :: lastDigits p (units p q)

/-- The number that is written. -/
def fixedValue (p : ℕ) (q : ℚ) : ℚ :=
  negateIf (decide (q < 0)) ((units p q : ℚ) / 10 ^ p)

theorem isDigit_of_mem_toText {n : ℕ} {c : Char} (h : c ∈ toText n) : c.isDigit = true :=
  Nat.isDigit_of_mem_toDigits (by omega) (by omega) h

theorem toText_ne_nil (n : ℕ) : toText n ≠ [] := Nat.toDigits_ne_nil

theorem isDigit_digitChar {n : ℕ} (h : n < 10) : n.digitChar.isDigit = true := by
  interval_cases n <;> rfl

theorem isDigit_of_mem_lastDigits {p n : ℕ} {c : Char} (h : c ∈ lastDigits p n) :
    c.isDigit = true := by
  induction p generalizing n with
  | zero => cases h
  | succ p ih =>
    rcases List.mem_append.mp h with h | h
    · exact ih h
    · rw [List.mem_singleton.mp h]
      exact isDigit_digitChar (Nat.mod_lt _ (by omega))

theorem length_lastDigits (p n : ℕ) : (lastDigits p n).length = p := by
  induction p generalizing n with
  | zero => rfl
  | succ p ih => rw [lastDigits, List.length_append, ih, List.length_singleton]

theorem ofDigitChars_lastDigits (p n v : ℕ) :
    Nat.ofDigitChars 10 (lastDigits p n) v = v * 10 ^ p + n % 10 ^ p := by
  induction p generalizing n with
  | zero => simp [lastDigits, Nat.mod_one]
  | succ p ih =>
    have hmod := Nat.mod_mul (x := n) (a := 10) (b := 10 ^ p)
    rw [lastDigits, Nat.ofDigitChars_append,
      Nat.ofDigitChars_cons_digitChar_of_lt_ten (Nat.mod_lt n (by omega)), Nat.ofDigitChars_nil,
      ih, pow_succ', hmod]
    ring

theorem exists_digitChar {c : Char} (h : c.isDigit = true) : ∃ n < 10, c = n.digitChar := by
  have hlow : 48 ≤ c.toNat := by
    simp only [Char.isDigit, Bool.and_eq_true, decide_eq_true_eq] at h
    exact h.1
  have hhigh : c.toNat ≤ 57 := by
    simp only [Char.isDigit, Bool.and_eq_true, decide_eq_true_eq] at h
    exact h.2
  refine ⟨c.toNat - 48, by omega, ?_⟩
  rw [← Char.ofNat_toNat c]
  generalize c.toNat = k at hlow hhigh
  interval_cases k <;> rfl

theorem ne_of_isDigit {c : Char} (h : c.isDigit = true) :
    c ≠ ',' ∧ c ≠ '\n' ∧ c ≠ '.' ∧ c ≠ '-' ∧ c ≠ '+' ∧ isSpace c = false ∧
      c.toLower ≠ 'i' ∧ c.toLower ≠ 'n' ∧ c.toLower ≠ 'x' := by
  obtain ⟨n, hn, rfl⟩ := exists_digitChar h
  interval_cases n <;> decide

theorem takeWhile_isDigit {l r : List Char} (h : ∀ c ∈ l, c.isDigit = true)
    (hrest : ∀ c ∈ r.head?, c.isDigit = false) :
    (l ++ r).takeWhile Char.isDigit = l ∧ (l ++ r).dropWhile Char.isDigit = r := by
  rw [List.takeWhile_append_of_pos h, List.dropWhile_append_of_pos h]
  cases r with
  | nil => simp
  | cons c r => simp [hrest c rfl]

theorem sign_dropWhile_isSpace {l : List Char} {c : Char} (hc : c.isDigit = true) :
    sign ((c :: l).dropWhile isSpace) = (false, c :: l) := by
  obtain ⟨-, -, -, hminus, hplus, hspace, -⟩ := ne_of_isDigit hc
  rw [List.dropWhile_cons_of_neg (by simp [hspace])]
  unfold sign
  split
  · rename_i heq
    exact absurd (List.cons.inj heq).1 hminus
  · rename_i heq
    exact absurd (List.cons.inj heq).1 hplus
  · rfl

/-- Decimal digits, at least one. -/
structure IsDigits (l : List Char) : Prop where
  ne_nil : l ≠ []
  isDigit : ∀ c ∈ l, c.isDigit = true

theorem isDigits_toText (n : ℕ) : IsDigits (toText n) :=
  ⟨toText_ne_nil n, fun _ => isDigit_of_mem_toText⟩

theorem IsDigits.eq_cons {l : List Char} (h : IsDigits l) :
    ∃ c l', l = c :: l' ∧ c.isDigit = true := by
  obtain ⟨c, l', rfl⟩ := List.exists_cons_of_ne_nil h.ne_nil
  exact ⟨c, l', rfl, h.isDigit c List.mem_cons_self⟩

/-- **Digits are read as their number**, below the range of `int`. -/
theorem stoi_digits {l : List Char} (h : IsDigits l) :
    stoi l = if Nat.ofDigitChars 10 l 0 < 2 ^ 31 then .ok (Nat.ofDigitChars 10 l 0 : ℤ)
      else .error .outOfRange := by
  obtain ⟨c, l', heq, hc⟩ := h.eq_cons
  have htake := (takeWhile_isDigit (l := l) (r := []) h.isDigit (by simp)).1
  rw [List.append_nil] at htake
  have hsign : sign (l.dropWhile isSpace) = (false, l) := by
    rw [heq]
    exact sign_dropWhile_isSpace hc
  simp only [stoi, hsign, htake, h.ne_nil, if_false, negateIf, Bool.false_eq_true]
  by_cases hn : Nat.ofDigitChars 10 l 0 < 2 ^ 31
  · rw [if_pos hn, if_neg (by omega)]
  · rw [if_neg hn, if_pos (by omega)]

/-- **A natural number is read as it is written**, below the range of `int`. -/
theorem stoi_toText (n : ℕ) :
    stoi (toText n) = if n < 2 ^ 31 then .ok (n : ℤ) else .error .outOfRange := by
  have hvalue : Nat.ofDigitChars 10 (toText n) 0 = n := Nat.ofDigitChars_ten_toDigits
  rw [stoi_digits (isDigits_toText n), hvalue]

section Fraction

variable {w f : List Char} (hw : IsDigits w) (hf : ∀ c ∈ f, c.isDigit = true)

include hw hf

theorem significand_digits :
    significand Char.isDigit (fun ds => Nat.ofDigitChars 10 ds 0) (w ++ '.' :: f) =
      some (Nat.ofDigitChars 10 (w ++ f) 0, f.length, []) := by
  obtain ⟨htake, hdrop⟩ := takeWhile_isDigit (l := w) (r := '.' :: f) hw.isDigit (by simp)
  have hfraction := takeWhile_isDigit (l := f) (r := []) hf (by simp)
  rw [List.append_nil] at hfraction
  simp only [significand, htake, hdrop, hfraction.1, hfraction.2, hw.ne_nil, false_and, if_false]

theorem decimal_digits : decimal (w ++ '.' :: f) =
    some ((Nat.ofDigitChars 10 (w ++ f) 0 : ℚ) / 10 ^ f.length) := by
  rw [decimal, significand_digits hw hf]
  simp [exponent]

omit hf in
theorem hexadecimal_digits : hexadecimal (w ++ '.' :: f) = none := by
  obtain ⟨c, l, heq, -⟩ := hw.eq_cons
  have hne : ∀ x l', l ++ '.' :: f = x :: l' → x.toLower ≠ 'x' := by
    intro x l' h
    cases l with
    | nil =>
      rw [← (List.cons.inj h).1]
      decide
    | cons d l =>
      rw [← (List.cons.inj h).1]
      exact (ne_of_isDigit (hw.isDigit d (by rw [heq]; simp))).2.2.2.2.2.2.2.2
  rw [heq]
  unfold hexadecimal
  split
  · rename_i x l' h
    rw [if_neg (hne x l' (List.cons.inj h).2)]
  · rfl

/-- **A number with a point** is read as its value. -/
theorem stof_digits (negative : Bool) :
    stof ((if negative then ['-'] else []) ++ w ++ '.' :: f) =
      .ok (.finite (negateIf negative ((Nat.ofDigitChars 10 (w ++ f) 0 : ℚ) / 10 ^ f.length))) := by
  obtain ⟨c, l, heq, hc⟩ := hw.eq_cons
  obtain ⟨-, -, -, -, -, -, hi, hn, -⟩ := ne_of_isDigit hc
  have hsign : sign (((if negative then ['-'] else []) ++ w ++ '.' :: f).dropWhile isSpace) =
      (negative, w ++ '.' :: f) := by
    cases negative with
    | true => simp [isSpace, sign]
    | false =>
      simp only [Bool.false_eq_true, if_false, List.nil_append, heq, List.cons_append]
      exact sign_dropWhile_isSpace hc
  have hlower : ∀ a b d : Char, c.toLower ≠ a →
      ((w ++ '.' :: f).take 3).map Char.toLower ≠ [a, b, d] := by
    intro a b d ha h
    rw [heq] at h
    exact ha (List.cons.inj h).1
  simp only [stof, hsign, hlower _ _ _ hi, hlower _ _ _ hn, if_false, hexadecimal_digits hw,
    decimal_digits hw hf]
  rfl

end Fraction

/-- **A fixed number is read as the number that is written.** -/
theorem stof_fixedText (p : ℕ) (q : ℚ) :
    stof (fixedText p q) = .ok (.finite (fixedValue p q)) := by
  have hread := stof_digits (isDigits_toText (units p q / 10 ^ p))
    (fun _ => isDigit_of_mem_lastDigits (p := p) (n := units p q)) (decide (q < 0))
  have hwhole : Nat.ofDigitChars 10 (toText (units p q / 10 ^ p)) 0 = units p q / 10 ^ p :=
    Nat.ofDigitChars_ten_toDigits
  have hvalue : Nat.ofDigitChars 10 (toText (units p q / 10 ^ p) ++ lastDigits p (units p q)) 0 =
      units p q := by
    rw [Nat.ofDigitChars_append, hwhole, ofDigitChars_lastDigits]
    exact Nat.div_add_mod' _ _
  simp only [decide_eq_true_eq, hvalue, length_lastDigits] at hread
  exact hread

theorem mem_fixedText {p : ℕ} {q : ℚ} {c : Char} (h : c ∈ fixedText p q) :
    c = '-' ∨ c = '.' ∨ c.isDigit = true := by
  rw [fixedText, List.mem_append, List.mem_append, List.mem_cons] at h
  rcases h with (h | h) | h | h
  · split_ifs at h
    · exact .inl (List.mem_singleton.mp h)
    · cases h
  · exact .inr (.inr (isDigit_of_mem_toText h))
  · exact .inr (.inl h)
  · exact .inr (.inr (isDigit_of_mem_lastDigits h))

theorem point_mem_fixedText (p : ℕ) (q : ℚ) : '.' ∈ fixedText p q := by
  simp [fixedText]

end Dive.Text
