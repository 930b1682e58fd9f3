import Dive.Hierarchy.PacketFields
import Mathlib.Data.List.Sort

/-!
# The dword numbers of the fields of a packet

* `regList`: the registers of a packet as `outputPacketInfo` collects them.
* `registerFields`: what `outputPacketFields` writes, with the register that each field is for.
* `NumbersRight`: each field has the dword of its register, and no dword is left out with it.
* **`numbersRight_iff`**: this is so exactly if the registers follow on each other without a gap,
  and those that overlap lie inside the ones before them.
-/

namespace Dive

/-! ## The registers of a packet -/

/-- The registers in a `reg_dict`: of those with the same offset, the first. -/
def regDict (registers : List PacketRegister) : List PacketRegister :=
  registers.foldl
    (fun dict r => if dict.any (·.offset = r.offset) then dict else dict ++ [r]) []

/-- The list that `outputPacketInfo` gives to `outputPacketFields`, for a packet and the registers
of a stripe; `none` where it skips the packet. -/
def regList (packet stripe : List PacketRegister) : Option (List PacketRegister) :=
  if packet.any (1000 < ·.offset) then none
  else some ((regDict (packet ++ stripe)).insertionSort fun r later => r.offset ≤ later.offset)

/-! ## What is written for which register -/

/-- `outputPacketFields`, with the register before the fields that are written for it. -/
def registerFields (dwordCount : ℕ) (addressEndOffset : Option ℕ) :
    List PacketRegister → Option (List (PacketRegister × List PacketField))
  | [] => some []
  | r :: registers =>
    if r.offset < dwordCount then
      if addressEndOffset.any (· < r.offset) then none
      else registerFields dwordCount addressEndOffset registers
    else
      let dwordCount := dwordCount + if r.is64 then 2 else 1
      let addressEndOffset := if r.isAddress then some dwordCount else addressEndOffset
      if (r.is64 && !r.bitfields.isEmpty) || 255 < dwordCount then none
      else (registerFields dwordCount addressEndOffset registers).map
        ((r, r.fields dwordCount) :: ·)

theorem outputPacketFields_eq (dwordCount : ℕ) (addressEndOffset : Option ℕ)
    (registers : List PacketRegister) :
    outputPacketFields dwordCount addressEndOffset registers =
      (registerFields dwordCount addressEndOffset registers).map fun written =>
        written.flatMap Prod.snd := by
  induction registers generalizing dwordCount addressEndOffset with
  | nil => rfl
  | cons r registers ih =>
    rw [outputPacketFields, registerFields]
    dsimp only
    generalize (dwordCount + if r.is64 then 2 else 1) = dwords
    generalize (if r.isAddress then some dwords else addressEndOffset) = addressEnd
    rw [ih, ih]
    split_ifs
    · rfl
    · rfl
    · rfl
    · rw [Option.map_map, Option.map_map]
      rfl

namespace PacketRegister

variable (r : PacketRegister)

/-- The number of dwords. -/
def width : ℕ := if r.is64 then 2 else 1

/-- The dword behind the register. -/
def stop : ℕ := r.offset + r.width

/-- The register has this dword of the payload. -/
def Has (k : ℕ) : Prop := r.offset ≤ k ∧ k < r.stop

/-- The dword numbers that its fields should have, from 1 on. -/
def numbers : List ℕ :=
  if r.bitfields.isEmpty then if r.is64 then [r.offset + 1, r.offset + 2] else [r.offset + 1]
  else r.bitfields.map fun _ => r.offset + 1

theorem width_pos : 0 < r.width := by
  unfold width
  split_ifs <;> omega

end PacketRegister

/-- **The fields have the dwords of their registers**, and a register without fields has only dwords
of registers before it. -/
structure NumbersRight (registers : List PacketRegister)
    (written : List (PacketRegister × List PacketField)) : Prop where
  numbers : ∀ entry ∈ written, entry.2.map (·.dword.toNat) = entry.1.numbers
  leftOut : ∀ r ∈ registers, (∀ fields, (r, fields) ∉ written) → ∀ k, r.Has k →
    ∃ entry ∈ written, entry.1.offset < r.offset ∧ entry.1.Has k

/-- **The registers follow on** from dword `d`: each begins where those before it end, or lies
inside them. -/
def FollowOn : ℕ → List PacketRegister → Prop
  | _, [] => True
  | d, r :: registers =>
    r.offset ≤ d ∧ (r.offset < d → r.stop ≤ d) ∧ FollowOn (max d r.stop) registers

instance decidableFollowOn : ∀ d registers, Decidable (FollowOn d registers)
  | _, [] => .isTrue trivial
  | d, r :: registers =>
    have := decidableFollowOn (max d r.stop) registers
    inferInstanceAs (Decidable (_ ∧ _))

/-! ## When the numbers are right -/

section Numbers

variable {d : ℕ} {a : Option ℕ} {r : PacketRegister} {registers : List PacketRegister}
  {written : List (PacketRegister × List PacketField)}

theorem registerFields_cases (h : registerFields d a (r :: registers) = some written) :
    (r.offset < d ∧ registerFields d a registers = some written) ∨
      (d ≤ r.offset ∧ (r.is64 = true → r.bitfields = []) ∧ d + r.width ≤ 255 ∧
        ∃ a' rest, registerFields (d + r.width) a' registers = some rest ∧
          written = (r, r.fields (d + r.width)) :: rest) := by
  rw [registerFields] at h
  by_cases hskip : r.offset < d
  · rw [if_pos hskip] at h
    split_ifs at h
    exact .inl ⟨hskip, h⟩
  · rw [if_neg hskip] at h
    by_cases hbad : ((r.is64 && !r.bitfields.isEmpty) || decide (255 < d + r.width)) = true
    · rw [PacketRegister.width] at hbad
      rw [if_pos hbad] at h
      cases h
    · rw [PacketRegister.width] at hbad
      rw [if_neg hbad] at h
      obtain ⟨rest, hrest, rfl⟩ := Option.map_eq_some_iff.mp h
      simp only [Bool.or_eq_true, Bool.and_eq_true, Bool.not_eq_true', decide_eq_true_eq,
        not_or, not_and, Bool.not_eq_false, List.isEmpty_iff, Nat.not_lt] at hbad
      exact .inr ⟨Nat.not_lt.mp hskip, hbad.1, hbad.2, _, rest, hrest, rfl⟩

theorem numbers_iff (hbits : r.is64 = true → r.bitfields = []) (hd : d + r.width ≤ 255) :
    (r.fields (d + r.width)).map (·.dword.toNat) = r.numbers ↔ r.offset = d := by
  cases h64 : r.is64 with
  | true =>
    have hwidth : r.width = 2 := by rw [PacketRegister.width, h64, if_pos rfl]
    rw [hwidth] at hd ⊢
    have hone : (d + 1) % 256 = d + 1 := Nat.mod_eq_of_lt (by omega)
    have htwo : (d + 2) % 256 = d + 2 := Nat.mod_eq_of_lt (by omega)
    simp [PacketRegister.fields, PacketRegister.numbers, hbits h64, h64, hone, htwo]
    omega
  | false =>
    have hwidth : r.width = 1 := by rw [PacketRegister.width, h64, if_neg Bool.false_ne_true]
    rw [hwidth] at hd ⊢
    have hone : (d + 1) % 256 = d + 1 := Nat.mod_eq_of_lt (by omega)
    cases hb : r.bitfields with
    | nil =>
      simp [PacketRegister.fields, PacketRegister.numbers, hb, h64, hone]
      omega
    | cons b bs =>
      have hne : r.bitfields.isEmpty = false := by rw [hb]; rfl
      rw [PacketRegister.fields, PacketRegister.numbers, hne, if_neg Bool.false_ne_true,
        if_neg Bool.false_ne_true, List.map_map, List.map_inj_left, hb]
      have hdword : (UInt8.ofNat (d + 1)).toNat = d + 1 := by rw [UInt8.toNat_ofNat', hone]
      constructor
      · intro hall
        have hfirst : (UInt8.ofNat (d + 1)).toNat = r.offset + 1 := hall b List.mem_cons_self
        omega
      · rintro rfl bitfield _
        exact hdword

theorem mem_of_registerFields (h : registerFields d a registers = some written)
    {entry : PacketRegister × List PacketField} (hentry : entry ∈ written) :
    entry.1 ∈ registers := by
  induction registers generalizing d a written with
  | nil =>
    obtain rfl : [] = written := Option.some_inj.mp h
    cases hentry
  | cons r registers ih =>
    rcases registerFields_cases h with ⟨_, hrest⟩ | ⟨_, _, _, a', rest, hrest, rfl⟩
    · exact List.mem_cons_of_mem _ (ih hrest hentry)
    · rcases List.mem_cons.mp hentry with rfl | hmem
      · exact List.mem_cons_self
      · exact List.mem_cons_of_mem _ (ih hrest hmem)

/-- The property for the rest of a list, where `before` are the registers that are written. -/
structure RestRight (before registers : List PacketRegister)
    (written : List (PacketRegister × List PacketField)) : Prop where
  numbers : ∀ entry ∈ written, entry.2.map (·.dword.toNat) = entry.1.numbers
  leftOut : ∀ r ∈ registers, (∀ fields, (r, fields) ∉ written) → ∀ k, r.Has k →
    ∃ other ∈ before ++ written.map Prod.fst, other.offset < r.offset ∧ other.Has k

theorem restRight_iff {before : List PacketRegister}
    (hsorted : (before ++ registers).Pairwise fun r later => r.offset < later.offset)
    (hbefore : ∀ k, (∃ other ∈ before, other.Has k) ↔ k < d)
    (h : registerFields d a registers = some written) :
    RestRight before registers written ↔ FollowOn d registers := by
  induction registers generalizing d a written before with
  | nil =>
    obtain rfl : [] = written := Option.some_inj.mp h
    refine iff_of_true ⟨?_, ?_⟩ trivial
    · intro entry hentry
      cases hentry
    · intro r hr
      cases hr
  | cons r registers ih =>
    have hrest : (before ++ registers).Pairwise fun r later => r.offset < later.offset :=
      hsorted.sublist ((List.sublist_cons_self r registers).append_left before)
    have hearlier : ∀ other ∈ before, other.offset < r.offset := fun other hother =>
      (List.pairwise_append.mp hsorted).2.2 other hother r List.mem_cons_self
    have hlater : ∀ other ∈ registers, r.offset < other.offset :=
      (List.pairwise_cons.mp (List.pairwise_append.mp hsorted).2.1).1
    rw [FollowOn]
    rcases registerFields_cases h with ⟨hskip, hwritten⟩ | ⟨hle, hbits, hd, a', rest, hwritten, rfl⟩
    · -- `r` has no fields: its dwords must be among the first `d`
      have hnone : ∀ fields, (r, fields) ∉ written := fun fields hmem =>
        lt_irrefl _ (hlater r (mem_of_registerFields hwritten hmem))
      have hcovered : (∀ k, r.Has k → ∃ other ∈ before ++ written.map Prod.fst,
          other.offset < r.offset ∧ other.Has k) ↔ r.stop ≤ d := by
        constructor
        · intro hall
          have hpos := r.width_pos
          have hstop : r.stop = r.offset + r.width := rfl
          obtain ⟨other, hother, hlt, hhas⟩ := hall (r.stop - 1) ⟨by omega, by omega⟩
          rcases List.mem_append.mp hother with hmem | hmem
          · have hk := (hbefore (r.stop - 1)).mp ⟨other, hmem, hhas⟩
            omega
          · obtain ⟨entry, hentry, rfl⟩ := List.mem_map.mp hmem
            exact absurd (hlater entry.1 (mem_of_registerFields hwritten hentry)) (by omega)
        · intro hstop k hk
          obtain ⟨other, hmem, hhas⟩ := (hbefore k).mpr (hk.2.trans_le hstop)
          exact ⟨other, List.mem_append_left _ hmem, hearlier other hmem, hhas⟩
      have ih := ih hrest hbefore hwritten
      constructor
      · intro hright
        have hstop := hcovered.mp (hright.leftOut r List.mem_cons_self hnone)
        refine ⟨le_of_lt hskip, fun _ => hstop, ?_⟩
        rw [max_eq_left hstop]
        exact ih.mp ⟨hright.numbers, fun other hother =>
          hright.leftOut other (List.mem_cons_of_mem _ hother)⟩
      · rintro ⟨_, hstop, hfollow⟩
        rw [max_eq_left (hstop hskip)] at hfollow
        have hright := ih.mpr hfollow
        refine ⟨hright.numbers, fun other hother hno => ?_⟩
        rcases List.mem_cons.mp hother with rfl | hmem
        · exact hcovered.mpr (hstop hskip)
        · exact hright.leftOut other hmem hno
    · have hsplit : before ++ r :: registers = before ++ [r] ++ registers := by simp
      rw [hsplit] at hsorted
      have hmap : before ++ List.map Prod.fst ((r, r.fields (d + r.width)) :: rest) =
          before ++ [r] ++ rest.map Prod.fst := by simp
      have hnotin : ∀ other ∈ registers, ∀ fields,
          (other, fields) ∈ (r, r.fields (d + r.width)) :: rest → (other, fields) ∈ rest := by
        intro other hother fields hmem
        rcases List.mem_cons.mp hmem with heq | hmem
        · rw [Prod.mk.injEq] at heq
          exact absurd (hlater other hother) (by rw [heq.1]; exact lt_irrefl _)
        · exact hmem
      have hnext : r.offset = d → ∀ k,
          (∃ other ∈ before ++ [r], other.Has k) ↔ k < d + r.width := by
        intro heq k
        have hhas : r.Has k ↔ d ≤ k ∧ k < d + r.width := by
          rw [PacketRegister.Has, PacketRegister.stop, heq]
        simp only [List.mem_append, List.mem_singleton, or_and_right, exists_or, exists_eq_left,
          hbefore k, hhas]
        omega
      constructor
      · intro hright
        have heq := (numbers_iff hbits hd).mp (hright.numbers _ List.mem_cons_self)
        refine ⟨heq.le, fun hlt => absurd heq hlt.ne, ?_⟩
        rw [PacketRegister.stop, heq, max_eq_right (Nat.le_add_right _ _)]
        refine (ih hsorted (hnext heq) hwritten).mp ⟨?_, ?_⟩
        · exact fun entry hentry => hright.numbers entry (List.mem_cons_of_mem _ hentry)
        · intro other hother hno
          have hleft := hright.leftOut other (List.mem_cons_of_mem _ hother) fun fields hmem =>
            hno fields (hnotin other hother fields hmem)
          rwa [hmap] at hleft
      · rintro ⟨hge, _, hfollow⟩
        have heq := le_antisymm hge hle
        rw [PacketRegister.stop, heq, max_eq_right (Nat.le_add_right _ _)] at hfollow
        have hright := (ih hsorted (hnext heq) hwritten).mpr hfollow
        refine ⟨?_, ?_⟩
        · intro entry hentry
          rcases List.mem_cons.mp hentry with rfl | hmem
          · exact (numbers_iff hbits hd).mpr heq
          · exact hright.numbers entry hmem
        · intro other hother hno
          rcases List.mem_cons.mp hother with rfl | hmem
          · exact absurd List.mem_cons_self (hno _)
          · rw [hmap]
            exact hright.leftOut other hmem fun fields hfields =>
              hno fields (List.mem_cons_of_mem _ hfields)

theorem registersRight_iff
    (hsorted : registers.Pairwise fun r later => r.offset < later.offset)
    (h : registerFields 0 none registers = some written) :
    NumbersRight registers written ↔ FollowOn 0 registers := by
  have hnone : ∀ k, (∃ other ∈ ([] : List PacketRegister), other.Has k) ↔ k < 0 := by simp
  rw [← @restRight_iff 0 none registers written [] hsorted hnone h]
  constructor
  · intro hright
    refine ⟨hright.numbers, fun r hr hno k hk => ?_⟩
    obtain ⟨entry, hentry, hhas⟩ := hright.leftOut r hr hno k hk
    exact ⟨entry.1, List.mem_map_of_mem hentry, hhas⟩
  · intro hright
    refine ⟨hright.numbers, fun r hr hno k hk => ?_⟩
    obtain ⟨other, hother, hhas⟩ := hright.leftOut r hr hno k hk
    obtain ⟨entry, hentry, rfl⟩ := List.mem_map.mp hother
    exact ⟨entry, hentry, hhas⟩

/-- **The numbers are right** exactly if the registers follow on. -/
theorem numbersRight_iff {fields : List PacketField}
    (hsorted : registers.Pairwise fun r later => r.offset < later.offset)
    (h : outputPacketFields 0 none registers = some fields) :
    ∃ written, registerFields 0 none registers = some written ∧
      fields = written.flatMap Prod.snd ∧
      (NumbersRight registers written ↔ FollowOn 0 registers) := by
  rw [outputPacketFields_eq] at h
  obtain ⟨written, hwritten, rfl⟩ := Option.map_eq_some_iff.mp h
  exact ⟨written, hwritten, rfl, registersRight_iff hsorted hwritten⟩

end Numbers

/-! ## A packet with two stripes -/

/-- A bit field over `width` bits from bit `shift` on. -/
def bitsField (name : String) (shift width : ℕ) : PacketField where
  name := name
  dword := 0
  shift := UInt32.ofNat shift
  mask := UInt32.ofNat ((2 ^ width - 1) * 2 ^ shift)

/-- A 32-bit register with bit fields. -/
def fieldsRegister (offset : ℕ) (name : String) (bitfields : List PacketField) :
    PacketRegister where
  offset := offset
  own := { name := name, dword := 0 }
  bitfields := bitfields

/-- The registers of `CP_EVENT_WRITE7`. -/
def eventWrite7 : List PacketRegister :=
  [fieldsRegister 0 "0" [bitsField "EVENT" 0 8, bitsField "WRITE_SAMPLE_COUNT" 12 1,
    bitsField "SAMPLE_COUNT_END_OFFSET" 13 1, bitsField "WRITE_ACCUM_SAMPLE_COUNT_DIFF" 14 1,
    bitsField "INC_BV_COUNT" 16 1, bitsField "INC_BR_COUNT" 17 1,
    bitsField "CLEAR_RENDER_RESOURCE" 18 1, bitsField "CLEAR_LRZ_RESOURCE" 19 1,
    bitsField "WRITE_SRC" 20 3, bitsField "WRITE_DST" 24 1, bitsField "WRITE_ENABLED" 27 1,
    bitsField "IRQ" 31 1]]

/-- The payload, at the same offsets in both stripes. -/
def payloadRegisters : List PacketRegister :=
  [fieldsRegister 3 "3" [bitsField "PAYLOAD_0" 0 32],
    fieldsRegister 4 "4" [bitsField "PAYLOAD_1" 0 32]]

/-- The stripe `EV_DST_RAM`. -/
def dstRam : List PacketRegister :=
  { offset := 1, is64 := true, own := { name := "1", dword := 0 } } :: payloadRegisters

/-- The stripe `EV_DST_ONCHIP`, without a register at offset 2. -/
def dstOnchip : List PacketRegister :=
  fieldsRegister 1 "1" [bitsField "ONCHIP_ADDR_0" 0 32] :: payloadRegisters

theorem dstRam_numbersRight : ∃ written,
    registerFields 0 none (eventWrite7 ++ dstRam) = some written ∧
      NumbersRight (eventWrite7 ++ dstRam) written := by
  have hsome : (outputPacketFields 0 none (eventWrite7 ++ dstRam)).isSome = true := by
    decide +kernel
  obtain ⟨fields, hfields⟩ := Option.isSome_iff_exists.mp hsome
  obtain ⟨written, hwritten, _, hiff⟩ := numbersRight_iff (by decide +kernel) hfields
  exact ⟨written, hwritten, hiff.mpr (by decide +kernel)⟩

/-- The payload of an event that is written on chip has the numbers of the dwords before it. -/
theorem dstOnchip_not_numbersRight : ∃ written,
    regList eventWrite7 dstOnchip = some (eventWrite7 ++ dstOnchip) ∧
      registerFields 0 none (eventWrite7 ++ dstOnchip) = some written ∧
      ¬ NumbersRight (eventWrite7 ++ dstOnchip) written := by
  have hsome : (registerFields 0 none (eventWrite7 ++ dstOnchip)).isSome = true := by
    decide +kernel
  have hnot : ∀ h : (registerFields 0 none (eventWrite7 ++ dstOnchip)).isSome = true,
      ¬ ∀ entry ∈ (registerFields 0 none (eventWrite7 ++ dstOnchip)).get h,
        entry.2.map (·.dword.toNat) = entry.1.numbers := by
    decide +kernel
  exact ⟨_, by decide +kernel, (Option.some_get hsome).symm,
    fun hright => hnot hsome hright.numbers⟩

end Dive
