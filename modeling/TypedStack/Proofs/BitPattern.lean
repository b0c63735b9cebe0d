import Mathlib.Tactic.Lemma
import TypedStack.Binary.Basic

/-!
# Bit patterns

A bit pattern of a format is a sign bit, an exponent field and a fraction field. If the exponent
field has only ones, the pattern stands for an infinity or for not-a-number; otherwise the two
fields together are the code of a finite magnitude. Except for not-a-number, which many patterns
stand for, a number has exactly one pattern.
-/

namespace TypedStack

/-- The number of bits of a format: 32 for single and 64 for double precision. -/
def Format.width (f : Format) : Nat := 1 + f.exponentBits + f.fractionBits

namespace Binary

variable {f : Format} {v : BitVec f.width}

/-- The bits of a pattern that are the exponent. -/
def exponentField (v : BitVec f.width) : BitVec f.exponentBits :=
  v.extractLsb' f.fractionBits f.exponentBits

/-- The bits of a pattern that are the fraction. -/
def fractionField (v : BitVec f.width) : BitVec f.fractionBits := v.extractLsb' 0 f.fractionBits

/-- The pattern with these fields. -/
def pack (f : Format) (negative : Bool) (exponent : BitVec f.exponentBits)
    (fraction : BitVec f.fractionBits) :
    BitVec f.width :=
  BitVec.ofBool negative ++ exponent ++ fraction

/-- The patterns of not-a-number. -/
def IsNaN (v : BitVec f.width) : Prop := exponentField v = BitVec.allOnes _ ∧ fractionField v ≠ 0

instance : DecidablePred (IsNaN (f := f)) := fun _ => inferInstanceAs (Decidable (_ ∧ _))

/-- The first bit is the sign. -/
lemma ofBool_msb (v : BitVec f.width) :
    BitVec.ofBool v.msb = v.extractLsb' (f.fractionBits + f.exponentBits) 1 := by
  have last : f.width - 1 = f.fractionBits + f.exponentBits := by
    rw [Format.width]
    omega
  ext i hi
  obtain rfl : i = 0 := by omega
  simp [BitVec.msb_eq_getLsbD_last, last]

/-- A pattern is its sign and its fields. -/
lemma pack_fields (v : BitVec f.width) : pack f v.msb (exponentField v) (fractionField v) = v := by
  rw [pack, exponentField, fractionField, ofBool_msb,
    BitVec.extractLsb'_append_extractLsb'_eq_extractLsb' rfl,
    BitVec.extractLsb'_append_extractLsb'_eq_extractLsb' (Nat.zero_add _).symm]
  exact BitVec.extractLsb'_eq_self

section
variable (s : Bool) (exponent : BitVec f.exponentBits) (fraction : BitVec f.fractionBits)

/-- The exponent of a packed pattern. -/
lemma exponentField_pack : exponentField (pack f s exponent fraction) = exponent := by
  refine (BitVec.extractLsb'_append_eq_of_le (Nat.le_refl f.fractionBits)).trans ?_
  rw [Nat.sub_self]
  exact BitVec.extractLsb'_append_eq_right

/-- The fraction of a packed pattern. -/
lemma fractionField_pack : fractionField (pack f s exponent fraction) = fraction :=
  BitVec.extractLsb'_append_eq_right

/-- The sign of a packed pattern. -/
lemma msb_pack : (pack f s exponent fraction).msb = s := by
  refine BitVec.msb_append.trans ?_
  rw [if_neg (by omega), BitVec.msb_append, if_neg (by decide)]
  cases s <;> rfl

end

/-- A fraction is one of those of an exponent. -/
lemma toNat_lt_fractions (fraction : BitVec f.fractionBits) : fraction.toNat < f.fractions := by
  rw [Format.fractions, Nat.shiftLeft_eq, Nat.one_mul]
  exact fraction.isLt

/-- An exponent that is not all ones gives a finite code. -/
lemma code_lt_finiteCodes {exponent : BitVec f.exponentBits} (fraction : BitVec f.fractionBits)
    (h : exponent ≠ BitVec.allOnes _) :
    exponent.toNat * f.fractions + fraction.toNat < f.finiteCodes := by
  have small : exponent.toNat + 1 ≤ (1 <<< f.exponentBits) - 1 := by
    have ne : exponent.toNat ≠ (BitVec.allOnes f.exponentBits).toNat :=
      fun eq => h (BitVec.eq_of_toNat_eq eq)
    have lt := exponent.isLt
    rw [BitVec.toNat_allOnes] at ne
    rw [Nat.shiftLeft_eq, Nat.one_mul]
    omega
  calc exponent.toNat * f.fractions + fraction.toNat
      < exponent.toNat * f.fractions + f.fractions :=
        Nat.add_lt_add_left (toNat_lt_fractions fraction) _
    _ = (exponent.toNat + 1) * f.fractions := (Nat.succ_mul _ _).symm
    _ ≤ f.finiteCodes := Nat.mul_le_mul_right _ small

/-- The number that a pattern stands for. -/
def ofBits (v : BitVec f.width) : Binary f :=
  if h : exponentField v = BitVec.allOnes _ then
    if fractionField v = 0 then infinite v.msb else nan
  else finite v.msb ⟨_, code_lt_finiteCodes (fractionField v) h⟩

/-- The pattern of a number; not-a-number has no single one. -/
def bits? : Binary f → Option (BitVec f.width)
  | nan => none
  | infinite s => some (pack f s (BitVec.allOnes _) 0)
  | finite s code =>
    some (pack f s (BitVec.ofNat _ (code / f.fractions)) (BitVec.ofNat _ (code % f.fractions)))

/-- A pattern of not-a-number is read as that. -/
lemma ofBits_of_isNaN (h : IsNaN v) : ofBits v = nan := by
  rw [ofBits, dif_pos h.1, if_neg h.2]

/-- No bit of a pattern is lost, unless it stands for not-a-number. -/
lemma bits?_ofBits (number : ¬ IsNaN v) : (ofBits v).bits? = some v := by
  rw [ofBits]
  split
  · next ones =>
    have zero : fractionField v = 0 := Decidable.not_not.mp fun ne => number ⟨ones, ne⟩
    rw [if_pos zero]
    refine congrArg some ?_
    rw [← ones, ← zero]
    exact pack_fields v
  · refine congrArg some ?_
    have pos := f.fractions_pos
    have fraction := toNat_lt_fractions (fractionField v)
    dsimp only
    rw [Nat.add_comm, Nat.add_mul_div_right _ _ pos, Nat.div_eq_of_lt fraction, Nat.zero_add,
      Nat.add_mul_mod_self_right, Nat.mod_eq_of_lt fraction, BitVec.ofNat_toNat, BitVec.ofNat_toNat,
      BitVec.setWidth_eq, BitVec.setWidth_eq]
    exact pack_fields v

/-- The patterns of not-a-number are the ones that stand for it. -/
lemma ofBits_eq_nan_iff : ofBits v = nan ↔ IsNaN v := by
  refine ⟨fun eq => ?_, ofBits_of_isNaN⟩
  by_cases number : IsNaN v
  · exact number
  · have bits := bits?_ofBits number
    rw [eq] at bits
    cases bits

/-- A packed pattern with another exponent is read as a finite number. -/
lemma ofBits_pack {s : Bool} {exponent : BitVec f.exponentBits} {fraction : BitVec f.fractionBits}
    (h : exponent ≠ BitVec.allOnes _) :
    ofBits (pack f s exponent fraction) = finite s ⟨_, code_lt_finiteCodes fraction h⟩ := by
  simp only [ofBits, exponentField_pack, fractionField_pack, msb_pack, dif_neg h]

/-- A packed pattern with an exponent of all ones is read as infinity or not-a-number. -/
lemma ofBits_pack_allOnes {s : Bool} {fraction : BitVec f.fractionBits} :
    ofBits (pack f s (BitVec.allOnes _) fraction) = if fraction = 0 then infinite s else nan := by
  simp only [ofBits, exponentField_pack, fractionField_pack, msb_pack, dif_pos]

/-- The fields of a finite code are an exponent that is not all ones, and a fraction. -/
lemma toNat_fields (code : Fin f.finiteCodes) :
    (BitVec.ofNat f.exponentBits (code / f.fractions)).toNat = code / f.fractions ∧
      (BitVec.ofNat f.fractionBits (code % f.fractions)).toNat = code % f.fractions ∧
      BitVec.ofNat f.exponentBits (code / f.fractions) ≠ BitVec.allOnes _ := by
  have small : code.val / f.fractions < (1 <<< f.exponentBits) - 1 := by
    refine Nat.div_lt_of_lt_mul ?_
    rw [Nat.mul_comm]
    exact code.isLt
  have rest := Nat.mod_lt code.val f.fractions_pos
  rw [Nat.shiftLeft_eq, Nat.one_mul] at small
  rw [Format.fractions, Nat.shiftLeft_eq, Nat.one_mul] at rest
  have exponent : (BitVec.ofNat f.exponentBits (code / f.fractions)).toNat =
      code / f.fractions := by
    rw [BitVec.toNat_ofNat, Nat.mod_eq_of_lt (Nat.lt_of_lt_of_le small (Nat.sub_le _ _))]
  refine ⟨exponent, ?_, fun ones => ?_⟩
  · rw [BitVec.toNat_ofNat]
    refine Nat.mod_eq_of_lt ?_
    rw [Format.fractions, Nat.shiftLeft_eq, Nat.one_mul]
    exact rest
  · rw [ones, BitVec.toNat_allOnes] at exponent
    exact Nat.ne_of_lt small exponent.symm

/-- Every number has a pattern. -/
lemma exists_ofBits (pos : 0 < f.fractionBits) (x : Binary f) : ∃ v, ofBits v = x := by
  cases x with
  | nan =>
    have ne : BitVec.allOnes f.fractionBits ≠ 0 := by
      intro zero
      have bit := congrArg (BitVec.getLsbD · 0) zero
      simp [pos] at bit
    exact ⟨pack f false (BitVec.allOnes _)
      (BitVec.allOnes _), by rw [ofBits_pack_allOnes, if_neg ne]⟩
  | infinite s => exact ⟨pack f s (BitVec.allOnes _) 0, by rw [ofBits_pack_allOnes, if_pos rfl]⟩
  | finite s code =>
    obtain ⟨exponent, fraction, ne⟩ := toNat_fields code
    refine ⟨pack f s _ (BitVec.ofNat _ (code % f.fractions)), (ofBits_pack ne).trans ?_⟩
    refine congrArg (finite s) (Fin.ext ?_)
    show _ * f.fractions + _ = code.val
    rw [exponent, fraction, Nat.div_add_mod']

end Binary

end TypedStack
