/-
Module: Plotline.Proofs.NumberText
Layer: Proofs
Purpose: Numbers and their texts, as far as lines hold them. A number that is read from digits and points
  has no sign (`Number.isNegative_of_read`): rounding keeps the sign, and so do products and quotients of
  unsigned numbers. A finite number without a sign is written in digits and points
  (`Number.text_isNumerals`), and a natural number in digits that read back (`Number.readNatural_digits`).
Main exports: Number.IsUnsigned, Number.isNegative_of_read, Number.text_isNumerals,
  Number.lt_of_readNatural, Number.readNatural_digits
-/
import Plotline.Number.Reader
import Plotline.Number.Text
import Plotline.Proofs.TokenText

namespace Plotline

namespace Number

open Float.Model (UnpackedFloat Format)

/-! ### Signs -/

/-- The number has a positive sign, or is no number. -/
def IsUnsigned : UnpackedFloat → Prop
  | .infinity sign | .zero sign | .finite sign .. => sign = .positive
  | .notANumber => True

theorem IsUnsigned.ite {c : Prop} [Decidable c] {u v : UnpackedFloat} (holds : IsUnsigned u)
    (fails : IsUnsigned v) : IsUnsigned (if c then u else v) := by
  split
  · exact holds
  · exact fails

theorem IsUnsigned.dite {c : Prop} [Decidable c] {u : c → UnpackedFloat} {v : ¬c → UnpackedFloat}
    (holds : ∀ h, IsUnsigned (u h)) (fails : ∀ h, IsUnsigned (v h)) :
    IsUnsigned (if h : c then u h else v h) := by
  split
  · exact holds _
  · exact fails _

theorem isUnsigned_round (spec : Format) (m : Nat) (e : Int) (accuracy : UnpackedFloat.Accuracy) :
    IsUnsigned (UnpackedFloat.roundWithAccuracy spec .positive m e accuracy) := by
  fun_cases UnpackedFloat.roundWithAccuracy spec .positive m e accuracy
  · rfl
  · rfl

theorem IsUnsigned.mul {spec : Format} {u v : UnpackedFloat} (left : IsUnsigned u) (right : IsUnsigned v) :
    IsUnsigned (UnpackedFloat.mul spec u v) := by
  cases u with
  | notANumber => trivial
  | infinity | zero =>
      cases left
      cases v <;> cases right <;> trivial
  | finite s m e =>
      cases left
      cases v with
      | finite => cases right; exact isUnsigned_round ..
      | _ => cases right; trivial

theorem IsUnsigned.div {spec : Format} {u v : UnpackedFloat} (left : IsUnsigned u) (right : IsUnsigned v) :
    IsUnsigned (UnpackedFloat.div spec u v) := by
  cases u with
  | notANumber => trivial
  | infinity | zero =>
      cases left
      cases v <;> cases right <;> trivial
  | finite s m e =>
      cases left
      cases v with
      | finite => cases right; exact isUnsigned_round ..
      | _ => cases right; trivial

theorem isUnsigned_ofNat (spec : Format) (n : Nat) : IsUnsigned (UnpackedFloat.ofNat spec n) := by
  unfold UnpackedFloat.ofNat UnpackedFloat.ofInt UnpackedFloat.normalize
  split
  · rename_i below
    have negative := Int.compare_eq_lt.1 below
    omega
  · rfl
  · exact isUnsigned_round ..

theorem isUnsigned_ofScientific (spec : Format) (m : Nat) (e : Int) :
    IsUnsigned (UnpackedFloat.ofScientific spec m e) := by
  fun_cases UnpackedFloat.ofScientific spec m e
  · rfl
  · rfl
  · rfl
  · exact IsUnsigned.mul rfl rfl
  · exact IsUnsigned.div rfl rfl

/-! ### The sign bit -/

/-- The sign bit of a number. -/
def signBit (x : Float) : BitVec 1 :=
  @UnpackedFloat.unpackSign .binary64 x.toBits.toBitVec

theorem isNegative_eq_false {x : Float} : isNegative x = false ↔ signBit x = 0#1 := by
  have bound := x.toBits.toNat_lt
  have topBit : signBit x = x.toBits.toBitVec.extractLsb 63 63 := rfl
  rw [isNegative, beq_eq_false_iff_ne, ne_eq, ← UInt64.toNat_inj, UInt64.toNat_shiftRight, topBit,
    ← BitVec.toNat_inj]
  simp [BitVec.extractLsb, Nat.shiftRight_eq_div_pow]
  omega

theorem isNegative_pack {u : UnpackedFloat} (h : IsUnsigned u) :
    isNegative (.ofModel (.pack u)) = false := by
  apply isNegative_eq_false.2
  change UnpackedFloat.unpackSign (UnpackedFloat.pack .binary64 u) = 0#1
  -- For any format, since the widths of this one would be computed and the parts no longer be seen.
  have onTop (format : Format) (sign : UnpackedFloat.Sign) (exponent mantissa) :
      UnpackedFloat.unpackSign (UnpackedFloat.packComponents format sign exponent mantissa) =
        sign.toBitVec := by
    ext i (_ | ⟨⟨⟩⟩)
    show (BitVec.cast _ (BitVec.extractLsb (_ + _) (_ + _) _))[0] = _
    simp +arith [UnpackedFloat.packComponents, BitVec.extractLsb, BitVec.getElem_append]
  fun_cases UnpackedFloat.pack .binary64 u
  · exact onTop ..
  all_goals
    cases h
    exact onTop ..

theorem isUnsigned_unpack {x : Float} (h : isNegative x = false) : IsUnsigned x.toModel.unpack := by
  have positive := congrArg UnpackedFloat.Sign.ofBitVec (isNegative_eq_false.1 h)
  -- The exponent has all bits set, has none set, or is that of a number with a leading one.
  exact .ite (.ite positive trivial) (.ite (.dite (fun _ => positive) fun _ => positive) positive)

theorem isNegative_mul {x y : Float} (left : isNegative x = false) (right : isNegative y = false) :
    isNegative (x * y) = false :=
  isNegative_pack ((isUnsigned_unpack left).mul (isUnsigned_unpack right))

theorem isNegative_div {x y : Float} (left : isNegative x = false) (right : isNegative y = false) :
    isNegative (x / y) = false :=
  isNegative_pack ((isUnsigned_unpack left).div (isUnsigned_unpack right))

/-! ### Reading -/

theorem isNegative_powerOfTen {e : Nat} (h : e < Float.exactlyRepresentablePowersOfTen.size) :
    isNegative Float.exactlyRepresentablePowersOfTen[e] = false := by
  have all : ∀ x ∈ Float.exactlyRepresentablePowersOfTen.toList, isNegative x = false := by
    decide +kernel
  exact all _ (Array.getElem_mem_toList h)

/-- Both ways of reading a decimal, by one operation or by the exact value, give no sign. -/
theorem isNegative_ofScientific (m : Nat) (s : Bool) (e : Nat) :
    isNegative (Float.ofScientific m s e) = false := by
  unfold Float.ofScientific
  split
  · have whole : isNegative m.toUInt64.toFloat = false := isNegative_pack (isUnsigned_ofNat _ _)
    dsimp only
    split
    · exact isNegative_div whole (isNegative_powerOfTen _)
    · exact isNegative_mul whole (isNegative_powerOfTen _)
  · exact isNegative_pack (isUnsigned_ofScientific _ _ _)

theorem isNegative_ofDecimal (significand digitBound : Nat) (exponent : Int) :
    isNegative (ofDecimal significand digitBound exponent) = false := by
  unfold ofDecimal
  split
  · exact isNegative_ofScientific ..
  · split
    · exact isNegative_div (isNegative_ofScientific ..) (isNegative_ofScientific ..)
    · split
      · exact isNegative_ofScientific ..
      · exact isNegative_ofScientific ..

theorem isNegative_readDecimal {cs : List Char} {x : Float} (h : readDecimal? cs = some x) :
    isNegative x = false := by
  unfold readDecimal? at h
  dsimp only at h
  split at h
  all_goals
    split at h
    · cases h
    · rcases Option.map_eq_some_iff.1 h with ⟨exponent, _, rfl⟩
      exact isNegative_ofDecimal ..

theorem isNegative_readMagnitude {cs : List Char} {x : Float} (h : readMagnitude? cs = some x) :
    isNegative x = false := by
  unfold readMagnitude? at h
  dsimp only at h
  split at h
  · cases h
    exact isNegative_div (isNegative_ofScientific ..) (isNegative_ofScientific ..)
  · split at h
    · cases h
      exact isNegative_div (isNegative_ofScientific ..) (isNegative_ofScientific ..)
    · exact isNegative_readDecimal h

/-- A number that is written in digits and points has no sign. -/
theorem isNegative_of_read {s : String} {x : Float} (written : Token.IsNumerals s)
    (h : read? s = some x) : isNegative x = false := by
  have unsigned : splitSign s.toList = (false, s.toList) := by
    have numerals := written.numerals
    unfold splitSign
    split
    · rename_i minus
      have numeral := numerals '-' (by simp [minus])
      cases numeral
    · rename_i plus
      have numeral := numerals '+' (by simp [plus])
      cases numeral
    · rfl
  unfold read? at h
  rw [unsigned] at h
  rcases Option.map_eq_some_iff.1 h with ⟨y, read, rfl⟩
  exact isNegative_readMagnitude read

/-! ### Writing -/

theorem toDigits_numerals (n : Nat) : ∀ c ∈ Nat.toDigits 10 n, Token.isNumeral c = true := by
  intro c mem
  have digit := Nat.isDigit_of_mem_toDigits (by decide) (by decide) mem
  exact Bool.or_eq_true_iff.2 (Or.inl digit)

theorem toDigits_isNumerals (n : Nat) : Token.IsNumerals (String.ofList (Nat.toDigits 10 n)) := by
  constructor
  · simp [Nat.toDigits_ne_nil]
  · rw [String.toList_ofList]
    exact toDigits_numerals n

theorem positional_numerals (d : Decimal) :
    d.positional ≠ [] ∧ ∀ c ∈ d.positional, Token.isNumeral c = true := by
  have zeros : ∀ n, ∀ c ∈ List.replicate n '0', Token.isNumeral c = true := by
    intro n c mem
    rw [(List.mem_replicate.1 mem).2]
    rfl
  unfold Decimal.positional
  dsimp only
  split
  · constructor
    · simp [Nat.toDigits_ne_nil]
    · exact List.forall_mem_append.2 ⟨toDigits_numerals _, zeros _⟩
  · constructor
    · simp
    · have padded := fun n => List.forall_mem_append.2 ⟨zeros n, toDigits_numerals d.digits⟩
      refine List.forall_mem_append.2 ⟨?_, List.forall_mem_cons.2 ⟨rfl, ?_⟩⟩
      · exact fun c mem => padded _ c (List.mem_of_mem_take mem)
      · exact fun c mem => padded _ c (List.mem_of_mem_drop mem)

theorem magnitude_numerals (m : Magnitude) :
    m.text ≠ [] ∧ ∀ c ∈ m.text, Token.isNumeral c = true := by
  unfold Magnitude.text
  split
  · exact ⟨by simp, List.all_eq_true.1 rfl⟩
  · exact positional_numerals _

/-- A finite number without a sign is written in digits and points. -/
theorem text_isNumerals {x : Float} (finite : isFinite x = true) (unsigned : isNegative x = false) :
    Token.IsNumerals (text x) := by
  have isNumber : isNaN x = false := by
    have exponent : (exponentBits x == 0x7FF) = false := bne_iff_ne.1 finite |> beq_eq_false_iff_ne.2
    rw [isNaN, exponent, Bool.false_and]
  have written : (text x).toList = (magnitude x).text := by
    simp [text, characters, isNumber, finite, unsigned]
  have numerals := magnitude_numerals (magnitude x)
  rw [← written] at numerals
  exact ⟨numerals.1, numerals.2⟩

/-- What is read as a natural number is not too large. -/
theorem lt_of_readNatural {s : String} {n : Nat} (h : readNatural? s = some n) : n < naturalLimit := by
  rcases Option.filter_eq_some_iff.1 h with ⟨_, below⟩
  exact of_decide_eq_true below

/-- A natural number that is not too large is written in digits that read back. -/
theorem readNatural_digits {n : Nat} (h : n < naturalLimit) :
    readNatural? (String.ofList (Nat.toDigits 10 n)) = some n := by
  have digits : ∀ c ∈ Nat.toDigits 10 n, c.isDigit = true := fun c mem =>
    Nat.isDigit_of_mem_toDigits (by decide) (by decide) mem
  have value : ofDigits (Nat.toDigits 10 n) = n := Nat.ofDigitChars_ten_toDigits
  have read : digits? (Nat.toDigits 10 n) = some n := by
    simpa [digits?, Nat.toDigits_ne_nil, value] using digits
  rw [readNatural?, String.toList_ofList]
  split
  · rename_i plus
    have digit := digits '+' (by simp [plus])
    cases digit
  · rw [read]
    simp [Option.filter, h]

end Number

end Plotline
