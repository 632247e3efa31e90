import Forecast.Decimal.Style
import Forecast.Proofs.Decimal.Shortest

/-!
# How Numbers Are Spelled

A number in a document is spelled by its sign, the digits of its whole part, those of its fraction if
there is a point, and the sign and digits of its exponent if there is one (`Spelling`). The spelling is
*strict* (`Spelling.IsStrict`) if there are digits wherever there may be some, and no zero in front of
other digits: exactly then every reader of documents takes it for a number.

What is written for a finite number in a stored document is a strict spelling (`Spelling.ofFloat`).
The only thing to know about the shortest digits is that they are not those of zero: no decimal
without a digit other than zero is near a number that is not zero.

## Main results

* `write_stored`, `isStrict_ofFloat`: what is written for a finite number.
-/

namespace Forecast.Decimal

/-- A number as it is spelled in a document. -/
structure Spelling where
  negative : Bool
  whole : List Char
  fraction : Option (List Char)
  /-- The sign and the digits of the exponent. -/
  exponent : Option (Char × List Char)

namespace Spelling

/-- The sign in front of a number. -/
def signChars (negative : Bool) : List Char :=
  if negative then ['-'] else []

/-- The point and the digits behind it. -/
def fractionChars : Option (List Char) → List Char
  | none => []
  | some ds => '.' :: ds

/-- The letter of the exponent, its sign and its digits. -/
def exponentChars : Option (Char × List Char) → List Char
  | none => []
  | some (sign, ds) => 'e' :: sign :: ds

/-- The characters of a spelling. -/
def chars (n : Spelling) : List Char :=
  signChars n.negative ++ (n.whole ++ (fractionChars n.fraction ++ exponentChars n.exponent))

/-- Whether there are digits wherever there may be some, and no zero in front of other digits. -/
structure IsStrict (n : Spelling) : Prop where
  digits : AreDigits n.whole
  ne_nil : n.whole ≠ []
  single : n.whole.head? = some '0' → n.whole = ['0']
  fraction : ∀ ds, n.fraction = some ds → AreDigits ds ∧ ds ≠ []
  exponent : ∀ sign ds, n.exponent = some (sign, ds) →
    (sign = '+' ∨ sign = '-') ∧ AreDigits ds ∧ ds ≠ []

/-! ### Whole numbers -/

/-- The spelling of a whole number. -/
def ofInt (i : Int) : Spelling :=
  ⟨i < 0, natDigits i.natAbs, none, none⟩

theorem isStrict_ofInt (i : Int) : (ofInt i).IsStrict where
  digits := areDigits_natDigits _
  ne_nil := natDigits_ne_nil _
  single h := by
    by_cases hzero : i.natAbs = 0
    · simp only [ofInt, hzero]
      rfl
    · exact absurd h (head?_natDigits hzero)
  fraction ds h := by cases h
  exponent sign ds h := by cases h

/-- What is written for a whole number is its spelling. -/
theorem toString_int (i : Int) : (toString i).toList = (ofInt i).chars := by
  have hnat (n : Nat) : (Nat.repr n).toList = natDigits n := Nat.toList_repr
  rw [Int.toString_eq_repr, Int.repr_eq_if]
  by_cases hneg : i < 0
  · have habs : (-i).toNat = i.natAbs := by omega
    rw [if_neg (by omega)]
    simp [ofInt, chars, signChars, fractionChars, exponentChars, hneg, hnat, habs]
  · have habs : i.toNat = i.natAbs := by omega
    rw [if_pos (by omega)]
    simp [ofInt, chars, signChars, fractionChars, exponentChars, hneg, hnat, habs]

/-! ### Decimal numbers -/

/-- The spelling of a decimal number in a stored document. -/
def ofScaled (negative : Bool) (s : Scaled) : Spelling :=
  let digits := natDigits s.digits
  let leading := s.exponent + digits.length - 1
  let places := (-s.exponent).toNat
  if -5 ≤ leading ∧ leading ≤ 15 then
    if 0 ≤ s.exponent then
      ⟨negative, digits ++ List.replicate s.exponent.toNat '0', some ['0'], none⟩
    else if places < digits.length then
      ⟨negative, digits.take (digits.length - places), some (digits.drop (digits.length - places)),
        none⟩
    else ⟨negative, ['0'], some (List.replicate (places - digits.length) '0' ++ digits), none⟩
  else
    ⟨negative, digits.take 1, if digits.tail = [] then none else some digits.tail,
      some (if leading < 0 then '-' else '+', padZeros 1 leading.natAbs)⟩

/-- What is written for a decimal number is its spelling. -/
theorem writeScaled_stored (negative : Bool) (s : Scaled) :
    signChars negative ++ stored.writeScaled s = (ofScaled negative s).chars := by
  simp only [Style.writeScaled, stored, ofScaled]
  split
  · rw [writePositional]
    dsimp only
    split
    · simp [chars, fractionChars, exponentChars]
    split
    · simp [chars, fractionChars, exponentChars]
    · simp [chars, fractionChars, exponentChars]
  · obtain ⟨d, ds, hds⟩ := List.exists_cons_of_ne_nil (natDigits_ne_nil s.digits)
    rw [hds]
    cases ds with
    | nil => simp [writeScientific, chars, fractionChars, exponentChars]
    | cons e ds => simp [writeScientific, chars, fractionChars, exponentChars]

/-- The spelling of a decimal number other than zero is strict. -/
theorem isStrict_ofScaled (negative : Bool) {s : Scaled} (hs : s.digits ≠ 0) :
    (ofScaled negative s).IsStrict := by
  have hdigits := areDigits_natDigits s.digits
  have hne := natDigits_ne_nil s.digits
  have hhead := head?_natDigits hs
  have hzero : AreDigits ['0'] ∧ ['0'] ≠ [] := ⟨by simp [AreDigits], by simp⟩
  rw [ofScaled]
  split
  · split
    · refine ⟨hdigits.append (areDigits_replicate_zero _), by simp [hne], fun h => ?_, ?_, ?_⟩
      · rw [List.head?_append, Option.or_of_isSome (by simp [hne])] at h
        exact absurd h hhead
      · rintro ds ⟨⟩
        exact hzero
      · rintro sign ds ⟨⟩
    split
    · next hneg hplaces =>
        refine ⟨fun c hc => hdigits c (List.mem_of_mem_take hc), ?_, fun h => ?_, ?_, ?_⟩
        · rw [Ne, List.take_eq_nil_iff]
          rintro (hcount | hnil)
          · omega
          · exact hne hnil
        · rw [List.head?_take, if_neg (by omega)] at h
          exact absurd h hhead
        · rintro ds ⟨⟩
          refine ⟨fun c hc => hdigits c (List.mem_of_mem_drop hc), ?_⟩
          rw [Ne, List.drop_eq_nil_iff]
          omega
        · rintro sign ds ⟨⟩
    · refine ⟨hzero.1, hzero.2, fun _ => rfl, ?_, ?_⟩
      · rintro ds ⟨⟩
        exact ⟨(areDigits_replicate_zero _).append hdigits, by simp [hne]⟩
      · rintro sign ds ⟨⟩
  · refine ⟨fun c hc => hdigits c (List.mem_of_mem_take hc), by simp [hne], fun h => ?_, ?_, ?_⟩
    · rw [List.head?_take, if_neg (by decide)] at h
      exact absurd h hhead
    · intro ds h
      split at h
      · cases h
      · next htail =>
          cases h
          exact ⟨fun c hc => hdigits c (List.mem_of_mem_tail hc), htail⟩
    · rintro sign ds ⟨⟩
      refine ⟨?_, areDigits_padZeros _ _, padZeros_ne_nil _ _⟩
      split
      · exact Or.inr rfl
      · exact Or.inl rfl

end Spelling

/-! ### Binary numbers -/

/-- Binary numbers of the same bits are the same. -/
theorem eq_of_toBits {x y : Float} (h : x.toBits = y.toBits) : x = y := by
  obtain ⟨⟨a, ha⟩⟩ := x
  obtain ⟨⟨b, hb⟩⟩ := y
  cases h
  rfl

/-- A finite number is a number, and not infinite. -/
theorem not_special_of_isFinite {x : Float} (h : x.isFinite = true) :
    x.isNaN = false ∧ x.isInf = false := by
  have hunpack : x.toModel.unpack.isFinite = true := h
  change x.toModel.unpack.isNaN = false ∧ x.toModel.unpack.isInf = false
  revert hunpack
  cases x.toModel.unpack with
  | infinity => nofun
  | notANumber => nofun
  | zero => exact fun _ => ⟨rfl, rfl⟩
  | finite => exact fun _ => ⟨rfl, rfl⟩

/-- The mantissa of a number other than zero is not zero. -/
theorem mantissa_ofFloat_ne_zero {x : Float} (h : (x == 0) = false) :
    (Binary.ofFloat x).mantissa ≠ 0 := by
  intro hzero
  simp only [Binary.ofFloat] at hzero
  split at hzero
  · next hfield =>
      have hfield : x.toBits.toNat / 2 ^ 52 % 2 ^ 11 = 0 := hfield
      have hfraction : x.toBits.toNat % 2 ^ 52 = 0 := hzero
      have hbits : x.toBits.toNat = 0 ∨ x.toBits.toNat = 2 ^ 63 := by
        have := x.toBits.toNat_lt
        omega
      have hx : x = 0 ∨ x = -0 := by
        refine hbits.imp (fun hplus => ?_) (fun hminus => ?_)
        · exact eq_of_toBits (UInt64.toNat_inj.1 (hplus.trans (by decide +kernel)))
        · exact eq_of_toBits (UInt64.toNat_inj.1 (hminus.trans (by decide +kernel)))
      rcases hx with rfl | rfl <;> revert h <;> decide +kernel
  · simp [twoTo] at hzero

namespace Spelling

/-- The spelling of a finite number in a stored document. -/
def ofFloat (x : Float) : Spelling :=
  if x == 0 then ⟨isNegative x, ['0'], some ['0'], none⟩
  else ofScaled (isNegative x) ((Binary.ofFloat x).shortest .even)

/-- **What is written for a finite number is its spelling.** -/
theorem write_stored {x : Float} (h : x.isFinite = true) : stored.write x = (ofFloat x).chars := by
  obtain ⟨hnumber, hbounded⟩ := not_special_of_isFinite h
  rw [Style.write, ofFloat]
  simp only [hnumber, hbounded, Bool.false_eq_true, if_false]
  split
  · rfl
  · exact writeScaled_stored _ _

/-- **The spelling of a number is strict.** -/
theorem isStrict_ofFloat (x : Float) : (ofFloat x).IsStrict := by
  rw [ofFloat]
  split
  · refine ⟨by simp [AreDigits], by simp, fun _ => rfl, ?_, ?_⟩
    · rintro ds ⟨⟩
      exact ⟨by simp [AreDigits], by simp⟩
    · rintro sign ds ⟨⟩
  · next hzero =>
      exact isStrict_ofScaled _ (Binary.shortest_digits_ne_zero
        (mantissa_ofFloat_ne_zero (Bool.eq_false_iff.2 hzero)) _)

end Spelling

end Forecast.Decimal
