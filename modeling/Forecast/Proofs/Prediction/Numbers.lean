import Mathlib
import Forecast.Proofs.Operand.Numbers
import Forecast.Proofs.Prediction.Runs

/-!
# Predictions Equal to Themselves

Predictions are compared with the equality of binary numbers, in which a price that is not a number
differs from itself. So a prediction need not be equal to itself, and one that has not changed at
all could count as changed. That it is equal to itself is a fact about where its prices come from:
the numbers among its operands are read from texts, its error margins are bounded, and ticks have
finite prices. A prediction of such prices is *proper* (`Prediction.IsProper`), and a proper
prediction is equal to itself (`Prediction.IsProper.beq_self`).

## Main results

* `Prediction.IsProper.beq_self`: a proper prediction is equal to itself.
* `Prediction.IsCompiled.isProper`: compiled predictions are proper.
* `Condition.IsProper.feed`: ticks whose values are numbers keep a condition proper.
-/

namespace Forecast

open Float.Model (UnpackedFloat Format)

/-! ### Prices that are numbers -/

/-- Whether a price is a number: only what is not a number differs from itself. -/
def IsNumber (v : Price) : Prop :=
  (v == v) = true

instance (v : Price) : Decidable (IsNumber v) :=
  inferInstanceAs (Decidable (_ = _))

/-- A finite price is a number. -/
theorem isNumber_of_isFinite {v : Price} (h : v.isFinite = true) : IsNumber v := by
  refine Float.beq_self_iff.2 ?_
  rintro rfl
  cases h

/-- A price that can be compared with zero is a number. -/
theorem isNumber_of_nonneg {v : Price} (h : (0 : Price) ≤ v) : IsNumber v := by
  refine Float.beq_self_iff.2 ?_
  rintro rfl
  exact absurd h (by decide +kernel)

/-- Packing makes nothing that is not a number out of something else. -/
theorem unpack_pack_ne_notANumber {format : Format} {x : UnpackedFloat} (h : x ≠ .notANumber) :
    UnpackedFloat.unpack format (x.pack format) ≠ .notANumber := by
  have hexponent := format.he
  have hpow := Nat.pow_le_pow_right (n := 2) (by decide) hexponent
  -- not a number is only what has the largest exponent and a mantissa that is not zero
  have of_components (s : UnpackedFloat.Sign) (e : BitVec format.exponentBits)
      (k : BitVec format.mantissaBitsWithoutImplicit) (hk : e = -1#_ → k = 0#_) :
      UnpackedFloat.unpack format (UnpackedFloat.packComponents format s e k) ≠ .notANumber := by
    rw [UnpackedFloat.unpack]
    simp only [UnpackedFloat.unpackExponent_packComponents,
      UnpackedFloat.unpackMantissa_packComponents]
    split
    · next he =>
        rw [if_pos (hk he)]
        nofun
    · split
      · split <;> nofun
      · nofun
  fun_cases UnpackedFloat.pack with
  | case1 => exact absurd rfl h
  | case2 s => exact of_components _ _ _ fun _ => rfl
  | case3 s => exact of_components _ _ _ fun _ => rfl
  | case4 s m e hm biasedExponent hlarge => exact of_components _ _ _ fun _ => rfl
  | case5 s m e hm mantissaBits biasedExponent hsmall hnormal =>
      refine of_components _ _ _ fun he => ?_
      have hnat := congrArg BitVec.toNat he
      rw [BitVec.toNat_ofNat, BitVec.neg_one_eq_allOnes, BitVec.toNat_allOnes,
        Nat.mod_eq_of_lt (by omega)] at hnat
      omega
  | case6 s m e hm mantissaBits biasedExponent hsmall hsubnormal =>
      refine of_components _ _ _ fun he => ?_
      simp [Nat.pos_iff_ne_zero.1 hexponent] at he

/-- A product of two finite prices is a number, though it need not be finite. -/
theorem isNumber_mul {v w : Price} (hv : v.isFinite = true) (hw : w.isFinite = true) :
    IsNumber (v * w) := by
  have product {x y : UnpackedFloat} (hx : x.isFinite = true) (hy : y.isFinite = true) :
      UnpackedFloat.mul Format.binary64 x y ≠ .notANumber := by
    cases x <;> cases hx <;> cases y <;> cases hy <;>
      simp only [UnpackedFloat.mul, UnpackedFloat.roundWithAccuracy] <;> grind
  refine Float.beq_self_iff.2 fun hnan => ?_
  have hisNaN : (v * w).isNaN = true := by
    rw [hnan]
    rfl
  exact unpack_pack_ne_notANumber (product hv hw) (UnpackedFloat.isNaN_iff.1 hisNaN)

/-! ### Equality of what has no prices -/

mutual

theorem Clause.same_self : ∀ c : Clause, c.same c = true
  | .literal i => beq_self_eq_true i
  | .conj cs => Clause.sameList_self cs
  | .disj cs => Clause.sameList_self cs
  | .neg c => Clause.same_self c

theorem Clause.sameList_self : ∀ cs : List Clause, Clause.sameList cs cs = true
  | [] => rfl
  | c :: cs => Bool.and_eq_true_iff.2 ⟨Clause.same_self c, Clause.sameList_self cs⟩

end

instance : ReflBEq Clause := ⟨Clause.same_self _⟩

instance : ReflBEq Calendar.Instant := ⟨by
  simp [BEq.beq, Calendar.instBEqInstant.beq]⟩

instance : ReflBEq PredictionState := ⟨by
  simp [BEq.beq, instBEqPredictionState.beq]⟩

instance : ReflBEq PrePhase := ⟨by
  intro p
  change instBEqPrePhase.beq p p = true
  simp [instBEqPrePhase.beq]⟩

instance : ReflBEq MainPhase := ⟨by
  intro p
  change instBEqMainPhase.beq p p = true
  simp [instBEqMainPhase.beq]⟩

/-- A list of members that are equal to themselves is equal to itself. -/
theorem list_beq_self {α : Type} [BEq α] {xs : List α} (h : ∀ x ∈ xs, (x == x) = true) :
    (xs == xs) = true := by
  induction xs with
  | nil => rfl
  | cons x xs ih =>
      obtain ⟨hx, hxs⟩ := List.forall_mem_cons.1 h
      rw [List.cons_beq_cons, hx, ih hxs]
      rfl

/-! ### Proper predictions -/

/-- Whether all prices that a condition holds are numbers. -/
structure Condition.IsProper (c : Condition Price) : Prop where
  operands : ∀ v, .number v ∈ c.operands → IsNumber v
  margin : IsNumber c.margin
  ticks : ∀ t ∈ c.state.lastTicks.values, IsNumber t.value

/-- Whether all conditions of a prediction are proper. -/
def Prediction.IsProper (p : Prediction) : Prop :=
  ∀ c ∈ p.given, c.IsProper

/-- A proper condition is equal to itself. -/
theorem Condition.IsProper.beq_self {c : Condition Price} (h : c.IsProper) : (c == c) = true := by
  have hoperands : (c.operands == c.operands) = true := by
    refine list_beq_self fun o ho => ?_
    cases o with
    | number v => exact h.operands v ho
    | market i => exact beq_self_eq_true i
  have hticks : (c.state.lastTicks == c.state.lastTicks) = true := by
    refine list_beq_self fun e he => ?_
    have hvalue := h.ticks e.2 (List.mem_map_of_mem he)
    change ((e.1 == e.1) && ((e.2.timestamp == e.2.timestamp) && (e.2.value == e.2.value))) = true
    rw [beq_self_eq_true, beq_self_eq_true, show (e.2.value == e.2.value) = true from hvalue]
    rfl
  change instBEqCondition.beq c c = true
  have hstate : (c.state == c.state) = true := by
    change instBEqProgress.beq c.state c.state = true
    simp [instBEqProgress.beq, hticks]
  simp [instBEqCondition.beq, hoperands, hstate, show (c.margin == c.margin) = true from h.margin]

/-- **A proper prediction is equal to itself.** -/
theorem Prediction.IsProper.beq_self {p : Prediction} (h : p.IsProper) : (p == p) = true := by
  have hgiven : (p.given == p.given) = true := list_beq_self fun c hc => (h c hc).beq_self
  change instBEqPrediction.beq p p = true
  simp [instBEqPrediction.beq, hgiven]

/-- Ticks whose values are numbers keep a condition proper. -/
theorem Condition.IsProper.feed {c d : Condition Price} (h : c.IsProper) {z : TickSet Price}
    (hz : ∀ t ∈ z.values, IsNumber t.value) (hfeed : c.feed z = .ok d) : d.IsProper := by
  have hframe := (Condition.continues_of_feed hfeed).frame
  refine ⟨?_, ?_, ?_⟩
  · rw [hframe]
    exact h.operands
  · rw [hframe]
    exact h.margin
  · rcases Condition.state_of_feed hfeed with hstate | ⟨hticks, -⟩
    · rw [hstate]
      exact h.ticks
    · rw [hticks]
      exact hz

/-! ### Compiled predictions -/

namespace Operand

/-- What a letter at the end of a number multiplies by is finite. -/
theorem isFinite_of_multiplier? {c : Char} {factor : Price} (h : multiplier? c = some factor) :
    factor.isFinite = true := by
  unfold multiplier? at h
  split at h
  · cases h
    decide +kernel
  · cases h
    decide +kernel
  · cases h
    decide +kernel
  · cases h

/-- The factor of a number is finite. -/
theorem isFinite_splitMultiplier (cs : List Char) : (splitMultiplier cs).2.isFinite = true := by
  rw [splitMultiplier]
  split
  · next factor hfactor =>
      obtain ⟨c, -, hc⟩ := Option.bind_eq_some_iff.1 hfactor
      exact isFinite_of_multiplier? hc
  · change (1 : Price).isFinite = true
    decide +kernel

/-- A number that is read as an operand is one. -/
theorem isNumber_of_parse {s : String} {v : Price} (h : parse s = .ok (.number v)) :
    IsNumber v := by
  obtain ⟨number, -, hread⟩ := parse_eq_number_iff.1 h
  obtain ⟨w, -, hfinite, rfl⟩ := readNumber_eq_ok_iff.1 hread
  exact isNumber_mul hfinite (isFinite_splitMultiplier _)

end Operand

namespace Compile

/-- Numbers among operands that are read are numbers. -/
theorem isNumber_of_readOperands {name : String} {texts : List String} {os : List (Operand Price)}
    (h : readOperands name texts = .ok os) : ∀ v, .number v ∈ os → IsNumber v := by
  induction texts generalizing os with
  | nil =>
      cases h
      exact fun v hv => absurd hv List.not_mem_nil
  | cons text rest ih =>
      rw [readOperands] at h
      split at h
      · cases h
      · next o ho =>
          cases hrest : readOperands name rest with
          | error e =>
              rw [hrest] at h
              cases h
          | ok os' =>
              rw [hrest] at h
              cases h
              intro v hv
              rcases List.mem_cons.1 hv with rfl | hv
              · exact Operand.isNumber_of_parse ho
              · exact ih hrest v hv

/-- A compiled condition is proper. -/
theorem isProper_of_condition {name : String} {draft : ConditionDraft}
    {postedAt : Calendar.Instant} {c : Condition Price}
    (h : condition name draft postedAt = .ok c) : c.IsProper := by
  obtain ⟨comparison, texts, operands, start, stop, ratio, -, hread, -, hmargin, rfl⟩ :=
    exists_of_condition h
  rw [isMargin, Bool.and_eq_true, decide_eq_true_eq] at hmargin
  exact ⟨isNumber_of_readOperands hread, isNumber_of_nonneg hmargin.1,
    fun t ht => absurd ht List.not_mem_nil⟩

end Compile

/-- **A compiled prediction is proper,** evaluated or not. -/
theorem Prediction.IsCompiled.isProper {p : Prediction} (h : p.IsCompiled) : p.IsProper := by
  obtain ⟨draft, createdAt, q, hq, hp⟩ := h
  have hproper : q.IsProper :=
    (Compile.forall_of_prediction (fun _ _ _ _ => Compile.isProper_of_condition) hq).2
  rcases hp with rfl | rfl
  · exact hproper
  · exact hproper

end Forecast
