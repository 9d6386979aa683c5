import Guillotine.Proofs.Decimal.Rounding

/-! The bits of a binary number of 64 bits. Packing a canonical number and unpacking it changes
nothing. The parts into which a number is taken apart for decimal work are those that it is unpacked
into. -/
namespace Guillotine

open Float.Model Float.Model.UnpackedFloat

namespace Binary64

abbrev Bits := BitVec Format.binary64.numBits

variable {b : Bits} {m : Nat} {e : Int} {s : Sign}

/-! ### Fields -/

theorem toNat_unpackMantissa : (unpackMantissa b).toNat = b.toNat % 2 ^ 52 := by
  simp [unpackMantissa, BitVec.extractLsb_toNat]

theorem toNat_unpackExponent : (unpackExponent b).toNat = b.toNat / 2 ^ 52 % 2 ^ 11 := by
  simp [unpackExponent, BitVec.extractLsb_toNat, Nat.shiftRight_eq_div_pow]

theorem toNat_unpackSign : (unpackSign b).toNat = b.toNat / 2 ^ 63 % 2 := by
  simp [unpackSign, BitVec.extractLsb_toNat, Nat.shiftRight_eq_div_pow]

theorem toNat_full (mantissa : BitVec 52) : (1#1 ++ mantissa).toNat = 2 ^ 52 + mantissa.toNat := by
  rw [BitVec.toNat_append, ← Nat.shiftLeft_add_eq_or_of_lt mantissa.isLt]
  rfl

theorem eq_neg_one_iff (v : BitVec 11) : v = -1#11 ↔ v.toNat = 2047 := by
  rw [← BitVec.toNat_inj]
  rfl

/-! ### Packing -/

theorem pack_subnormal (hm : 0 < m) (hlt : m < 2 ^ 52) :
    UnpackedFloat.pack Format.binary64 (.finite s m (-1074) hm) =
      packComponents Format.binary64 s 0#11 (BitVec.ofNat 52 m) := by
  have hlog : ¬ m.log2 + 1 = Format.binary64.mantissaBits := by
    have := (Nat.log2_lt hm.ne').2 hlt
    simp only [Format.mantissaBits]
    omega
  simp only [UnpackedFloat.pack]
  rw [if_neg (by decide), if_neg hlog]

theorem pack_normal (hm : 0 < m) (hfull : 2 ^ 52 ≤ m) (hlt : m < 2 ^ 53) (hleast : -1074 ≤ e)
    (hgreatest : e ≤ 971) :
    UnpackedFloat.pack Format.binary64 (.finite s m e hm) =
      packComponents Format.binary64 s (BitVec.ofNat 11 (e + 1075).toNat) (BitVec.ofNat 52 m) := by
  have hlog : m.log2 + 1 = Format.binary64.mantissaBits := by
    have := (Nat.log2_lt hm.ne').2 hlt
    have := (Nat.le_log2 hm.ne').2 hfull
    simp only [Format.mantissaBits]
    omega
  have hbiased : (e + Format.binary64.exponentBias + Format.binary64.mantissaBitsWithoutImplicit) =
      e + 1075 := by
    simp only [Format.exponentBias]
    omega
  simp only [UnpackedFloat.pack, hbiased]
  rw [if_neg (by omega), if_pos hlog]

/-! ### Unpacking -/

theorem unpack_subnormal (he : (unpackExponent b).toNat = 0) (hm : 0 < (unpackMantissa b).toNat) :
    UnpackedFloat.unpack Format.binary64 b =
      .finite (Sign.ofBitVec (unpackSign b)) (unpackMantissa b).toNat (-1074) hm := by
  have hz : unpackExponent b = 0#11 := BitVec.toNat_inj.1 he
  have hne : unpackMantissa b ≠ 0#52 := by
    intro h
    rw [h] at hm
    exact absurd hm (by decide)
  unfold UnpackedFloat.unpack
  dsimp only
  rw [if_neg (by rw [hz]; decide), if_pos hz, dif_neg hne]
  congr 1
  rw [hz]
  rfl

theorem unpack_normal (he : (unpackExponent b).toNat ≠ 0) (hf : (unpackExponent b).toNat ≠ 2047) :
    UnpackedFloat.unpack Format.binary64 b =
      .finite (Sign.ofBitVec (unpackSign b)) (2 ^ 52 + (unpackMantissa b).toNat)
        ((unpackExponent b).toNat - 1075) (Nat.add_pos_left (Nat.two_pow_pos 52) _) := by
  have hz : unpackExponent b ≠ 0#11 := fun h => he (by rw [h]; rfl)
  have hn : unpackExponent b ≠ -1#11 := fun h => hf ((eq_neg_one_iff _).1 h)
  unfold UnpackedFloat.unpack
  dsimp only
  rw [if_neg hn, if_neg hz]
  congr 1
  exact toNat_full _

theorem unpack_zero (he : (unpackExponent b).toNat = 0) (hm : (unpackMantissa b).toNat = 0) :
    UnpackedFloat.unpack Format.binary64 b = .zero (Sign.ofBitVec (unpackSign b)) := by
  have hz : unpackExponent b = 0#11 := BitVec.toNat_inj.1 he
  have hn : unpackMantissa b = 0#52 := BitVec.toNat_inj.1 hm
  unfold UnpackedFloat.unpack
  dsimp only
  rw [if_neg (by rw [hz]; decide), if_pos hz, dif_pos hn]

theorem isFinite_unpack :
    (UnpackedFloat.unpack Format.binary64 b).isFinite = true ↔ (unpackExponent b).toNat ≠ 2047 := by
  by_cases hf : (unpackExponent b).toNat = 2047
  · have hn : unpackExponent b = -1#11 := (eq_neg_one_iff _).2 hf
    unfold UnpackedFloat.unpack
    dsimp only
    rw [if_pos hn]
    split <;> simp [UnpackedFloat.isFinite, hf]
  · simp only [ne_eq, hf, not_false_eq_true, iff_true]
    by_cases he : (unpackExponent b).toNat = 0
    · rcases Nat.eq_zero_or_pos (unpackMantissa b).toNat with hzero | hpos
      · rw [unpack_zero he hzero]
        rfl
      · rw [unpack_subnormal he hpos]
        rfl
    · rw [unpack_normal he hf]
      rfl

/-- A canonical number that is not too large is unpacked as it was packed. -/
theorem unpack_pack (hc : Canonical m e) (he : e ≤ 971) :
    UnpackedFloat.unpack Format.binary64 (UnpackedFloat.pack Format.binary64
      (.finite s m e hc.pos)) = .finite s m e hc.pos := by
  have hlt := hc.lt
  have hleast := hc.least
  have hpos := hc.pos
  by_cases hfull : 2 ^ 52 ≤ m
  · rw [pack_normal hpos hfull hlt hleast he]
    have hexponent : (BitVec.ofNat 11 (e + 1075).toNat).toNat = (e + 1075).toNat := by
      rw [BitVec.toNat_ofNat]
      omega
    rw [unpack_normal (by rw [unpackExponent_packComponents, hexponent]; omega)
      (by rw [unpackExponent_packComponents, hexponent]; omega)]
    simp only [unpackSign_packComponents, unpackExponent_packComponents,
      unpackMantissa_packComponents, Sign.ofBitVec_toBitVec, hexponent, BitVec.toNat_ofNat,
      UnpackedFloat.finite.injEq, true_and]
    omega
  · obtain rfl : e = -1074 := hc.full.resolve_left hfull
    have hmantissa : (BitVec.ofNat 52 m).toNat = m := by
      rw [BitVec.toNat_ofNat]
      omega
    rw [pack_subnormal hpos (by omega)]
    rw [unpack_subnormal (by rw [unpackExponent_packComponents]; rfl)
      (by rw [unpackMantissa_packComponents, hmantissa]; exact hpos)]
    simp only [unpackSign_packComponents, unpackMantissa_packComponents, Sign.ofBitVec_toBitVec,
      hmantissa]

/-! ### Parts -/

/-- The sign that a number has if it is negative, and if it is not. -/
def sign (negative : Bool) : Sign := if negative then .negative else .positive

theorem sign_ofBitVec : Sign.ofBitVec (unpackSign b) = sign (decide (signBit ≤ b.toNat)) := by
  have hlt : b.toNat < 2 ^ 64 := b.isLt
  have hbit := toNat_unpackSign (b := b)
  unfold sign Sign.ofBitVec
  by_cases h : signBit ≤ b.toNat
  · have hone : unpackSign b ≠ 0#1 := by
      intro hz
      rw [hz] at hbit
      simp only [signBit, BitVec.toNat_ofNat] at *
      omega
    simp [h, hone]
  · have hzero : unpackSign b = 0#1 := by
      rw [← BitVec.toNat_inj, hbit]
      simp only [signBit, BitVec.toNat_ofNat] at *
      omega
    simp [h, hzero]

section OfFloat

variable {x : Float} {negative : Bool}

/-- The bits of a number. -/
def bits (x : Float) : Bits := x.toModel.toBits.toBitVec

theorem toNat_bits (x : Float) : (bits x).toNat = x.toBits.toNat := rfl

/-- The parts of a finite number are its fields. -/
theorem fields_of_ofFloat (hx : ofFloat x = .finite negative m e) :
    (unpackExponent (bits x)).toNat ≠ 2047 ∧
      negative = decide (signBit ≤ (bits x).toNat) ∧
      (((unpackExponent (bits x)).toNat = 0 ∧ m = (unpackMantissa (bits x)).toNat ∧ e = -1074) ∨
        ((unpackExponent (bits x)).toNat ≠ 0 ∧ m = 2 ^ 52 + (unpackMantissa (bits x)).toNat ∧
          e = (unpackExponent (bits x)).toNat - 1075)) := by
  rw [toNat_unpackExponent, toNat_unpackMantissa, toNat_bits]
  unfold ofFloat leadingBit at hx
  dsimp only at hx
  split at hx
  next => split at hx <;> cases hx
  next hf =>
    refine ⟨hf, ?_⟩
    split at hx
    next hz =>
      cases hx
      exact ⟨rfl, .inl ⟨hz, rfl, rfl⟩⟩
    next hz =>
      cases hx
      exact ⟨rfl, .inr ⟨hz, rfl, rfl⟩⟩

/-- The finite numbers are those that have parts. -/
theorem isFinite_iff (x : Float) :
    x.isFinite = true ↔ ∃ negative m e, ofFloat x = .finite negative m e := by
  apply (isFinite_unpack (b := bits x)).trans
  constructor
  · intro hf
    rw [toNat_unpackExponent, toNat_bits] at hf
    have hbiased : ¬ x.toBits.toNat / leadingBit % 2048 = 2047 := hf
    unfold ofFloat
    dsimp only
    rw [if_neg hbiased]
    split
    · exact ⟨_, _, _, rfl⟩
    · exact ⟨_, _, _, rfl⟩
  · rintro ⟨negative, m, e, hx⟩
    exact (fields_of_ofFloat hx).1

/-- A number is unpacked into the parts into which it is taken apart. -/
theorem unpack_of_ofFloat (hm : 0 < m) (hx : ofFloat x = .finite negative m e) :
    x.toModel.unpack = .finite (sign negative) m e hm := by
  change UnpackedFloat.unpack Format.binary64 (bits x) = _
  obtain ⟨hf, rfl, ⟨hz, rfl, rfl⟩ | ⟨hz, rfl, rfl⟩⟩ := fields_of_ofFloat hx
  · rw [unpack_subnormal hz hm, sign_ofBitVec]
  · rw [unpack_normal hz hf, sign_ofBitVec]

theorem canonical_of_ofFloat (hm : 0 < m) (hx : ofFloat x = .finite negative m e) :
    Canonical m e ∧ e ≤ 971 := by
  have hmantissa : (unpackMantissa (bits x)).toNat < 2 ^ 52 := (unpackMantissa (bits x)).isLt
  have hexponent : (unpackExponent (bits x)).toNat < 2 ^ 11 := (unpackExponent (bits x)).isLt
  obtain ⟨hf, -, ⟨-, hm', he⟩ | ⟨hz, hm', he⟩⟩ := fields_of_ofFloat hx
  · exact ⟨⟨hm, by omega, by omega, by omega⟩, by omega⟩
  · exact ⟨⟨hm, by omega, by omega, by omega⟩, by omega⟩

theorem eq_ofModel_of_bits {f : Float.Model} (h : f.toBits.toBitVec = bits x) :
    x = Float.ofModel f := by
  obtain ⟨y⟩ := x
  obtain ⟨u, hu⟩ := y
  obtain ⟨v, hv⟩ := f
  obtain rfl : v = u := UInt64.toBitVec_inj.1 h
  rfl

/-- A number other than zero is what its parts are packed into. -/
theorem eq_pack_of_ofFloat (hm : 0 < m) (hx : ofFloat x = .finite negative m e) :
    x = Float.ofModel (Float.Model.pack (.finite (sign negative) m e hm)) := by
  apply eq_ofModel_of_bits
  have hpack : UnpackedFloat.pack Format.binary64 x.toModel.unpack = bits x :=
    pack_unpack_of_valid x.toModel.valid
  rw [unpack_of_ofFloat hm hx] at hpack
  exact hpack

theorem eq_of_bits {x y : Float} (h : (bits x).toNat = (bits y).toNat) : x = y :=
  Float.toBits_inj.1 (UInt64.toNat_inj.1 h)

/-- A number without a mantissa is a zero. -/
theorem eq_zero_of_ofFloat (hx : ofFloat x = .finite negative 0 e) :
    x = if negative then -0 else 0 := by
  obtain ⟨-, rfl, ⟨hz, hm, -⟩ | ⟨-, hm, -⟩⟩ := fields_of_ofFloat hx
  · rw [toNat_unpackExponent] at hz
    rw [toNat_unpackMantissa] at hm
    have hlt : (bits x).toNat < 2 ^ 64 := (bits x).isLt
    have hbits : signBit = 2 ^ 63 := rfl
    by_cases hneg : signBit ≤ (bits x).toNat
    · have hb : (bits x).toNat = 2 ^ 63 := by omega
      rw [if_pos (decide_eq_true hneg)]
      exact eq_of_bits (hb.trans (by decide +kernel))
    · have hb : (bits x).toNat = 0 := by omega
      rw [if_neg (by simpa using hneg)]
      exact eq_of_bits (hb.trans (by decide +kernel))
  · omega

end OfFloat

end Binary64

end Guillotine
