import FramePacing.Proofs.Binary.Significand

/-!
# How core's float model stores numbers

A float is stored as a sign, eleven bits of exponent and 52 bits of significand.  A canonical number
below `2 ^ 1024` is stored as it is and anything larger becomes infinite.

* `unpack_pack`, `unpack_pack_of_le` — what is read back of a number that was stored.
* `exists_canonical` — every finite float holds a canonical number below `2 ^ 1024`.
* `toNat_toBits` — read as a natural number, the bits of a positive float count the floats below it.
-/

namespace FramePacing.Binary

open Float.Model Float.Model.UnpackedFloat

/-! ## Fields -/

/-- The finite number of a sign, a significand and an exponent. -/
def ofMagnitude (s : Sign) (m : ℕ) (e : ℤ) : UnpackedFloat :=
  if h : 0 < m then .finite s m e h else .zero s

/-- What a stored number says, read off its fields. -/
def ofFields (s : Sign) (E M : ℕ) : UnpackedFloat :=
  if E = 2047 then if M = 0 then .infinity s else .notANumber
  else if E = 0 then ofMagnitude s M (-1074)
  else ofMagnitude s (2 ^ 52 + M) (E - 1075)

lemma ofMagnitude_zero (s : Sign) (e : ℤ) : ofMagnitude s 0 e = .zero s := rfl

lemma ofMagnitude_of_pos (s : Sign) {m : ℕ} (e : ℤ) (h : 0 < m) :
    ofMagnitude s m e = .finite s m e h := dif_pos h

lemma canonical_ofMagnitude (s : Sign) {m : ℕ} {e : ℤ} (hlt : m < 2 ^ 53) (hmin : -1074 ≤ e)
    (hfull : 2 ^ 52 ≤ m ∨ e = -1074) : Canonical s (m * 2 ^ e) (ofMagnitude s m e) := by
  rcases m.eq_zero_or_pos with rfl | hpos
  · rw [ofMagnitude_zero, Nat.cast_zero, zero_mul]
    exact .zero
  · rw [ofMagnitude_of_pos s e hpos]
    exact .finite hpos hlt hmin hfull

section Fields

variable (b : BitVec 64)

lemma toNat_unpackExponent :
    (@unpackExponent Format.binary64 b).toNat = b.toNat / 2 ^ 52 % 2 ^ 11 := by
  simp [unpackExponent, BitVec.extractLsb, Nat.shiftRight_eq_div_pow]

lemma toNat_unpackMantissa :
    (@unpackMantissa Format.binary64 b).toNat = b.toNat % 2 ^ 52 := by
  simp [unpackMantissa, BitVec.extractLsb]

lemma toNat_unpackSign :
    (@unpackSign Format.binary64 b).toNat = b.toNat / 2 ^ 63 := by
  have hlt := b.isLt
  show (b.extractLsb' 63 1).toNat = _
  rw [BitVec.extractLsb'_toNat, Nat.shiftRight_eq_div_pow]
  omega

/-- The sign of a word of bits. -/
def signOf (bits : ℕ) : Sign := if bits < 2 ^ 63 then .positive else .negative

lemma ofBitVec_unpackSign :
    Sign.ofBitVec (@unpackSign Format.binary64 b) = signOf b.toNat := by
  have hsign := toNat_unpackSign b
  simp only [Sign.ofBitVec, signOf]
  congr 1
  rw [← BitVec.toNat_inj, hsign, eq_iff_iff]
  simp

lemma toNat_one_append (M : BitVec 52) : (1#1 ++ M).toNat = 2 ^ 52 + M.toNat := by
  rw [BitVec.toNat_append, Nat.shiftLeft_eq, mul_comm, ← Nat.two_pow_add_eq_or_of_lt M.isLt]
  rfl

lemma unpack_eq_ofFields :
    UnpackedFloat.unpack Format.binary64 b
      = ofFields (signOf b.toNat) (b.toNat / 2 ^ 52 % 2 ^ 11) (b.toNat % 2 ^ 52) := by
  rw [← toNat_unpackExponent, ← toNat_unpackMantissa, ← ofBitVec_unpackSign]
  unfold UnpackedFloat.unpack ofFields
  have hall : @unpackExponent Format.binary64 b = -1#11
      ↔ (@unpackExponent Format.binary64 b).toNat = 2047 := BitVec.toNat_inj.symm
  have hnone : @unpackExponent Format.binary64 b = 0#11
      ↔ (@unpackExponent Format.binary64 b).toNat = 0 := BitVec.toNat_inj.symm
  have hwhole : @unpackMantissa Format.binary64 b = 0#52
      ↔ (@unpackMantissa Format.binary64 b).toNat = 0 := BitVec.toNat_inj.symm
  dsimp only
  by_cases h2047 : @unpackExponent Format.binary64 b = -1#11
  · rw [if_pos h2047, if_pos (hall.mp h2047)]
    by_cases hM : @unpackMantissa Format.binary64 b = 0#52
    · rw [if_pos hM, if_pos (hwhole.mp hM)]
    · rw [if_neg hM, if_neg (hwhole.not.mp hM)]
  · rw [if_neg h2047, if_neg (hall.not.mp h2047)]
    by_cases h0 : @unpackExponent Format.binary64 b = 0#11
    · rw [if_pos h0, if_pos (hnone.mp h0)]
      by_cases hM : @unpackMantissa Format.binary64 b = 0#52
      · rw [dif_pos hM, hwhole.mp hM, ofMagnitude_zero]
      · rw [dif_neg hM, ofMagnitude_of_pos _ _ (Nat.pos_of_ne_zero (hwhole.not.mp hM)), h0]
        rfl
    · rw [if_neg h0, if_neg (hnone.not.mp h0), ← toNat_one_append,
        ofMagnitude_of_pos _ _ (toNat_one_append _ ▸ Nat.add_pos_left (Nat.two_pow_pos 52) _)]
      rfl

end Fields

lemma toNat_packComponents (s : Sign) (E : BitVec 11) (M : BitVec 52) :
    (packComponents Format.binary64 s E M).toNat
      = s.toBitVec.toNat * 2 ^ 63 + E.toNat * 2 ^ 52 + M.toNat := by
  have hE := E.isLt
  have hM := M.isLt
  rw [packComponents, BitVec.toNat_append, BitVec.toNat_append, Nat.shiftLeft_eq, Nat.shiftLeft_eq,
    mul_comm _ (2 ^ 11), ← Nat.two_pow_add_eq_or_of_lt hE, mul_comm _ (2 ^ 52),
    ← Nat.two_pow_add_eq_or_of_lt hM]
  omega

lemma unpack_packComponents (s : Sign) (E : BitVec 11) (M : BitVec 52) :
    UnpackedFloat.unpack Format.binary64 (packComponents Format.binary64 s E M)
      = ofFields s E.toNat M.toNat := by
  have hE := E.isLt
  have hM := M.isLt
  have hbits := toNat_packComponents s E M
  rw [unpack_eq_ofFields, hbits]
  congr 1
  · cases s with
    | negative => exact if_neg (by rw [Sign.toBitVec, BitVec.toNat_ofNat]; omega)
    | positive => exact if_pos (by rw [Sign.toBitVec, BitVec.toNat_ofNat]; omega)
  · omega
  · omega

/-! ## Storing a number -/

section Store

variable {s : Sign} {q : ℚ} {u : UnpackedFloat}

/-- A canonical number is below `2 ^ 1024` exactly if its exponent can be stored. -/
lemma mul_zpow_lt_iff {m : ℕ} {e : ℤ} (hlt : m < 2 ^ 53) (hfull : 2 ^ 52 ≤ m ∨ e = -1074) :
    (m : ℚ) * 2 ^ e < 2 ^ 1024 ↔ e ≤ 971 := by
  have hpos := zpow_two_pos e
  constructor
  · intro h
    rcases hfull with hfull | rfl
    · have hle : (2 : ℚ) ^ (52 + e) < 2 ^ (1024 : ℤ) := by
        rw [zpow_add₀ two_ne_zero]
        exact (mul_le_mul_of_nonneg_right (by exact_mod_cast hfull) hpos.le).trans_lt h
      have := (zpow_lt_zpow_iff_right₀ one_lt_two).mp hle
      omega
    · norm_num
  · intro h
    have hle : (2 : ℚ) ^ (53 + e) ≤ 2 ^ (1024 : ℤ) := zpow_le_zpow_right₀ one_le_two (by omega)
    rw [zpow_add₀ two_ne_zero] at hle
    have hltQ : (m : ℚ) < 2 ^ (53 : ℤ) := by exact_mod_cast hlt
    exact (mul_lt_mul_of_pos_right hltQ hpos).trans_le (by exact_mod_cast hle)

lemma unpack_pack_zero (s : Sign) : (Float.Model.pack (.zero s)).unpack = .zero s :=
  unpack_packComponents s 0 0

lemma unpack_pack_infinity (s : Sign) : (Float.Model.pack (.infinity s)).unpack = .infinity s :=
  unpack_packComponents s (-1) 0

/-- The fields in which a number is stored. -/
lemma unpack_pack_finite {m : ℕ} {e : ℤ} (hpos : 0 < m) (hlt : m < 2 ^ 53) (hmin : -1074 ≤ e) :
    (Float.Model.pack (.finite s m e hpos)).unpack
      = if 972 ≤ e then .infinity s
        else if 2 ^ 52 ≤ m then ofFields s ((e + 1075).toNat % 2 ^ 11) (m % 2 ^ 52)
        else ofFields s 0 (m % 2 ^ 52) := by
  have hbias : e + Format.binary64.exponentBias + (52 : ℕ) = e + 1075 := by
    rw [show Format.binary64.exponentBias = 1023 from rfl]
    omega
  have hlog : m.log2 + 1 = Format.binary64.mantissaBits ↔ 2 ^ 52 ≤ m := by
    have h53 := (Nat.log2_lt hpos.ne').mpr hlt
    have h52 := Nat.le_log2 (k := 52) hpos.ne'
    rw [show Format.binary64.mantissaBits = 53 from rfl]
    omega
  change UnpackedFloat.unpack Format.binary64
    (if 2 ^ 11 ≤ (e + Format.binary64.exponentBias + (52 : ℕ)).toNat + 1
      then packedInfinity Format.binary64 s
      else if m.log2 + 1 = Format.binary64.mantissaBits
      then packComponents Format.binary64 s
        (.ofNat _ (e + Format.binary64.exponentBias + (52 : ℕ)).toNat) (.ofNat _ m)
      else packComponents Format.binary64 s 0 (.ofNat _ m)) = _
  rw [hbias]
  by_cases hlarge : 972 ≤ e
  · rw [if_pos (by omega), if_pos hlarge]
    exact unpack_pack_infinity s
  · rw [if_neg (by omega), if_neg hlarge]
    by_cases hnormal : 2 ^ 52 ≤ m
    · rw [if_pos (hlog.mpr hnormal), if_pos hnormal]
      exact unpack_packComponents s _ _
    · rw [if_neg (hlog.not.mpr hnormal), if_neg hnormal]
      exact unpack_packComponents s _ _

/-- **A canonical number below `2 ^ 1024` is read back as it was stored**, … -/
theorem unpack_pack (h : Canonical s q u) (hq : q < 2 ^ 1024) :
    (Float.Model.pack u).unpack = u := by
  rcases h with _ | @⟨m, e, hpos, hlt, hmin, hfull⟩
  · exact unpack_pack_zero s
  · have hmax := (mul_zpow_lt_iff hlt hfull).mp hq
    rw [unpack_pack_finite hpos hlt hmin, if_neg (by omega)]
    by_cases hnormal : 2 ^ 52 ≤ m
    · have hm : 2 ^ 52 + m % 2 ^ 52 = m := by omega
      have he : (((e + 1075).toNat % 2 ^ 11 : ℕ) : ℤ) - 1075 = e := by omega
      rw [if_pos hnormal, ofFields, if_neg (by omega), if_neg (by omega), hm, he,
        ofMagnitude_of_pos s e hpos]
    · obtain rfl := hfull.resolve_left hnormal
      rw [if_neg hnormal, Nat.mod_eq_of_lt (by omega), ofFields, if_neg (by norm_num), if_pos rfl,
        ofMagnitude_of_pos s _ hpos]

/-- … and a larger one as infinite. -/
theorem unpack_pack_of_le (h : Canonical s q u) (hq : 2 ^ 1024 ≤ q) :
    (Float.Model.pack u).unpack = .infinity s := by
  rcases h with _ | @⟨m, e, hpos, hlt, hmin, hfull⟩
  · exact absurd hq (by norm_num)
  · have hmax := (mul_zpow_lt_iff hlt hfull).not.mp (not_lt.mpr hq)
    rw [unpack_pack_finite hpos hlt hmin, if_pos (by omega)]

end Store

/-! ## Reading a number -/

lemma canonical_ofFields (s : Sign) {E M : ℕ} (hE : E < 2 ^ 11) (hM : M < 2 ^ 52)
    (h : (ofFields s E M).isFinite = true) :
    ∃ q, Canonical s q (ofFields s E M) ∧ q < 2 ^ 1024 := by
  simp only [ofFields] at h ⊢
  split_ifs at h ⊢ with hinf hM0 hE0
  · exact absurd h Bool.false_ne_true
  · exact absurd h Bool.false_ne_true
  · exact ⟨_, canonical_ofMagnitude s (by omega) le_rfl (Or.inr rfl),
      (mul_zpow_lt_iff (by omega) (Or.inr rfl)).mpr (by omega)⟩
  · exact ⟨_, canonical_ofMagnitude s (by omega) (by omega) (Or.inl (by omega)),
      (mul_zpow_lt_iff (by omega) (Or.inl (by omega))).mpr (by omega)⟩

lemma toModel_unpack_eq (x : Float) :
    x.toModel.unpack
      = ofFields (signOf x.toBits.toNat) (x.toBits.toNat / 2 ^ 52 % 2 ^ 11)
          (x.toBits.toNat % 2 ^ 52) :=
  unpack_eq_ofFields x.toModel.toBits.toBitVec

/-- **What a finite float holds** is canonical and below `2 ^ 1024`. -/
theorem exists_canonical {x : Float} (h : x.isFinite = true) :
    ∃ s q, Canonical s q x.toModel.unpack ∧ q < 2 ^ 1024 := by
  change x.toModel.unpack.isFinite = true at h
  rw [toModel_unpack_eq] at h ⊢
  exact ⟨_, canonical_ofFields _ (Nat.mod_lt _ (by decide)) (Nat.mod_lt _ (by decide)) h⟩

lemma Canonical.eq_of_ofMagnitude {s s' : Sign} {q : ℚ} {m : ℕ} {e : ℤ}
    (h : Canonical s q (ofMagnitude s' m e)) : s = s' ∧ q = m * 2 ^ e := by
  rcases m.eq_zero_or_pos with rfl | hpos
  · rw [ofMagnitude_zero] at h
    cases h
    exact ⟨rfl, by rw [Nat.cast_zero, zero_mul]⟩
  · rw [ofMagnitude_of_pos s' e hpos] at h
    cases h
    exact ⟨rfl, rfl⟩

lemma Canonical.eq_of_ofFields {s s' : Sign} {q : ℚ} {E M : ℕ}
    (h : Canonical s q (ofFields s' E M)) (hM : M < 2 ^ 52) :
    s = s' ∧ ∃ (m : ℕ) (e : ℤ), q = m * 2 ^ e ∧ m < 2 ^ 53 ∧ -1074 ≤ e ∧
      (2 ^ 52 ≤ m ∨ e = -1074) ∧ (E * 2 ^ 52 + M : ℤ) = (e + 1074) * 2 ^ 52 + m := by
  rw [ofFields] at h
  split_ifs at h with hinf hM0 hE0
  · cases h
  · cases h
  · obtain ⟨hs, hq⟩ := h.eq_of_ofMagnitude
    exact ⟨hs, M, -1074, hq, by omega, le_rfl, Or.inr rfl, by omega⟩
  · obtain ⟨hs, hq⟩ := h.eq_of_ofMagnitude
    exact ⟨hs, 2 ^ 52 + M, E - 1075, hq, by omega, by omega, Or.inl (by omega), by push_cast; ring⟩

lemma toBits_lt {x : Float} {q : ℚ} (h : Canonical .positive q x.toModel.unpack) :
    x.toBits.toNat < 2 ^ 63 := by
  rw [toModel_unpack_eq] at h
  obtain ⟨hsign, -⟩ := h.eq_of_ofFields (Nat.mod_lt _ (by decide))
  by_contra hneg
  rw [signOf, if_neg hneg] at hsign
  cases hsign

/-- **Read as a natural number, the bits of a positive float** are its significand, with a block of
`2 ^ 52` below it for every exponent that was passed. -/
theorem toNat_toBits {x : Float} {q : ℚ} (h : Canonical .positive q x.toModel.unpack) :
    ∃ (m : ℕ) (e : ℤ), q = m * 2 ^ e ∧ m < 2 ^ 53 ∧ -1074 ≤ e ∧ (2 ^ 52 ≤ m ∨ e = -1074) ∧
      (x.toBits.toNat : ℤ) = (e + 1074) * 2 ^ 52 + m := by
  have hpositive := toBits_lt h
  rw [toModel_unpack_eq] at h
  obtain ⟨-, m, e, hq, hlt, hmin, hfull, hbits⟩ := h.eq_of_ofFields (Nat.mod_lt _ (by decide))
  exact ⟨m, e, hq, hlt, hmin, hfull, by omega⟩

end FramePacing.Binary
