import Guillotine.Request.Canonical

/-! Addresses. An address that is made or read has sixty-four hexadecimal digits in lower case, and
such an address is read back from its digits. -/
namespace Guillotine

/-! ### Texts of plain characters -/

/-- A text of characters with one byte each has as many bytes as characters. -/
theorem utf8ByteSize_of_ascii {cs : List Char} (h : ∀ c ∈ cs, c.val ≤ 127) :
    (String.ofList cs).utf8ByteSize = cs.length := by
  induction cs with
  | nil => rfl
  | cons c cs ih =>
    rw [List.forall_mem_cons] at h
    have hsplit : String.ofList (c :: cs) = String.singleton c ++ String.ofList cs := by
      rw [← String.toList_inj, String.toList_append, String.toList_ofList, String.toList_singleton,
        String.toList_ofList]
      rfl
    rw [hsplit, String.utf8ByteSize_append, String.utf8ByteSize_singleton, ih h.2,
      Char.utf8Size_eq_one_iff.2 h.1, List.length_cons, Nat.add_comm]

namespace RequestDigest

/-- A hexadecimal digit in lower case. -/
def isLowerDigit (c : Char) : Bool := '0' ≤ c && c ≤ '9' || 'a' ≤ c && c ≤ 'f'

theorem isLowerDigit_iff {c : Char} : isLowerDigit c = true ↔
    48 ≤ c.toNat ∧ c.toNat ≤ 57 ∨ 97 ≤ c.toNat ∧ c.toNat ≤ 102 := by
  simp [isLowerDigit, Char.le_def, UInt32.le_iff_toNat_le]

theorem isHexDigit_iff {c : Char} : isHexDigit c = true ↔
    isLowerDigit c = true ∨ 65 ≤ c.toNat ∧ c.toNat ≤ 70 := by
  rw [isLowerDigit_iff]
  simp [isHexDigit, Char.le_def, UInt32.le_iff_toNat_le]

theorem isLowerDigit_digitChar {n : Nat} (h : n < 16) : isLowerDigit (Nat.digitChar n) = true := by
  have hall : ∀ n < 16, isLowerDigit (Nat.digitChar n) = true := by decide
  exact hall n h

/-- What holds of the first characters, one by one, holds of all hexadecimal digits. -/
theorem forall_hexDigit {P : Char → Prop} (h : ∀ n < 103, isHexDigit (Char.ofNat n) = true →
    P (Char.ofNat n)) {c : Char} (hc : isHexDigit c = true) : P c := by
  have hlt : c.toNat < 103 := by
    rw [isHexDigit_iff, isLowerDigit_iff] at hc
    omega
  have hall := h c.toNat hlt
  rw [Char.ofNat_toNat] at hall
  exact hall hc

theorem isLowerDigit_toLower {c : Char} (hc : isHexDigit c = true) :
    isLowerDigit c.toLower = true :=
  forall_hexDigit (P := fun c => isLowerDigit c.toLower = true) (by decide) hc

theorem toLower_of_isLowerDigit {c : Char} (hc : isLowerDigit c = true) : c.toLower = c :=
  forall_hexDigit (P := fun c => isLowerDigit c = true → c.toLower = c) (by decide)
    (isHexDigit_iff.2 (.inl hc)) hc

theorem val_le_of_isHexDigit {c : Char} (hc : isHexDigit c = true) : c.val ≤ 127 :=
  forall_hexDigit (P := fun c => c.val ≤ 127) (by decide) hc

/-! ### Addresses -/

/-- An address has sixty-four hexadecimal digits in lower case. -/
structure Proper (d : RequestDigest) : Prop where
  length : d.hex.toList.length = 64
  digits : ∀ c ∈ d.hex.toList, isLowerDigit c = true

variable {d : RequestDigest} {s : String}

theorem length_hexWord (w : UInt32) : (Sha256.hexWord w).length = 8 := rfl

theorem proper_ofCanonical (r : CanonicalRequest) : (ofCanonical r).Proper := by
  constructor
  · simp [ofCanonical, Sha256.hex, Sha256.Registers.toList, length_hexWord]
  · intro c hc
    simp only [ofCanonical, Sha256.hex, String.toList_ofList, List.mem_flatMap, Sha256.hexWord,
      List.mem_map] at hc
    obtain ⟨w, -, n, -, rfl⟩ := hc
    exact isLowerDigit_digitChar (Nat.mod_lt _ (by decide))

theorem proper_of_ofHex? (h : ofHex? s = some d) : d.Proper := by
  unfold ofHex? at h
  split at h
  next hs =>
    obtain rfl := Option.some.inj h
    obtain ⟨hsize, hdigits⟩ := hs
    rw [List.all_eq_true] at hdigits
    have hlength : s.toList.length = 64 := by
      rw [← hsize, ← utf8ByteSize_of_ascii fun c hc => val_le_of_isHexDigit (hdigits c hc),
        String.ofList_toList]
    constructor
    · rw [String.toList_ofList, List.length_map, hlength]
    · rw [String.toList_ofList, List.forall_mem_map]
      exact fun c hc => isLowerDigit_toLower (hdigits c hc)
  next => cases h

/-- A proper address is read back from its digits. -/
theorem Proper.ofHex? (h : d.Proper) : ofHex? d.hex = some d := by
  have hhex : ∀ c ∈ d.hex.toList, isHexDigit c = true :=
    fun c hc => isHexDigit_iff.2 (.inl (h.digits c hc))
  have hsize : d.hex.utf8ByteSize = 64 := by
    rw [← h.length, ← utf8ByteSize_of_ascii fun c hc => val_le_of_isHexDigit (hhex c hc),
      String.ofList_toList]
  have hlower : d.hex.toList.map Char.toLower = d.hex.toList :=
    (List.map_congr_left fun c hc => toLower_of_isLowerDigit (h.digits c hc)).trans (List.map_id _)
  rw [RequestDigest.ofHex?, if_pos ⟨hsize, List.all_eq_true.2 hhex⟩, hlower, String.ofList_toList]

end RequestDigest

end Guillotine
