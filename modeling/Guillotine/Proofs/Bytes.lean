import Mathlib.Data.List.Lex
import Mathlib.Tactic.SplitIfs
import Mathlib.Data.String.Basic
import Guillotine.Text

/-! Texts and their bytes. The bytes of a text are read as its characters. Texts compare character
by character, which is the same as comparing their UTF-8 bytes: where two characters differ, the one
with the smaller code needs no more bytes, and comes first among those of its length. -/
namespace Guillotine

/-! ### Reading -/

theorem size_utf8Encode_singleton (c : Char) : [c].utf8Encode.size = c.utf8Size := by
  rw [List.utf8Encode_singleton, List.size_toByteArray, String.length_utf8EncodeChar]

/-- Characters are read where their bytes stand, whatever stands in front of them. -/
theorem glyphsFrom_append (front : ByteArray) (cs : List Char) :
    glyphsFrom (front ++ cs.utf8Encode) front.size = cs.map some := by
  induction cs generalizing front with
  | nil => simp [glyphsFrom]
  | cons c cs ih =>
    have hdecode : (front ++ (c :: cs).utf8Encode).utf8DecodeChar? front.size = some c := by
      rw [ByteArray.utf8DecodeChar?_eq_utf8DecodeChar?_extract,
        ByteArray.extract_append_eq_right rfl ByteArray.size_append,
        List.utf8DecodeChar?_utf8Encode_cons]
    have hlt := ByteArray.lt_size_of_isSome_utf8DecodeChar? (Option.isSome_of_eq_some hdecode)
    have hrest := ih (front ++ [c].utf8Encode)
    rw [ByteArray.append_assoc, ← List.utf8Encode_cons, ByteArray.size_append,
      size_utf8Encode_singleton] at hrest
    rw [glyphsFrom, if_pos hlt, hdecode, List.map_cons, ← hrest]

theorem glyphs_toUTF8 (s : String) : glyphs s.toUTF8 = s.toList.map some := by
  have h := glyphsFrom_append ByteArray.empty s.toList
  rwa [ByteArray.empty_append, ← String.toByteArray_ofList, String.ofList_toList] at h

/-! ### Bytes of a text -/

/-- The bytes of a text. -/
def utf8Bytes (s : String) : List UInt8 := s.toUTF8.data.toList

theorem utf8Bytes_eq (s : String) : utf8Bytes s = s.toList.flatMap String.utf8EncodeChar := by
  unfold utf8Bytes
  conv => lhs; rw [← String.ofList_toList (s := s)]
  rw [String.toUTF8_eq_toByteArray, String.toByteArray_ofList, List.utf8Encode,
    List.toList_data_toByteArray]

/-! ### One character -/

/-- The bytes for smaller numbers come first, whatever follows them. -/
def Ascends (bytes : Nat → List UInt8) (bound : Nat) : Prop :=
  ∀ ⦃m n : Nat⦄, m < n → n < bound → ∀ xs ys : List UInt8, bytes m ++ xs < bytes n ++ ys

/-- The bytes for a number without its last six bits, and a byte for these. -/
def trailed (bytes : Nat → List UInt8) (n : Nat) : List UInt8 :=
  bytes (n / 64) ++ [.ofNat (n % 64 + 128)]

theorem ofNat_cons_lt {a b : Nat} (h : a < b) (hb : b < 256) (xs ys : List UInt8) :
    UInt8.ofNat a :: xs < UInt8.ofNat b :: ys := by
  rw [List.cons_lt_cons_iff, UInt8.lt_iff_toNat_lt, UInt8.toNat_ofNat_of_lt' (h.trans hb),
    UInt8.toNat_ofNat_of_lt' hb]
  exact .inl h

theorem ascends_lead (mark bound : Nat) (h : bound + mark ≤ 256) :
    Ascends (fun n => [.ofNat (n + mark)]) bound :=
  fun _ _ hmn hn xs ys => ofNat_cons_lt (by omega) (by omega) xs ys

theorem Ascends.trailed {bytes : Nat → List UInt8} {bound : Nat} (h : Ascends bytes bound) :
    Ascends (trailed bytes) (64 * bound) := by
  intro m n hmn hn xs ys
  simp only [Guillotine.trailed, List.append_assoc]
  rcases (Nat.div_le_div_right hmn.le : m / 64 ≤ n / 64).lt_or_eq with hlead | hlead
  · exact h hlead (by omega) _ _
  · rw [hlead]
    exact List.append_left_lt (ofNat_cons_lt (by omega) (by omega) _ _)

theorem charCode_lt (c : Char) : c.val.toNat < 0x110000 := by
  have h := c.valid
  simp only [UInt32.isValidChar, Nat.isValidChar] at h
  omega

/-- The bytes of a character come before those of one with a greater code, whatever follows. -/
theorem utf8EncodeChar_lt {c d : Char} (h : c < d) (xs ys : List UInt8) :
    String.utf8EncodeChar c ++ xs < String.utf8EncodeChar d ++ ys := by
  have hcd : c.val.toNat < d.val.toNat := UInt32.lt_iff_toNat_lt.1 h
  have hd := charCode_lt d
  unfold String.utf8EncodeChar
  dsimp only
  generalize c.val.toNat = m at *
  generalize d.val.toNat = n at *
  -- Where one takes fewer bytes than the other, or both take one, their first bytes differ.
  split_ifs <;> try exact ofNat_cons_lt (by omega) (by omega) _ _
  · have hlt := (ascends_lead 192 32 (by decide)).trailed hcd (by omega) xs ys
    rwa [Nat.mod_eq_of_lt (by omega : m / 64 < 32), Nat.mod_eq_of_lt (by omega : n / 64 < 32)]
  · have hlt := (ascends_lead 224 16 (by decide)).trailed.trailed hcd (by omega) xs ys
    rw [Nat.mod_eq_of_lt (by omega : m / 4096 < 16), Nat.mod_eq_of_lt (by omega : n / 4096 < 16)]
    simpa [trailed, Nat.div_div_eq_div_mul] using hlt
  · have hlt := (ascends_lead 240 8 (by decide)).trailed.trailed.trailed hcd (by omega) xs ys
    rw [Nat.mod_eq_of_lt (by omega : m / 262144 < 8), Nat.mod_eq_of_lt (by omega : n / 262144 < 8)]
    simpa [trailed, Nat.div_div_eq_div_mul] using hlt

/-! ### Texts -/

theorem flatMap_utf8EncodeChar_lt {cs ds : List Char} (h : cs < ds) :
    cs.flatMap String.utf8EncodeChar < ds.flatMap String.utf8EncodeChar := by
  induction h with
  | nil =>
    obtain ⟨b, bs, hbytes⟩ := List.exists_cons_of_ne_nil (String.utf8EncodeChar_ne_nil (c := _))
    rw [List.flatMap_cons, hbytes]
    exact List.nil_lt_cons _ _
  | rel h => exact utf8EncodeChar_lt h _ _
  | cons h ih => exact List.append_left_lt ih

/-- Texts compare as their bytes do. -/
theorem lt_iff_utf8Bytes {s t : String} : s < t ↔ utf8Bytes s < utf8Bytes t := by
  rw [utf8Bytes_eq, utf8Bytes_eq]
  refine ⟨flatMap_utf8EncodeChar_lt, fun h => ?_⟩
  rcases lt_trichotomy s t with hst | rfl | hst
  · exact hst
  · exact absurd h (List.lt_irrefl _)
  · exact absurd h (List.lt_asymm (flatMap_utf8EncodeChar_lt hst))

end Guillotine
