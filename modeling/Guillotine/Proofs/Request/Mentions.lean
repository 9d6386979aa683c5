import Guillotine.Request.Intake
import Mathlib.Data.List.Nodup

/-! The ids under which a request's cuts appear in its report. The id of a copy is made of two
numbers in decimal digits, that of the cut and that of the copy, with an underscore between them. No
digit is an underscore, so the numbers can be read back, and no two copies share an id however many
cuts there are and in whatever quantities. -/
namespace Guillotine

/-- What a report says about an item, apart from where it is. -/
structure Mention where
  id : String
  material : String
  label : Option String
deriving DecidableEq

def Item.mention (i : Item) : Mention := ⟨i.id, i.material, i.label⟩

namespace Cut

variable {c d : Cut} {i j : Nat}

/-- The ids of the copies of the cut at position `i`. -/
def ids (i : Nat) (c : Cut) : List String :=
  if c.quantity = 1 then [s!"c{i + 1}"]
  else (List.range c.quantity.toNat).map fun k => s!"c{i + 1}_{k + 1}"

/-- The copies of the cut at position `i`, as a report speaks of them. -/
def mentions (i : Nat) (c : Cut) : List Mention := (c.ids i).map fun id => ⟨id, c.material, c.label⟩

theorem map_id_mentions (i : Nat) (c : Cut) : (c.mentions i).map Mention.id = c.ids i := by
  simp [mentions, Function.comp_def]

/-! ### Reading the numbers back -/

/-- The digits of the first number of an id. -/
def position (id : String) : List Char := (id.toList.drop 1).takeWhile Char.isDigit

theorem toDigits_inj {m n : Nat} (h : Nat.toDigits 10 m = Nat.toDigits 10 n) : m = n := by
  rw [← Nat.ofDigitChars_ten_toDigits (n := m), h, Nat.ofDigitChars_ten_toDigits]

/-- The digits of a number end where something else begins. -/
theorem takeWhile_isDigit (n : Nat) {rest : List Char}
    (h : rest.takeWhile Char.isDigit = []) :
    (Nat.toDigits 10 n ++ rest).takeWhile Char.isDigit = Nat.toDigits 10 n := by
  rw [List.takeWhile_append_of_pos, h, List.append_nil]
  exact fun c hc => Nat.isDigit_of_mem_toDigits (by decide) (by decide) hc

/-- The first number of an id is the number of the cut. -/
theorem position_of_mem_ids {id : String} (h : id ∈ c.ids i) :
    position id = Nat.toDigits 10 (i + 1) := by
  unfold ids at h
  split at h
  · obtain rfl := List.mem_singleton.1 h
    have htext : ("c" ++ toString (i + 1)).toList = 'c' :: (Nat.toDigits 10 (i + 1) ++ []) := by
      simp
    show position ("c" ++ toString (i + 1)) = _
    rw [position, htext]
    exact takeWhile_isDigit _ rfl
  · obtain ⟨k, -, rfl⟩ := List.mem_map.1 h
    have htext : ("c" ++ toString (i + 1) ++ "_" ++ toString (k + 1)).toList =
        'c' :: (Nat.toDigits 10 (i + 1) ++ '_' :: Nat.toDigits 10 (k + 1)) := by
      simp
    show position ("c" ++ toString (i + 1) ++ "_" ++ toString (k + 1)) = _
    rw [position, htext]
    exact takeWhile_isDigit _ rfl

/-- Cuts at different positions share no id. -/
theorem disjoint_ids (hij : i ≠ j) : List.Disjoint (c.ids i) (d.ids j) := by
  intro id hi hj
  have hdigits : Nat.toDigits 10 (i + 1) = Nat.toDigits 10 (j + 1) :=
    (position_of_mem_ids hi).symm.trans (position_of_mem_ids hj)
  exact hij (Nat.succ.inj (toDigits_inj hdigits))

/-- The copies of a cut share no id. -/
theorem nodup_ids (i : Nat) (c : Cut) : (c.ids i).Nodup := by
  unfold ids
  split
  · exact List.nodup_singleton _
  · refine List.Nodup.map (fun k l hkl => ?_) List.nodup_range
    have htext : toString (k + 1) = toString (l + 1) := (String.append_right_inj _).1 hkl
    rw [Nat.toString_eq_ofList_toDigits, Nat.toString_eq_ofList_toDigits,
      String.ofList_inj] at htext
    exact Nat.succ.inj (toDigits_inj htext)

end Cut

namespace Request

/-- The copies that a request asks for, as a report speaks of them. -/
def mentions (r : Request) : List Mention := (r.cuts.mapIdx Cut.mentions).flatten

/-- No two copies that a request asks for share an id. -/
theorem nodup_mentions (r : Request) : (r.mentions.map Mention.id).Nodup := by
  have hids : (r.cuts.mapIdx Cut.mentions).map (List.map Mention.id) = r.cuts.mapIdx Cut.ids :=
    List.ext_getElem (by simp) fun i _ _ => by simp [Cut.map_id_mentions]
  rw [mentions, List.map_flatten, hids, List.nodup_flatten]
  constructor
  · intro ids hmem
    obtain ⟨i, hi, rfl⟩ := List.mem_mapIdx.1 hmem
    exact Cut.nodup_ids _ _
  · rw [List.pairwise_iff_getElem]
    intro i j hi hj hij
    rw [List.getElem_mapIdx, List.getElem_mapIdx]
    exact Cut.disjoint_ids (Nat.ne_of_lt hij)

/-- The copies of the cut at position `i` are mentioned by its ids, its material and its label. -/
theorem map_mention_copies (i : Nat) (c : Cut) :
    (piece i c).copies.map Item.mention = c.mentions i := by
  unfold Piece.copies Cut.mentions Cut.ids
  by_cases hone : c.quantity = 1
  · have hcopies : (piece i c).quantity.toNat = 1 := congrArg UInt32.toNat hone
    rw [if_pos hone, hcopies]
    simp [Piece.copy, piece, hone, Item.mention]
  · rw [if_neg hone, List.map_map, List.map_map]
    refine List.map_congr_left fun k _ => ?_
    have hid : ((piece i c).copy (k + 1)).id = s!"c{i + 1}_{k + 1}" := if_neg hone
    exact congrArg (Mention.mk · c.material c.label) hid

/-- The copies of the pieces of a request are those that it asks for. -/
theorem map_mention_pieces (r : Request) :
    (r.pieces.flatMap Piece.copies).map Item.mention = r.mentions := by
  have hmentions : (r.cuts.mapIdx piece).map (fun p => p.copies.map Item.mention) =
      r.cuts.mapIdx Cut.mentions :=
    List.ext_getElem (by simp) fun i _ _ => by simp [map_mention_copies]
  rw [List.map_flatMap, pieces, List.flatMap_def, hmentions, mentions]

end Request

end Guillotine
