import Guillotine.Proofs.Decimal.Order
import Guillotine.Proofs.Json.Values
import Guillotine.Request.Canonical

/-! The canonical form of a request and its text. The orders of materials and of cuts are total
preorders, so a request in canonical order stays as it is. The canonical text says everything about
the canonical form, as long as the prices are finite: it has no reader of its own, but each part of
it is a value that is read back. -/
namespace Guillotine

/-! ### Canonical order -/

section Sorting

variable {α : Type} {cmp : α → α → Ordering} [Std.TransCmp cmp]

theorem pairwise_mergeSort_isLE (as : List α) :
    (as.mergeSort fun a b => (cmp a b).isLE).Pairwise fun a b => (cmp a b).isLE = true := by
  apply List.pairwise_mergeSort
  · exact fun _ _ _ => Std.TransCmp.isLE_trans
  · intro a b
    have hswap : cmp b a = (cmp a b).swap := Std.OrientedCmp.eq_swap
    rw [hswap]
    cases cmp a b <;> rfl

/-- What is sorted stays as it is. -/
theorem mergeSort_mergeSort_isLE (as : List α) :
    ((as.mergeSort fun a b => (cmp a b).isLE).mergeSort fun a b => (cmp a b).isLE) =
      as.mergeSort fun a b => (cmp a b).isLE :=
  List.mergeSort_of_pairwise (pairwise_mergeSort_isLE as)

end Sorting

instance : Std.TransCmp fun a b : Material => compareValues a.cost b.cost where
  eq_swap := Std.OrientedCmp.eq_swap
  isLE_trans := Std.TransCmp.isLE_trans

instance : Std.TransCmp Material.compare :=
  inferInstanceAs <| Std.TransCmp <| compareLex (compareOn Material.code) <|
    compareLex (compareOn Material.width) <| compareLex (compareOn Material.height) <|
    compareLex (fun a b => compareValues a.cost b.cost) <|
    compareOn fun m => grainToken m.grain

instance : Std.TransCmp Cut.compare :=
  inferInstanceAs <| Std.TransCmp <| compareLex (compareOn Cut.material) <|
    compareLex (compareOn Cut.width) <| compareLex (compareOn Cut.height) <|
    compareLex (compareOn Cut.quantity) <| compareLex (compareOn fun c => c.label.getD "") <|
    compareLex (compareOn fun c => grainToken c.grain) <|
    compareLex (compareOn Cut.allowRotation) <| compareOn Cut.priority

namespace Request

/-- A request in canonical order stays as it is. -/
@[simp] theorem ordered_ordered (r : Request) : r.ordered.ordered = r.ordered := by
  simp only [ordered, mergeSort_mergeSort_isLE]

/-- The canonical order does not change the canonical form. -/
theorem canonical_ordered (r : Request) : r.ordered.canonical = r.canonical := by
  simp only [canonical, ordered_ordered]

end Request

/-! ### The canonical text -/

section Document

variable {α : Type} [ToJson α] [OfJson α] [Document α] {a b : α}

/-- A finite value and no other one has its document. -/
theorem toJson_inj (ha : isFinite a = true) (h : toJson a = toJson b) : a = b := by
  have hread := ofJson?_toJson a
  rw [if_pos ha, h, ofJson?_toJson b] at hread
  split at hread
  · exact (Option.some.inj hread).symm
  · cases hread

end Document

theorem grainToken_inj {g g' : Option Grain} (h : grainToken g = grainToken g') : g = g' := by
  rcases g with _ | _ | _ <;> rcases g' with _ | _ | _ <;> simp_all [grainToken, Grain.token]

namespace CanonicalRequest

theorem proper_materialToJson (m : CanonicalMaterial) : (materialToJson m).Proper := by
  apply Json.proper_record
  simp [proper_toJson]

theorem proper_cutToJson (c : CanonicalCut) : (cutToJson c).Proper := by
  apply Json.proper_record
  simp [proper_toJson]

theorem proper_sawToJson (s : Saw) : (sawToJson s).Proper := by
  apply Json.proper_record
  simp [proper_toJson]

theorem materialToJson_inj {m m' : CanonicalMaterial} (hm : m.price.isFinite = true)
    (h : materialToJson m = materialToJson m') : m = m' := by
  simp only [materialToJson, Json.record, List.map_cons, List.map_nil, Json.object.injEq,
    List.cons.injEq, Prod.mk.injEq, true_and, and_true] at h
  obtain ⟨hcode, hgrain, hheight, hprice, hwidth⟩ := h
  obtain ⟨code, width, height, price, grain⟩ := m
  cases toJson_inj rfl hcode
  cases toJson_inj rfl hgrain
  cases toJson_inj rfl hheight
  cases toJson_inj hm hprice
  cases toJson_inj rfl hwidth
  rfl

theorem cutToJson_injective : cutToJson.Injective := by
  intro c c' h
  simp only [cutToJson, Json.record, List.map_cons, List.map_nil, Json.object.injEq,
    List.cons.injEq, Prod.mk.injEq, true_and, and_true] at h
  obtain ⟨hrotation, hgrain, hheight, hlabel, hmaterial, hpriority, hquantity, hwidth⟩ := h
  obtain ⟨material, width, height, quantity, label, grain, rotation, priority⟩ := c
  cases toJson_inj rfl hrotation
  cases toJson_inj rfl hgrain
  cases toJson_inj rfl hheight
  cases toJson_inj rfl hlabel
  cases toJson_inj rfl hmaterial
  cases toJson_inj rfl hpriority
  cases toJson_inj rfl hquantity
  cases toJson_inj rfl hwidth
  rfl

theorem sawToJson_injective : sawToJson.Injective := by
  intro s s' h
  simp only [sawToJson, Json.record, List.map_cons, List.map_nil, Json.object.injEq,
    List.cons.injEq, Prod.mk.injEq, true_and, and_true] at h
  obtain ⟨hbottom, hkerf, hleft, hright, htop⟩ := h
  obtain ⟨kerf, top, bottom, left, right⟩ := s
  cases toJson_inj rfl hbottom
  cases toJson_inj rfl hkerf
  cases toJson_inj rfl hleft
  cases toJson_inj rfl hright
  cases toJson_inj rfl htop
  rfl

theorem map_materialToJson_inj {ms ms' : List CanonicalMaterial}
    (hms : ∀ m ∈ ms, m.price.isFinite = true)
    (h : ms.map materialToJson = ms'.map materialToJson) : ms = ms' := by
  induction ms generalizing ms' with
  | nil => exact (List.map_eq_nil_iff.1 h.symm).symm
  | cons m ms ih =>
    cases ms' with
    | nil => cases h
    | cons m' ms' =>
      rw [List.forall_mem_cons] at hms
      rw [List.map_cons, List.map_cons, List.cons.injEq] at h
      rw [materialToJson_inj hms.1 h.1, ih hms.2 h.2]

/-- The tree of which the canonical text is the text. -/
def tree (r : CanonicalRequest) : Json :=
  .record [("cuts", .array (r.cuts.map cutToJson)), ("cutting_parameters", sawToJson r.saw),
    ("materials", .array (r.materials.map materialToJson))]

theorem proper_tree (r : CanonicalRequest) : r.tree.Proper := by
  apply Json.proper_record
  simp [proper_sawToJson, proper_array proper_cutToJson, proper_array proper_materialToJson]

/-- A canonical form with finite prices and no other one has its text. -/
theorem text_inj {r r' : CanonicalRequest} (hr : ∀ m ∈ r.materials, m.price.isFinite = true)
    (h : r.text = r'.text) : r = r' := by
  have htree : r.tree = r'.tree := Json.compact_inj (proper_tree r) (proper_tree r') h
  simp only [tree, Json.record, List.map_cons, List.map_nil, Json.object.injEq,
    Json.array.injEq, List.cons.injEq, Prod.mk.injEq, true_and, and_true] at htree
  obtain ⟨hcuts, hsaw, hmaterials⟩ := htree
  obtain ⟨materials, cuts, saw⟩ := r
  cases List.map_injective_iff.2 cutToJson_injective hcuts
  cases sawToJson_injective hsaw
  cases map_materialToJson_inj hr hmaterials
  rfl

end CanonicalRequest

end Guillotine
