import Guillotine.Proofs.Request.Order

/-! The classes of requests that canonical texts tell apart. Requests that pass the check have one
canonical text just if they ask for the same thing: the same saw, the same cuts in some order but
for labels that are absent in one and empty in the other, and the same materials in some order but
for their thickness. -/
namespace Guillotine

/-- A cut with an empty label in place of an absent one. -/
def Cut.labelled (c : Cut) : Cut := { c with label := some (c.label.getD "") }

/-- A material without its thickness. -/
def Material.thin (m : Material) : Material := { m with thickness := 0 }

/-- Two requests ask for the same thing. -/
structure Request.Equivalent (r q : Request) : Prop where
  saw : r.saw = q.saw
  cuts : (r.cuts.map Cut.labelled).Perm (q.cuts.map Cut.labelled)
  materials : (r.materials.map Material.thin).Perm (q.materials.map Material.thin)

/-! ### Classes of entries -/

instance : Nonempty Cut := ⟨⟨0, 0, 0, "", none, false, none, 0⟩⟩

instance : Nonempty CanonicalCut := ⟨⟨"", 0, 0, 0, "", "", false, 0⟩⟩

instance : Nonempty Material := ⟨⟨"", 0, 0, 0, 0, none⟩⟩

instance : Nonempty CanonicalMaterial := ⟨⟨"", 0, 0, 0, ""⟩⟩

theorem Cut.canonical_eq_iff {c d : Cut} : c.canonical = d.canonical ↔ c.labelled = d.labelled := by
  simp only [canonical, labelled, CanonicalCut.mk.injEq, mk.injEq, Option.some.injEq]
  constructor
  · rintro ⟨hmaterial, hwidth, hheight, hquantity, hlabel, hgrain, hrotation, hpriority⟩
    exact ⟨hwidth, hheight, hquantity, hmaterial, hlabel, hrotation, grainToken_inj hgrain,
      hpriority⟩
  · rintro ⟨hwidth, hheight, hquantity, hmaterial, hlabel, hrotation, hgrain, hpriority⟩
    exact ⟨hmaterial, hwidth, hheight, hquantity, hlabel, congrArg grainToken hgrain, hrotation,
      hpriority⟩

theorem Material.canonical_eq_iff {m n : Material} :
    m.canonical = n.canonical ↔ m.thin = n.thin := by
  simp only [canonical, thin, CanonicalMaterial.mk.injEq, mk.injEq, true_and]
  constructor
  · rintro ⟨hcode, hwidth, hheight, hcost, hgrain⟩
    exact ⟨hcode, hwidth, hheight, hcost, grainToken_inj hgrain⟩
  · rintro ⟨hcode, hwidth, hheight, hcost, hgrain⟩
    exact ⟨hcode, hwidth, hheight, hcost, congrArg grainToken hgrain⟩

namespace Request

variable {r q : Request}

/-- What two requests ask for is the same if the canonical forms of their entries are so, in some
order. -/
theorem equivalent_iff : r.Equivalent q ↔ r.saw = q.saw ∧
    (r.cuts.map Cut.canonical).Perm (q.cuts.map Cut.canonical) ∧
      (r.materials.map Material.canonical).Perm (q.materials.map Material.canonical) := by
  constructor
  · rintro ⟨hsaw, hcuts, hmaterials⟩
    exact ⟨hsaw, perm_map_of_perm_map (fun _ _ => Cut.canonical_eq_iff.2) hcuts,
      perm_map_of_perm_map (fun _ _ => Material.canonical_eq_iff.2) hmaterials⟩
  · rintro ⟨hsaw, hcuts, hmaterials⟩
    exact ⟨hsaw, perm_map_of_perm_map (fun _ _ => Cut.canonical_eq_iff.1) hcuts,
      perm_map_of_perm_map (fun _ _ => Material.canonical_eq_iff.1) hmaterials⟩

/-! ### Classes of requests -/

/-- Requests of one canonical form ask for the same thing. -/
theorem Equivalent.of_canonical (h : r.canonical = q.canonical) : r.Equivalent q := by
  have hcuts : r.ordered.cuts.map Cut.canonical = q.ordered.cuts.map Cut.canonical :=
    congrArg CanonicalRequest.cuts h
  have hmaterials : r.ordered.materials.map Material.canonical =
      q.ordered.materials.map Material.canonical :=
    congrArg CanonicalRequest.materials h
  have hcutsPerm (p : Request) :
      (p.ordered.cuts.map Cut.canonical).Perm (p.cuts.map Cut.canonical) :=
    (List.mergeSort_perm _ _).map _
  have hmaterialsPerm (p : Request) :
      (p.ordered.materials.map Material.canonical).Perm (p.materials.map Material.canonical) :=
    (List.mergeSort_perm _ _).map _
  exact equivalent_iff.2 ⟨saw_eq h,
    (hcutsPerm r).symm.trans ((List.Perm.of_eq hcuts).trans (hcutsPerm q)),
    (hmaterialsPerm r).symm.trans ((List.Perm.of_eq hmaterials).trans (hmaterialsPerm q))⟩

/-- Materials of two requests that ask for the same thing have one canonical form if they compare as
equal, since one of the requests lists no code twice. -/
theorem canonical_eq_of_compare (hcheck : q.check = .ok ())
    (h : (r.materials.map Material.canonical).Perm (q.materials.map Material.canonical)) :
    ∀ m ∈ r.materials, ∀ n ∈ q.materials, m.compare n = .eq → m.canonical = n.canonical := by
  intro m hm n hn htie
  obtain ⟨m', hm', hcanonical⟩ := List.mem_map.1 (h.subset (List.mem_map_of_mem hm))
  have htie' : m'.compare n = .eq := by
    rwa [Material.compare_eq_of_canonical hcanonical rfl]
  rw [← hcanonical, material_eq_of_compare hcheck m' hm' n hn htie']

/-- Requests that ask for the same thing have one canonical form. -/
theorem Equivalent.canonical_eq (h : r.Equivalent q) (hcheck : q.check = .ok ()) :
    r.canonical = q.canonical := by
  obtain ⟨hsaw, hcuts, hmaterials⟩ := equivalent_iff.1 h
  simp only [canonical, ordered, CanonicalRequest.mk.injEq]
  refine ⟨?_, ?_, hsaw⟩
  · exact map_mergeSort_eq_of_perm (fun _ _ _ _ => Material.compare_eq_of_canonical)
      (canonical_eq_of_compare hcheck hmaterials) hmaterials
  · exact map_mergeSort_eq_of_perm (fun _ _ _ _ => Cut.compare_eq_of_canonical)
      (fun _ _ _ _ => Cut.canonical_eq_of_compare) hcuts

/-! ### Requests in another order -/

/-- Two requests differ in the order of their cuts and of their materials only. -/
structure Permuted (r q : Request) : Prop where
  project : r.project = q.project
  saw : r.saw = q.saw
  cuts : r.cuts.Perm q.cuts
  materials : r.materials.Perm q.materials

/-- The labels tell the cuts of a request apart: none has an empty label where another one, which is
the same otherwise, has no label. -/
def LabelsApart (r : Request) : Prop :=
  ∀ c ∈ r.cuts, ∀ d ∈ r.cuts, c.labelled = d.labelled → c = d

namespace Permuted

theorem equivalent (h : r.Permuted q) : r.Equivalent q :=
  ⟨h.saw, h.cuts.map _, h.materials.map _⟩

theorem ordered (h : r.Permuted q) : r.ordered.Permuted q.ordered :=
  ⟨h.project, h.saw, (List.mergeSort_perm _ _).trans (h.cuts.trans (List.mergeSort_perm _ _).symm),
    (List.mergeSort_perm _ _).trans (h.materials.trans (List.mergeSort_perm _ _).symm)⟩

/-- The order of a request does not matter to its check. -/
theorem check_eq (h : r.Permuted q) : r.ordered.check = q.ordered.check :=
  check_eq_of_compare (forall₂_mergeSort_of_perm h.materials) (forall₂_mergeSort_of_perm h.cuts)

theorem canonical_eq (h : r.Permuted q) (hcheck : r.ordered.check = .ok ()) :
    r.canonical = q.canonical := by
  rw [← canonical_ordered r, ← canonical_ordered q]
  exact h.ordered.equivalent.canonical_eq (h.check_eq ▸ hcheck)

/-- If the labels tell the cuts apart, the canonical order forgets the order of a request. -/
theorem ordered_eq (h : r.Permuted q) (hcheck : r.ordered.check = .ok ())
    (hlabels : r.LabelsApart) :
    r.ordered = q.ordered := by
  have hcuts : r.ordered.cuts = q.ordered.cuts :=
    mergeSort_eq_of_perm (fun c hc d hd htie =>
      hlabels c hc d hd (Cut.canonical_eq_iff.1 (Cut.canonical_eq_of_compare htie))) h.cuts
  have hmaterials : r.ordered.materials = q.ordered.materials :=
    mergeSort_eq_of_perm (fun m hm n hn => material_eq_of_compare hcheck m
      (List.mem_mergeSort.2 hm) n (List.mem_mergeSort.2 hn)) h.materials
  simp only [Request.ordered, mk.injEq] at hcuts hmaterials ⊢
  exact ⟨h.project, hcuts, hmaterials, h.saw⟩

end Permuted

/-- What a demand is made of has passed the check. -/
theorem check_of_returns_demand {d : Demand} (h : Packing.Returns r.demand d) :
    r.check = .ok () := by
  unfold demand at h
  obtain ⟨u, hcheck, -⟩ := Packing.returns_bind.1 h
  exact Packing.returns_ofExcept.1 hcheck

/-! ### Sample requests -/

/-- A request for two cuts in some order, of which one has no label or the empty one. -/
def sampleShelf (label : Option String) (thickness : Length) : Request where
  project := "shelf"
  cuts := [⟨40, 30, 1, "oak", label, true, none, 0⟩, ⟨20, 10, 2, "ash", none, true, none, 0⟩]
  materials := [⟨"oak", 500, 400, thickness, 12, none⟩, ⟨"ash", 300, 200, 12, 7, none⟩]
  saw := ⟨1, 0, 0, 0, 0⟩

/-- The same request, with its entries in the other order. -/
def sampleShelfReversed : Request where
  project := "rack"
  cuts := (sampleShelf (some "") 18).cuts.reverse
  materials := (sampleShelf (some "") 18).materials.reverse
  saw := ⟨1, 0, 0, 0, 0⟩

/-- The canonical texts of two requests that pass the check are the same just if the requests ask
for the same thing. The canonical order of any request changes neither its canonical form nor its
digest. -/
theorem text_eq_iff_equivalent {d e : Demand} (hr : Packing.Returns r.demand d)
    (hq : Packing.Returns q.demand e) :
    (r.canonical.text = q.canonical.text ↔ r.Equivalent q) ∧
      ∀ p : Request, p.ordered.canonical = p.canonical ∧
        RequestDigest.ofRequest p.ordered = RequestDigest.ofRequest p := by
  have hfinite : ∀ m ∈ r.canonical.materials, m.price.isFinite = true := by
    show ∀ m ∈ r.ordered.materials.map Material.canonical, _
    rw [List.forall_mem_map]
    intro m hm
    exact isFinite_price (check_of_returns_demand hr) m (List.mem_mergeSort.1 hm)
  refine ⟨⟨fun h => ?_, fun h => ?_⟩, fun p => ⟨canonical_ordered p, ?_⟩⟩
  · exact .of_canonical (CanonicalRequest.text_inj hfinite h)
  · rw [h.canonical_eq (check_of_returns_demand hq)]
  · simp only [RequestDigest.ofRequest, canonical_ordered]

theorem text_eq_iff_equivalent_shelf :
    Packing.Returns (sampleShelf none 20).demand (sampleShelf none 20).toDemand ∧
      Packing.Returns sampleShelfReversed.demand sampleShelfReversed.toDemand ∧
      ((sampleShelf none 20).canonical.text = sampleShelfReversed.canonical.text ↔
        (sampleShelf none 20).Equivalent sampleShelfReversed) ∧
      ∀ p : Request, p.ordered.canonical = p.canonical ∧
        RequestDigest.ofRequest p.ordered = RequestDigest.ofRequest p :=
  ⟨rfl, rfl, text_eq_iff_equivalent rfl rfl⟩

end Request

end Guillotine
