import Guillotine.Proofs.Request.Demand

/-! What the canonical order makes of a list that comes in another order. Entries that compare as
equal stay in the order in which they come, so the sorted lists agree up to such entries. Cuts that
compare as equal have one canonical form, which says all but whether an empty label is there.
Materials that compare as equal have one code, and a request that passes its check lists no code
twice. -/
namespace Guillotine

open List (Forall₂)

/-! ### Sorting what comes in another order -/

section Sorting

variable {α β γ : Type} {cmp : α → α → Ordering} {as bs : List α}

/-- Whether some elements with the given images are in order. -/
def ImageLE (cmp : α → α → Ordering) (f : α → β) (x y : β) : Prop :=
  ∃ a b, f a = x ∧ f b = y ∧ (cmp a b).isLE = true

/-- The images of two sorted lists are the same if they are so in some order, if the images of two
elements say how these compare, and if elements that compare as equal have one image. -/
theorem map_mergeSort_eq_of_perm [Std.TransCmp cmp] {f : α → β}
    (hcmp : ∀ a a' b b', f a = f a' → f b = f b' → cmp a b = cmp a' b')
    (htie : ∀ a ∈ as, ∀ b ∈ bs, cmp a b = .eq → f a = f b) (h : (as.map f).Perm (bs.map f)) :
    (as.mergeSort fun a b => (cmp a b).isLE).map f =
      (bs.mergeSort fun a b => (cmp a b).isLE).map f := by
  have hsorted (cs : List α) :
      ((cs.mergeSort fun a b => (cmp a b).isLE).map f).Pairwise (ImageLE cmp f) :=
    List.pairwise_map.2 ((pairwise_mergeSort_isLE cs).imp fun hle => ⟨_, _, rfl, rfl, hle⟩)
  have hperm (cs : List α) :
      ((cs.mergeSort fun a b => (cmp a b).isLE).map f).Perm (cs.map f) :=
    (List.mergeSort_perm cs _).map f
  refine List.Perm.eq_of_pairwise ?_ (hsorted as) (hsorted bs)
    ((hperm as).trans (h.trans (hperm bs).symm))
  intro x y hx hy hxy hyx
  obtain ⟨a, ha, rfl⟩ := List.mem_map.1 hx
  obtain ⟨b, hb, rfl⟩ := List.mem_map.1 hy
  obtain ⟨a₁, b₁, ha₁, hb₁, hle⟩ := hxy
  obtain ⟨b₂, a₂, hb₂, ha₂, hge⟩ := hyx
  rw [hcmp a₁ a b₁ b ha₁ hb₁] at hle
  rw [hcmp b₂ b a₂ a hb₂ ha₂] at hge
  exact htie a (List.mem_mergeSort.1 ha) b (List.mem_mergeSort.1 hb)
    (Std.OrientedCmp.isLE_antisymm hle hge)

/-- Where elements that compare as equal are equal, sorting forgets the order of a list. -/
theorem mergeSort_eq_of_perm [Std.TransCmp cmp]
    (htie : ∀ a ∈ as, ∀ b ∈ as, cmp a b = .eq → a = b) (h : as.Perm bs) :
    (as.mergeSort fun a b => (cmp a b).isLE) = bs.mergeSort fun a b => (cmp a b).isLE := by
  have hcmp (a a' b b' : α) (ha : id a = id a') (hb : id b = id b') : cmp a b = cmp a' b' :=
    congrArg₂ cmp ha hb
  have himages := map_mergeSort_eq_of_perm hcmp
    (fun a ha b hb => htie a ha b (h.symm.subset hb)) (h.map id)
  rwa [List.map_id, List.map_id] at himages

/-- Comparing as equal. -/
def tieSetoid (cmp : α → α → Ordering) [Std.TransCmp cmp] : Setoid α where
  r a b := cmp a b = .eq
  iseqv :=
    ⟨fun _ => Std.ReflCmp.compare_self, Std.OrientedCmp.eq_symm, Std.TransCmp.eq_trans⟩

/-- Two sorted lists of the same elements agree up to elements that compare as equal. -/
theorem forall₂_mergeSort_of_perm [Std.TransCmp cmp] (h : as.Perm bs) :
    Forall₂ (fun a b => cmp a b = .eq) (as.mergeSort fun a b => (cmp a b).isLE)
      (bs.mergeSort fun a b => (cmp a b).isLE) := by
  have hcmp (a a' b b' : α) (ha : Quotient.mk (tieSetoid cmp) a = Quotient.mk _ a')
      (hb : Quotient.mk (tieSetoid cmp) b = Quotient.mk _ b') : cmp a b = cmp a' b' := by
    have ha' : cmp a a' = .eq := Quotient.exact ha
    have hb' : cmp b b' = .eq := Quotient.exact hb
    rw [Std.TransCmp.congr_left ha', Std.TransCmp.congr_right hb']
  have himages := map_mergeSort_eq_of_perm hcmp (fun _ _ _ _ htie => Quotient.sound htie)
    (h.map (Quotient.mk (tieSetoid cmp)))
  exact (forall₂_of_map_eq himages).imp fun _ _ htie => Quotient.exact htie

/-- Lists with the same images in some order have the same images under any other function of the
same classes. -/
theorem perm_map_of_perm_map [Nonempty γ] {f : α → β} {g : α → γ}
    (hfg : ∀ a b, f a = f b → g a = g b) (h : (as.map f).Perm (bs.map f)) :
    (as.map g).Perm (bs.map g) := by
  obtain ⟨e, rfl⟩ := (Function.factorsThrough_iff g).1 fun a b => hfg a b
  rw [← List.map_map, ← List.map_map]
  exact h.map e

end Sorting

/-! ### Entries that compare as equal -/

theorem Cut.canonical_eq_of_compare {c d : Cut} (h : c.compare d = .eq) :
    c.canonical = d.canonical := by
  simp only [compare, Ordering.then_eq_eq, Std.compare_eq_iff_eq] at h
  obtain ⟨hmaterial, hwidth, hheight, hquantity, hlabel, hgrain, hrotation, hpriority⟩ := h
  simp only [canonical, hmaterial, hwidth, hheight, hquantity, hlabel, hgrain, hrotation,
    hpriority]

/-- The canonical forms of cuts say how these compare. -/
theorem Cut.compare_eq_of_canonical {c c' d d' : Cut} (hc : c.canonical = c'.canonical)
    (hd : d.canonical = d'.canonical) : c.compare d = c'.compare d' := by
  simp only [canonical, CanonicalCut.mk.injEq] at hc hd
  simp only [compare, hc, hd]

namespace Material

variable {m m' n n' : Material}

theorem code_eq_of_compare (h : m.compare n = .eq) : m.code = n.code := by
  simp only [compare, Ordering.then_eq_eq, Std.compare_eq_iff_eq] at h
  exact h.1

/-- The canonical forms of materials say how these compare. -/
theorem compare_eq_of_canonical (hm : m.canonical = m'.canonical)
    (hn : n.canonical = n'.canonical) : m.compare n = m'.compare n' := by
  simp only [canonical, CanonicalMaterial.mk.injEq] at hm hn
  simp only [compare, hm, hn]

/-- Materials that compare as equal are both flawed or both not, since their prices have one
value. -/
theorem validate_eq_of_compare (h : m.compare n = .eq) : m.validate = n.validate := by
  simp only [compare, Ordering.then_eq_eq, Std.compare_eq_iff_eq] at h
  obtain ⟨hcode, hwidth, hheight, hcost, -⟩ := h
  have hnegative : m.cost < 0 ↔ n.cost < 0 := lt_congr (by decide +kernel) hcost
  simp only [validate, flaw?, hcode, hwidth, hheight, isFinite_congr hcost, hnegative]

end Material

namespace Request

variable {r q : Request}

/-! ### The check -/

theorem forM_eq_of_forall₂ {ε α β : Type} {R : α → β → Prop} {f : α → Except ε Unit}
    {g : β → Except ε Unit} {as : List α} {bs : List β} (hfg : ∀ a b, R a b → f a = g b)
    (h : Forall₂ R as bs) : as.forM f = bs.forM g := by
  induction h with
  | nil => rfl
  | @cons a b as bs hab _ ih =>
    show (f a >>= fun _ => as.forM f) = (g b >>= fun _ => bs.forM g)
    rw [hfg a b hab, ih]

/-- Entries that compare as equal are checked alike. -/
theorem check_eq_of_compare
    (hmaterials : Forall₂ (fun m n => m.compare n = .eq) r.materials q.materials)
    (hcuts : Forall₂ (fun c d => c.compare d = .eq) r.cuts q.cuts) : r.check = q.check := by
  have hpieces : Forall₂ Piece.Alike r.pieces q.pieces :=
    forall₂_mapIdx
      (fun i _ _ htie => piece_alike_of_canonical (Cut.canonical_eq_of_compare htie) i) hcuts
  have hvalid : r.materials.forM Material.validate = q.materials.forM Material.validate :=
    forM_eq_of_forall₂ (fun _ _ htie => Material.validate_eq_of_compare htie) hmaterials
  have hcodes : r.materials.map Material.code = q.materials.map Material.code :=
    map_eq_of_forall₂ (fun _ _ htie => Material.code_eq_of_compare htie) hmaterials
  rw [check, check, hvalid, hcodes,
    forM_eq_of_forall₂ (fun _ _ hpq => Packer.validate_piece_alike hpq) hpieces]

theorem nodup_of_firstRepeated {seen codes : List String} (h : firstRepeated seen codes = none) :
    codes.Nodup ∧ ∀ code ∈ codes, code ∉ seen := by
  induction codes generalizing seen with
  | nil => simp
  | cons code codes ih =>
    simp only [firstRepeated] at h
    split at h
    next => cases h
    next hnew =>
      obtain ⟨hnodup, hseen⟩ := ih h
      rw [List.contains_iff_mem] at hnew
      refine ⟨List.nodup_cons.2 ⟨fun hcode => ?_, hnodup⟩, List.forall_mem_cons.2 ⟨hnew, ?_⟩⟩
      · exact hseen code hcode List.mem_cons_self
      · exact fun c hc hmem => hseen c hc (List.mem_cons_of_mem _ hmem)

/-- A request that passes its check lists no code twice. -/
theorem nodup_codes (h : r.check = .ok ()) : (r.materials.map Material.code).Nodup := by
  unfold check at h
  obtain ⟨_, -, h⟩ := bind_eq_ok_iff.1 h
  split at h
  next => cases h
  next hnone => exact (nodup_of_firstRepeated hnone).1

/-- In a request that passes its check, materials that compare as equal are the same. -/
theorem material_eq_of_compare (h : r.check = .ok ()) :
    ∀ m ∈ r.materials, ∀ n ∈ r.materials, m.compare n = .eq → m = n :=
  fun _ hm _ hn htie =>
    List.inj_on_of_nodup_map (nodup_codes h) hm hn (Material.code_eq_of_compare htie)

end Request

end Guillotine
