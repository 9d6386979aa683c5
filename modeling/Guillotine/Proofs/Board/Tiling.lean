import Guillotine.Proofs.Board.Feasible
import Guillotine.Proofs.Plane.Cells

/-! What is free on a sheet after a placement. Handles are not given out twice, so exactly one free
rectangle is used. The free rectangles of a sheet are never empty and keep apart, so none lies
within another one and pruning drops nothing. Without a kerf, and if no part counts as too small, no
cell of the usable region is lost. -/
namespace Guillotine

/-! ### Handles -/

namespace FreeList

variable {f g : FreeList} {h : Handle} {r s : Rect}

/-- Whether no handle is used twice, and the next one is new. -/
structure Named (f : FreeList) : Prop where
  nodup : (f.entries.map Prod.fst).Nodup
  below : ∀ e ∈ f.entries, e.1 < f.next

theorem named_single (r : Rect) : (single r).Named := by
  constructor <;> simp [single, insert, empty]

theorem Named.insert (hf : f.Named) (r : Rect) : (f.insert r).Named := by
  refine ⟨?_, ?_⟩
  · simp only [FreeList.insert, List.map_append, List.map_singleton]
    refine List.nodup_append.2 ⟨hf.nodup, List.nodup_singleton _, ?_⟩
    rintro k hk l hl rfl
    obtain rfl := List.mem_singleton.1 hl
    obtain ⟨e, he, hkey⟩ := List.mem_map.1 hk
    exact absurd (hf.below e he) (Nat.lt_irrefl _ <| hkey ▸ ·)
  · simp only [FreeList.insert, List.forall_mem_append, List.forall_mem_singleton]
    exact ⟨fun e he => Nat.lt_succ_of_lt (hf.below e he), Nat.lt_succ_self _⟩

theorem Named.insertAll (hf : f.Named) (rs : List Rect) : (f.insertAll rs).Named := by
  induction rs generalizing f with
  | nil => exact hf
  | cons r rs ih => exact ih (hf.insert r)

theorem Named.sublist (hf : f.Named) (hs : g.entries.Sublist f.entries) (hnext : g.next = f.next) :
    g.Named :=
  ⟨(hs.map Prod.fst).nodup hf.nodup, fun e he => hnext ▸ hf.below e (hs.subset he)⟩

theorem Named.remove (hf : f.Named) (h : Handle) : (f.remove h).Named :=
  hf.sublist List.filter_sublist rfl

theorem Named.prune (hf : f.Named) (hp : f.prune = .ok g) : g.Named :=
  hf.sublist (prune_sublist hp).1 (prune_sublist hp).2

/-- Removing a handle takes away the rectangle under it and nothing else. -/
theorem mem_rects_remove (hf : f.Named) (hr : f.get? h = some r) (hs : s ∈ f.rects) :
    s = r ∨ s ∈ (f.remove h).rects := by
  obtain ⟨⟨k, o⟩, he, rfl⟩ := List.mem_map.1 hs
  by_cases hk : k = h
  · left
    have heq := List.inj_on_of_nodup_map hf.nodup he (mem_entries_of_get? hr) hk
    exact congrArg Prod.snd heq
  · right
    exact List.mem_map_of_mem (List.mem_filter.2 ⟨he, by simpa using hk⟩)

/-! ### Pruning nothing -/

/-- What is contained lies inside. -/
theorem inside_of_contains (h : r.contains s = .ok true) : s.region.Inside r.region := by
  unfold Rect.contains at h
  split at h
  next hnear =>
    simp only [Bool.and_eq_true, decide_eq_true_eq, UInt32.le_iff_toNat_le] at hnear
    obtain ⟨far, hfar, h⟩ := bind_eq_ok_iff.1 h
    obtain ⟨right, hright, h⟩ := bind_eq_ok_iff.1 h
    split at h
    next hle =>
      obtain ⟨low, hlow, h⟩ := bind_eq_ok_iff.1 h
      obtain ⟨bottom, hbottom, h⟩ := bind_eq_ok_iff.1 h
      have hlast : bottom ≤ low := of_decide_eq_true (Except.ok.inj h)
      rw [UInt32.le_iff_toNat_le] at hle hlast
      have hsums := And.intro
        (And.intro (Length.add_eq_ok_iff.1 hfar) (Length.add_eq_ok_iff.1 hright))
        (And.intro (Length.add_eq_ok_iff.1 hlow) (Length.add_eq_ok_iff.1 hbottom))
      simp only [Region.Inside, Rect.region]
      omega
    next => cases h
  next => cases h

/-- An entry that no other one contains is not covered. -/
theorem eq_false_of_isCovered {es : List (Handle × Rect)} {covered : Bool}
    (hfree : ∀ e ∈ es, e.1 ≠ h → e.2.contains r ≠ .ok true)
    (hc : isCovered h r es = .ok covered) : covered = false := by
  induction es with
  | nil => exact (Except.ok.inj hc).symm
  | cons e es ih =>
    obtain ⟨k, o⟩ := e
    rw [List.forall_mem_cons] at hfree
    rw [isCovered] at hc
    split at hc
    next => exact ih hfree.2 hc
    next hk =>
      obtain ⟨within, hwithin, hc⟩ := bind_eq_ok_iff.1 hc
      cases within with
      | true => exact absurd hwithin (hfree.1 hk)
      | false => exact ih hfree.2 hc

theorem uncovered_eq_self {all es kept : List (Handle × Rect)}
    (hfree : ∀ e ∈ es, ∀ o ∈ all, o.1 ≠ e.1 → o.2.contains e.2 ≠ .ok true)
    (hk : uncovered all es = .ok kept) : kept = es := by
  induction es generalizing kept with
  | nil => exact (Except.ok.inj hk).symm
  | cons e es ih =>
    obtain ⟨k, o⟩ := e
    rw [List.forall_mem_cons] at hfree
    rw [uncovered] at hk
    obtain ⟨covered, hcovered, hk⟩ := bind_eq_ok_iff.1 hk
    obtain rfl := eq_false_of_isCovered hfree.1 hcovered
    obtain ⟨rest, hrest, hk⟩ := bind_eq_ok_iff.1 hk
    rw [ih hfree.2 hrest] at hk
    exact (Except.ok.inj hk).symm

/-- Pruning drops nothing from free rectangles that keep apart and are not empty. -/
theorem prune_eq_self (gap : Nat) (hapart : (f.rects.map Rect.region).Pairwise (Region.Apart gap))
    (hsolid : ∀ r ∈ f.rects, 0 < r.width.toNat ∧ 0 < r.height.toNat) (hp : f.prune = .ok g) :
    g = f := by
  unfold FreeList.prune at hp
  obtain ⟨kept, hkept, hp⟩ := bind_eq_ok_iff.1 hp
  obtain rfl := Except.ok.inj hp
  have hentries : f.entries.Pairwise fun a b => Region.Apart gap a.2.region b.2.region := by
    rwa [rects, List.map_map, List.pairwise_map] at hapart
  rw [uncovered_eq_self ?_ hkept]
  intro e he o ho hne hcontains
  have hinside := inside_of_contains hcontains
  have hsides := hsolid e.2 (List.mem_map_of_mem he)
  have : Std.Symm fun a b : Handle × Rect => Region.Apart gap a.2.region b.2.region :=
    ⟨fun _ _ h => h.symm⟩
  have hdistance : Region.Apart gap o.2.region e.2.region :=
    hentries.forall ho he fun h => hne (congrArg Prod.fst h)
  simp only [Region.Apart, Region.Inside, Rect.region] at hdistance hinside
  omega

end FreeList

/-! ### What a placement leaves free -/

namespace Board

variable {b b' : Board} {i : Item} {spot : Spot} {used : Rect} {p : Placement} {m : Material}
  {saw : Saw} {s : Settings} {items : List Item}

theorem Reached.named (h : Reached m saw s items b) : b.free.Named := by
  induction h with
  | opened h =>
    obtain ⟨u, -, rfl⟩ := opened_eq_ok_iff.1 h
    exact FreeList.named_single u
  | placed _ h ih =>
    obtain ⟨spot, used, hput⟩ := place_returns_some_iff.1 h
    exact ((ih.remove _).insertAll _).prune hput.committed.pruned

namespace Put

/-- The parts of the split and the other free rectangles can be cut out together. -/
theorem cuttable_parts (h : Put b i spot used b' p) (hi : i.Solid) (hb : b.Feasible) :
    Cuttable b.cutting.kerf.toNat b.usable.region
      (((b.free.remove spot.handle).rects ++
        b.cutting.rule.split (corner b spot used)).map Rect.region) := by
  obtain ⟨hw, hh⟩ := hi.orientation (FreeList.findSpot_orientation h.found)
  have hsplit := Corner.split_cuttable (h.fitting hb) hw hh b.cutting.rule
  have hfree : List.Subperm ((used :: (b.free.remove spot.handle).rects).map Rect.region)
      b.regions :=
    ((FreeList.cons_rects_remove_subperm h.committed.found).map fun _ _ =>
      Rect.region_injective).trans (List.sublist_append_right _ _ |>.map _).subperm
  have hall := (hb.cuttable.subperm hfree).refine hsplit (List.Perm.refl _)
  rw [List.map_append]
  exact (hall.sublist (List.sublist_cons_self _ _)).perm List.perm_append_comm

/-- After a placement, the free rectangle used is replaced by the kept parts of its split. -/
theorem free_eq (h : Put b i spot used b' p) (hi : i.Solid) (hb : b.Feasible) :
    b'.free = (b.free.remove spot.handle).insertAll
      (b.cutting.rule.splitKept (corner b spot used) b.cutting.leastSide) := by
  have hkept : (b.cutting.rule.splitKept (corner b spot used) b.cutting.leastSide).Sublist
      (b.cutting.rule.split (corner b spot used)) := List.filter_sublist
  refine FreeList.prune_eq_self b.cutting.kerf.toNat ?_ ?_ h.committed.pruned
  · rw [FreeList.rects_insertAll]
    exact ((h.cuttable_parts hi hb).sublist ((hkept.append_left _).map _)).pairwise_apart
  · rw [FreeList.rects_insertAll, List.forall_mem_append]
    refine ⟨fun r hr => hb.solid r ?_, fun r hr => ?_⟩
    · exact (FreeList.cons_rects_remove_subperm h.committed.found).subset
        (List.mem_cons_of_mem _ hr)
    · exact Corner.pos_of_mem_split (h.fitting hb) (hkept.subset hr)

end Put

/-! ### Cells -/

/-- Whether each cell of the usable region is in something placed or in something free. -/
def Covered (b : Board) : Prop :=
  ∀ x y, b.usable.region.HasCell x y → ∃ r ∈ b.regions, r.HasCell x y

/-- All parts of a split are kept if one cell is enough. -/
theorem mem_splitKept {c : Corner} (hc : c.Fitting) {rule : SplitRule} {least : Length}
    (hleast : least ≤ 1) {r : Rect} (hr : r ∈ rule.split c) : r ∈ rule.splitKept c least := by
  obtain ⟨hw, hh⟩ := Corner.pos_of_mem_split hc hr
  have hone : least.toNat ≤ 1 := UInt32.le_iff_toNat_le.1 hleast
  refine List.mem_filter.2 ⟨hr, ?_⟩
  simp only [Bool.and_eq_true, decide_eq_true_eq, UInt32.le_iff_toNat_le]
  omega

/-- A placement loses no cell. -/
theorem Put.covered (h : Put b i spot used b' p) (hi : i.Solid) (hb : b.Feasible)
    (hnamed : b.free.Named) (hkerf : b.cutting.kerf = 0) (hleast : b.cutting.leastSide ≤ 1)
    (hcovered : b.Covered) : b'.Covered := by
  have hplaced : b'.placed = b.placed ++ [p] := by rw [h.board]
  have husable : b'.usable = b.usable := by rw [h.board]
  have hfree := h.free_eq hi hb
  have hrects : b'.free.rects = (b.free.remove spot.handle).rects ++
      b.cutting.rule.splitKept (corner b spot used) b.cutting.leastSide := by
    rw [hfree, FreeList.rects_insertAll]
  have hmem : ∀ {r : Rect}, r ∈ b'.free.rects → r.region ∈ b'.regions :=
    fun hr => List.mem_map_of_mem (List.mem_append_right _ hr)
  intro x y hxy
  rw [husable] at hxy
  obtain ⟨_, hmapped, hcell⟩ := hcovered x y hxy
  obtain ⟨r, hr, rfl⟩ := List.mem_map.1 hmapped
  rcases List.mem_append.1 hr with hold | hold
  · refine ⟨_, List.mem_map_of_mem (List.mem_append_left _ ?_), hcell⟩
    rw [hplaced, List.map_append]
    exact List.mem_append_left _ hold
  · rcases FreeList.mem_rects_remove hnamed h.committed.found hold with rfl | hrest
    · have hkerf' : (corner b spot r).kerf.toNat = 0 := by
        show b.cutting.kerf.toNat = 0
        rw [hkerf, UInt32.toNat_zero]
      rcases Corner.split_hasCell (h.fitting hb) hkerf' b.cutting.rule hcell with
        hpiece | ⟨q, hq, hin⟩
      · rw [← h.rect_eq] at hpiece
        refine ⟨_, List.mem_map_of_mem (List.mem_append_left _ ?_), hpiece⟩
        rw [hplaced]
        exact List.mem_map_of_mem (List.mem_append_right _ List.mem_cons_self)
      · refine ⟨_, hmem ?_, hin⟩
        rw [hrects]
        exact List.mem_append_right _ (mem_splitKept (h.fitting hb) hleast hq)
    · refine ⟨_, hmem ?_, hcell⟩
      rw [hrects]
      exact List.mem_append_left _ hrest

/-- Without a kerf, and with no part too small, no cell is lost however many items are placed. -/
theorem Reached.covered (h : Reached m saw s items b) (hsolid : ∀ i ∈ items, i.Solid)
    (hkerf : saw.kerf = 0) (hleast : s.leastSide ≤ 1) : b.Covered := by
  induction h with
  | opened h =>
    obtain ⟨u, -, rfl⟩ := opened_eq_ok_iff.1 h
    exact fun x y hxy => ⟨u.region, List.mem_singleton_self _, hxy⟩
  | placed hb h ih =>
    obtain ⟨spot, used, hput⟩ := place_returns_some_iff.1 h
    rw [List.forall_mem_append, List.forall_mem_singleton] at hsolid
    obtain ⟨-, -, hcutting⟩ := hb.settled
    refine hput.covered hsolid.2 (hb.feasible hsolid.1) hb.named ?_ ?_ (ih hsolid.1)
    · rw [hcutting]
      exact hkerf
    · rw [hcutting]
      exact hleast

end Board

end Guillotine
