import Guillotine.Proofs.Plan.Separate
import Guillotine.Proofs.Plan.Totals

/-! Sheets counted by material. The sheets of a plan are counted by merging neighbours of one
material, which is right only because no material comes back after another one. A packing keeps the
sheets of each material together, numbered from one, and so the rows of costs have every material
once and add up to all sheets. -/
namespace Guillotine

variable {m : Material} {catalog : Catalog} {saw : Saw} {s : Settings} {pieces : List Piece}
  {elapsed : Duration} {plan : Plan}

/-! ### Counting neighbours -/

/-- The first of the neighbours counted together is the first of all. -/
theorem head?_countRuns (ms : List Material) : (countRuns ms).head?.map Prod.fst = ms.head? := by
  cases ms with
  | nil => rfl
  | cons m ms =>
    rw [countRuns]
    split
    · split <;> rfl
    · rfl

/-- Copies of a material are counted together, apart from those of others behind them. -/
theorem countRuns_replicate_append (n : Nat) {ms : List Material}
    (h : ∀ k ∈ ms, k.code ≠ m.code) :
    countRuns (List.replicate (n + 1) m ++ ms) = (m, n + 1) :: countRuns ms := by
  induction n with
  | zero =>
    rw [List.replicate_one, List.singleton_append, countRuns]
    have hhead := head?_countRuns ms
    split
    next k n rest hruns =>
      have hk : k.code ≠ m.code := by
        rw [hruns] at hhead
        exact h k (List.mem_of_mem_head? hhead.symm)
      rw [if_neg hk.symm, hruns]
    next hruns => rw [hruns]
  | succ n ih =>
    rw [List.replicate_succ, List.cons_append, countRuns, ih]
    exact if_pos rfl

/-! ### Blocks of sheets -/

/-- The sheets of one material in a plan: at least one and not too many, each with a placement, and
numbered from one. -/
structure Layout.Block (s : Settings) (m : Material) (ls : List Layout) : Prop where
  some : ls ≠ []
  limited : ls.length ≤ s.maxSheets.toNat
  material : ∀ l ∈ ls, l.material = m
  occupied : ∀ l ∈ ls, l.placed ≠ []
  numbers : ls.map (fun l => l.index.toNat) = List.range' 1 ls.length

/-- Sheets of different materials, those of one next to each other. -/
structure Layout.Blocks (s : Settings) (blocks : List (Material × List Layout)) : Prop where
  block : ∀ b ∈ blocks, Block s b.1 b.2
  codes : (blocks.map fun b => b.1.code).Nodup

namespace Layout.Blocks

variable {blocks : List (Material × List Layout)} {b : Material × List Layout}

theorem code_of_mem (h : Blocks s blocks) {l : Layout} (hl : l ∈ blocks.flatMap Prod.snd) :
    l.material.code ∈ blocks.map fun b => b.1.code := by
  obtain ⟨b, hb, hl⟩ := List.mem_flatMap.1 hl
  exact List.mem_map.2 ⟨b, hb, congrArg Material.code ((h.block b hb).material l hl).symm⟩

/-- What comes after the first block is of other materials. -/
theorem tail (h : Blocks s (b :: blocks)) :
    Blocks s blocks ∧ ∀ l ∈ blocks.flatMap Prod.snd, l.material.code ≠ b.1.code := by
  have hblock := List.forall_mem_cons.1 h.block
  have hcodes := List.nodup_cons.1 h.codes
  have htail : Blocks s blocks := ⟨hblock.2, hcodes.2⟩
  refine ⟨htail, fun l hl heq => hcodes.1 ?_⟩
  show b.1.code ∈ _
  rw [← heq]
  exact htail.code_of_mem hl

/-- The sheets of a material are those of its block. -/
theorem filter_code (h : Blocks s blocks) (hb : b ∈ blocks) :
    (blocks.flatMap Prod.snd).filter (fun l => l.material.code = b.1.code) = b.2 := by
  induction blocks with
  | nil => cases hb
  | cons c blocks ih =>
    obtain ⟨htail, hothers⟩ := h.tail
    have hc := h.block c List.mem_cons_self
    rw [List.flatMap_cons, List.filter_append]
    rcases List.mem_cons.1 hb with rfl | hb
    · rw [Packer.filter_code_eq_nil hothers, List.append_nil]
      exact Packer.filter_code_eq_self fun l hl => congrArg Material.code (hc.material l hl)
    · have hne : c.1.code ≠ b.1.code :=
        fun heq => (List.nodup_cons.1 h.codes).1 (List.mem_map.2 ⟨b, hb, heq.symm⟩)
      rw [Packer.filter_code_eq_nil fun l hl => (hc.material l hl).symm ▸ hne, ih htail hb,
        List.nil_append]

/-- Counting neighbours counts the blocks. -/
theorem countRuns (h : Blocks s blocks) :
    countRuns ((blocks.flatMap Prod.snd).map material) = blocks.map fun b => (b.1, b.2.length) := by
  induction blocks with
  | nil => rfl
  | cons b blocks ih =>
    obtain ⟨htail, hothers⟩ := h.tail
    have hb := h.block b List.mem_cons_self
    obtain ⟨n, hn⟩ := Nat.exists_eq_succ_of_ne_zero (List.length_pos_iff.2 hb.some).ne'
    have hcopies : b.2.map material = List.replicate (n + 1) b.1 :=
      List.eq_replicate_iff.2 ⟨by rw [List.length_map, hn], by simpa using hb.material⟩
    rw [List.flatMap_cons, List.map_append, hcopies,
      countRuns_replicate_append n (List.forall_mem_map.2 hothers), ih htail, List.map_cons, hn]

end Layout.Blocks

/-! ### The sheets of a packing -/

namespace Packer

/-- The sheets filled one after the other are numbered one after the other, and are no more than
allowed. -/
theorem Course.numbers {allowed index : Nat} {waiting left : List Item} {layouts : List Layout}
    (h : Course m saw s allowed index waiting layouts left) :
    layouts.map Layout.index = (List.range' index layouts.length).map UInt64.ofNat ∧
      layouts.length ≤ allowed := by
  induction h with
  | stopped => exact ⟨rfl, Nat.le_refl 0⟩
  | done => exact ⟨rfl, Nat.zero_le _⟩
  | stuck => exact ⟨rfl, Nat.zero_le _⟩
  | @sheet allowed index _ _ _ _ b' layouts _ hopened hfill _ _ ih =>
    obtain ⟨u, -, rfl⟩ := Board.opened_eq_ok_iff.1 hopened
    have hindex : b'.layout.index = UInt64.ofNat index := fill_index hfill
    rw [List.map_cons, hindex, ih.1, List.length_cons, List.range'_succ, List.map_cons]
    exact ⟨rfl, Nat.succ_le_succ ih.2⟩

/-- The sheets of one material are numbered from one and are no more than may be opened. -/
theorem packMaterial_numbers {items left : List Item} {layouts : List Layout}
    (h : Packing.Returns (packMaterial m saw s items) (layouts, left)) :
    layouts.map (fun l => l.index.toNat) = List.range' 1 layouts.length ∧
      layouts.length ≤ s.maxSheets.toNat := by
  obtain ⟨u, rest, -, hfill, -⟩ := returns_packMaterial_iff.1 h
  obtain ⟨hnumbers, hlimited⟩ := (course_of_returns hfill).numbers
  refine ⟨?_, hlimited⟩
  -- The numbers are too small to wrap around.
  have hsmall : ∀ n ∈ List.range' 1 layouts.length, (UInt64.ofNat n).toNat = n := by
    intro n hn
    rw [List.mem_range'_1] at hn
    refine UInt64.toNat_ofNat_of_lt' (Nat.lt_of_le_of_lt ?_ s.maxSheets.toNat_lt)
    omega
  calc layouts.map (fun l => l.index.toNat)
      = (layouts.map Layout.index).map UInt64.toNat := by rw [List.map_map]; rfl
    _ = (List.range' 1 layouts.length).map fun n => (UInt64.ofNat n).toNat := by
        rw [hnumbers, List.map_map]; rfl
    _ = List.range' 1 layouts.length := by rw [List.map_congr_left hsmall, List.map_id']

/-- The sheets of one material are a block, if there are any. -/
theorem packMaterial_block {items left : List Item} {layouts : List Layout}
    (h : Packing.Returns (packMaterial m saw s items) (layouts, left))
    (hcode : ∀ i ∈ items, i.material = m.code) (hsome : layouts ≠ []) :
    Layout.Block s m layouts := by
  obtain ⟨takens, hdealt, hall, -⟩ := packMaterial_spec h hcode
  obtain ⟨hnumbers, hlimited⟩ := packMaterial_numbers h
  refine ⟨hsome, hlimited, hall, fun l hl => ?_, hnumbers⟩
  obtain ⟨taken, -, hfilled⟩ := exists_filled hdealt.filled hl
  exact hfilled.occupied

/-- Packing group by group makes at most one block for each group, in the order of the groups. -/
theorem packGroups_blocks {known : List Material} {groups : List (String × List Item)}
    (h : Packing.Returns (packGroups known saw s groups) plan)
    (hcode : ∀ g ∈ groups, ∀ i ∈ g.2, i.material = g.1) :
    ∃ blocks : List (Material × List Layout), plan.layouts = blocks.flatMap Prod.snd ∧
      (∀ b ∈ blocks, Layout.Block s b.1 b.2) ∧
      (blocks.map fun b => b.1.code).Sublist (groups.map Prod.fst) := by
  induction groups generalizing plan with
  | nil =>
    obtain rfl := Packing.returns_pure.1 h
    exact ⟨[], rfl, by simp, List.Sublist.slnil⟩
  | cons g groups ih =>
    obtain ⟨code, items⟩ := g
    rw [List.forall_mem_cons] at hcode
    simp only [packGroups] at h
    split at h
    next => exact (Packing.not_returns_fault h).elim
    next m hm =>
      obtain rfl : m.code = code := Material.code_of_find? hm
      obtain ⟨⟨layouts, left⟩, hmaterial, h⟩ := Packing.returns_bind.1 h
      obtain ⟨rest, hrest, h⟩ := Packing.returns_bind.1 h
      obtain rfl := Packing.returns_pure.1 h
      obtain ⟨blocks, hlayouts, hblocks, hcodes⟩ := ih hrest hcode.2
      by_cases hsome : layouts = []
      · -- All items of the group are left over.
        exact ⟨blocks, by rw [hsome, hlayouts, List.nil_append], hblocks, hcodes.cons _⟩
      · have hblock := packMaterial_block hmaterial hcode.1 hsome
        exact ⟨(m, layouts) :: blocks, by rw [hlayouts, List.flatMap_cons],
          List.forall_mem_cons.2 ⟨hblock, hblocks⟩, hcodes.cons_cons _⟩

end Packer

/-! ### Tallies -/

namespace Plan

/-- Every sheet of a packing has an area, so that there are no more sheets than area. -/
theorem Packed.sheetCount_le {takens : List (List Item)}
    (h : plan.Packed catalog saw s pieces takens) : plan.sheetCount ≤ plan.sheetArea := by
  have harea : ∀ l ∈ plan.layouts, 1 ≤ l.material.width.toNat * l.material.height.toNat := by
    intro l hl
    have hspec := Saw.usable_spec (h.feasible hl).1
    have hwidth := hspec.width
    have hheight := hspec.height
    have hpos := hspec.pos
    exact Nat.mul_pos (by omega) (by omega)
  calc plan.sheetCount = (plan.layouts.map fun _ => 1).sum := by simp [sheetCount]
    _ ≤ plan.sheetArea := List.sum_le_sum harea

/-- A report on a packing has its costs, and all of its sheets, which are not too many to be
counted. -/
theorem Packed.counted {takens : List (List Item)} (h : plan.Packed catalog saw s pieces takens)
    {project : String} {side : Length} {r : Report}
    (hreport : plan.report project elapsed side = .ok r) :
    r.costs = plan.costs ∧ r.summary.boards.toNat = plan.sheetCount ∧
      r.boards.length = plan.sheetCount := by
  have harea : plan.sheetArea < UInt64.size := by
    by_contra hlarge
    rw [report_overflows h.withinSheets (Nat.le_of_not_lt hlarge)] at hreport
    cases hreport
  obtain ⟨bs, hbs, hcuts⟩ := exists_mapM (fun l hl => by
    obtain ⟨used, -, hused, -⟩ := Layout.exists_used_waste (h.withinSheets l hl)
    exact Layout.exists_report hused side)
  unfold report at hreport
  obtain ⟨boards, hboards, hreport⟩ := bind_eq_ok_iff.1 hreport
  obtain ⟨waste, -, hreport⟩ := bind_eq_ok_iff.1 hreport
  obtain rfl := Except.ok.inj hreport
  obtain rfl := Except.ok.inj (hbs.symm.trans hboards)
  have hlength := congrArg List.length hcuts
  rw [List.length_map, List.length_map] at hlength
  exact ⟨rfl, UInt64.toNat_ofNat_of_lt' (Nat.lt_of_le_of_lt h.sheetCount_le harea), hlength⟩

/-- How the sheets of a plan are counted: they are blocks, one of each material that has sheets, and
so are the rows of costs. -/
structure Tallied (s : Settings) (p : Plan) (bs : List (Material × List Layout)) : Prop where
  blocks : Layout.Blocks s bs
  layouts : p.layouts = bs.flatMap Prod.snd
  ofMaterial : ∀ b ∈ bs, (p.ofMaterial b.1.code).layouts = b.2
  perMaterial : p.sheetsPerMaterial = bs.map fun b => (b.1, b.2.length)
  rows : p.costs.rows.map (fun r => (r.material, r.boards.toNat)) =
    bs.map fun b => (b.1.code, b.2.length)
  sum : (p.costs.rows.map fun r => r.boards.toNat).sum = p.sheetCount
  reports : ∀ project elapsed side r, p.report project elapsed side = .ok r →
    r.costs = p.costs ∧ r.summary.boards.toNat = p.sheetCount ∧ r.boards.length = p.sheetCount

/-- Blocks of sheets are counted one by one. -/
theorem rows_of_blocks {bs : List (Material × List Layout)} (h : Layout.Blocks s bs)
    (hlayouts : plan.layouts = bs.flatMap Prod.snd) :
    plan.sheetsPerMaterial = bs.map (fun b => (b.1, b.2.length)) ∧
      plan.costs.rows.map (fun r => (r.material, r.boards.toNat)) =
        bs.map fun b => (b.1.code, b.2.length) := by
  have hper : plan.sheetsPerMaterial = bs.map fun b => (b.1, b.2.length) := by
    rw [sheetsPerMaterial, hlayouts, h.countRuns]
  refine ⟨hper, ?_⟩
  rw [costs, hper, List.map_map, List.map_map]
  refine List.map_congr_left fun b hb => ?_
  have hsmall := Nat.lt_of_le_of_lt (h.block b hb).limited s.maxSheets.toNat_lt
  exact Prod.ext rfl (UInt64.toNat_ofNat_of_lt' hsmall)

end Plan

open Packer

/-- Every solution is tallied: the sheets of each material are next to each other, with a piece on
each, and numbered from one up to at most the limit, the rows of costs have every material that has
sheets once, in the order of the sheets and with their number, and those add up to all sheets and to
what any report says of them. -/
theorem solve_tallied (h : Packing.Returns (solve s catalog saw pieces elapsed) plan) :
    ∃ bs, plan.Tallied s bs := by
  obtain ⟨takens, hpacked⟩ := solve_spec h
  rw [returns_solve_iff, returns_pack_iff] at h
  obtain ⟨known, -, h⟩ := h
  obtain ⟨bs, hlayouts, hblock, hcodes⟩ :=
    packGroups_blocks h fun g hg => material_of_mem_grouped hg
  have hblocks : Layout.Blocks s bs := ⟨hblock, (nodup_grouped _).sublist hcodes⟩
  obtain ⟨hper, hrows⟩ := Plan.rows_of_blocks hblocks hlayouts
  refine ⟨bs, hblocks, hlayouts, fun b hb => ?_, hper, hrows, ?_, fun _ _ _ _ => hpacked.counted⟩
  · rw [Plan.ofMaterial, hlayouts]
    exact hblocks.filter_code hb
  · calc (plan.costs.rows.map fun r => r.boards.toNat).sum
        = ((bs.map fun b => (b.1.code, b.2.length)).map Prod.snd).sum := by
          rw [← hrows, List.map_map]; rfl
      _ = (bs.map fun b => b.2.length).sum := by rw [List.map_map]; rfl
      _ = plan.sheetCount := by rw [Plan.sheetCount, hlayouts, List.length_flatMap]

theorem solve_tallied_mixed :
    Packing.Returns (solve .standard mixedCatalog sampleSaw mixedPieces ⟨0, 0⟩) mixedPlan ∧
      ∃ bs, mixedPlan.Tallied .standard bs :=
  ⟨solve_mixed, solve_tallied solve_mixed⟩

end Guillotine
