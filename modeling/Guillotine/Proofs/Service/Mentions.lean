import Guillotine.Proofs.Plan.Solutions
import Guillotine.Proofs.Request.Mentions
import Guillotine.Proofs.Service.History

/-! The items of a report that was packed anew. A report speaks of its items by their ids: each copy
that the canonical order of the request asks for is on one of the sheets or among the items left
over, once, under its own id and with the material and the label of its cut. -/
namespace Guillotine

/-! ### The items of a report -/

def BoardReport.mentions (b : BoardReport) : List Mention :=
  b.cuts.map fun p => ⟨p.item, b.material, p.label⟩

def Unplaced.mention (u : Unplaced) : Mention := ⟨u.id, u.material, u.label⟩

/-- What a report says about its items; those on a sheet have the material of the sheet. -/
def Report.mentions (r : Report) : List Mention :=
  r.boards.flatMap BoardReport.mentions ++ r.unplaced.map Unplaced.mention

/-- A placement on a sheet of a material, as a report speaks of it. -/
def Placement.mention (m : Material) (p : Placement) : Mention := ⟨p.item, m.code, p.label⟩

variable {catalog : Catalog} {saw : Saw} {s : Settings} {pieces : List Piece} {plan : Plan}
  {report : Report} {project : String} {elapsed : Duration} {side : Length}

theorem Layout.report_mentions {l : Layout} {b : BoardReport} (h : l.report side = .ok b) :
    b.mentions = l.placed.map (Placement.mention l.material) := by
  obtain ⟨efficiency, -, h⟩ := bind_eq_ok_iff.1 h
  obtain rfl := Except.ok.inj h
  rfl

theorem Layout.reports_mentions {ls : List Layout} {bs : List BoardReport}
    (h : ls.mapM (fun l => l.report side) = .ok bs) :
    bs.flatMap BoardReport.mentions =
      ls.flatMap fun l => l.placed.map (Placement.mention l.material) := by
  induction ls generalizing bs with
  | nil =>
    obtain rfl := Except.ok.inj h
    rfl
  | cons l ls ih =>
    rw [List.mapM_cons] at h
    obtain ⟨b, hb, h⟩ := bind_eq_ok_iff.1 h
    obtain ⟨rest, hrest, h⟩ := bind_eq_ok_iff.1 h
    obtain rfl := Except.ok.inj h
    rw [List.flatMap_cons, List.flatMap_cons, report_mentions hb, ih hrest]

/-- A report speaks of the items that are on the sheets of the plan and of those that are left
over. -/
theorem Plan.report_mentions (h : plan.report project elapsed side = .ok report) :
    report.mentions =
      plan.onSheets.map (fun q => q.2.mention q.1) ++ plan.unplaced.map Item.mention := by
  obtain ⟨boards, hboards, h⟩ := bind_eq_ok_iff.1 h
  obtain ⟨waste, -, h⟩ := bind_eq_ok_iff.1 h
  obtain rfl := Except.ok.inj h
  show boards.flatMap _ ++ (plan.unplaced.map Item.unplaced).map _ = _
  rw [Layout.reports_mentions hboards, onSheets, List.map_flatMap, List.map_map]
  simp only [List.map_map, Function.comp_def]
  rfl

/-- A report on a packing speaks of each copy of the pieces, once. -/
theorem Plan.report_mentions_perm (hpack : Packing.Returns (pack s catalog saw pieces) plan)
    (h : plan.report project elapsed side = .ok report) :
    report.mentions.Perm ((pieces.flatMap Piece.copies).map Item.mention) := by
  obtain ⟨takens, hpacked, -⟩ := pack_spec hpack
  have honSheets := Packer.forall₂_onSheet hpacked.filled hpacked.listed
  have hmentions : takens.flatten.map Item.mention =
      plan.onSheets.map fun q => q.2.mention q.1 := by
    refine map_eq_of_forall₂ (fun i q hq => ?_) honSheets
    rw [Item.mention, Placement.mention, hq.isOf.id, hq.isOf.label, hq.code]
  rw [Plan.report_mentions h, ← hmentions, ← List.map_append]
  exact hpacked.perm.map Item.mention

namespace Service

/-- Whatever a service keeps its results in, an answer that was not kept says of each copy that the
canonical order of the request asks for, once, under an id of its own, what its cut says; and it
speaks of no other items. -/
theorem serve_mentions {σ : Type} [Backend σ] {s : Service} {v : Verbosity} {c : Call} {m : σ}
    {report : Report} (h : (s.serve v c m).2 = .ok (.ok report)) (hfresh : report.cached = false) :
    (c.request.ordered.mentions.map Mention.id).Nodup ∧
      report.mentions.Perm c.request.ordered.mentions := by
  refine ⟨Request.nodup_mentions _, ?_⟩
  obtain ⟨plan, fresh, hplan, hreport, rfl⟩ := exists_plan_of_reply (reply_of_fresh h hfresh)
  have hpack : Packing.Returns (s.plan c.request.ordered.toDemand) plan :=
    Logged.value_of_record hplan
  rw [← Request.map_mention_pieces]
  have hperm := Plan.report_mentions_perm hpack hreport
  exact hperm

/-! ### A request for three copies -/

def rackPanel : Material := ⟨"oak", 10, 8, 1, 0, none⟩

/-- A request for a cut that fits no sheet, and for another one twice. -/
def rackRequest : Request where
  project := "rack"
  cuts := [⟨1, 9, 1, "oak", none, true, none, 0⟩, ⟨2, 4, 2, "oak", some "foot", false, none, 0⟩]
  materials := [rackPanel]
  saw := ⟨1, 1, 1, 1, 1⟩

def rackCall : Call := ⟨⟨⟨0⟩, 0⟩, ⟨⟨0⟩, 0⟩, rackRequest⟩

def rackPieces : List Piece :=
  [⟨"c1", "oak", 1, 9, 1, true, 0, none, none⟩, ⟨"c2", "oak", 2, 4, 2, false, 0, none, some "foot"⟩]

def rackPlan : Plan where
  layouts := [⟨rackPanel, 1, ⟨1, 1, 8, 6⟩,
    [⟨"c2_1", some "foot", 1, 1, 2, 4, false⟩, ⟨"c2_2", some "foot", 4, 1, 2, 4, false⟩],
    [⟨1, 6, 2, 1⟩, ⟨4, 6, 2, 1⟩, ⟨7, 1, 2, 6⟩]⟩]
  unplaced := [⟨"c1", "oak", 1, 9, true, 0, none, none⟩]

theorem ordered_rack : rackRequest.ordered = rackRequest := by
  have hcuts : (rackRequest.cuts.mergeSort fun a b => (a.compare b).isLE) = rackRequest.cuts :=
    List.mergeSort_of_pairwise (by decide)
  rw [Request.ordered, hcuts]
  simp [rackRequest]

theorem pieces_rack : rackRequest.pieces = rackPieces := by
  have hids : s!"c{0 + 1}" = "c1" ∧ s!"c{0 + 1 + 1}" = "c2" := by decide +kernel
  simp only [Request.pieces, rackRequest, List.mapIdx_cons, List.mapIdx_nil, Request.piece,
    rackPieces, hids]

theorem pack_rack :
    Packing.Returns (pack .standard (.ofList [rackPanel]) ⟨1, 1, 1, 1, 1⟩ rackPieces) rackPlan := by
  have hrank : Packer.ranked rackPieces = rackPieces.flatMap Piece.copies :=
    List.mergeSort_of_pairwise (by decide)
  unfold pack
  rw [hrank]
  rfl

theorem reply_rack : ∃ a, rackCall.reply (sampleService 60) none = .ok (.ok a) := by
  have hplan : Packing.Returns ((sampleService 60).plan rackRequest.toDemand) rackPlan := by
    unfold plan Request.toDemand
    rw [pieces_rack]
    exact pack_rack
  exact ⟨_, reply_of_returns ordered_rack since_start hplan rfl⟩

theorem check_rack : rackRequest.ordered.check = .ok () := by
  rw [ordered_rack, Request.check, pieces_rack]
  rfl

theorem serve_rack :
    ∃ a, ((sampleService 60).serve none rackCall MemoryStore.empty).2 = .ok (.ok a) ∧
      a.cached = false := by
  obtain ⟨a, hreply⟩ := reply_rack
  refine ⟨a, ?_, (reply_fresh hreply).1⟩
  rw [serve_missed_reply (s := sampleService 60) (c := rackCall) check_rack rfl
    (deadline_sample none), hreply]

theorem serve_mentions_rack :
    ∃ a, ((sampleService 60).serve none rackCall MemoryStore.empty).2 = .ok (.ok a) ∧
      a.cached = false ∧ (rackRequest.ordered.mentions.map Mention.id).Nodup ∧
        a.mentions.Perm rackRequest.ordered.mentions := by
  obtain ⟨a, ha, hfresh⟩ := serve_rack
  exact ⟨a, ha, hfresh, serve_mentions ha hfresh⟩

end Service

end Guillotine
