import Guillotine.Proofs.Documents.Solution

/-! Documents that are stable. Whatever was read from a text is read again from the text it is
written to: only finite numbers can be read, and numbers that are not finite are all that writing
loses. So it does not matter how often requests, reports, settings and solutions are read and
written. -/
namespace Guillotine

/-! ### What is read is finite -/

/-- Values that are finite wherever they are read. -/
class ReadFinite (α : Type) [ToJson α] [OfJson α] [Document α] : Prop where
  isFinite_of_ofJson? {j : Json} {a : α} (h : ofJson? j = some a) : isFinite a = true

export ReadFinite (isFinite_of_ofJson?)

instance : ReadFinite Float where
  isFinite_of_ofJson? {j x} h := by
    cases j with
    | number n => cases n <;> exact isFinite_of_nearestFloat? h
    | _ => cases h

/-- What holds of all results of a reader holds of those it has on a list. -/
theorem forall_of_mapM {α β : Type} {read : α → Option β} {P : β → Prop}
    (hread : ∀ {a b}, read a = some b → P b) {as : List α} {bs : List β}
    (h : as.mapM read = some bs) : ∀ b ∈ bs, P b := by
  induction as generalizing bs with
  | nil =>
    obtain rfl := Option.some.inj h
    exact fun b hb => nomatch hb
  | cons a as ih =>
    rw [List.mapM_cons] at h
    obtain ⟨b, hb, h⟩ := Option.bind_eq_some_iff.1 h
    obtain ⟨bs', hbs, h⟩ := Option.bind_eq_some_iff.1 h
    obtain rfl := Option.some.inj h
    exact List.forall_mem_cons.2 ⟨hread hb, ih hbs⟩

section Parts

variable {α : Type} [ToJson α] [OfJson α] [Document α]

/-- The items of an array are finite if each of them is read as a finite one. -/
theorem isFinite_of_itemsBy? {read : Json → Option α}
    (hread : ∀ {j a}, read j = some a → isFinite a = true) {j : Json} {as : List α}
    (h : j.itemsBy? read = some as) : isFinite as = true := by
  cases j with
  | array items => exact List.all_eq_true.2 (forall_of_mapM hread h)
  | _ => cases h

variable [ReadFinite α]

instance : ReadFinite (List α) where
  isFinite_of_ofJson? h := isFinite_of_itemsBy? isFinite_of_ofJson? h

namespace Fields

variable {f : Fields} {name : String} {a standard : α}

theorem isFinite_of_required (h : f.required name = some a) : isFinite a = true := by
  obtain ⟨j, -, ha⟩ := Option.bind_eq_some_iff.1 h
  exact isFinite_of_ofJson? ha

theorem isFinite_of_withDefault (hstandard : isFinite standard = true)
    (h : f.withDefault name standard = some a) : isFinite a = true := by
  unfold withDefault at h
  split at h
  next => exact isFinite_of_ofJson? h
  next =>
    obtain rfl := Option.some.inj h
    exact hstandard

end Fields

end Parts

section Records

open Fields

instance : ReadFinite CostRow where
  isFinite_of_ofJson? {j r} h := by
    -- A record is read field by field; of these only the numbers matter.
    simp only [ofJson?, Option.bind_eq_bind, Option.bind_eq_some_iff] at h
    obtain ⟨f, -, material, -, boards, -, unitCost, hunit, totalCost, htotal, h⟩ := h
    obtain rfl := Option.some.inj h
    exact Bool.and_eq_true_iff.2 ⟨isFinite_of_required hunit, isFinite_of_required htotal⟩

instance : ReadFinite Costs where
  isFinite_of_ofJson? {j c} h := by
    simp only [ofJson?, Option.bind_eq_bind, Option.bind_eq_some_iff] at h
    obtain ⟨f, -, rows, hrows, total, htotal, h⟩ := h
    obtain rfl := Option.some.inj h
    exact Bool.and_eq_true_iff.2 ⟨isFinite_of_required hrows, isFinite_of_required htotal⟩

instance : ReadFinite BoardReport where
  isFinite_of_ofJson? {j b} h := by
    simp only [ofJson?, Option.bind_eq_bind, Option.bind_eq_some_iff] at h
    obtain ⟨f, -, material, -, index, -, listed, -, cuts, -, utilization, hutilization, h⟩ := h
    obtain ⟨offcuts, -, h⟩ := h
    obtain rfl := Option.some.inj h
    show isFinite utilization = true
    exact isFinite_of_required hutilization

instance : ReadFinite Summary where
  isFinite_of_ofJson? {j s} h := by
    simp only [ofJson?, Option.bind_eq_bind, Option.bind_eq_some_iff] at h
    obtain ⟨f, -, project, -, boards, -, totalCost, hcost, waste, hwaste, time, -, h⟩ := h
    obtain rfl := Option.some.inj h
    exact Bool.and_eq_true_iff.2 ⟨isFinite_of_required hcost, isFinite_of_required hwaste⟩

instance : ReadFinite Report where
  isFinite_of_ofJson? {j r} h := by
    simp only [ofJson?, Option.bind_eq_bind, Option.bind_eq_some_iff] at h
    obtain ⟨f, -, summary, hsummary, costs, hcosts, boards, hboards, h⟩ := h
    obtain ⟨unplaced, -, cached, -, digest, -, h⟩ := h
    obtain rfl := Option.some.inj h
    exact Bool.and_eq_true_iff.2 ⟨Bool.and_eq_true_iff.2
      ⟨isFinite_of_required hsummary, isFinite_of_required hcosts⟩, isFinite_of_required hboards⟩

instance : ReadFinite Material where
  isFinite_of_ofJson? {j m} h := by
    simp only [ofJson?, Option.bind_eq_bind, Option.bind_eq_some_iff] at h
    obtain ⟨f, -, code, -, width, -, height, -, thickness, -, cost, hcost, grain, -, h⟩ := h
    obtain rfl := Option.some.inj h
    show isFinite cost = true
    exact isFinite_of_required hcost

instance : ReadFinite Layout where
  isFinite_of_ofJson? {j l} h := by
    simp only [ofJson?, Option.bind_eq_bind, Option.bind_eq_some_iff] at h
    obtain ⟨f, -, material, hmaterial, index, -, usable, -, placed, -, remainders, -, h⟩ := h
    obtain rfl := Option.some.inj h
    show isFinite material = true
    exact isFinite_of_required hmaterial

/-- A material of a request has a finite price, given or not. -/
theorem Request.isFinite_of_materialOfJson? {j : Json} {m : Material}
    (h : materialOfJson? j = some m) : isFinite m = true := by
  simp only [materialOfJson?, Option.bind_eq_bind, Option.bind_eq_some_iff] at h
  obtain ⟨f, -, code, -, width, -, height, -, price, hprice, grain, -, thickness, -, h⟩ := h
  obtain rfl := Option.some.inj h
  have hzero : isFinite (0 : Float) = true := by decide +kernel
  show isFinite price = true
  exact isFinite_of_withDefault hzero hprice

instance : ReadFinite Request where
  isFinite_of_ofJson? {j r} h := by
    simp only [ofJson?, Option.bind_eq_bind, Option.bind_eq_some_iff] at h
    obtain ⟨f, -, project, -, cuts, -, listed, -, materials, hmaterials, h⟩ := h
    have hfinite : isFinite materials = true :=
      isFinite_of_itemsBy? Request.isFinite_of_materialOfJson? hmaterials
    -- The saw may be left out.
    split at h
    all_goals
      obtain ⟨saw, -, h⟩ := Option.bind_eq_some_iff.1 h
      obtain rfl := Option.some.inj h
      exact hfinite

instance : ReadFinite Solution where
  isFinite_of_ofJson? {j s} h := by
    simp only [ofJson?, Option.bind_eq_bind, Option.bind_eq_some_iff] at h
    obtain ⟨f, -, request, hrequest, report, hreport, settings, -, h⟩ := h
    obtain rfl := Option.some.inj h
    exact Bool.and_eq_true_iff.2 ⟨isFinite_of_required hrequest, isFinite_of_required hreport⟩

end Records

/-! ### The numbers of a value -/

def Request.floats (r : Request) : List Float := r.materials.map Material.cost

def Layout.floats (l : Layout) : List Float := [l.material.cost]

def Report.floats (r : Report) : List Float :=
  [r.summary.totalCost, r.summary.wastePercentage, r.costs.total] ++
    r.costs.rows.flatMap (fun row => [row.unitCost, row.totalCost]) ++
    r.boards.map BoardReport.utilization

def Solution.floats (s : Solution) : List Float := s.request.floats ++ s.report.floats

theorem Request.isFinite_eq (r : Request) : isFinite r = r.floats.all Float.isFinite := by
  rw [floats, List.all_map]
  rfl

theorem Report.isFinite_eq (r : Report) : isFinite r = r.floats.all Float.isFinite := by
  have hrows : isFinite r.costs.rows =
      (r.costs.rows.flatMap fun row => [row.unitCost, row.totalCost]).all Float.isFinite := by
    rw [List.all_flatMap]
    simp only [List.all_cons, List.all_nil, Bool.and_true]
    rfl
  have hboards : isFinite r.boards = (r.boards.map BoardReport.utilization).all Float.isFinite := by
    rw [List.all_map]
    rfl
  have hparts : isFinite r = (r.summary.totalCost.isFinite && r.summary.wastePercentage.isFinite &&
    (isFinite r.costs.rows && r.costs.total.isFinite) && isFinite r.boards) := rfl
  rw [hparts, hrows, hboards, floats]
  simp only [List.all_append, List.all_cons, List.all_nil, Bool.and_true]
  ac_rfl

theorem Solution.isFinite_eq (s : Solution) : isFinite s = s.floats.all Float.isFinite := by
  rw [floats, List.all_append, ← Request.isFinite_eq, ← Report.isFinite_eq]
  rfl

/-! ### Stable documents -/

section Stable

variable {α : Type} [ToJson α] [OfJson α]

/-- Whether a value is read back from its text, be it on one line or over several, and then written
as the same text. -/
structure ReadBack (a : α) : Prop where
  compact : read? (write a) = some a
  rewritten : (read? (write a) : Option α).map write = some (write a)
  indented : read? (toJson a).indented = some a

/-- Whether the values of a type are read back when they were read from a text or from a file, and
when all their numbers, which `floats` lists, are finite. -/
structure Stable (floats : α → List Float) : Prop where
  read : ∀ {t : String} {a : α}, read? t = some a → ReadBack a
  readBytes : ∀ {b : ByteArray} {a : α}, (Json.ofBytes? b).bind ofJson? = some a → ReadBack a
  finite : ∀ {a : α}, (∀ x ∈ floats a, x.isFinite = true) → ReadBack a

variable [Document α]

theorem readBack_of_isFinite {a : α} (h : isFinite a = true) : ReadBack a := by
  have hcompact : read? (write a) = some a := by rw [read?_write, if_pos h]
  refine ⟨hcompact, by rw [hcompact, Option.map_some], ?_⟩
  unfold read?
  rw [Json.ofString?_indented (proper_toJson a), Option.bind_eq_bind, Option.bind_some,
    ofJson?_toJson, if_pos h]

/-- Values that are read as finite ones are stable. -/
theorem Stable.of_readFinite [ReadFinite α] {floats : α → List Float}
    (h : ∀ a, isFinite a = (floats a).all Float.isFinite) : Stable floats where
  read ha := by
    obtain ⟨j, -, ha⟩ := Option.bind_eq_some_iff.1 ha
    exact readBack_of_isFinite (isFinite_of_ofJson? ha)
  readBytes ha := by
    obtain ⟨j, -, ha⟩ := Option.bind_eq_some_iff.1 ha
    exact readBack_of_isFinite (isFinite_of_ofJson? ha)
  finite hfloats := readBack_of_isFinite ((h _).trans (List.all_eq_true.2 hfloats))

/-- Values without numbers that could be lost are stable. -/
theorem Stable.of_isFinite (h : ∀ a : α, isFinite a = true) : Stable fun _ : α => [] where
  read _ := readBack_of_isFinite (h _)
  readBytes _ := readBack_of_isFinite (h _)
  finite _ := readBack_of_isFinite (h _)

end Stable

/-- All documents of a user are stable: requests, reports and solutions, settings, and what sheets
and pieces are made of. -/
theorem documents_stable :
    Stable Request.floats ∧ Stable Report.floats ∧ Stable Solution.floats ∧
      Stable (fun _ : Settings => []) ∧ Stable (fun _ : AppSettings => []) ∧
      Stable (fun _ : Piece => []) ∧ Stable (fun _ : Item => []) ∧
      Stable (fun _ : Placement => []) ∧ Stable Layout.floats ∧
      Stable (fun m : Material => [m.cost]) ∧ Stable (fun _ : Saw => []) ∧
      Stable (fun _ : Rect => []) := by
  refine ⟨.of_readFinite Request.isFinite_eq, .of_readFinite Report.isFinite_eq,
    .of_readFinite Solution.isFinite_eq, .of_isFinite fun _ => rfl, .of_isFinite fun _ => rfl,
    .of_isFinite fun _ => rfl, .of_isFinite fun _ => rfl, .of_isFinite fun _ => rfl, ?layout,
    ?material, .of_isFinite fun _ => rfl, .of_isFinite fun _ => rfl⟩
  case layout => exact .of_readFinite fun l => (Bool.and_true _).symm
  case material => exact .of_readFinite fun m => (Bool.and_true _).symm

end Guillotine
