import Guillotine.Json.Codec
import Guillotine.Proofs.Decimal.Nearest
import Guillotine.Proofs.Json.Trees

/-! Values read back from the texts they were written to. A number that is not finite is written as
`null` and not read back, and this is the only way to lose a value. So a value comes with the
question whether it is finite, and one equation says both what is read and when. -/
namespace Guillotine

/-- Values that are read back from their documents, as long as they are finite. -/
class Document (α : Type) [ToJson α] [OfJson α] where
  /-- Whether all numbers in a value are finite. -/
  isFinite : α → Bool
  proper_toJson (a : α) : (toJson a).Proper
  ofJson?_toJson (a : α) : ofJson? (toJson a) = if isFinite a then some a else none

export Document (isFinite proper_toJson ofJson?_toJson)

section Document

variable {α : Type} [ToJson α] [OfJson α] [Document α] {a b : α}

/-- What is read from the text of a value, if anything is read. -/
theorem read?_write (a : α) : read? (write a) = if isFinite a then some a else none := by
  unfold read? write
  rw [Json.ofString?_compact (proper_toJson a)]
  exact ofJson?_toJson a

/-- Only the value itself is read from its text. -/
theorem eq_of_read?_write (h : read? (write a) = some b) : b = a := by
  rw [read?_write] at h
  split at h
  · exact (Option.some.inj h).symm
  · cases h

end Document

/-! ### Plain values -/

instance : Document Bool where
  isFinite _ := true
  proper_toJson b := .bool b
  ofJson?_toJson _ := rfl

instance : Document String where
  isFinite _ := true
  proper_toJson s := .string (some s)
  ofJson?_toJson _ := rfl

instance : Document UInt32 where
  isFinite _ := true
  proper_toJson _ := .number trivial
  ofJson?_toJson n := by
    show (if 0 ≤ (n.toNat : Int) ∧ (n.toNat : Int).toNat < UInt32.size then
      some (UInt32.ofNat (n.toNat : Int).toNat) else none) = some n
    rw [Int.toNat_natCast, if_pos ⟨Int.natCast_nonneg _, n.toNat_lt_size⟩, UInt32.ofNat_toNat]

instance : Document UInt64 where
  isFinite _ := true
  proper_toJson _ := .number trivial
  ofJson?_toJson n := by
    show (if 0 ≤ (n.toNat : Int) ∧ (n.toNat : Int).toNat < UInt64.size then
      some (UInt64.ofNat (n.toNat : Int).toNat) else none) = some n
    rw [Int.toNat_natCast, if_pos ⟨Int.natCast_nonneg _, n.toNat_lt_size⟩, UInt64.ofNat_toNat]

instance : Document Int32 where
  isFinite _ := true
  proper_toJson _ := .number trivial
  ofJson?_toJson n := by
    show (if Int32.minValue.toInt ≤ n.toInt ∧ n.toInt ≤ Int32.maxValue.toInt then
      some (Int32.ofInt n.toInt) else none) = some n
    rw [if_pos ⟨n.minValue_le_toInt, n.toInt_le⟩, Int32.ofInt_toInt]

/-- The shortest decimal of a number is a proper one. -/
theorem Binary64.isCanonical_shortestDecimal {x : Float} {negative : Bool} {m : Nat} {e : Int}
    (hx : ofFloat x = .finite negative m e) :
    Shortest.IsCanonical (shortestDecimal m e).1 (shortestDecimal m e).2 := by
  unfold shortestDecimal
  split
  next => exact .inl ⟨rfl, rfl⟩
  next hm => exact (Shortest.ofPositive_spec (canonical_of_ofFloat (by omega) hx).1).1

instance : Document Float where
  isFinite x := x.isFinite
  proper_toJson x := by
    show (Json.float x).Proper
    unfold Json.float
    split
    next hx => exact .number (Binary64.isCanonical_shortestDecimal hx)
    next => exact .null
  ofJson?_toJson x := by
    show ofJson? (Json.float x) = _
    unfold Json.float
    split
    next hx =>
      rw [if_pos ((Binary64.isFinite_iff x).2 ⟨_, _, _, hx⟩)]
      exact nearestFloat?_shortestDecimal hx
    next hx =>
      rw [if_neg fun h => ?_]
      · rfl
      · obtain ⟨negative, m, e, h⟩ := (Binary64.isFinite_iff x).1 h
        exact hx negative m e h

section List

variable {α : Type}

theorem mapM_map_eq_ite {β : Type} {write : α → β} {read : β → Option α} {p : α → Bool}
    (h : ∀ a, read (write a) = if p a then some a else none) (as : List α) :
    (as.map write).mapM read = if as.all p then some as else none := by
  induction as with
  | nil => rfl
  | cons a as ih =>
    rw [List.map_cons, List.mapM_cons, h, ih, List.all_cons]
    cases p a <;> cases as.all p <;> rfl

theorem proper_array {write : α → Json} (h : ∀ a, (write a).Proper) (as : List α) :
    (Json.array (as.map write)).Proper := by
  apply Json.Proper.array
  rw [List.forall_mem_map]
  exact fun a _ => h a

variable [ToJson α] [OfJson α] [Document α]

instance : Document (List α) where
  isFinite as := as.all isFinite
  proper_toJson := proper_array proper_toJson
  ofJson?_toJson := mapM_map_eq_ite ofJson?_toJson

theorem isFinite_list (h : ∀ a : α, isFinite a = true) (as : List α) : isFinite as = true :=
  List.all_eq_true.2 fun a _ => h a

end List

/-- A text that may be absent. -/
instance : Document (Option String) where
  isFinite _ := true
  proper_toJson
    | some s => .string (some s)
    | none => .null
  ofJson?_toJson
    | some _ => rfl
    | none => rfl

/-- A text where there may be one. -/
@[simp] theorem ofJson?_toJson_text (s : String) :
    (ofJson? (toJson s) : Option (Option String)) = some (some s) := rfl

section Finite

@[simp] theorem isFinite_bool (b : Bool) : isFinite b = true := rfl

@[simp] theorem isFinite_string (s : String) : isFinite s = true := rfl

@[simp] theorem isFinite_uint32 (n : UInt32) : isFinite n = true := rfl

@[simp] theorem isFinite_uint64 (n : UInt64) : isFinite n = true := rfl

@[simp] theorem isFinite_int32 (n : Int32) : isFinite n = true := rfl

@[simp] theorem isFinite_label (s : Option String) : isFinite s = true := rfl

end Finite

/-! ### Records -/

namespace Json

variable {names : List String} {ms : List (String × Json)}

theorem mapM_record (ms : List (String × Json)) :
    (ms.map fun (k, v) => ((some k : Literal), v)).mapM
      (fun (k, j) => k.map fun k => (k, j)) = some ms := by
  induction ms with
  | nil => rfl
  | cons m ms ih =>
    rw [List.map_cons, List.mapM_cons, ih]
    rfl

theorem filter_key_le_one (h : (ms.map Prod.fst).Nodup) (n : String) :
    (ms.filter fun (k, _) => k == n).length ≤ 1 := by
  have hcount := List.nodup_iff_count_le_one.1 h n
  rw [List.count_eq_countP, List.countP_map, List.countP_eq_length_filter] at hcount
  exact hcount

/-- A record is found with all its members, when they are among the expected ones. -/
theorem fields?_record (hnames : ∀ k ∈ ms.map Prod.fst, k ∈ names)
    (hnodup : (ms.map Prod.fst).Nodup) : (record ms).fields? names = some ⟨ms, false⟩ := by
  have hknown : (ms.filter fun (k, _) => names.contains k) = ms := by
    rw [List.filter_eq_self]
    intro m hm
    simpa using hnames m.1 (List.mem_map_of_mem hm)
  have honce : (names.all fun n => (ms.filter fun (k, _) => k == n).length ≤ 1) = true := by
    rw [List.all_eq_true]
    exact fun n _ => decide_eq_true (filter_key_le_one hnodup n)
  have hmembers : members? names (ms.map fun (k, v) => ((some k : Literal), v)) = some ms := by
    unfold members?
    rw [mapM_record]
    simp only [Option.bind_eq_bind, Option.bind_some, hknown, honce, if_true]
  show (members? names (ms.map fun (k, v) => ((some k : Literal), v))).map _ = _
  rw [hmembers]
  rfl

theorem proper_record (h : ∀ m ∈ ms, m.2.Proper) : (record ms).Proper := by
  apply Proper.object
  rw [List.forall_mem_map]
  exact h

end Json

namespace Fields

variable {α : Type} [OfJson α] {ms : List (String × Json)} {positional : Bool} {name : String}

@[simp] theorem get?_nil : (Fields.mk [] positional).get? name = none := rfl

@[simp] theorem get?_cons (k : String) (j : Json) :
    (Fields.mk ((k, j) :: ms) positional).get? name =
      if name = k then some j else (Fields.mk ms positional).get? name := by
  unfold get?
  by_cases h : name = k
  · subst h
    rw [List.lookup_cons_self, if_pos rfl]
  · rw [List.lookup_cons, beq_false_of_ne h, if_neg h]

end Fields

end Guillotine
