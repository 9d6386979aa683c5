import Guillotine.Json.Codec
import Guillotine.Settings

/-! Written forms of the settings. A missing setting has its standard value. -/
namespace Guillotine

instance : ToJson SplitRule := ⟨fun r => .text r.token⟩
instance : OfJson SplitRule := ⟨Json.choice? SplitRule.ofToken?⟩

instance : ToJson Settings where
  toJson s := .record [("split_rule", toJson s.rule), ("max_sheets", toJson s.maxSheets),
    ("min_rect_size", toJson s.leastSide), ("reusable_min_side", toJson s.reusableSide)]

instance : OfJson Settings where
  ofJson? j := do
    let f ← j.fields? ["split_rule", "max_sheets", "min_rect_size", "reusable_min_side"]
    let standard := Settings.standard
    return {
      rule := ← f.withDefault "split_rule" standard.rule
      maxSheets := ← f.withDefault "max_sheets" standard.maxSheets
      leastSide := ← f.withDefault "min_rect_size" standard.leastSide
      reusableSide := ← f.withDefault "reusable_min_side" standard.reusableSide }

instance : ToJson CacheSettings where
  toJson s := .record [("ttl_secs", toJson s.ttl)]

instance : OfJson CacheSettings where
  ofJson? j := do
    let f ← j.fields? ["ttl_secs"]
    return ⟨← f.withDefault "ttl_secs" CacheSettings.standard.ttl⟩

instance : ToJson AppSettings where
  toJson s := .record [("optimizer", toJson s.packing), ("cache", toJson s.cache)]

instance : OfJson AppSettings where
  ofJson? j := do
    let f ← j.fields? ["optimizer", "cache"]
    return ⟨← f.withDefault "optimizer" .standard, ← f.withDefault "cache" .standard⟩

end Guillotine
