import Guillotine.Plane.Split

/-! What a user can set: how to pack, and how long to keep results. -/
namespace Guillotine

/-- How to pack. -/
structure Settings where
  rule : SplitRule
  /-- The most sheets to open of one material. -/
  maxSheets : UInt64
  /-- Free rectangles with a shorter side are dropped. -/
  leastSide : Length
  /-- Remainders with both sides at least this long count as reusable. -/
  reusableSide : Length
deriving DecidableEq, Repr

namespace Settings

def standard : Settings := ⟨.shorterLeftoverAxis, 100, 1, 0⟩

/-- For a notice. -/
def describe (s : Settings) : String :=
  String.join ["OptimizerConfig \x7b split_rule: ", s.rule.title, ", max_sheets: ",
    toString s.maxSheets, ", min_rect_size: ", toString s.leastSide, ", reusable_min_side: ",
    toString s.reusableSide, " \x7d"]

end Settings

/-- How long to keep results, in seconds. -/
structure CacheSettings where
  ttl : UInt64
deriving DecidableEq, Repr

namespace CacheSettings

/-- Three days. -/
def standard : CacheSettings := ⟨259200⟩

def describe (s : CacheSettings) : String :=
  String.join ["CacheConfig \x7b ttl_secs: ", toString s.ttl, " \x7d"]

end CacheSettings

/-- All settings of the command line program. -/
structure AppSettings where
  packing : Settings
  cache : CacheSettings
deriving DecidableEq, Repr

namespace AppSettings

def standard : AppSettings := ⟨.standard, .standard⟩

def describe (s : AppSettings) : String :=
  String.join ["AppConfig \x7b optimizer: ", s.packing.describe, ", cache: ", s.cache.describe,
    " \x7d"]

end AppSettings

end Guillotine
