import Guillotine.Proofs.Cache.Mirror
import Guillotine.Proofs.Service.History
import Guillotine.Proofs.Service.Visits

/-! A service with two backends. Whether it keeps its reports in memory or in a folder, a service
gives the same replies to the same visits, as long as the clocks go alike and both backends can
represent when a time to live ends: each visit leaves the folder a mirror image of the memory. -/
namespace Guillotine

open Run

namespace Service

variable {l : Location} {offset : Int} {m : MemoryStore} {f : FolderStore}
  {now : Moment} {s : Service} {v : Verbosity} {x : Visit} {xs : List Visit}

/-! ### Clocks -/

/-- Whether the clock on the wall shows points in time, the uptime never goes back, and the two go
alike. -/
structure Steady (offset : Int) (moments : List Moment) : Prop where
  alike : ∀ now ∈ moments, now.wall.nanoseconds = now.uptime + offset
  inRange : ∀ now ∈ moments, now.wall.inRange = true
  forward : moments.Pairwise fun a b => a.uptime ≤ b.uptime

theorem steady_append_iff {moments later : List Moment} : Steady offset (moments ++ later) ↔
    Steady offset moments ∧ Steady offset later ∧
      ∀ a ∈ moments, ∀ b ∈ later, a.uptime ≤ b.uptime := by
  constructor
  · rintro ⟨halike, hrange, hforward⟩
    rw [List.forall_mem_append] at halike hrange
    obtain ⟨hfirst, hlater, hbetween⟩ := List.pairwise_append.1 hforward
    exact ⟨⟨halike.1, hrange.1, hfirst⟩, ⟨halike.2, hrange.2, hlater⟩, hbetween⟩
  · rintro ⟨⟨halike, hrange, hfirst⟩, ⟨halike', hrange', hlater⟩, hbetween⟩
    exact ⟨List.forall_mem_append.2 ⟨halike, halike'⟩, List.forall_mem_append.2 ⟨hrange, hrange'⟩,
      List.pairwise_append.2 ⟨hfirst, hlater, hbetween⟩⟩

theorem Steady.begun_le_ended (h : Steady offset x.moments) : x.begun.uptime ≤ x.ended.uptime := by
  cases x with
  | optimize c => exact List.rel_of_pairwise_cons h.forward (List.mem_singleton_self _)
  | cached now hex => exact le_rfl
  | recent now offset limit => exact le_rfl

/-- Whether both backends can represent when a time to live ends that begins now. -/
structure Representable (s : Service) (now : Moment) : Prop where
  inMemory : ∃ deadline, MemoryStore.deadline now s.ttl = .ok deadline
  inFolder : ∃ expiry, FolderStore.expiry? now s.ttl = some expiry

/-! ### Visits -/

theorem reads_of_mirrors (hclock : now.wall.nanoseconds = now.uptime + offset) :
    Reads (Mirrors l offset now.uptime) now where
  result _ hd := (Mirrors.get_inStep hclock hd.tidy_resultKey).mono fun _ _ _ _ => trivial
  entry _ hd := (Mirrors.get_inStep hclock hd.tidy_entryKey).mono fun _ _ _ _ => trivial
  ranked _ _ hstop := Mirrors.ranked_inStep Results.tidy_indexKey hstop

theorem store_mirrors {d : RequestDigest} {r : Report} (hd : d.Proper)
    (hclock : now.wall.nanoseconds = now.uptime + offset) (hrange : now.wall.inRange = true)
    (hends : s.Representable now) : InStep (Mirrors l offset now.uptime) (fun _ => True)
      (Results.store now s.ttl d r) (Results.store now s.ttl d r) := by
  obtain ⟨deadline, hdeadline⟩ := hends.inMemory
  obtain ⟨expiry, hexpiry⟩ := hends.inFolder
  exact Results.composed_store (congruence_inStep _)
    (Mirrors.set_inStep hclock hd.tidy_entryKey hdeadline hexpiry)
    (Mirrors.removeScored_inStep Results.tidy_indexKey)
    (Mirrors.insertScored_inStep Results.tidy_indexKey
      (Binary64.ordinary_ofInt (Timestamp.natAbs_seconds_lt hrange)))
    (Mirrors.set_inStep hclock hd.tidy_resultKey hdeadline hexpiry)

/-- A visit leaves the folder as a mirror image of the memory, and gets the same reply. -/
theorem visit_mirrors (hsteady : Steady offset x.moments)
    (hends : ∀ c, x = .optimize c → s.Representable c.ended)
    (h : Mirrors l offset x.begun.uptime m f) :
    Mirrors l offset x.ended.uptime (s.visit v m x).1 (s.visit v f x).1 ∧
      (s.visit v m x).2 = (s.visit v f x).2 := by
  refine visit_carries (reads_of_mirrors (hsteady.alike _ x.begun_mem_moments))
    (fun _ _ h => h.mono hsteady.begun_le_ended) ?_ h
  rintro c rfl report
  have hmem := (Visit.optimize c).ended_mem_moments
  exact store_mirrors (proper_address c.request) (hsteady.alike _ hmem) (hsteady.inRange _ hmem)
    (hends c rfl)

/-- The replies are the same from a folder that is the mirror image of a memory. -/
theorem history_mirrors (start : Nat) (hsteady : Steady offset (xs.flatMap Visit.moments))
    (hstart : ∀ now ∈ xs.flatMap Visit.moments, start ≤ now.uptime)
    (hends : ∀ c, .optimize c ∈ xs → s.Representable c.ended) (h : Mirrors l offset start m f) :
    s.history v xs f = s.history v xs m := by
  induction xs generalizing start m f with
  | nil => rfl
  | cons x xs ih =>
    rw [List.flatMap_cons] at hsteady hstart
    obtain ⟨hthis, hlater, hbetween⟩ := steady_append_iff.1 hsteady
    rw [List.forall_mem_append] at hstart
    obtain ⟨hnext, hreply⟩ := visit_mirrors (v := v) hthis
      (fun c hc => hends c (hc ▸ List.mem_cons_self))
      (h.mono (hstart.1 _ x.begun_mem_moments))
    rw [history, history, hreply, ih _ hlater (hbetween _ x.ended_mem_moments)
      (fun c hc => hends c (List.mem_cons_of_mem _ hc)) hnext]

/-- An empty folder is opened as it is, and a service that keeps its reports there gives the replies
that it gives with an empty memory. -/
theorem history_folder_eq_memory (s : Service) (v : Verbosity) {xs : List Visit} {d : Disk}
    {folder writer : String} {begun : Nat} {l : Location} {offset : Int}
    (hplace : d.Place folder l) (hempty : ∀ name, d.at? (l ++ [name]) = none)
    (hwriter : Modest 100 writer) (hbegun : begun < UInt64.size)
    (hsteady : Steady offset (xs.flatMap Visit.moments))
    (hends : ∀ c, .optimize c ∈ xs → s.Representable c.ended) :
    ∃ f, FolderStore.opened d folder writer begun = (d, .ok f) ∧
      s.history v xs f = s.history v xs MemoryStore.empty := by
  refine ⟨_, FolderStore.opened_eq hplace, ?_⟩
  have hsound : FolderStore.Sound l ⟨d, folder, false, writer, begun⟩ :=
    ⟨hplace, fun name => by simp [hempty name], hwriter, hbegun, rfl⟩
  exact history_mirrors 0 hsteady (fun _ _ => Nat.zero_le _) hends
    (.empty hsound hempty)

/-- A disk with one folder, in which nothing is. -/
def sampleDisk : Disk := ⟨.ofList [(["cache"], .folder)], []⟩

/-- A request twice, and a question after the time to live is over. -/
def sampleVisits : List Visit :=
  [.optimize (sampleCall none), .optimize (sampleCall none),
    .recent ⟨⟨61000000000⟩, 61000000000⟩ 0 10]

theorem place_sample : sampleDisk.Place "cache" ["cache"] :=
  Disk.place_of_plain (by decide) rfl (by decide)

theorem empty_sample (name : String) : sampleDisk.at? (["cache"] ++ [name]) = none := by
  simp [Disk.at?, sampleDisk, Table.ofList, Table.insert, Table.erase, Table.filter, Table.empty,
    Table.get?]

theorem steady_sample : Steady 0 (sampleVisits.flatMap Visit.moments) := by
  refine ⟨?_, ?_, ?_⟩
  · simp [sampleVisits, Visit.moments, sampleCall]
  · simp [sampleVisits, Visit.moments, sampleCall, Timestamp.inRange_iff]
  · simp [sampleVisits, Visit.moments, sampleCall]

theorem representable_sample (label : Option String) :
    (sampleService 60).Representable (sampleCall label).ended :=
  ⟨⟨_, deadline_sample label⟩, ⟨⟨60000000000⟩, rfl⟩⟩

theorem history_folder_eq_memory_sample :
    sampleDisk.Place "cache" ["cache"] ∧ (∀ name, sampleDisk.at? (["cache"] ++ [name]) = none) ∧
      Modest 100 "4711" ∧ 0 < UInt64.size ∧ Steady 0 (sampleVisits.flatMap Visit.moments) ∧
      (∀ c, .optimize c ∈ sampleVisits → (sampleService 60).Representable c.ended) ∧
      ∃ f, FolderStore.opened sampleDisk "cache" "4711" 0 = (sampleDisk, .ok f) ∧
        (sampleService 60).history none sampleVisits f =
          (sampleService 60).history none sampleVisits MemoryStore.empty := by
  have hwriter : Modest 100 "4711" := ⟨by simp [isPlainChar], by simp⟩
  have hends : ∀ c, .optimize c ∈ sampleVisits → (sampleService 60).Representable c.ended := by
    intro c hc
    have hcall : c = sampleCall none := by simpa [sampleVisits] using hc
    rw [hcall]
    exact representable_sample none
  have hbegun : 0 < UInt64.size := by decide
  exact ⟨place_sample, empty_sample, hwriter, hbegun, steady_sample, hends,
    history_folder_eq_memory _ _ place_sample empty_sample hwriter hbegun steady_sample hends⟩

end Service

end Guillotine
