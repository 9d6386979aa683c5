import Guillotine.Batch.Basic
import Guillotine.Proofs.Bytes
import Guillotine.Proofs.Cache.Spared
import Guillotine.Proofs.Documents.Stable
import Guillotine.Proofs.Service.History
import Guillotine.Proofs.Service.Visits

/-! The solutions of a batch. A request file that is processed leads to a solution file, whose name
is made of the stem of the first one. Whatever is processed later leaves it alone, be it with
success or without, as long as the stem is another one. Of several files with one stem only the last
solution stays. -/
namespace Guillotine

namespace Batch

open Guillotine.Path (Plain Single join)
open Service (Call)

variable {s : Service} {v : Verbosity} {st st' : Storage} {begun ended : Moment}
  {folder path stem : String}

/-! ### One file -/

theorem writeSolution_outcome (solution : Solution) :
    ((writeSolution path solution).run v st).outcome =
      match st.disk.writeText path (toJson solution).indented with
      | .error why => (st, .ok (.error (.unwritten path why)))
      | .ok d => (st.withDisk d, .ok (.ok path)) := by
  unfold writeSolution
  rw [outcome_run_bind_ok (a := st) (t := st) rfl]
  cases st.disk.writeText path (toJson solution).indented with
  | error why => rfl
  | ok d =>
    dsimp only
    rw [outcome_run_bind_ok (a := ()) (t := st.withDisk d) rfl]
    exact outcome_run_bind_ok (outcome_run_lift_ok Run.outcome_note)

/-- A request that is named and read is prepared. -/
theorem start_outcome : ((start s begun path).run v st).outcome =
    match Path.stem? path with
    | none => (st, .ok (.error (.nameless path)))
    | some stem =>
      match readRequest st.disk path with
      | .error why => (st, .ok (.error why))
      | .ok request =>
        match ((s.prepare begun request : Serving Storage Prospect).run v st).outcome with
        | (t, .error fault) => (t, .error fault)
        | (t, .ok (.error why)) => (t, .ok (.error (.rejected path why)))
        | (t, .ok (.ok prospect)) => (t, .ok (.ok ⟨stem, request, prospect⟩)) := by
  unfold start
  cases Path.stem? path with
  | none => rfl
  | some stem =>
    dsimp only
    rw [outcome_run_bind_ok (a := st) (t := st) rfl]
    cases readRequest st.disk path with
    | error why => exact outcome_run_bind_thrown rfl
    | ok request =>
      dsimp only
      rw [outcome_run_bind_ok (a := request) (t := st) rfl, outcome_run_bind, outcome_run_lift]
      obtain ⟨t, fault | why | prospect⟩ :=
        ((s.prepare begun request : Serving Storage Prospect).run v st).outcome
      · rfl
      · rfl
      · rfl

theorem complete_outcome (elapsed : Duration) (job : Job) :
    ((complete s ended elapsed folder job).run v st).outcome =
      match (s.finish ended elapsed job.prospect v st).outcome with
      | (t, .error fault) => (t, .error fault)
      | (t, .ok report) => ((writeSolution (solutionPath folder job.stem)
          ⟨job.request, report, s.settings⟩).run v t).outcome := by
  unfold complete
  rw [outcome_run_bind, outcome_run_lift]
  obtain ⟨t, fault | report⟩ := (s.finish ended elapsed job.prospect v st).outcome
  · rfl
  · exact outcome_run_bind_ok (outcome_run_lift_ok Run.outcome_note)

/-- A request file is read, answered by the service, and its solution is written. -/
theorem process_outcome : ((process s begun ended path folder).run v st).outcome =
    match Path.stem? path with
    | none => (st, .ok (.error (.nameless path)))
    | some stem =>
      match readRequest st.disk path with
      | .error why => (st, .ok (.error why))
      | .ok request =>
        match s.serve v ⟨begun, ended, request⟩ st with
        | (t, .error fault) => (t, .error fault)
        | (t, .ok (.error why)) => (t, .ok (.error (.rejected path why)))
        | (t, .ok (.ok report)) => ((writeSolution (solutionPath folder stem)
            ⟨request, report, s.settings⟩).run v t).outcome := by
  unfold process
  rw [outcome_run_bind, start_outcome]
  cases Path.stem? path with
  | none => rfl
  | some stem =>
    cases readRequest st.disk path with
    | error why => rfl
    | ok request =>
      unfold Service.serve Service.optimize
      dsimp only
      rw [outcome_run_bind]
      obtain ⟨t, fault | why | prospect⟩ :=
        ((s.prepare begun request : Serving Storage Prospect).run v st).outcome
      · rfl
      · rfl
      · dsimp only
        rw [complete_outcome, outcome_run_lift]
        obtain ⟨t', fault | report⟩ := (s.finish ended (ended.since begun) prospect v t).outcome
        · rfl
        · rfl

/-! ### Requests in files -/

/-- The request in a file that holds a text. -/
theorem readRequest_of_file {d : Disk} {l : Location} {text : String}
    (hl : d.locate path = .ok l) (hfile : d.at? l = some (.file text.toUTF8)) :
    readRequest d path =
      match (read? text : Option Request) with
      | some r => .ok r
      | none => .error (.unread path) := by
  have hopens : d.opens path = .ok () := by
    unfold Disk.opens
    simp only [hl, hfile, bind, Except.bind]
  have hbytes : d.readBytes path = .ok text.toUTF8 := by
    unfold Disk.readBytes
    simp only [hl, hfile, bind, Except.bind]
  have htree : Json.ofBytes? text.toUTF8 = Json.ofString? text :=
    congrArg Json.ofGlyphs? (glyphs_toUTF8 text)
  unfold readRequest read?
  rw [hopens, hbytes, ← htree]
  rfl

/-- The numbers of a request in a file are finite. -/
theorem isFinite_of_readRequest {d : Disk} {r : Request} (h : readRequest d path = .ok r) :
    isFinite r = true := by
  unfold readRequest at h
  split at h
  · cases h
  · split at h
    next hread =>
      obtain rfl := Except.ok.inj h
      obtain ⟨j, -, hj⟩ := Option.bind_eq_some_iff.1 hread
      exact isFinite_of_ofJson? hj
    next => cases h

/-! ### Names of solutions -/

/-- The name of the solution of a request with a stem. -/
def solutionName (stem : String) : String := String.join ["sol_", stem, ".json"]

theorem toList_solutionName (stem : String) :
    (solutionName stem).toList = ['s', 'o', 'l', '_'] ++ stem.toList ++
      ['.', 'j', 's', 'o', 'n'] := by
  simp [solutionName, String.join]

theorem solutionName_inj {other : String} (h : solutionName stem = solutionName other) :
    stem = other := by
  have hlist := congrArg String.toList h
  rw [toList_solutionName, toList_solutionName] at hlist
  exact String.toList_inj.1 (List.append_cancel_left (List.append_cancel_right hlist))

theorem not_isServiceName_solutionName (stem : String) : ¬ IsServiceName (solutionName stem) := by
  unfold IsServiceName
  rw [toList_solutionName]
  simp

/-- The name of a solution is a single step along a path. -/
theorem single_solutionName (h : Path.stem? path = some stem) : Single (solutionName stem) := by
  have hne : ∀ name : String, name.toList.head? ≠ some 's' → solutionName stem ≠ name := by
    rintro name hname rfl
    rw [toList_solutionName] at hname
    exact hname rfl
  refine ⟨?_, hne _ (by decide), hne _ (by decide), hne _ (by decide)⟩
  rw [toList_solutionName]
  simp [Path.no_slash_of_stem? h]

/-! ### What a task leaves alone -/

/-- A request file, and what the clocks show before and after it is answered. -/
structure Task where
  begun : Moment
  ended : Moment
  path : String

/-- The call of a task, for the request in the file. -/
def Task.call (t : Task) (r : Request) : Call := ⟨t.begun, t.ended, r⟩

/-- The storage after a task, and its result. -/
def carryOut (s : Service) (v : Verbosity) (folder : String) (t : Task) (st : Storage) :
    Storage × Checked (Except BatchError String) :=
  ((process s t.begun t.ended t.path folder).run v st).outcome

/-- The storage after some tasks, one after the other. -/
def after (s : Service) (v : Verbosity) (folder : String) : List Task → Storage → Storage
  | [], st => st
  | t :: ts, st => after s v folder ts (carryOut s v folder t st).1

theorem after_append (earlier later : List Task) (st : Storage) :
    after s v folder (earlier ++ later) st =
      after s v folder later (after s v folder earlier st) := by
  induction earlier generalizing st with
  | nil => rfl
  | cons t ts ih => exact ih _

variable {p : String → Prop} {d : Disk} {t : Task} {ts : List Task} {solution : Solution}

theorem spared_request (hp : ∀ name, p name → ¬ IsServiceName name) (c : Call)
    (h : st.Spared p d) : (s.serve v c st).1.Spared p d :=
  have hserve := Service.serve_carries (Storage.spared_lookup hp _).inStep (fun _ _ => id)
    (fun report => (Storage.spared_store hp _ _ report).inStep) ⟨rfl, h⟩
  hserve.1.2

theorem spared_writeSolution (hstem : Path.stem? path = some stem)
    (hother : ¬ p (solutionName stem)) (h : st.Spared p d) :
    ((writeSolution (solutionPath folder stem) solution).run v st).outcome.1.Spared p d := by
  rw [writeSolution_outcome]
  cases hwrite : st.disk.writeText (solutionPath folder stem) (toJson solution).indented with
  | error why => exact h
  | ok d' =>
    obtain ⟨l, hwritten⟩ := Disk.exists_written hwrite
    exact h.withDisk (hwritten.spares (single_solutionName hstem) hother)

/-- A task leaves all names alone that a service has no use for, but for the name of its
solution. -/
theorem spared_carryOut (hp : ∀ name, p name → ¬ IsServiceName name)
    (hother : ∀ stem, Path.stem? t.path = some stem → ¬ p (solutionName stem)) (h : st.Spared p d) :
    (carryOut s v folder t st).1.Spared p d := by
  unfold carryOut
  rw [process_outcome]
  cases hstem : Path.stem? t.path with
  | none => exact h
  | some stem =>
    dsimp only
    cases readRequest st.disk t.path with
    | error why => exact h
    | ok request =>
      have hserved := spared_request (s := s) (v := v) hp ⟨t.begun, t.ended, request⟩ h
      dsimp only
      generalize s.serve v ⟨t.begun, t.ended, request⟩ st = served at hserved ⊢
      obtain ⟨st', fault | why | report⟩ := served
      · exact hserved
      · exact hserved
      · exact spared_writeSolution hstem (hother stem hstem) hserved

theorem spared_after (hp : ∀ name, p name → ¬ IsServiceName name)
    (hother : ∀ t ∈ ts, ∀ stem, Path.stem? t.path = some stem → ¬ p (solutionName stem))
    (h : st.Spared p d) : (after s v folder ts st).Spared p d := by
  induction ts generalizing st with
  | nil => exact h
  | cons t ts ih =>
    rw [List.forall_mem_cons] at hother
    exact ih hother.2 (spared_carryOut hp hother.1 h)

theorem plainWriter_after (h : st.PlainWriter) : (after s v folder ts st).PlainWriter :=
  (spared_after (p := fun _ => False) (fun _ hfalse => hfalse.elim) (fun _ _ _ _ => id)
    (.refl _ h)).writer

/-! ### Success -/

theorem writeSolution_eq_ok_iff {other : String} :
    ((writeSolution path solution).run v st).outcome = (st', .ok (.ok other)) ↔
      other = path ∧ ∃ l d, st.disk.Written path (toJson solution).indented l d ∧
        st' = st.withDisk d := by
  rw [writeSolution_outcome]
  constructor
  · intro h
    cases hwrite : st.disk.writeText path (toJson solution).indented with
    | error why =>
      rw [hwrite] at h
      cases h
    | ok d =>
      rw [hwrite] at h
      obtain ⟨l, hwritten⟩ := Disk.exists_written hwrite
      cases h
      exact ⟨rfl, l, d, hwritten, rfl⟩
  · rintro ⟨rfl, l, d, hwritten, rfl⟩
    rw [hwritten.writeText]

/-- What is done by a task that ends well: the request in its file is answered, and the solution is
written to a path. -/
structure Solves (s : Service) (v : Verbosity) (folder : String) (t : Task) (st : Storage)
    (path : String) (solution : Solution) (st' : Storage) : Prop where
  named : ∃ stem, Path.stem? t.path = some stem ∧ path = solutionPath folder stem
  read : readRequest st.disk t.path = .ok solution.request
  answered : (s.serve v (t.call solution.request) st).2 = .ok (.ok solution.report)
  settings : solution.settings = s.settings
  written : ∃ l d, (s.serve v (t.call solution.request) st).1.disk.Written path
      (toJson solution).indented l d ∧
    st' = (s.serve v (t.call solution.request) st).1.withDisk d

/-- Only so does a task end well. -/
theorem exists_solves (h : carryOut s v folder t st = (st', .ok (.ok path))) :
    ∃ solution, Solves s v folder t st path solution st' := by
  unfold carryOut at h
  rw [process_outcome] at h
  cases hstem : Path.stem? t.path with
  | none =>
    rw [hstem] at h
    cases h
  | some stem =>
    cases hread : readRequest st.disk t.path with
    | error why =>
      rw [hstem, hread] at h
      cases h
    | ok request =>
      rw [hstem, hread] at h
      rcases hserve : s.serve v (t.call request) st with ⟨u, fault | why | report⟩
      all_goals
        rw [Task.call] at hserve
        simp only [hserve] at h
      · cases h
      · cases h
      · obtain ⟨rfl, hwritten⟩ := writeSolution_eq_ok_iff.1 h
        refine ⟨⟨request, report, s.settings⟩, ⟨stem, hstem, rfl⟩, hread, ?_, rfl, ?_⟩
        all_goals
          rw [Task.call, hserve]
        exact hwritten

/-- Whenever that can be done, a task ends well. -/
theorem Solves.carryOut (h : Solves s v folder t st path solution st') :
    carryOut s v folder t st = (st', .ok (.ok path)) := by
  obtain ⟨⟨stem, hstem, rfl⟩, hread, hanswered, hsettings, hwritten⟩ := h
  obtain ⟨request, report, settings⟩ := solution
  obtain rfl : settings = s.settings := hsettings
  unfold Batch.carryOut
  rw [process_outcome, hstem, hread]
  dsimp only [Task.call] at hanswered hwritten ⊢
  generalize s.serve v ⟨t.begun, t.ended, request⟩ st = served at hanswered hwritten ⊢
  obtain ⟨u, answer⟩ := served
  obtain rfl : answer = .ok (.ok report) := hanswered
  exact writeSolution_eq_ok_iff.2 ⟨rfl, hwritten⟩

/-- The solution of a task is in the file at its path. -/
theorem Solves.file (h : Solves s v folder t st path solution st') : ∃ stem k,
    Path.stem? t.path = some stem ∧ st'.disk.locate path = .ok (k ++ [solutionName stem]) ∧
      st'.disk.at? (k ++ [solutionName stem]) = some (.file (toJson solution).indented.toUTF8) := by
  obtain ⟨stem, hstem, rfl⟩ := h.named
  obtain ⟨l, d, hwritten, rfl⟩ := h.written
  obtain ⟨-, -, k, -, rfl⟩ := (Disk.locate_join_iff (single_solutionName hstem)).1 hwritten.leads
  rw [Storage.disk_withDisk]
  exact ⟨stem, k, hstem, hwritten.locate, (hwritten.at? _).trans (if_pos rfl)⟩

/-- It stays there while files with other stems are processed. -/
theorem Solves.stays (h : Solves s v folder t st path solution st') (hwriter : st'.PlainWriter)
    (hstems : ∀ u ∈ ts, Path.stem? u.path ≠ Path.stem? t.path) :
    (after s v folder ts st').disk.readText path = .ok (toJson solution).indented := by
  obtain ⟨stem, k, hstem, hleads, hfile⟩ := h.file
  -- Later tasks write to other names, and the service to names that no solution has.
  have hspared : (after s v folder ts st').Spared (· = solutionName stem) st'.disk := by
    refine spared_after (fun name hname => hname ▸ not_isServiceName_solutionName stem)
      (fun u hu other hother heq => ?_) (.refl _ hwriter)
    obtain rfl := solutionName_inj heq
    exact hstems u hu (hother.trans hstem.symm)
  exact Disk.readText_eq_ok_iff.2
    ⟨_, hspared.disk.keeps.locate hleads, (hspared.disk.same k _ rfl).trans hfile⟩

/-- A solution is read back if the numbers of its report are finite, since those of a request in a
file are. -/
theorem Solves.readBack (h : Solves s v folder t st path solution st')
    (hfinite : ∀ x ∈ solution.report.floats, x.isFinite = true) : ReadBack solution := by
  refine readBack_of_isFinite ?_
  rw [Solution.isFinite_eq, Solution.floats, List.all_append, ← Request.isFinite_eq,
    isFinite_of_readRequest h.read]
  exact List.all_eq_true.2 hfinite

/-! ### Reports that are kept in memory -/

/-- What a service does with its memory does not depend on the disk, and leaves it alone. -/
theorem serve_inMemory (c : Call) (m : MemoryStore) (d : Disk) :
    s.serve v c (Storage.inMemory m d) = (.inMemory (s.serve v c m).1 d, (s.serve v c m).2) := by
  have hcall : ∀ {α : Type} (x : Caching MemoryStore α) (y : Caching FolderStore α),
      Run.InStep (fun m st => st = .inMemory m d) (fun _ => True) x.run
        (Storage.serve x y).run := by
    rintro α x y v m _ rfl
    exact ⟨rfl, rfl, fun _ _ => trivial⟩
  have hlookup : Run.InStep (fun m st => st = Storage.inMemory m d) (fun _ => True)
      (Results.lookup c.begun (Service.address c.request))
      (Results.lookup c.begun (Service.address c.request)) := by
    rw [Results.lookup_eq_fetch, Results.lookup_eq_fetch]
    exact (Results.fetch_inStep (T := fun _ => True)
      ((hcall _ _).mono fun _ _ _ _ => trivial) _ _).mono fun _ _ => trivial
  obtain ⟨hstate, hanswer⟩ := Service.serve_carries (s := s) (v := v) hlookup (fun _ _ => id)
    (fun report => Results.composed_store (Run.congruence_inStep _) (hcall _ _) (hcall _ _)
      (hcall _ _) (hcall _ _)) rfl
  exact Prod.ext hstate hanswer.symm

/-- With its reports in memory, a service writes any solution to a folder in which no other folder
is in the way. -/
theorem solves_inMemory {m : MemoryStore} {k : Location} {request : Request} {report : Report}
    (hstem : Path.stem? t.path = some stem) (hread : readRequest d t.path = .ok request)
    (hanswer : (s.serve v (t.call request) m).2 = .ok (.ok report)) (hplace : d.Place folder k)
    (hname : Plain (solutionName stem)) (hfree : d.at? (k ++ [solutionName stem]) ≠ some .folder) :
    Solves s v folder t (.inMemory m d) (solutionPath folder stem) ⟨request, report, s.settings⟩
      (.inMemory (s.serve v (t.call request) m).1 (d.insert (k ++ [solutionName stem])
        (.file (toJson (⟨request, report, s.settings⟩ : Solution)).indented.toUTF8))) := by
  have hserve := serve_inMemory (s := s) (v := v) (t.call request) m d
  refine ⟨⟨stem, hstem, rfl⟩, hread, (congrArg Prod.snd hserve).trans hanswer, rfl, ?_⟩
  rw [hserve]
  refine ⟨_, _, ⟨hplace.locate hname, hfree, ?_, rfl⟩, rfl⟩
  rw [List.dropLast_concat]
  exact hplace.folder

/-! ### A sample batch -/

/-- A disk with two request files in two folders, and a folder for the solutions. Their requests
differ in a label only. -/
def sampleFiles (second : String) : Disk where
  nodes := .ofList [(["old"], .folder), (["new"], .folder), (["out"], .folder),
    (["old", "a.json"], .file (write (Service.sampleRequest (some ""))).toUTF8),
    (["new", second], .file (write (Service.sampleRequest none)).toUTF8)]
  here := []

def sampleStorage (second : String) : Storage := .inMemory .empty (sampleFiles second)

/-- A task that takes no time. -/
def sampleTask (folder name : String) : Task := ⟨⟨⟨0⟩, 0⟩, ⟨⟨0⟩, 0⟩, join folder name⟩

theorem stem?_sample (folder : String) {name : String} (h : Single name) :
    Path.stem? (sampleTask folder name).path = some (Path.withoutEnding name) := by
  rw [Path.stem?, sampleTask, Path.lastName?_join folder h, Option.map_some]

theorem readRequest_sample {k : Location} {name : String} (label : Option String)
    (hplace : d.Place folder k) (hname : Plain name)
    (hfile : d.at? (k ++ [name]) = some (.file (write (Service.sampleRequest label)).toUTF8)) :
    readRequest d (sampleTask folder name).path = .ok (Service.sampleRequest label) := by
  have hfinite : isFinite (Service.sampleRequest label) = true := by
    show ([Service.samplePanel].all isFinite) = true
    decide +kernel
  rw [sampleTask, readRequest_of_file (hplace.locate hname) hfile, read?_write, if_pos hfinite]

theorem place_sample (second : String) {name : String} (hname : name ∈ ["old", "new", "out"]) :
    (sampleFiles second).Place name [name] := by
  have hplain : ∀ name ∈ ["old", "new", "out"], Plain name := by decide
  refine Disk.place_of_plain (hplain name hname) rfl ?_
  simp only [List.mem_cons, List.not_mem_nil, or_false] at hname
  obtain rfl | rfl | rfl := hname <;> simp [Disk.at?, sampleFiles, Table.ofList]

/-- The solution of the first file. -/
def firstSolution : Solution :=
  ⟨Service.sampleRequest (some ""), Service.sampleReport (some ""), .standard⟩

/-- The solution of the second file. The report is the one that was kept for the first. -/
def secondSolution : Solution where
  request := Service.sampleRequest none
  report := Service.answerKept (Service.sampleReport (some ""))
    (Service.address (Service.sampleRequest none)) "shelf"
  settings := .standard

/-- The storage after the first file. -/
def sampleStored (second : String) : Storage :=
  .inMemory ((Service.sampleService 60).serve none (Service.sampleCall (some ""))
      MemoryStore.empty).1
    ((sampleFiles second).insert ["out", "sol_a.json"]
      (.file (toJson firstSolution).indented.toUTF8))

theorem solves_first (second : String) :
    Solves (Service.sampleService 60) none "out" (sampleTask "old" "a.json") (sampleStorage second)
      (solutionPath "out" "a") firstSolution (sampleStored second) := by
  have hstem : Path.stem? (sampleTask "old" "a.json").path = some "a" :=
    stem?_sample "old" (by decide : Plain "a.json").single
  have hread : readRequest (sampleFiles second) (sampleTask "old" "a.json").path =
      .ok (Service.sampleRequest (some "")) :=
    readRequest_sample _ (place_sample second (by decide)) (by decide)
      (by simp [Disk.at?, sampleFiles, Table.ofList])
  have hanswer : ((Service.sampleService 60).serve none (Service.sampleCall (some ""))
      MemoryStore.empty).2 = .ok (.ok (Service.sampleReport (some ""))) :=
    (Service.serve_missed_reply (s := Service.sampleService 60) (c := Service.sampleCall (some ""))
      (Service.check_sample _) rfl (Service.deadline_sample _)).trans (Service.reply_sample 60 _)
  exact solves_inMemory hstem hread hanswer (place_sample second (by decide)) (by decide)
    (by simp [Disk.at?, sampleFiles, Table.ofList])

/-- A second file of the same stem is processed with success, too. -/
theorem exists_solves_second : ∃ st, Solves (Service.sampleService 60) none "out"
    (sampleTask "new" "a.txt") (sampleStored "a.txt") (solutionPath "out" "a") secondSolution
    st := by
  have hstem : Path.stem? (sampleTask "new" "a.txt").path = some "a" :=
    stem?_sample "new" (by decide : Plain "a.txt").single
  have hkeeps : (sampleFiles "a.txt").Keeps (sampleStored "a.txt").disk :=
    Disk.keeps_insert (by simp [Disk.at?, sampleFiles, Table.ofList]) _
  have hplace : ∀ name ∈ ["old", "new", "out"], (sampleStored "a.txt").disk.Place name [name] :=
    fun _ hname => (place_sample "a.txt" hname).mono hkeeps.here hkeeps.folders
  have hat (k : Location) : (sampleStored "a.txt").disk.at? k = if k = ["out", "sol_a.json"] then
      some (.file (toJson firstSolution).indented.toUTF8) else (sampleFiles "a.txt").at? k :=
    Disk.at?_insert (List.cons_ne_nil "out" ["sol_a.json"])
  have hread : readRequest (sampleStored "a.txt").disk (sampleTask "new" "a.txt").path =
      .ok (Service.sampleRequest none) :=
    readRequest_sample _ (hplace "new" (by decide)) (by decide)
      ((hat _).trans (by simp [Disk.at?, sampleFiles, Table.ofList]))
  refine ⟨_, solves_inMemory hstem hread Service.second_answer_sample (hplace "out" (by decide))
    (by decide) ?_⟩
  exact ne_of_eq_of_ne (hat ["out", "sol_a.json"]) (by simp)

/-! ### What stays -/

/-- The solution that a task writes stays as it is written, whatever is done later for files with
other stems. It holds the request in the file and the report that the service gave on it, and can be
read back if the numbers of the report are finite. -/
theorem solution_stays (s : Service) (v : Verbosity) (folder : String) {st : Storage} {t : Task}
    {earlier later : List Task} {path : String} (hwriter : st.PlainWriter)
    (hresult : (carryOut s v folder t (after s v folder earlier st)).2 = .ok (.ok path))
    (hstems : ∀ u ∈ later, Path.stem? u.path ≠ Path.stem? t.path) :
    ∃ solution, Solves s v folder t (after s v folder earlier st) path solution
        (after s v folder (earlier ++ [t]) st) ∧
      (after s v folder (earlier ++ t :: later) st).disk.readText path =
        .ok (toJson solution).indented ∧
      ((∀ x ∈ solution.report.floats, x.isFinite = true) →
        read? (toJson solution).indented = some solution) := by
  rcases hcarry : carryOut s v folder t (after s v folder earlier st) with ⟨st', result⟩
  rw [hcarry] at hresult
  obtain rfl : result = .ok (.ok path) := hresult
  obtain ⟨solution, hsolves⟩ := exists_solves hcarry
  have hfirst : after s v folder (earlier ++ [t]) st = st' := by
    rw [after_append, after, hcarry, after]
  have hall : after s v folder (earlier ++ t :: later) st = after s v folder later st' := by
    rw [after_append, after, hcarry]
  have hplain : st'.PlainWriter := hfirst ▸ plainWriter_after hwriter
  rw [hfirst, hall]
  exact ⟨solution, hsolves, hsolves.stays hplain hstems,
    fun hfinite => (hsolves.readBack hfinite).indented⟩

theorem solution_stays_sample :
    (sampleStorage "b.json").PlainWriter ∧
      (carryOut (Service.sampleService 60) none "out" (sampleTask "old" "a.json")
        (after (Service.sampleService 60) none "out" [] (sampleStorage "b.json"))).2 =
          .ok (.ok (solutionPath "out" "a")) ∧
      (∀ u ∈ [sampleTask "new" "b.json"],
        Path.stem? u.path ≠ Path.stem? (sampleTask "old" "a.json").path) ∧
      ∃ solution, Solves (Service.sampleService 60) none "out" (sampleTask "old" "a.json")
          (after (Service.sampleService 60) none "out" [] (sampleStorage "b.json"))
          (solutionPath "out" "a") solution
          (after (Service.sampleService 60) none "out" ([] ++ [sampleTask "old" "a.json"])
            (sampleStorage "b.json")) ∧
        (after (Service.sampleService 60) none "out"
            ([] ++ sampleTask "old" "a.json" :: [sampleTask "new" "b.json"])
            (sampleStorage "b.json")).disk.readText (solutionPath "out" "a") =
          .ok (toJson solution).indented ∧
        ((∀ x ∈ solution.report.floats, x.isFinite = true) →
          read? (toJson solution).indented = some solution) := by
  have hresult : (carryOut (Service.sampleService 60) none "out" (sampleTask "old" "a.json")
      (after (Service.sampleService 60) none "out" [] (sampleStorage "b.json"))).2 =
        .ok (.ok (solutionPath "out" "a")) :=
    congrArg Prod.snd (solves_first "b.json").carryOut
  have hstems : ∀ u ∈ [sampleTask "new" "b.json"],
      Path.stem? u.path ≠ Path.stem? (sampleTask "old" "a.json").path := by
    rw [List.forall_mem_singleton, stem?_sample "new" (by decide : Plain "b.json").single,
      stem?_sample "old" (by decide : Plain "a.json").single]
    decide
  exact ⟨trivial, hresult, hstems, solution_stays _ _ _ trivial hresult hstems⟩

/-- Of two files with one stem the first loses its solution, although both are processed with
success: the file at the path of both holds the request of the second. -/
theorem solution_lost :
    readRequest (sampleStorage "a.txt").disk (sampleTask "old" "a.json").path =
        .ok (Service.sampleRequest (some "")) ∧
      (carryOut (Service.sampleService 60) none "out" (sampleTask "old" "a.json")
        (sampleStorage "a.txt")).2 = .ok (.ok (solutionPath "out" "a")) ∧
      (carryOut (Service.sampleService 60) none "out" (sampleTask "new" "a.txt")
        (after (Service.sampleService 60) none "out" [sampleTask "old" "a.json"]
          (sampleStorage "a.txt"))).2 = .ok (.ok (solutionPath "out" "a")) ∧
      ∃ text, ∃ solution : Solution, (after (Service.sampleService 60) none "out"
          [sampleTask "old" "a.json", sampleTask "new" "a.txt"]
          (sampleStorage "a.txt")).disk.readText (solutionPath "out" "a") = .ok text ∧
        read? text = some solution ∧ solution.request ≠ Service.sampleRequest (some "") := by
  have hfirst := solves_first "a.txt"
  obtain ⟨st, hsecond⟩ := exists_solves_second
  have hstored : after (Service.sampleService 60) none "out" [sampleTask "old" "a.json"]
      (sampleStorage "a.txt") = sampleStored "a.txt" := congrArg Prod.fst hfirst.carryOut
  have hafter : after (Service.sampleService 60) none "out"
      [sampleTask "old" "a.json", sampleTask "new" "a.txt"] (sampleStorage "a.txt") = st := by
    rw [after, hfirst.carryOut, after, hsecond.carryOut, after]
  have hwriter : (sampleStorage "a.txt").PlainWriter := trivial
  have hplain : st.PlainWriter := by
    rw [← hafter]
    exact plainWriter_after hwriter
  have htext : (after (Service.sampleService 60) none "out" [] st).disk.readText
      (solutionPath "out" "a") = .ok (toJson secondSolution).indented :=
    hsecond.stays hplain nofun
  rw [hstored, hafter]
  refine ⟨hfirst.read, congrArg Prod.snd hfirst.carryOut, congrArg Prod.snd hsecond.carryOut, _,
    secondSolution, htext, ?_, ?_⟩
  · refine (hsecond.readBack (List.all_eq_true.1 ?_)).indented
    rw [← Report.isFinite_eq]
    exact Service.isFinite_sample (some "")
  · intro h
    have hcuts := congrArg Request.cuts h
    simp [secondSolution, Service.sampleRequest] at hcuts

end Batch

end Guillotine
