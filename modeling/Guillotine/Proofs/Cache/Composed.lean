import Guillotine.Cache.Results
import Guillotine.Proofs.InStep

/-! The operations on kept results, composed of calls to a backend. Whatever holds of the calls and
of what is composed of them holds of the operations: on one backend, or on two backends whose calls
go in step. A reading operation returns only what can be read from the texts that its calls may
return. -/
namespace Guillotine

namespace Run

variable {σ τ : Type}

/-- Whether a relation of runs holds between equal notes, and between runs one after the other if it
holds between their parts. -/
structure Congruence (Q : (α : Type) → Run σ α → Run τ α → Prop) : Prop where
  pure {α : Type} (a : α) : Q α (Pure.pure a) (Pure.pure a)
  note (l : Level) (t : Unit → String) : Q Unit (note l t) (note l t)
  bind {α β : Type} {x : Run σ α} {y : Run τ α} {f : α → Run σ β} {g : α → Run τ β} (hx : Q α x y)
    (hf : ∀ a, Q β (f a) (g a)) : Q β (x >>= f) (y >>= g)

namespace Congruence

variable {ε α β : Type} {Q : (α : Type) → Run σ α → Run τ α → Prop}

theorem run_bind (h : Congruence Q) {x : ExceptT ε (Run σ) α} {y : ExceptT ε (Run τ) α}
    {f : α → ExceptT ε (Run σ) β} {g : α → ExceptT ε (Run τ) β} (hx : Q (Except ε α) x.run y.run)
    (hf : ∀ a, Q (Except ε β) (f a).run (g a).run) :
    Q (Except ε β) (x >>= f).run (y >>= g).run := by
  apply h.bind hx
  intro r
  cases r with
  | ok a => exact hf a
  | error e => exact h.pure _

theorem run_note (h : Congruence Q) (l : Level) (t : Unit → String) :
    Q (Except ε Unit) (liftM (Logged.note l t) : ExceptT ε (Run σ) Unit).run
      (liftM (Logged.note l t) : ExceptT ε (Run τ) Unit).run :=
  h.bind (h.note l t) fun _ => h.pure _

end Congruence

/-- A property of single runs as a relation that looks at the first one only. -/
theorem Composable.congruence {Q : (α : Type) → Run σ α → Prop} (h : Composable Q) :
    Congruence fun α x (_ : Run σ α) => Q α x :=
  ⟨h.pure, h.note, h.bind⟩

/-- Going in step, with any values. -/
theorem congruence_inStep (R : σ → τ → Prop) :
    Congruence fun _ x y => InStep R (fun _ => True) x y :=
  ⟨fun _ => .pure trivial, fun l t => .note l t t, fun hx hf => hx.bind fun a _ => hf a⟩

end Run

namespace Results

open Run

variable {σ τ α : Type} [Backend σ] [Backend τ] {now : Moment} {ttl : UInt64} {d : RequestDigest}
  {r : Report} {key : String}

/-! ### Writing -/

/-- What is written beside a result. -/
def writeEntry (now : Moment) (ttl : UInt64) (d : RequestDigest) (r : Report) : Caching σ Unit := do
  Backend.set now d.entryKey (Guillotine.write (⟨d.hex, now.wall, r⟩ : Entry)) ttl
  let trimmed ← Backend.removeScored indexKey (-1 / 0) (cutoff now ttl)
  if 0 < trimmed then
    Logged.note .debug fun _ => String.join
      ["[CACHE] trimmed ", toString trimmed, " expired record(s) from ", indexKey]
  Backend.insertScored indexKey (Float.ofInt now.wall.seconds) d.hex

theorem write_eq : (write now ttl d r : Caching σ Unit) =
    (Backend.set now d.resultKey (Guillotine.write r) ttl >>= fun _ => writeEntry now ttl d r) :=
  rfl

section Congruence

variable {Q : (α : Type) → Run σ α → Run τ α → Prop} (hQ : Congruence Q)
  (hentry : Q _
    (Backend.set now d.entryKey (Guillotine.write (⟨d.hex, now.wall, r⟩ : Entry)) ttl :
      Caching σ Unit).run
    (Backend.set now d.entryKey (Guillotine.write (⟨d.hex, now.wall, r⟩ : Entry)) ttl :
      Caching τ Unit).run)
  (hremove : Q _ (Backend.removeScored indexKey (-1 / 0) (cutoff now ttl) : Caching σ Nat).run
    (Backend.removeScored indexKey (-1 / 0) (cutoff now ttl) : Caching τ Nat).run)
  (hinsert : Q _
    (Backend.insertScored indexKey (Float.ofInt now.wall.seconds) d.hex : Caching σ Unit).run
    (Backend.insertScored indexKey (Float.ofInt now.wall.seconds) d.hex : Caching τ Unit).run)

include hQ hentry hremove hinsert

theorem composed_writeEntry :
    Q _ (writeEntry now ttl d r : Caching σ Unit).run
      (writeEntry now ttl d r : Caching τ Unit).run := by
  apply hQ.run_bind hentry
  intro _
  apply hQ.run_bind hremove
  intro trimmed
  dsimp only
  split
  · exact hQ.run_bind (hQ.run_note _ _) fun _ => hinsert
  · exact hinsert

/-- Keeping a result is related to keeping it elsewhere if the calls are of which it is composed. -/
theorem composed_store
    (hresult : Q _ (Backend.set now d.resultKey (Guillotine.write r) ttl : Caching σ Unit).run
      (Backend.set now d.resultKey (Guillotine.write r) ttl : Caching τ Unit).run) :
    Q _ (store now ttl d r : Run σ Unit) (store now ttl d r : Run τ Unit) := by
  have hwrite : Q _ (attempt (write now ttl d r : Caching σ Unit))
      (attempt (write now ttl d r : Caching τ Unit)) := by
    rw [write_eq, write_eq]
    exact hQ.run_bind hresult fun _ => composed_writeEntry hQ hentry hremove hinsert
  apply hQ.bind hwrite
  intro outcome
  cases outcome with
  | ok _ => exact hQ.note _ _
  | error e => exact hQ.note _ _

end Congruence

/-! ### Reading -/

/-- What is read from the text under a key, with a warning for each way to fail. -/
def fetch [OfJson α] (now : Moment) (key : String) (failed : CacheError → String)
    (undecodable : String) : Run σ (Option α) := do
  match ← attempt (Backend.get now key) with
  | .error e =>
    Run.note .warn fun _ => failed e
    return none
  | .ok none => return none
  | .ok (some text) =>
    match read? text with
    | some a => return some a
    | none =>
      Run.note .warn fun _ => undecodable
      return none

theorem lookup_eq_fetch : (lookup now d : Run σ _) = fetch now d.resultKey
    (fun e => String.join
      ["[CACHE] read of ", d.resultKey, " failed, treating as miss: ", e.message])
    (String.join ["[CACHE] undecodable entry under ", d.resultKey,
      ", treating as miss: not the expected document"]) := by
  unfold lookup fetch
  congr 1
  funext outcome
  rcases outcome with e | none | text
  · rfl
  · rfl
  · dsimp only
    cases (read? text : Option Report) <;> rfl

theorem document?_eq_fetch [OfJson α] : (document? now key : Run σ (Option α)) = fetch now key
    (fun e => String.join ["[CACHE] read of ", key, " failed: ", e.message])
    (String.join ["[CACHE] undecodable entry under ", key, ": not the expected document"]) :=
  rfl

theorem toNat_lastRank {offset limit : UInt64} (hlimit : ¬ limit = 0)
    (hsum : offset.toNat + limit.toNat < UInt64.size) :
    (offset + limit - 1).toNat + 1 = offset.toNat + limit.toNat := by
  have hpos : 0 < limit.toNat := by
    rw [← UInt64.toNat_inj, UInt64.toNat_zero] at hlimit
    omega
  have hadd : (offset + limit).toNat = offset.toNat + limit.toNat := by
    rw [UInt64.toNat_add, Nat.mod_eq_of_lt hsum]
  have hone : (1 : UInt64).toNat = 1 := rfl
  rw [UInt64.toNat_sub_of_le _ _ (UInt64.le_iff_toNat_le.2 (by omega)), hadd, hone]
  omega

/-- The ranks up to the last one that is asked for can be counted with 64 bits. -/
theorem lastRank_lt {offset limit : UInt64} (hlimit : ¬ limit = 0)
    (hsum : offset.toNat + limit.toNat < UInt64.size) :
    (offset + limit - 1).toNat < UInt64.size - 1 := by
  have hlast := toNat_lastRank hlimit hsum
  omega

section Composable

variable {Q : (α : Type) → Run σ α → Prop} (hQ : Composable Q)

include hQ

/-- A property of looking under a key is one of reading what is there. -/
theorem composed_fetch [OfJson α] (hget : Q _ (attempt (Backend.get now key)))
    (failed : CacheError → String) (undecodable : String) :
    Q _ (fetch now key failed undecodable : Run σ (Option α)) := by
  apply hQ.bind hget
  intro outcome
  match outcome with
  | .error e => exact hQ.bind (hQ.note _ _) fun _ => hQ.pure none
  | .ok none => exact hQ.pure none
  | .ok (some text) =>
    dsimp only
    cases (read? text : Option α) with
    | none => exact hQ.bind (hQ.note _ _) fun _ => hQ.pure none
    | some a => exact hQ.pure (some a)

theorem composed_readEntry (hget : ∀ key, Q _ (attempt (Backend.get now key))) :
    Q _ (entryOf? now d) := by
  unfold entryOf?
  simp only [document?_eq_fetch]
  apply hQ.bind (composed_fetch hQ (hget _) _ _)
  intro found
  cases found with
  | some e => exact hQ.pure (some e)
  | none =>
    apply hQ.bind (composed_fetch hQ (hget _) _ _)
    intro rebuilt
    cases rebuilt with
    | none => exact hQ.pure none
    | some r => exact hQ.bind (hQ.note _ _) fun _ => hQ.pure _

theorem composed_entries (hget : ∀ key, Q _ (attempt (Backend.get now key)))
    (members : List String) : Q _ (entries now members) := by
  induction members with
  | nil => exact hQ.pure []
  | cons member members ih =>
    rw [entries]
    cases RequestDigest.ofHex? member with
    | none => exact ih
    | some d =>
      apply hQ.bind (composed_readEntry hQ hget)
      intro found
      cases found with
      | none => exact ih
      | some e => exact hQ.bind ih fun _ => hQ.pure _

/-- A property of ranking and of looking under keys is one of listing what is ranked, where the
ranks that are asked for can be counted. -/
theorem composed_recent {offset limit : UInt64}
    (hsum : limit = 0 ∨ offset.toNat + limit.toNat < UInt64.size)
    (hget : ∀ key, Q _ (attempt (Backend.get now key)))
    (hranked : ∀ start stop : UInt64, stop.toNat < UInt64.size - 1 →
      Q _ (attempt (Backend.ranked indexKey start stop))) : Q _ (recent now offset limit) := by
  unfold recent
  split
  · exact hQ.pure []
  next hlimit =>
    have hcount := hsum.resolve_left hlimit
    rw [if_neg (Nat.not_le_of_lt hcount)]
    apply hQ.bind (hranked _ _ (lastRank_lt hlimit hcount))
    intro outcome
    cases outcome with
    | ok members => exact composed_entries hQ hget members
    | error e => exact hQ.bind (hQ.note _ _) fun _ => hQ.pure []

end Composable

section InStep

variable {R : σ → τ → Prop} {T U : String → Prop} {E : Entry → Prop}

/-- Whether looking under a key goes in step, and any text that is found satisfies a condition. -/
def Finds (R : σ → τ → Prop) (now : Moment) (key : String) (T : String → Prop) : Prop :=
  InStep R (fun w => ∀ text, w = .ok (some text) → T text)
    (Backend.get now key : Caching σ _).run (Backend.get now key : Caching τ _).run

theorem fetch_inStep [OfJson α] (hget : Finds R now key T) (failed : CacheError → String)
    (undecodable : String) :
    InStep R (fun found => ∀ a : α, found = some a → ∃ text, T text ∧ read? text = some a)
      (fetch now key failed undecodable) (fetch now key failed undecodable) := by
  apply hget.bind
  intro outcome htext
  match outcome with
  | .error e => exact .note_bind (.pure fun _ h => nomatch h)
  | .ok none => exact .pure fun _ h => nomatch h
  | .ok (some text) =>
    dsimp only
    cases hread : (read? text : Option α) with
    | none => exact .note_bind (.pure fun _ h => nomatch h)
    | some a =>
      refine .pure fun b hb => ⟨text, htext text rfl, ?_⟩
      rw [hread, hb]

/-- An entry that is found was read from a text, or made anew from a result that was read. -/
theorem entryOf?_inStep (hentry : Finds R now d.entryKey T) (hresult : Finds R now d.resultKey U) :
    InStep R (fun found => ∀ e, found = some e → (∃ text, T text ∧ read? text = some e) ∨
        ∃ text r, U text ∧ read? text = some r ∧ e = ⟨d.hex, now.wall, r⟩)
      (entryOf? now d) (entryOf? now d) := by
  unfold entryOf?
  simp only [document?_eq_fetch]
  apply (fetch_inStep hentry _ _).bind
  intro found hfound
  cases found with
  | some e => exact .pure fun e' he => .inl (hfound e' he)
  | none =>
    apply (fetch_inStep hresult _ _).bind
    intro rebuilt hrebuilt
    cases rebuilt with
    | none => exact .pure fun _ h => nomatch h
    | some r =>
      obtain ⟨text, htext, hread⟩ := hrebuilt r rfl
      refine .note_bind (.pure fun e he => .inr ⟨text, r, htext, hread, ?_⟩)
      exact (Option.some.inj he).symm

theorem entries_inStep
    (h : ∀ hex d, RequestDigest.ofHex? hex = some d →
      InStep R (fun found => ∀ e, found = some e → E e) (entryOf? now d) (entryOf? now d))
    (members : List String) :
    InStep R (fun es => ∀ e ∈ es, E e) (entries now members) (entries now members) := by
  induction members with
  | nil => exact .pure fun _ h => nomatch h
  | cons member members ih =>
    rw [entries, entries]
    cases hhex : RequestDigest.ofHex? member with
    | none => exact ih
    | some d =>
      apply (h member d hhex).bind
      intro found hfound
      cases found with
      | none => exact ih
      | some e =>
        apply ih.bind
        intro es hes
        exact .pure (List.forall_mem_cons.2 ⟨hfound e rfl, hes⟩)

theorem recent_inStep {offset limit : UInt64}
    (h : ∀ hex d, RequestDigest.ofHex? hex = some d →
      InStep R (fun found => ∀ e, found = some e → E e) (entryOf? now d) (entryOf? now d))
    (hranked : ∀ start stop : UInt64, stop.toNat < UInt64.size - 1 → InStep R (fun _ => True)
      (Backend.ranked indexKey start stop : Caching σ _).run
      (Backend.ranked indexKey start stop : Caching τ _).run) :
    InStep R (fun es => ∀ e ∈ es, E e) (recent now offset limit) (recent now offset limit) := by
  unfold recent
  split
  · exact .pure fun _ h => nomatch h
  next hlimit =>
    split
    · exact .fault _
    next hsum =>
      apply (hranked _ _ (lastRank_lt hlimit (Nat.lt_of_not_le hsum))).bind
      intro outcome _
      cases outcome with
      | ok members => exact entries_inStep h members
      | error e => exact .note_bind (.pure fun _ h => nomatch h)

end InStep

end Results

end Guillotine
