import ClassXref.Events
import ClassXref.Proofs.Stateful
import Mathlib.Data.List.Forall2

/-! A visit as the list of its reports. What a visit does to a recorder is stated by the uses that it
reports, replayed one after the other, so that nothing is assumed of the recorder. What all reports of a
visit have in common is stated for every outcome of it. -/
namespace ClassXref

/-- The state that a recorder is in after reports of these uses. -/
def Recorder.replay {R : Type} [Recorder R] (r : R) (usages : List Usage) : R :=
  usages.foldl (fun r usage => Recorder.record r (.used usage)) r

/-- One use for each symbol that a declaration mentions. -/
def Referrer.uses (referrer : Referrer) (symbols : List Symbol) : List Usage :=
  symbols.map fun symbol => ⟨symbol, referrer⟩

variable {R : Type} [Recorder R]

open Recorder (replay)

theorem Recorder.replay_append (r : R) (usages more : List Usage) :
    replay r (usages ++ more) = replay (replay r usages) more := by
  rw [replay, replay, replay, List.foldl_append]

/-- A log keeps its record and takes in the uses at its end. -/
theorem Recorder.replay_events (events : Events) (usages : List Usage) :
    replay events usages = { events with usages := events.usages ++ usages.toArray } := by
  induction usages generalizing events with
  | nil => simp [replay]
  | cons u usages ih =>
    have hrest := ih (Recorder.record events (.used u))
    simpa [replay, Recorder.record] using hrest

theorem Referrer.uses_append (referrer : Referrer) (symbols more : List Symbol) :
    referrer.uses (symbols ++ more) = referrer.uses symbols ++ referrer.uses more := by
  rw [uses, uses, uses, List.map_append]

theorem Referrer.uses_flatMap {α : Type} (referrer : Referrer) (f : α → List Symbol) (xs : List α) :
    referrer.uses (xs.flatMap f) = xs.flatMap fun x => referrer.uses (f x) := by
  rw [uses, List.map_flatMap]
  rfl

namespace Visit

theorem use_run (referrer : Referrer) (symbol : Symbol) (r : R) :
    use referrer symbol r = .ok () (replay r (referrer.uses [symbol])) := rfl

/-- Reporting symbols in order succeeds and is the replay of their uses. -/
theorem useAll_run (referrer : Referrer) (symbols : List Symbol) (r : R) :
    useAll referrer symbols r = .ok () (replay r (referrer.uses symbols)) := by
  induction symbols generalizing r with
  | nil => rfl
  | cons symbol symbols ih =>
    have htail := ih (replay r (referrer.uses [symbol]))
    rw [← Recorder.replay_append, ← Referrer.uses_append] at htail
    exact htail

theorem useAll_eq_ok_iff {referrer : Referrer} {symbols : List Symbol} {r t : R} {u : Unit} :
    useAll referrer symbols r = .ok u t ↔ t = replay r (referrer.uses symbols) := by
  rw [useAll_run]
  constructor
  · intro h
    cases h
    rfl
  · rintro rfl
    rfl

/-- A report of what a lookup finds succeeds just when the lookup does. -/
theorem useFound_eq_ok_iff {α : Type} {referrer : Referrer} {lookup : Except Fault α} {r t : R}
    (symbols : α → List Symbol) :
    (do useAll referrer (symbols (← lookup)) : Visit R Unit) r = .ok () t ↔
      ∃ a, lookup = .ok a ∧ t = replay r (referrer.uses (symbols a)) := by
  simp only [Stateful.bind_eq_ok_iff, Stateful.liftM_eq_ok_iff, useAll_eq_ok_iff]
  constructor
  · rintro ⟨a, _, ⟨ha, rfl⟩, rfl⟩
    exact ⟨a, ha, rfl⟩
  · rintro ⟨a, ha, rfl⟩
    exact ⟨a, r, ⟨ha, rfl⟩, rfl⟩

/-- A report of what a lookup finds fails just when the lookup does, and has then reported nothing. -/
theorem useFound_eq_error_iff {α : Type} {referrer : Referrer} {lookup : Except Fault α} {r t : R}
    {e : Fault} (symbols : α → List Symbol) :
    (do useAll referrer (symbols (← lookup)) : Visit R Unit) r = .error e t ↔
      lookup = .error e ∧ t = r := by
  simp only [Stateful.bind_eq_error_iff, Stateful.liftM_eq_error_iff, useAll_run]
  constructor
  · rintro (⟨he, rfl⟩ | ⟨_, _, -, h⟩)
    · exact ⟨he, rfl⟩
    · cases h
  · rintro ⟨he, rfl⟩
    exact Or.inl ⟨he, rfl⟩

/-- Steps that succeed on what stands in a relation to something, and report of it what `usages` says,
do so one after the other. -/
theorem forM_eq_ok_iff {α β : Type} {step : α → Visit R Unit} {holds : α → β → Prop}
    {usages : β → List Usage}
    (hstep : ∀ x r t, step x r = .ok () t ↔ ∃ y, holds x y ∧ t = replay r (usages y))
    {xs : List α} {r t : R} :
    xs.forM step r = .ok () t ↔
      ∃ ys, List.Forall₂ holds xs ys ∧ t = replay r (ys.flatMap usages) := by
  induction xs generalizing r with
  | nil =>
    have hnil : ([] : List α).forM step = pure () := rfl
    rw [hnil, Stateful.pure_eq_ok_iff]
    constructor
    · rintro ⟨-, rfl⟩
      exact ⟨[], .nil, rfl⟩
    · rintro ⟨ys, hys, rfl⟩
      cases hys
      exact ⟨rfl, rfl⟩
  | cons x xs ih =>
    have hcons : (x :: xs).forM step = step x >>= fun _ => xs.forM step := rfl
    rw [hcons, Stateful.bind_eq_ok_iff]
    constructor
    · rintro ⟨_, s, hx, hxs⟩
      obtain ⟨y, hy, rfl⟩ := (hstep x r s).mp hx
      obtain ⟨ys, hys, rfl⟩ := ih.mp hxs
      exact ⟨y :: ys, .cons hy hys, by rw [List.flatMap_cons, Recorder.replay_append]⟩
    · rintro ⟨ys, hys, rfl⟩
      cases hys with
      | @cons _ y _ ys hy hys =>
        refine ⟨(), replay r (usages y), (hstep x r _).mpr ⟨y, hy, rfl⟩, ih.mpr ⟨ys, hys, ?_⟩⟩
        rw [List.flatMap_cons, Recorder.replay_append]

/-- Where such steps fail, one of them did, after those before it had reported what stands for them. -/
theorem forM_eq_error {α β : Type} {step : α → Visit R Unit} {holds : α → β → Prop}
    {usages : β → List Usage}
    (hstep : ∀ x r t, step x r = .ok () t ↔ ∃ y, holds x y ∧ t = replay r (usages y))
    {xs : List α} {r t : R} {e : Fault} (h : xs.forM step r = .error e t) :
    ∃ good bad rest ys, xs = good ++ bad :: rest ∧ List.Forall₂ holds good ys ∧
      step bad (replay r (ys.flatMap usages)) = .error e t := by
  induction xs generalizing r with
  | nil => cases h
  | cons x xs ih =>
    have hcons : (x :: xs).forM step = step x >>= fun _ => xs.forM step := rfl
    rw [hcons] at h
    rcases Stateful.bind_eq_error_iff.mp h with hx | ⟨_, s, hx, hxs⟩
    · exact ⟨[], x, xs, [], rfl, .nil, hx⟩
    · obtain ⟨y, hy, rfl⟩ := (hstep x r s).mp hx
      obtain ⟨good, bad, rest, ys, rfl, hys, hbad⟩ := ih hxs
      refine ⟨x :: good, bad, rest, y :: ys, rfl, .cons hy hys, ?_⟩
      rw [List.flatMap_cons, Recorder.replay_append]
      exact hbad

/-! ### Events of a kind

A visit that fails half-way keeps what it has reported. What holds of every report is therefore said of
the recorder that is left, whatever the outcome. -/

/-- The recorder that a visit leaves, whether the visit comes to its end or not. -/
def final {α : Type} (v : Visit R α) (r : R) : R :=
  match v r with
  | .ok _ t => t
  | .error _ t => t

/-- All that the visit reports, whatever its outcome, has this property. -/
def Reports {α : Type} (P : Event → Prop) (v : Visit R α) : Prop :=
  ∀ r, ∃ events : List Event, (∀ e ∈ events, P e) ∧ final v r = events.foldl Recorder.record r

section Reports

variable {α β : Type} {P Q : Event → Prop} {x : Visit R α} {f : α → Visit R β}

omit [Recorder R] in
theorem final_bind_of_ok {r t : R} {a : α} (h : x r = .ok a t) : final (x >>= f) r = final (f a) t := by
  rw [final, Stateful.bind_ok h]
  rfl

omit [Recorder R] in
theorem final_bind_of_error {r t : R} {e : Fault} (h : x r = .error e t) :
    final (x >>= f) r = t := by
  rw [final, Stateful.bind_error h]

omit [Recorder R] in
theorem final_bind_pure {r : R} {b : β} : final (x >>= fun _ => pure b) r = final x r := by
  cases h : x r with
  | ok a t =>
    rw [final_bind_of_ok h, final, final, h]
    rfl
  | error e t => rw [final_bind_of_error h, final, h]

theorem Reports.mono (h : Reports P x) (hPQ : ∀ e, P e → Q e) : Reports Q x := by
  intro r
  obtain ⟨events, hevents, hfinal⟩ := h r
  exact ⟨events, fun e he => hPQ e (hevents e he), hfinal⟩

theorem reports_pure (a : α) : Reports P (pure a : Visit R α) :=
  fun _ => ⟨[], by simp, rfl⟩

theorem reports_throw (e : Fault) : Reports P (throw e : Visit R α) :=
  fun _ => ⟨[], by simp, rfl⟩

theorem reports_report {event : Event} (h : P event) : Reports P (report event : Visit R Unit) :=
  fun _ => ⟨[event], by simpa using h, rfl⟩

/-- What follows a step need only be looked at for results that the step has. -/
theorem reports_bind (hx : Reports P x) (hf : ∀ r a t, x r = .ok a t → Reports P (f a)) :
    Reports P (x >>= f) := by
  intro r
  obtain ⟨events, hevents, hfinal⟩ := hx r
  cases hr : x r with
  | error e t =>
    refine ⟨events, hevents, ?_⟩
    rw [← hfinal, final_bind_of_error hr, final, hr]
  | ok a t =>
    obtain ⟨more, hmore, hlast⟩ := hf r a t hr t
    refine ⟨events ++ more, ?_, ?_⟩
    · intro e he
      exact (List.mem_append.mp he).elim (hevents e) (hmore e)
    · have ht : t = events.foldl Recorder.record r := by rw [← hfinal, final, hr]
      rw [final_bind_of_ok hr, hlast, List.foldl_append, ht]

/-- Looking something up reports nothing. -/
theorem reports_lookup {lookup : Except Fault α} (hf : ∀ a, lookup = .ok a → Reports P (f a)) :
    Reports P (liftM lookup >>= f) := by
  refine reports_bind ?_ fun r a t h => hf a (Stateful.liftM_eq_ok_iff.mp h).1
  cases lookup with
  | ok a => exact reports_pure a
  | error e => exact reports_throw e

theorem reports_forM {xs : List α} {step : α → Visit R Unit} (h : ∀ x ∈ xs, Reports P (step x)) :
    Reports P (xs.forM step) := by
  induction xs with
  | nil => exact reports_pure ()
  | cons x xs ih =>
    exact reports_bind (h x List.mem_cons_self) fun _ _ _ _ =>
      ih fun y hy => h y (List.mem_cons_of_mem x hy)

theorem reports_useAll {referrer : Referrer} {symbols : List Symbol}
    (h : ∀ s ∈ symbols, P (.used ⟨s, referrer⟩)) :
    Reports P (useAll referrer symbols : Visit R Unit) :=
  reports_forM fun s hs => reports_report (h s hs)

end Reports

/-- The uses in a log are those that it had and those among the events that it took in. -/
theorem mem_usages_record {u : Usage} {events : List Event} {log : Events} :
    u ∈ (events.foldl Recorder.record log).usages ↔ u ∈ log.usages ∨ .used u ∈ events := by
  induction events generalizing log with
  | nil => simp
  | cons e events ih =>
    rw [List.foldl_cons, ih, List.mem_cons]
    cases e with
    | declared record => simp [Recorder.record]
    | used v => simp [Recorder.record, or_assoc]

end Visit
end ClassXref
