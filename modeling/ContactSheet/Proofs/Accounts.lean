import ContactSheet.Proofs.Generation

/-!
# What the counters tell

The counters of a session are an account of its generation: how many steps were asked for and how many of them ended in which
way, how many calls went to the fallback decoder and how often the primary decoder ran out of memory, whatever became of the
steps in which that happened. `Stats.counting` is the entry of one step, `Ask.Run.stats_eq` says that each step makes just this
entry, and `Generation.stats_account` adds the entries up.
-/

namespace ContactSheet

variable {σ : Type}

/-! ## The entry of a step -/

/-- The counters after one more step, told by the way in which it ended and by its calls. -/
def Stats.counting (s : Stats) (t : Turn σ) : Stats :=
  { s with
    invocations := s.invocations + 1
    emitted := s.emitted + if t.ending = .emitted then 1 else 0
    throttled := s.throttled + if t.ending = .throttled then 1 else 0
    failures := s.failures + if t.ending = .failed then 1 else 0
    fallbackDecodes := s.fallbackDecodes + t.report.calls.countP (!·.isPrimary)
    oomEvents := s.oomEvents + t.report.calls.countP Call.ranOut }

/-- A step leaves the counters with its entry. -/
theorem Ask.Run.stats_eq {a : Ask σ} {s : Session} {m : σ} {r : Report σ (Except PreviewError Outcome)} (h : a.Run s m r) :
    r.session.stats = s.stats.counting ⟨a, r⟩ := by
  cases h with
  | disabled => rfl
  | throttled => rfl
  | cancelled => rfl
  | empty => rfl
  | unserved => rfl
  | emitted =>
    rw [Session.showed, a.noted_stats]
    rfl
  | interrupted => exact a.noted_stats s _
  | failed =>
    rw [Session.failed, a.noted_stats, Stats.counting, a.ending_failure]
    rfl

/-- The counters after steps, all at once. -/
theorem Stats.foldl_counting (s : Stats) (turns : List (Turn σ)) :
    turns.foldl Stats.counting s =
      { s with
        invocations := s.invocations + turns.length
        emitted := s.emitted + (turns.map Turn.ending).count .emitted
        throttled := s.throttled + (turns.map Turn.ending).count .throttled
        failures := s.failures + (turns.map Turn.ending).count .failed
        fallbackDecodes := s.fallbackDecodes + (turns.flatMap (·.report.calls)).countP (!·.isPrimary)
        oomEvents := s.oomEvents + (turns.flatMap (·.report.calls)).countP Call.ranOut } := by
  induction turns generalizing s with
  | nil => rfl
  | cons t turns ih =>
    have hcount (e : Ending) : ((t :: turns).map Turn.ending).count e =
        (if t.ending = e then 1 else 0) + (turns.map Turn.ending).count e := by
      rw [List.map_cons, List.count_cons, Nat.add_comm]
      simp only [beq_iff_eq]
    have hcalls (p : Call → Bool) : ((t :: turns).flatMap (·.report.calls)).countP p =
        t.report.calls.countP p + (turns.flatMap (·.report.calls)).countP p := by
      rw [List.flatMap_cons, List.countP_append]
    rw [List.foldl_cons, ih]
    simp only [Stats.counting, hcount, hcalls, List.length_cons, Nat.add_assoc, Nat.add_comm 1]

/-- Of the six ways in which a step ends, each step takes one. -/
theorem length_eq_count_endings (endings : List Ending) :
    endings.length = endings.count .emitted + endings.count .throttled + endings.count .failed +
      (endings.count .disabled + endings.count .skipped + endings.count .cancelled) := by
  induction endings with
  | nil => rfl
  | cons e endings ih =>
    rw [List.length_cons, ih]
    cases e <;> simp <;> omega

/-- A step during which a decoder answers that the generation was cancelled ends as a cancelled one. -/
theorem Ask.Run.ending_of_answer_cancelled {a : Ask σ} {s : Session} {m : σ} {r : Report σ (Except PreviewError Outcome)}
    (h : a.Run s m r) {c : Call} (hc : c ∈ r.calls) (he : c.answer.result = .error .cancelled) :
    (Turn.mk a r).ending = .cancelled := by
  have hran : c.ranOut = true → a.settings.fallback = .absent := by
    intro hran
    obtain ⟨e, he', hout⟩ := Call.error_of_ranOut hran
    obtain rfl := Except.error.inj (he.symm.trans he')
    cases hout
  cases h with
  | emitted hr hs => cases SheetRun.result_of_error hs hc he hran
  | interrupted => rfl
  | failed hr hs hcan => exact absurd (Except.error.inj (SheetRun.result_of_error hs hc he hran)) hcan
  | _ => cases hc

/-! ## The account of a generation -/

/-- Moves leave the counters with the entries of their steps. -/
theorem Generation.stats_run (g : Generation σ) (moves : List (Move σ)) :
    (g.run moves).session.stats = (g.later moves).foldl Stats.counting g.session.stats := by
  induction moves generalizing g with
  | nil => rfl
  | cons move moves ih =>
    show ((g.act move).run moves).session.stats = (g.taken move ++ (g.act move).later moves).foldl Stats.counting _
    rw [ih, List.foldl_append]
    cases move with
    | ask a =>
      have h : (g.turn a).report.session.stats = g.session.stats.counting (g.turn a) := (g.turn_run a).stats_eq
      rw [show (g.act (.ask a)).session.stats = _ from h]
      rfl
    | cancel => rfl
    | resetCancel => rfl

/-- The counters of a new generation after moves, all at once. -/
theorem Generation.stats_eq (interval : Duration) (m : σ) (moves : List (Move σ)) :
    let g := (start interval m).run moves
    g.session.stats =
      { invocations := g.turns.length
        emitted := (g.turns.map Turn.ending).count .emitted
        throttled := (g.turns.map Turn.ending).count .throttled
        failures := (g.turns.map Turn.ending).count .failed
        fallbackDecodes := g.calls.countP (!·.isPrimary)
        oomEvents := g.calls.countP Call.ranOut } := by
  intro g
  have hturns : g.turns = (start interval m).later moves := turns_run (start interval m) moves
  have hstats : g.session.stats = g.turns.foldl Stats.counting {} := by
    rw [hturns]
    exact stats_run (start interval m) moves
  rw [hstats, Stats.foldl_counting]
  simp only [Nat.zero_add, calls]

/-- Whatever a host does in a generation, its counters tell what happened: how many steps were asked for, how many of them made
a sheet, were held back and failed, how often the primary decoder ran out of memory, and how often the fallback decoder was
called, in all steps, whatever became of them. What is left of the steps found previews switched off or nothing to show, or were
cancelled, and these are also the steps in which a decoder answered that the generation was cancelled. -/
theorem Generation.stats_account (interval : Duration) (m : σ) (moves : List (Move σ)) :
    let g := (start interval m).run moves
    let endings := g.turns.map Turn.ending
    let stats := g.session.stats
    g.turns.map Turn.ask = moves.filterMap Move.ask? ∧
    stats.invocations = g.turns.length ∧
    stats.emitted = endings.count .emitted ∧
    stats.throttled = endings.count .throttled ∧
    stats.failures = endings.count .failed ∧
    stats.oomEvents = g.calls.countP Call.ranOut ∧
    stats.fallbackDecodes = g.calls.countP (!·.isPrimary) ∧
    stats.emitted + stats.throttled + stats.failures ≤ stats.invocations ∧
    stats.invocations - (stats.emitted + stats.throttled + stats.failures) =
      endings.count .disabled + endings.count .skipped + endings.count .cancelled ∧
    ∀ t ∈ g.turns, ∀ c ∈ t.report.calls, c.answer.result = .error .cancelled → t.ending = .cancelled := by
  intro g endings stats
  have hturns : g.turns = (start interval m).later moves := turns_run (start interval m) moves
  have hstats : stats = _ := stats_eq interval m moves
  have hinvocations : stats.invocations = g.turns.length := congrArg Stats.invocations hstats
  have hemitted : stats.emitted = endings.count .emitted := congrArg Stats.emitted hstats
  have hthrottled : stats.throttled = endings.count .throttled := congrArg Stats.throttled hstats
  have hfailures : stats.failures = endings.count .failed := congrArg Stats.failures hstats
  have hsum : g.turns.length = _ := (List.length_map Turn.ending).symm.trans (length_eq_count_endings endings)
  refine ⟨?_, hinvocations, hemitted, hthrottled, hfailures, congrArg Stats.oomEvents hstats,
    congrArg Stats.fallbackDecodes hstats, ?_, ?_, ?_⟩
  · rw [hturns]
    exact map_ask_later (start interval m) moves
  · omega
  · omega
  · intro t ht c hc he
    rw [hturns] at ht
    obtain ⟨s, m', hrun⟩ := later_run (start interval m) moves t ht
    exact hrun.ending_of_answer_cancelled hc he

/-! Four previews, ten moments apart: for the first one the primary decoder runs out of memory and the fallback decoder takes
over, the second one comes too soon, at the third one the primary decoder answers that the generation was cancelled, and at the
fourth one it fails. -/

namespace Sample

/-- The primary decoder runs out of memory, then it says that the generation was cancelled, then it fails. -/
def failing : Decoders Nat :=
  ⟨fun _ n =>
      (⟨.error (if n = 0 then .outOfMemory "gpu" "full" else if n = 1 then .cancelled else .decode "broken"), false⟩, n + 1),
    fun _ _ n => (⟨.ok red, false⟩, n)⟩

/-- One latent is asked for at a moment, with the fallback decoder at hand. -/
def askedOf (now : Duration) : Ask Nat :=
  ⟨previewer { (default : Settings) with fallback := .projection }, failing, batch 1, now, true⟩

/-- What the host does. -/
def mixed : List (Move Nat) := [.ask (askedOf 0), .ask (askedOf 5), .ask (askedOf 10), .ask (askedOf 20)]

theorem mixed_account :
    ((Generation.start 10 0).run mixed).turns.map Turn.ending = [.emitted, .throttled, .cancelled, .failed] ∧
    ((Generation.start 10 0).run mixed).session.stats.invocations = 4 ∧
    ((Generation.start 10 0).run mixed).session.stats.failures = 1 ∧
    ((Generation.start 10 0).run mixed).session.stats.oomEvents = 1 ∧
    ((Generation.start 10 0).run mixed).session.stats.fallbackDecodes = 1 := by
  obtain ⟨hasks, hinvocations, -, -, hfailures, hoom, hfallback, -⟩ := Generation.stats_account 10 0 mixed
  have hendings : ((Generation.start 10 0).run mixed).turns.map Turn.ending = [.emitted, .throttled, .cancelled, .failed] := by
    decide +kernel
  have hlength := congrArg List.length hasks
  rw [List.length_map] at hlength
  rw [hendings] at hfailures
  refine ⟨hendings, hinvocations.trans hlength, hfailures, hoom.trans ?_, hfallback.trans ?_⟩
  · decide +kernel
  · decide +kernel

end Sample

end ContactSheet
