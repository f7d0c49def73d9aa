import ContactSheet.Proofs.Accounts
import ContactSheet.Proofs.Conversation
import ContactSheet.Proofs.Spacing

/-!
# Steps that go unnoticed

A step that makes no sheet puts nothing off: if its decoders answer by what they are asked alone and do not cancel the session,
and if it did not give the primary decoder up, all later steps go as if it had not been made (`Generation.unnoticed`). What a
step does depends on its session through the gate and two flags, not through the counters: sessions that differ in these only
are `Alike`, and `Ask.report_alike` says that a step does the same in both and leaves them alike.
-/

namespace ContactSheet

variable {σ : Type}

/-! ## Decoders without a memory -/

/-- The decoders answer by what they are asked alone, and the session is not cancelled meanwhile. -/
def Decoders.Functional (ds : Decoders σ) : Prop := ∀ q, ∃ result, ∀ m, (ds.ask q m).1 = ⟨result, false⟩

/-- Such decoders answer the same at all times. -/
theorem Decoders.Functional.answer_eq {ds : Decoders σ} (h : ds.Functional) {q : Question} {m m' m₁ m₁' : σ}
    {answer answer' : Answer} (ha : ds.ask q m = (answer, m₁)) (ha' : ds.ask q m' = (answer', m₁')) : answer = answer' := by
  obtain ⟨result, hresult⟩ := h q
  have heq := hresult m
  have heq' := hresult m'
  rw [ha] at heq
  rw [ha'] at heq'
  exact heq.trans heq'.symm

/-- Such decoders do not cancel the session. -/
theorem Decoders.Functional.cancels_eq {ds : Decoders σ} (h : ds.Functional) {q : Question} {m m' : σ} {answer : Answer}
    (ha : ds.ask q m = (answer, m')) : answer.cancels = false := by
  obtain ⟨result, hresult⟩ := h q
  have heq := hresult m
  rw [ha] at heq
  exact congrArg Answer.cancels heq

/-- Such decoders serve an item always with the same calls and the same result. -/
theorem ItemRun.unique {ds : Decoders σ} (hp : ds.Functional) {settings : Settings} {sheet : Sheet} {latent : Latent}
    {f f₁ f₁' : Bool} {m m' m₁ m₁' : σ} {calls calls' : List Call} {result result' : Except PreviewError Image}
    (h : ItemRun ds settings sheet latent f m calls result f₁ m₁)
    (h' : ItemRun ds settings sheet latent f m' calls' result' f₁' m₁') :
    calls = calls' ∧ result = result' ∧ f₁ = f₁' := by
  cases h with
  | primary ha hr =>
    cases h' with
    | primary ha' hr' =>
      obtain rfl := hp.answer_eq (q := .primary _) ha ha'
      exact ⟨rfl, rfl, rfl⟩
    | rescued ha' hr' hf =>
      obtain rfl := hp.answer_eq (q := .primary _) ha ha'
      rw [hr hr'] at hf
      cases hf
  | rescued ha hr hf hb =>
    cases h' with
    | primary ha' hr' =>
      obtain rfl := hp.answer_eq (q := .primary _) ha ha'
      rw [hr' hr] at hf
      cases hf
    | rescued ha' hr' hf' hb' =>
      obtain rfl := hp.answer_eq (q := .primary _) ha ha'
      obtain rfl := hp.answer_eq (q := .fallback _ _) hb hb'
      exact ⟨rfl, rfl, rfl⟩
  | fallback ha =>
    cases h' with
    | fallback ha' =>
      obtain rfl := hp.answer_eq (q := .fallback _ _) ha ha'
      exact ⟨rfl, rfl, rfl⟩

/-- Such decoders serve a sheet always with the same calls and the same result. -/
theorem SheetRun.unique {ds : Decoders σ} (hp : ds.Functional) {settings : Settings} {sheet : Sheet} {f k : Bool}
    {m m' m₁ m₁' : σ} {latents : List Latent} {calls calls' : List Call} {result result' : Except PreviewError (List Image)}
    (h : SheetRun ds settings sheet f k m latents calls result m₁)
    (h' : SheetRun ds settings sheet f k m' latents calls' result' m₁') : calls = calls' ∧ result = result' := by
  induction h generalizing m' calls' result' m₁' with
  | done =>
    cases h' with
    | done => exact ⟨rfl, rfl⟩
  | stopped =>
    cases h' with
    | stopped => exact ⟨rfl, rfl⟩
  | failed hi =>
    cases h' with
    | failed hi' =>
      obtain ⟨rfl, he, -⟩ := hi.unique hp hi'
      exact ⟨rfl, congrArg Except.error (Except.error.inj he)⟩
    | decoded hi' =>
      obtain ⟨-, he, -⟩ := hi.unique hp hi'
      cases he
  | decoded hi hs ih =>
    cases h' with
    | failed hi' =>
      obtain ⟨-, he, -⟩ := hi.unique hp hi'
      cases he
    | decoded hi' hs' =>
      obtain ⟨rfl, he, rfl⟩ := hi.unique hp hi'
      obtain rfl := Except.ok.inj he
      obtain ⟨rfl, rfl⟩ := ih hs'
      exact ⟨rfl, rfl⟩

/-- The session is not cancelled while an item is decoded. -/
theorem ItemRun.any_cancels {ds : Decoders σ} (hp : ds.Functional) {settings : Settings} {sheet : Sheet} {latent : Latent}
    {f f' : Bool} {m m' : σ} {calls : List Call} {result : Except PreviewError Image}
    (h : ItemRun ds settings sheet latent f m calls result f' m') : calls.any Call.cancels = false := by
  cases h with
  | primary ha => simp [Call.cancels, Call.answer, hp.cancels_eq (q := .primary _) ha]
  | fallback ha => simp [Call.cancels, Call.answer, hp.cancels_eq (q := .fallback _ _) ha]
  | rescued ha hr hf hb =>
    simp [Call.cancels, Call.answer, hp.cancels_eq (q := .primary _) ha, hp.cancels_eq (q := .fallback _ _) hb]

/-- The session is not cancelled while a sheet is made. -/
theorem SheetRun.any_cancels {ds : Decoders σ} (hp : ds.Functional) {settings : Settings} {sheet : Sheet} {f k : Bool} {m m' : σ}
    {latents : List Latent} {calls : List Call} {result : Except PreviewError (List Image)}
    (h : SheetRun ds settings sheet f k m latents calls result m') : calls.any Call.cancels = false := by
  induction h with
  | done => rfl
  | stopped => rfl
  | failed hi => exact hi.any_cancels hp
  | decoded hi hs ih => rw [List.any_append, hi.any_cancels hp, ih, Bool.or_false]

/-! ## Sessions that differ in their counters only -/

/-- Two sessions differ in nothing but their counters. -/
structure Session.Alike (s s' : Session) : Prop where
  gate_eq : s.gate = s'.gate
  degraded_eq : s.degraded = s'.degraded
  cancelled_eq : s.cancelled = s'.cancelled

/-- What two cycles came to in such sessions, by the same calls and with the same reports. -/
structure Cycle.Alike (c c' : Cycle σ) : Prop where
  session : c.session.Alike c'.session
  calls_eq : c.calls = c'.calls
  events_eq : c.events = c'.events

/-- Two steps came to the same by the same calls and with the same reports, and left such sessions. -/
structure Report.Alike {α : Type} (r r' : Report σ α) : Prop where
  result_eq : r.result = r'.result
  session : r.session.Alike r'.session
  calls_eq : r.calls = r'.calls
  events_eq : r.events = r'.events

/-- A step that decodes items in one session does so in the other. -/
theorem Ask.Ready.alike {a : Ask σ} {s s' : Session} {dims : Size} (hr : a.Ready s dims) (h : s.Alike s') : a.Ready s' dims where
  enabled := hr.enabled
  allowed := h.gate_eq ▸ hr.allowed
  active := h.cancelled_eq ▸ hr.active
  dims_eq := hr.dims_eq
  served := fun hg => hr.served (by rwa [Ask.givenUp, h.degraded_eq])

/-- The same calls leave the sessions alike. -/
theorem Ask.noted_alike (a : Ask σ) {s s' : Session} (h : s.Alike s') (calls : List Call) :
    (a.noted s calls).Alike (a.noted s' calls) where
  gate_eq := by rw [a.noted_gate, a.noted_gate, h.gate_eq]
  degraded_eq := by rw [a.noted_degraded, a.noted_degraded, h.degraded_eq]
  cancelled_eq := by rw [a.noted_cancelled, a.noted_cancelled, h.cancelled_eq]

/-- The cycle of a step is the same in both sessions. -/
theorem Ask.render_alike (a : Ask σ) (hp : a.decoders.Functional) {s s' : Session} (h : s.Alike s') (m m' : σ)
    (he : a.settings.enabled = true) (hg : s.gate.check a.now = .allow) :
    ∃ result c c', a.previewer.render a.decoders a.batch s.invoked m = (result, c) ∧
      a.previewer.render a.decoders a.batch s'.invoked m' = (result, c') ∧ c.Alike c' := by
  have hgiven : a.givenUp s' = a.givenUp s := by rw [Ask.givenUp, Ask.givenUp, h.degraded_eq]
  have hstart : (a.start s m).Alike (a.start s' m') := ⟨⟨h.gate_eq, h.degraded_eq, h.cancelled_eq⟩, rfl, rfl⟩
  by_cases hready : ∃ dims, a.Ready s dims
  · obtain ⟨dims, hr⟩ := hready
    obtain ⟨calls, result, c, hs, hsession, hcalls, hevents, hrender⟩ := a.render_of_ready s m hr
    obtain ⟨calls', result', c', hs', hsession', hcalls', hevents', hrender'⟩ := a.render_of_ready s' m' (hr.alike h)
    rw [Ask.Serves, hgiven] at hs'
    obtain ⟨rfl, rfl⟩ := SheetRun.unique hp hs hs'
    refine ⟨_, c, c', hrender, hrender', ?_, hcalls.trans hcalls'.symm, ?_⟩
    · rw [hsession, hsession']
      exact a.noted_alike h calls
    · rw [hevents, hevents', h.degraded_eq]
  · -- Nothing is decoded, and what keeps the step from it is the same in both sessions.
    rw [a.render_eq, a.render_eq, hgiven, ← h.cancelled_eq]
    by_cases hc : s.cancelled = true
    · rw [if_pos hc, if_pos hc]
      exact ⟨_, _, _, rfl, rfl, hstart⟩
    · rw [if_neg hc, if_neg hc]
      cases hd : a.batch.dims? with
      | none => exact ⟨_, _, _, rfl, rfl, hstart⟩
      | some dims =>
        simp only [a.grid_isEmpty (Batch.size_ne_zero hd), Bool.false_eq_true, if_false]
        by_cases hu : a.givenUp s = true ∧ a.settings.fallback = .absent
        · rw [if_pos hu, if_pos hu]
          exact ⟨_, _, _, rfl, rfl, hstart.session, rfl, rfl⟩
        · refine absurd ⟨dims, he, hg, Bool.eq_false_iff.2 hc, hd, fun hgiven => ?_⟩ hready
          cases hf : a.settings.fallback with
          | absent => exact absurd ⟨hgiven, hf⟩ hu
          | projection => rfl

/-- What a step comes to after a cycle is the same in both sessions. -/
theorem Cycle.close_alike {c c' : Cycle σ} (h : c.Alike c') (now : Duration) (result : Except PreviewError (Option Image)) :
    (Cycle.close now (result, c)).Alike (Cycle.close now (result, c')) := by
  obtain ⟨⟨hgate, hdegraded, hcancelled⟩, hcalls, hevents⟩ := h
  rcases result with e | image
  · cases e <;> exact ⟨rfl, ⟨hgate, hdegraded, hcancelled⟩, hcalls, congrArg (· ++ _) hevents⟩
  · cases image with
    | none => exact ⟨rfl, ⟨hgate, hdegraded, hcancelled⟩, hcalls, congrArg (· ++ _) hevents⟩
    | some image => exact ⟨rfl, ⟨congrArg (Gate.mark · now) hgate, hdegraded, hcancelled⟩, hcalls, congrArg (· ++ _) hevents⟩

/-- A step does the same in both sessions, and leaves them alike. -/
theorem Ask.report_alike (a : Ask σ) (hp : a.decoders.Functional) {s s' : Session} (h : s.Alike s') (m m' : σ) :
    (a.report s m).Alike (a.report s' m') := by
  have hattempt : (a.previewer.attempt a.decoders a.batch a.now s m).Alike
      (a.previewer.attempt a.decoders a.batch a.now s' m') := by
    by_cases he : a.settings.enabled = false
    · rw [a.attempt_of_disabled s m he, a.attempt_of_disabled s' m' he]
      exact ⟨rfl, ⟨h.gate_eq, h.degraded_eq, h.cancelled_eq⟩, rfl, rfl⟩
    rw [Bool.not_eq_false] at he
    cases hg : s.gate.check a.now with
    | suppress remaining =>
      rw [a.attempt_of_suppress s m he hg, a.attempt_of_suppress s' m' he (h.gate_eq ▸ hg)]
      exact ⟨rfl, ⟨h.gate_eq, h.degraded_eq, h.cancelled_eq⟩, rfl, rfl⟩
    | allow =>
      obtain ⟨result, c, c', hrender, hrender', halike⟩ := a.render_alike hp h m m' he hg
      rw [a.attempt_of_allow s m he hg, a.attempt_of_allow s' m' he (h.gate_eq ▸ hg), hrender, hrender']
      exact Cycle.close_alike halike a.now result
  rw [a.report_eq, a.report_eq, ← hattempt.result_eq]
  cases (a.previewer.attempt a.decoders a.batch a.now s m).result with
  | ok outcome => exact hattempt
  | error e => exact ⟨rfl, hattempt.session, hattempt.calls_eq, congrArg (· ++ _) hattempt.events_eq⟩

/-! ## A whole generation -/

/-- No call of a step cancels the session. -/
theorem Ask.Run.any_cancels {a : Ask σ} (hp : a.decoders.Functional) {s : Session} {m : σ}
    {r : Report σ (Except PreviewError Outcome)} (h : a.Run s m r) : r.calls.any Call.cancels = false := by
  rcases h.serves with hnil | ⟨dims, result, m', -, hs⟩
  · rw [hnil]
    rfl
  · exact SheetRun.any_cancels hp hs

/-- What is to be seen of a step: what it came to, which calls it made, and what it reported. -/
def Turn.seen (t : Turn σ) : Except PreviewError Outcome × List Call × List Event :=
  (t.report.result, t.report.calls, t.report.events)

/-- Generations with sessions that are alike go on in the same way. -/
theorem Generation.seen_later_alike {g g' : Generation σ} (h : g.session.Alike g'.session) (moves : List (Move σ))
    (hmoves : ∀ a, .ask a ∈ moves → a.decoders.Functional) :
    (g.later moves).map Turn.seen = (g'.later moves).map Turn.seen := by
  induction moves generalizing g g' with
  | nil => rfl
  | cons move moves ih =>
    have hlater {g g' : Generation σ} (h : g.session.Alike g'.session) :=
      ih h fun a ha => hmoves a (List.mem_cons_of_mem _ ha)
    show (g.taken move ++ (g.act move).later moves).map Turn.seen = (g'.taken move ++ (g'.act move).later moves).map Turn.seen
    rw [List.map_append, List.map_append]
    cases move with
    | ask a =>
      have hturn : (g.turn a).report.Alike (g'.turn a).report :=
        a.report_alike (hmoves a List.mem_cons_self) h g.memory g'.memory
      have hseen : (g.turn a).seen = (g'.turn a).seen := by
        rw [Turn.seen, Turn.seen, hturn.result_eq, hturn.calls_eq, hturn.events_eq]
      have hact : (g.act (.ask a)).session.Alike (g'.act (.ask a)).session := hturn.session
      rw [hlater hact, taken, taken, List.map_singleton, List.map_singleton, hseen]
    | cancel =>
      have hact : (g.act .cancel).session.Alike (g'.act .cancel).session := ⟨h.gate_eq, h.degraded_eq, rfl⟩
      rw [hlater hact]
      rfl
    | resetCancel =>
      have hact : (g.act .resetCancel).session.Alike (g'.act .resetCancel).session := ⟨h.gate_eq, h.degraded_eq, rfl⟩
      rw [hlater hact]
      rfl

/-- A step that makes no sheet, whose decoders answer by what they are asked alone and do not cancel the session, leaves the
interval, the moment of the last sheet, the cancellation and the number of sheets as they are. If it does not give the primary
decoder up either, all later steps come to the same as if it had not been made, by the same calls and with the same reports,
whatever else the host does, as long as their decoders are of this kind, too. -/
theorem Generation.unnoticed (g : Generation σ) (a : Ask σ) (hp : a.decoders.Functional) (hidle : (g.turn a).ending ≠ .emitted) :
    let s := g.session
    let s' := (g.turn a).report.session
    s'.gate.interval = s.gate.interval ∧ s'.gate.lastEmit = s.gate.lastEmit ∧ s'.cancelled = s.cancelled ∧
    s'.stats.emitted = s.stats.emitted ∧
    (s'.degraded = s.degraded → ∀ moves, (∀ b, .ask b ∈ moves → b.decoders.Functional) →
      ((g.act (.ask a)).later moves).map Turn.seen = (g.later moves).map Turn.seen) := by
  intro s s'
  have hrun := g.turn_run a
  have hgate : s'.gate = s.gate := by
    have hnone : (g.turn a).emitted = false := (g.turn a).emitted_eq.trans (decide_eq_false hidle)
    exact hrun.gate_eq.trans (if_neg (Bool.eq_false_iff.1 hnone))
  have hcancelled : s'.cancelled = s.cancelled := by
    rw [hrun.cancelled_eq, hrun.any_cancels hp, Bool.or_false]
  have hemitted : s'.stats.emitted = s.stats.emitted := by
    rw [hrun.stats_eq]
    show s.stats.emitted + (if (g.turn a).ending = .emitted then 1 else 0) = _
    rw [if_neg hidle, Nat.add_zero]
  refine ⟨congrArg Gate.interval hgate, congrArg Gate.lastEmit hgate, hcancelled, hemitted, ?_⟩
  intro hdegraded moves hmoves
  have halike : (g.act (.ask a)).session.Alike g.session := ⟨hgate, hdegraded, hcancelled⟩
  exact seen_later_alike halike moves hmoves

/-! A preview fails at 0, and others are asked for at 3 and at 5, at least ten moments apart: the first of these makes its
sheet, and the second one is held back, as they would have been without the one that failed. -/

namespace Sample

/-- The primary decoder always fails. -/
def broken : Decoders Unit := ⟨fun _ m => (⟨.error (.decode "broken"), false⟩, m), fun _ _ m => (⟨.ok red, false⟩, m)⟩

/-- One latent is asked for, and the primary decoder fails. -/
def failed : Ask Unit := ⟨previewer default, broken, batch 1, 0, true⟩

/-- What the host does afterwards. -/
def goingOn : List (Move Unit) := [.ask (asked 3), .ask (asked 5)]

theorem failed_unnoticed : failed.decoders.Functional ∧ (∀ b, .ask b ∈ goingOn → b.decoders.Functional) ∧
    ((Generation.start 10 ()).turn failed).ending = .failed ∧
    (((Generation.start 10 ()).act (.ask failed)).later goingOn).map Turn.seen =
      ((Generation.start 10 ()).later goingOn).map Turn.seen ∧
    ((Generation.start 10 ()).later goingOn).map Turn.ending = [.emitted, .throttled] := by
  have hbroken : failed.decoders.Functional := by
    intro q
    cases q with
    | primary => exact ⟨_, fun _ => rfl⟩
    | fallback => exact ⟨_, fun _ => rfl⟩
  have hsteady : steady.Functional := by
    intro q
    cases q with
    | primary => exact ⟨_, fun _ => rfl⟩
    | fallback => exact ⟨_, fun _ => rfl⟩
  have hgoing : ∀ b, .ask b ∈ goingOn → b.decoders.Functional := by
    intro b hb
    simp only [goingOn, List.mem_cons, Move.ask.injEq, List.not_mem_nil, or_false] at hb
    rcases hb with rfl | rfl
    · exact hsteady
    · exact hsteady
  have hending : ((Generation.start 10 ()).turn failed).ending = .failed := by decide +kernel
  have hdegraded :
      ((Generation.start 10 ()).turn failed).report.session.degraded = (Generation.start 10 ()).session.degraded := by
    decide +kernel
  obtain ⟨-, -, -, -, hlater⟩ := (Generation.start 10 ()).unnoticed failed hbroken (by rw [hending]; decide)
  exact ⟨hbroken, hgoing, hending, hlater hdegraded goingOn hgoing, by decide +kernel⟩

end Sample

end ContactSheet
