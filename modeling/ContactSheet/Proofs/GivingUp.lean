import ContactSheet.Proofs.Generation

/-!
# Giving the primary decoder up

Under settings that do not let the primary decoder be tried again, it runs out of memory at most once in a generation, and is never
called after that: `Generation.gives_up`. What follows depends on the fallback decoder. With one, every item from the failing one on
goes there; without one, the failing step ends with the error and no later step decodes anything. The invariant behind it says that
the session knows whether the decoder ran out of memory, and that each later step was made in a session that knew
(`Generation.GivesUp`).
-/

namespace ContactSheet

variable {σ : Type}

/-! ## Sheets -/

/-- When the fallback decoder is in use, an item is one call of it. -/
theorem ItemRun.of_onFallback {ds : Decoders σ} {settings : Settings} {sheet : Sheet} {latent : Latent} {f' : Bool} {m m' : σ}
    {calls : List Call} {result : Except PreviewError Image}
    (h : ItemRun ds settings sheet latent true m calls result f' m') :
    f' = true ∧ calls.map Call.question = [.fallback latent sheet.cell] := by
  cases h
  exact ⟨rfl, rfl⟩

/-- When the fallback decoder is in use, it is asked for the items one after the other, as far as the sheet comes. -/
theorem SheetRun.questions_of_onFallback {ds : Decoders σ} {settings : Settings} {sheet : Sheet} {k : Bool} {m m' : σ}
    {latents : List Latent} {calls : List Call} {result : Except PreviewError (List Image)}
    (h : SheetRun ds settings sheet true k m latents calls result m') :
    calls.map Call.question <+: latents.map (.fallback · sheet.cell) := by
  generalize hf : true = f at h
  induction h with
  | done => exact List.nil_prefix
  | stopped => exact List.nil_prefix
  | failed hi =>
    subst hf
    obtain ⟨-, hq⟩ := hi.of_onFallback
    rw [hq]
    exact ⟨_, rfl⟩
  | decoded hi hs ih =>
    subst hf
    obtain ⟨rfl, hq⟩ := hi.of_onFallback
    obtain ⟨left, hleft⟩ := ih rfl
    rw [List.map_append, hq, List.map_cons, ← hleft]
    exact ⟨left, rfl⟩

/-- Calls whose questions are for the fallback decoder do not go to the primary one. -/
theorem Call.isPrimary_of_questions {calls : List Call} {latents : List Latent} {target : Size}
    (h : calls.map Call.question <+: latents.map (.fallback · target)) {c : Call} (hc : c ∈ calls) : c.isPrimary = false := by
  obtain ⟨latent, -, hq⟩ := List.mem_map.1 (h.subset (List.mem_map_of_mem hc))
  cases c with
  | primary => cases hq
  | fallback => rfl

/-- When the primary decoder runs out of memory for an item, either the fallback decoder comes into use, or there is none and the
item ends with that error. -/
theorem ItemRun.of_ranOut {ds : Decoders σ} {settings : Settings} {sheet : Sheet} {latent : Latent} {f f' : Bool} {m m' : σ}
    {calls : List Call} {result : Except PreviewError Image} (h : ItemRun ds settings sheet latent f m calls result f' m')
    {c : Call} (hc : c ∈ calls) (hr : c.ranOut = true) :
    settings.fallback = .projection ∧ f' = true ∨ settings.fallback = .absent ∧ result = c.answer.result := by
  cases h with
  | primary ha hran =>
    obtain rfl := List.mem_singleton.1 hc
    exact .inr ⟨hran hr, rfl⟩
  | rescued ha hran hf ha' => exact .inl ⟨hf, rfl⟩
  | fallback ha =>
    obtain rfl := List.mem_singleton.1 hc
    cases hr

/-- After the primary decoder ran out of memory it is not called for the same item again. -/
theorem ItemRun.primary_first {ds : Decoders σ} {settings : Settings} {sheet : Sheet} {latent : Latent} {f f' : Bool}
    {m m' : σ} {calls : List Call} {result : Except PreviewError Image}
    (h : ItemRun ds settings sheet latent f m calls result f' m') :
    calls.Pairwise fun c d => c.ranOut = true → d.isPrimary = false := by
  cases h with
  | primary => exact List.pairwise_singleton _ _
  | rescued => exact List.pairwise_pair.2 fun _ => rfl
  | fallback => exact List.pairwise_singleton _ _

/-- After the primary decoder ran out of memory it is not called for the same sheet again. -/
theorem SheetRun.primary_first {ds : Decoders σ} {settings : Settings} {sheet : Sheet} {f k : Bool} {m m' : σ}
    {latents : List Latent} {calls : List Call} {result : Except PreviewError (List Image)}
    (h : SheetRun ds settings sheet f k m latents calls result m') :
    calls.Pairwise fun c d => c.ranOut = true → d.isPrimary = false := by
  induction h with
  | done => exact List.Pairwise.nil
  | stopped => exact List.Pairwise.nil
  | failed hi => exact hi.primary_first
  | decoded hi hs ih =>
    refine List.pairwise_append.2 ⟨hi.primary_first, ih, ?_⟩
    intro c hc d hd hr
    rcases hi.of_ranOut hc hr with ⟨-, rfl⟩ | ⟨-, hok⟩
    · exact Call.isPrimary_of_questions hs.questions_of_onFallback hd
    · obtain ⟨e, he, -⟩ := Call.error_of_ranOut hr
      cases hok.trans he

/-- A sheet for which the primary decoder ran out of memory, without a fallback decoder, ends with this error. -/
theorem SheetRun.result_of_ranOut {ds : Decoders σ} {settings : Settings} {sheet : Sheet} {f k : Bool} {m m' : σ}
    {latents : List Latent} {calls : List Call} {result : Except PreviewError (List Image)}
    (h : SheetRun ds settings sheet f k m latents calls result m') (ha : settings.fallback = .absent) {c : Call} (hc : c ∈ calls)
    (hr : c.ranOut = true) : ∃ e, c.answer.result = .error e ∧ e.isOutOfMemory = true ∧ result = .error e := by
  obtain ⟨e, he, hout⟩ := Call.error_of_ranOut hr
  exact ⟨e, he, hout, h.result_of_error hc he fun _ => ha⟩

/-! ## Items that the fallback decoder takes over -/

/-- Of the calls for items, each in which the primary decoder ran out of memory is about the item that is next, and the calls after
it are questions to the fallback decoder about the same item and, as far as they go, those after it. -/
def Rescues (latents : List Latent) (calls : List Call) : Prop :=
  ∀ before request answer rest, calls = before ++ .primary request answer :: rest →
    (Call.primary request answer).ranOut = true →
    latents[before.length]? = some request.latent ∧ rest ≠ [] ∧
      rest.map Call.question <+: (latents.drop before.length).map (.fallback · request.target)

/-- There is nothing to take over without a call. -/
theorem Rescues.nil (latents : List Latent) : Rescues latents [] := by
  intro before request answer rest hc
  cases before <;> cases hc

/-- A call that did not run out of memory comes before those for the other items. -/
theorem Rescues.cons {latents : List Latent} {calls : List Call} (h : Rescues latents calls) (latent : Latent) {call : Call}
    (hcall : call.ranOut = false) : Rescues (latent :: latents) (call :: calls) := by
  intro before request answer rest hc hr
  cases before with
  | nil =>
    obtain ⟨rfl, -⟩ := List.cons.inj hc
    rw [hr] at hcall
    cases hcall
  | cons c before =>
    obtain ⟨rfl, hc'⟩ := List.cons.inj hc
    exact h before request answer rest hc' hr

/-- The fallback decoder takes over an item and those after it. -/
theorem Rescues.rescued {latents : List Latent} {calls : List Call} (request : Request) (answer answer' : Answer)
    (h : calls.map Call.question <+: latents.map (.fallback · request.target)) :
    Rescues (request.latent :: latents) (.primary request answer :: .fallback request.latent request.target answer' :: calls) := by
  intro before request' answer'' rest hc hr
  cases before with
  | nil =>
    obtain ⟨hcall, rfl⟩ := List.cons.inj hc
    obtain ⟨rfl, -⟩ := Call.primary.inj hcall
    obtain ⟨left, hleft⟩ := h
    exact ⟨rfl, List.cons_ne_nil _ _, left, congrArg (_ :: ·) hleft⟩
  | cons c before =>
    obtain ⟨-, hc⟩ := List.cons.inj hc
    cases before with
    | nil => cases hc
    | cons c' before =>
      obtain ⟨-, hc⟩ := List.cons.inj hc
      have hmem : Call.primary request' answer'' ∈ calls := hc ▸ List.mem_append_right _ List.mem_cons_self
      cases Call.isPrimary_of_questions h hmem

/-- The calls of an item come before those for the other items. -/
theorem ItemRun.rescues {ds : Decoders σ} {settings : Settings} {sheet : Sheet} {latent : Latent} {f f' : Bool} {m m' : σ}
    {calls : List Call} {result : Except PreviewError Image} (h : ItemRun ds settings sheet latent f m calls result f' m')
    (hp : settings.fallback = .projection) {latents : List Latent} {later : List Call} (hlater : Rescues latents later)
    (hfallback : f' = true → later.map Call.question <+: latents.map (.fallback · sheet.cell)) :
    Rescues (latent :: latents) (calls ++ later) := by
  cases h with
  | primary ha hran =>
    refine hlater.cons latent (Bool.eq_false_iff.2 fun hr => ?_)
    rw [hran hr] at hp
    cases hp
  | rescued ha hran hf ha' => exact Rescues.rescued _ _ _ (hfallback rfl)
  | fallback ha => exact hlater.cons latent rfl

/-- When the primary decoder runs out of memory while the fallback decoder stands in, that takes over the item and those after it. -/
theorem SheetRun.rescues {ds : Decoders σ} {settings : Settings} {sheet : Sheet} {f k : Bool} {m m' : σ} {latents : List Latent}
    {calls : List Call} {result : Except PreviewError (List Image)}
    (h : SheetRun ds settings sheet f k m latents calls result m') (hp : settings.fallback = .projection) :
    Rescues latents calls := by
  induction h with
  | done => exact Rescues.nil _
  | stopped => exact Rescues.nil _
  | @failed _ _ _ _ _ latents _ _ hi =>
    have h := hi.rescues hp (Rescues.nil latents) fun _ => List.nil_prefix
    rwa [List.append_nil] at h
  | decoded hi hs ih =>
    refine hi.rescues hp ih ?_
    rintro rfl
    exact hs.questions_of_onFallback

/-! ## Steps -/

/-- After the primary decoder ran out of memory it is not called again in the same step. -/
theorem Ask.Run.primary_first {a : Ask σ} {s : Session} {m : σ} {r : Report σ (Except PreviewError Outcome)}
    (h : a.Run s m r) : r.calls.Pairwise fun c d => c.ranOut = true → d.isPrimary = false := by
  rcases h.serves with hnil | ⟨dims, result, m', -, hs⟩
  · rw [hnil]
    exact List.Pairwise.nil
  · exact SheetRun.primary_first hs

/-- When the fallback decoder stands in, it takes over the item for which the primary one ran out of memory and those after it. -/
theorem Ask.Run.rescues {a : Ask σ} {s : Session} {m : σ} {r : Report σ (Except PreviewError Outcome)} (h : a.Run s m r)
    (hp : a.settings.fallback = .projection) : Rescues a.latents r.calls := by
  rcases h.serves with hnil | ⟨dims, result, m', -, hs⟩
  · rw [hnil]
    exact Rescues.nil _
  · exact SheetRun.rescues hs hp

/-- A step in a session that gave the primary decoder up asks the fallback decoder for its items, as far as it comes. -/
theorem Ask.Run.questions_of_givenUp {a : Ask σ} {s : Session} {m : σ} {r : Report σ (Except PreviewError Outcome)}
    (h : a.Run s m r) (hg : a.givenUp s = true) :
    ∃ target, r.calls.map Call.question <+: a.latents.map (.fallback · target) := by
  rcases h.serves with hnil | ⟨dims, result, m', -, hs⟩
  · rw [hnil]
    exact ⟨⟨0, 0⟩, List.nil_prefix⟩
  · rw [Ask.Serves, hg] at hs
    exact ⟨(a.sheet dims).cell, hs.questions_of_onFallback⟩

/-- Without a fallback decoder, a step in which the primary decoder ran out of memory ends with this error. -/
theorem Ask.Run.result_of_ranOut {a : Ask σ} {s : Session} {m : σ} {r : Report σ (Except PreviewError Outcome)} (h : a.Run s m r)
    (ha : a.settings.fallback = .absent) {c : Call} (hc : c ∈ r.calls) (hr : c.ranOut = true) :
    ∃ e, c.answer.result = .error e ∧ r.result = a.failure e := by
  cases h with
  | emitted hready hs =>
    obtain ⟨e, -, -, hres⟩ := SheetRun.result_of_ranOut hs ha hc hr
    cases hres
  | interrupted hready hs =>
    obtain ⟨e, -, hout, hres⟩ := SheetRun.result_of_ranOut hs ha hc hr
    obtain rfl := Except.error.inj hres
    cases hout
  | failed hready hs =>
    obtain ⟨e, he, -, hres⟩ := SheetRun.result_of_ranOut hs ha hc hr
    exact ⟨e, he, by rw [Except.error.inj hres]⟩
  | _ => cases hc

/-- Without a fallback decoder, a step in a session that gave the primary decoder up decodes nothing. -/
theorem Ask.Run.result_of_givenUp {a : Ask σ} {s : Session} {m : σ} {r : Report σ (Except PreviewError Outcome)}
    (h : a.Run s m r) (ha : a.settings.fallback = .absent) (hg : a.givenUp s = true) :
    r.result ∈ [.ok .disabled, .ok .throttled, .ok .cancelled, .ok .skipped] := by
  have hno {dims : Size} (hready : a.Ready s dims) : False := hready.not_unserved ⟨hg, ha⟩
  cases h with
  | disabled => simp
  | throttled => simp
  | cancelled => simp
  | empty => simp
  | unserved => simp
  | emitted hready => exact (hno hready).elim
  | interrupted hready => exact (hno hready).elim
  | failed hready => exact (hno hready).elim

/-! ## A whole generation -/

/-- A generation in which a previewer is used that may not try the primary decoder again: the session knows whether that ran out of
memory; each turn is a step of the previewer; and each turn after one in which the decoder ran out of memory was made in a session
that gave it up. -/
structure Generation.GivesUp (p : Previewer) (g : Generation σ) : Prop where
  degraded_eq : g.session.degraded = g.turns.any Turn.ranOut
  made : ∀ t ∈ g.turns, t.ask.previewer = p ∧ ∃ s m, t.ask.Run s m t.report
  later : g.turns.Pairwise fun t u => t.ranOut = true → ∃ s m, u.ask.Run s m u.report ∧ u.ask.givenUp s = true

/-- A move keeps this, if it asks the same previewer. -/
theorem Generation.GivesUp.act {p : Previewer} (hp : p.settings.retry = false) {g : Generation σ} (h : g.GivesUp p)
    (move : Move σ) (hmove : ∀ a, move = .ask a → a.previewer = p) : (g.act move).GivesUp p := by
  cases move with
  | cancel => exact ⟨h.degraded_eq, h.made, h.later⟩
  | resetCancel => exact ⟨h.degraded_eq, h.made, h.later⟩
  | ask a =>
    have hrun := g.turn_run a
    have ha : a.previewer = p := hmove a rfl
    have hretry : a.settings.retry = false := by rw [Ask.settings, ha, hp]
    refine ⟨?_, ?_, ?_⟩
    · show (g.turn a).report.session.degraded = (g.turns ++ [g.turn a]).any Turn.ranOut
      rw [hrun.degraded_eq, hretry, h.degraded_eq, List.any_append, List.any_cons, List.any_nil, Bool.or_false, Bool.not_false,
        Bool.and_true]
      rfl
    · intro t ht
      rcases List.mem_append.1 ht with ht | ht
      · exact h.made t ht
      · obtain rfl := List.mem_singleton.1 ht
        exact ⟨ha, g.session, g.memory, hrun⟩
    · refine List.pairwise_append.2 ⟨h.later, List.pairwise_singleton _ _, ?_⟩
      intro t ht u hu hran
      obtain rfl := List.mem_singleton.1 hu
      have hdegraded : g.session.degraded = true := h.degraded_eq.trans (List.any_eq_true.2 ⟨t, ht, hran⟩)
      exact ⟨g.session, g.memory, hrun, by simp [Ask.givenUp, turn, hretry, hdegraded]⟩

/-- It holds of a generation after any moves that ask one previewer. -/
theorem Generation.givesUp {p : Previewer} (hp : p.settings.retry = false) (interval : Duration) (m : σ) (moves : List (Move σ))
    (hmoves : ∀ a, .ask a ∈ moves → a.previewer = p) : ((start interval m).run moves).GivesUp p := by
  refine run_induction moves ⟨rfl, fun t ht => absurd ht List.not_mem_nil, List.Pairwise.nil⟩ ?_
  intro g move hmove h
  refine h.act hp move ?_
  rintro a rfl
  exact hmoves a hmove

/-- A session that gave the primary decoder up never takes it back. -/
theorem Generation.degraded_run {g : Generation σ} (h : g.session.degraded = true) (moves : List (Move σ)) :
    (g.run moves).session.degraded = true := by
  refine run_induction (P := fun g => g.session.degraded = true) moves h ?_
  intro g move _ hg
  cases move with
  | cancel => exact hg
  | resetCancel => exact hg
  | ask a =>
    have hrun := g.turn_run a
    show (g.turn a).report.session.degraded = true
    rw [hrun.degraded_eq, hg, Bool.true_or]

/-- Calls of which none goes to the primary decoder after it ran out of memory have at most one in which it did. -/
theorem countP_ranOut_le_one {calls : List Call} (h : calls.Pairwise fun c d => c.ranOut = true → d.isPrimary = false) :
    calls.countP Call.ranOut ≤ 1 := by
  induction h with
  | nil => exact Nat.zero_le _
  | @cons c calls hc _ ih =>
    cases hran : c.ranOut with
    | false => rwa [List.countP_cons_of_neg (by simp [hran])]
    | true =>
      rw [List.countP_cons_of_pos hran, List.countP_eq_zero.2]
      intro d hd hran'
      have hprimary := Call.isPrimary_of_ranOut hran'
      rw [hc d hd hran] at hprimary
      cases hprimary

/-- In a generation whose previewer may not try the primary decoder again, whatever else the host does: that runs out of memory at
most once, and is never called afterwards; the session gave it up exactly when it did, and for good; if the fallback decoder stands
in, it takes over the item that failed and those after it, and all items of later steps, as far as these come; if there is none, the
step that failed ends with the error, and later ones show nothing, without an error. -/
theorem Generation.gives_up {p : Previewer} (hp : p.settings.retry = false) (interval : Duration) (m : σ) (moves : List (Move σ))
    (hmoves : ∀ a, .ask a ∈ moves → a.previewer = p) :
    let g := (start interval m).run moves
    g.calls.countP Call.ranOut ≤ 1 ∧
    (g.calls.Pairwise fun c d => c.ranOut = true → d.isPrimary = false) ∧
    (g.session.degraded = true ↔ ∃ c ∈ g.calls, c.ranOut = true) ∧
    (g.session.degraded = true → ∀ moves', (g.run moves').session.degraded = true) ∧
    (p.settings.fallback = .projection →
      (∀ t ∈ g.turns, Rescues t.ask.latents t.report.calls) ∧
      g.turns.Pairwise fun t u => t.ranOut = true →
        ∃ target, u.report.calls.map Call.question <+: u.ask.latents.map (.fallback · target)) ∧
    (p.settings.fallback = .absent →
      (∀ t ∈ g.turns, ∀ c ∈ t.report.calls, c.ranOut = true →
        ∃ e, c.answer.result = .error e ∧ t.report.result = t.ask.failure e) ∧
      g.turns.Pairwise fun t u => t.ranOut = true →
        u.report.result ∈ [.ok .disabled, .ok .throttled, .ok .cancelled, .ok .skipped]) := by
  intro g
  have h : g.GivesUp p := givesUp hp interval m moves hmoves
  have hfirst : g.calls.Pairwise fun c d => c.ranOut = true → d.isPrimary = false := by
    refine List.pairwise_flatMap.2 ⟨?_, h.later.imp ?_⟩
    · intro t ht
      obtain ⟨-, s, m, hrun⟩ := h.made t ht
      exact hrun.primary_first
    · intro t u hlater c hc d hd hran
      obtain ⟨s, m, hrun, hgiven⟩ := hlater (List.any_eq_true.2 ⟨c, hc, hran⟩)
      obtain ⟨target, hquestions⟩ := hrun.questions_of_givenUp hgiven
      exact Call.isPrimary_of_questions hquestions hd
  refine ⟨countP_ranOut_le_one hfirst, hfirst, ?_, fun hd moves' => degraded_run hd moves', ?_, ?_⟩
  · rw [h.degraded_eq, List.any_eq_true]
    constructor
    · rintro ⟨t, ht, hran⟩
      obtain ⟨c, hc, hran⟩ := List.any_eq_true.1 hran
      exact ⟨c, List.mem_flatMap_of_mem ht hc, hran⟩
    · rintro ⟨c, hc, hran⟩
      obtain ⟨t, ht, hc⟩ := List.mem_flatMap.1 hc
      exact ⟨t, ht, List.any_eq_true.2 ⟨c, hc, hran⟩⟩
  · intro hf
    refine ⟨?_, h.later.imp ?_⟩
    · intro t ht
      obtain ⟨rfl, s, m, hrun⟩ := h.made t ht
      exact hrun.rescues hf
    · intro t u hlater hran
      obtain ⟨s, m, hrun, hgiven⟩ := hlater hran
      exact hrun.questions_of_givenUp hgiven
  · intro hf
    refine ⟨?_, h.later.imp_of_mem ?_⟩
    · intro t ht c hc hran
      obtain ⟨rfl, s, m, hrun⟩ := h.made t ht
      exact hrun.result_of_ranOut hf hc hran
    · intro t u _ hu hlater hran
      obtain ⟨rfl, -⟩ := h.made u hu
      obtain ⟨s, m, hrun, hgiven⟩ := hlater hran
      exact hrun.result_of_givenUp hf hgiven

/-! Two previews of two latents each, the second after a cancellation was taken back, with a primary decoder that always runs out of
memory. With the fallback decoder that takes over all four latents; without it the first preview fails and the second is skipped. -/

namespace Sample

/-- The primary decoder always runs out of memory. -/
def exhausted : Decoders Unit := ⟨fun _ m => (⟨.error (.outOfMemory "gpu" "full"), false⟩, m), fun _ _ m => (⟨.ok red, false⟩, m)⟩

/-- Two latents are asked for, and the primary decoder may not be tried again. -/
def once (fallback : Fallback) : Ask Unit :=
  ⟨previewer { (default : Settings) with fallback := fallback, retry := false }, exhausted, batch 2, 0, true⟩

/-- What the host does. -/
def twice (fallback : Fallback) : List (Move Unit) := [.ask (once fallback), .cancel, .resetCancel, .ask (once fallback)]

theorem twice_gives_up : (once .projection).settings.retry = false ∧ (once .absent).settings.retry = false ∧
    ((Generation.start 0 ()).run (twice .projection)).calls.map Call.isPrimary = [true, false, false, false, false] ∧
    ((Generation.start 0 ()).run (twice .projection)).calls.countP Call.ranOut ≤ 1 ∧
    ((Generation.start 0 ()).run (twice .absent)).calls.map Call.isPrimary = [true] ∧
    ∃ t u, ((Generation.start 0 ()).run (twice .absent)).turns = [t, u] ∧
      u.report.result ∈ [.ok .disabled, .ok .throttled, .ok .cancelled, .ok .skipped] := by
  have hretry (fallback : Fallback) : (once fallback).settings.retry = false := rfl
  have hmoves (fallback : Fallback) : ∀ a, .ask a ∈ twice fallback → a.previewer = (once fallback).previewer := by
    intro a ha
    simp only [twice, List.mem_cons, reduceCtorEq, Move.ask.injEq, List.not_mem_nil, or_false, false_or, or_self] at ha
    rw [ha]
  obtain ⟨hone, -⟩ := Generation.gives_up (hretry .projection) 0 () (twice .projection) (hmoves .projection)
  obtain ⟨-, -, -, -, -, habsent⟩ := Generation.gives_up (hretry .absent) 0 () (twice .absent) (hmoves .absent)
  refine ⟨hretry _, hretry _, by decide +kernel, hone, by decide +kernel, ?_⟩
  obtain ⟨t, u, hturns⟩ : ∃ t u, ((Generation.start 0 ()).run (twice .absent)).turns = [t, u] := ⟨_, _, rfl⟩
  have hran : ((Generation.start 0 ()).run (twice .absent)).turns.head?.map Turn.ranOut = some true := by decide +kernel
  have hlater := (habsent rfl).2
  rw [hturns] at hlater hran
  exact ⟨t, u, hturns, List.pairwise_pair.1 hlater (Option.some.inj hran)⟩

end Sample

end ContactSheet
