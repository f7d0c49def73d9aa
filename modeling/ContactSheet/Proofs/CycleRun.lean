import ContactSheet.Step

/-!
# Runs of a cycle

What a cycle does, said once: `ItemRun` says which decoders an item goes to and what comes of it, `SheetRun` says so for the items
of a sheet one after the other. Both speak only of the two things that steer a cycle, whether the fallback decoder is in use and
whether the session was cancelled, and of what the decoders remember. `Served` says what the calls leave in the session and in
the log. `Cycle.decode_run` and `Cycle.tile_run` say that the cycle does this and nothing else.
-/

namespace ContactSheet

variable {σ : Type}

/-! ## Calls -/

/-- What a decoder is asked. -/
inductive Question where
  | primary (request : Request)
  | fallback (latent : Latent) (target : Size)

/-- What the call asked. -/
def Call.question : Call → Question
  | .primary request _ => .primary request
  | .fallback latent target _ => .fallback latent target

/-- The primary decoder ran out of memory. -/
def Call.ranOut : Call → Bool
  | .primary _ ⟨.error e, _⟩ => e.isOutOfMemory
  | _ => false

/-- A call of the fallback decoder does not run out of memory. -/
theorem Call.isPrimary_of_ranOut {c : Call} (h : c.ranOut = true) : c.isPrimary = true := by
  cases c with
  | primary => rfl
  | fallback => cases h

/-- A primary decoder that ran out of memory answered with an error. -/
theorem Call.error_of_ranOut {c : Call} (h : c.ranOut = true) : ∃ e, c.answer.result = .error e ∧ e.isOutOfMemory = true := by
  obtain ⟨request, ⟨result, cancels⟩⟩ | ⟨latent, target, answer⟩ := c
  · cases result with
    | ok image => cases h
    | error e => exact ⟨e, rfl, h⟩
  · cases h

/-- The session was cancelled during the call. -/
def Call.cancels (c : Call) : Bool := c.answer.cancels

/-- What is reported of a call: that the primary decoder ran out of memory, and that the session gives it up unless it may be
tried again or was given up before. -/
def Call.reports (settings : Settings) (degraded : Bool) : Call → List Event
  | .primary _ ⟨.error e, _⟩ =>
    if e.isOutOfMemory then
      if settings.retry || degraded then [.outOfMemory e] else [.outOfMemory e, .degraded]
    else []
  | _ => []

/-- What is reported of calls made one after the other in a session that gave the primary decoder up before them, or did not. -/
def reports (settings : Settings) : Bool → List Call → List Event
  | _, [] => []
  | degraded, call :: calls =>
    call.reports settings degraded ++ reports settings (degraded || call.ranOut && !settings.retry) calls

/-- The session after a call: a cancellation stays, a primary decoder that ran out of memory is given up unless it may be tried
again, and the counters tell what happened. -/
def Session.noting (settings : Settings) (s : Session) (call : Call) : Session :=
  { s with
    cancelled := s.cancelled || call.cancels
    degraded := s.degraded || call.ranOut && !settings.retry
    stats := { s.stats with
      fallbackDecodes := s.stats.fallbackDecodes + (!call.isPrimary).toNat
      oomEvents := s.stats.oomEvents + call.ranOut.toNat } }

/-- Of calls and one before them, those with a property. -/
theorem countP_cons_eq_add (p : Call → Bool) (call : Call) (calls : List Call) :
    (call :: calls).countP p = (p call).toNat + calls.countP p := by
  rw [List.countP_cons, Nat.add_comm]
  cases p call <;> rfl

/-- The session after calls, all at once. -/
theorem Session.foldl_noting (settings : Settings) (s : Session) (calls : List Call) :
    calls.foldl (Session.noting settings) s =
      { s with
        cancelled := s.cancelled || calls.any Call.cancels
        degraded := s.degraded || calls.any Call.ranOut && !settings.retry
        stats := { s.stats with
          fallbackDecodes := s.stats.fallbackDecodes + calls.countP (!·.isPrimary)
          oomEvents := s.stats.oomEvents + calls.countP Call.ranOut } } := by
  induction calls generalizing s with
  | nil => simp
  | cons call calls ih =>
    rw [List.foldl_cons, ih]
    simp only [Session.noting, List.any_cons, countP_cons_eq_add, Bool.and_or_distrib_right, Bool.or_assoc, Nat.add_assoc]

/-- What calls leave behind in a cycle: the session notes each of them, and they and their reports are appended. -/
structure Served (settings : Settings) (c : Cycle σ) (calls : List Call) (c' : Cycle σ) : Prop where
  session_eq : c'.session = calls.foldl (Session.noting settings) c.session
  calls_eq : c'.calls = c.calls ++ calls
  events_eq : c'.events = c.events ++ reports settings c.session.degraded calls

/-- Without a call nothing changes. -/
theorem Served.refl (settings : Settings) (c : Cycle σ) : Served settings c [] c :=
  ⟨rfl, by simp, by simp [reports]⟩

/-- The reports of two runs of calls are those of the first, and those of the second in the session after the first. -/
theorem reports_append (settings : Settings) (s : Session) (calls calls' : List Call) :
    reports settings s.degraded (calls ++ calls') = reports settings s.degraded calls ++
      reports settings (calls.foldl (Session.noting settings) s).degraded calls' := by
  induction calls generalizing s with
  | nil => rfl
  | cons call calls ih =>
    have h := ih (s.noting settings call)
    simp only [Session.noting] at h
    simp only [List.cons_append, reports, List.foldl_cons, List.append_assoc, Session.noting, h]

/-- What two runs of calls leave behind, one after the other, is what they leave behind together. -/
theorem Served.trans {settings : Settings} {c c' c'' : Cycle σ} {calls calls' : List Call} (h : Served settings c calls c')
    (h' : Served settings c' calls' c'') : Served settings c (calls ++ calls') c'' := by
  refine ⟨?_, ?_, ?_⟩
  · rw [h'.session_eq, h.session_eq, List.foldl_append]
  · rw [h'.calls_eq, h.calls_eq, List.append_assoc]
  · rw [h'.events_eq, h.events_eq, reports_append, List.append_assoc, h.session_eq]

/-! ## Items -/

/-- How an item is decoded: whether the fallback decoder is in use and what the decoders remember, then the calls made and what
came of them, then again whether the fallback decoder is in use and what the decoders remember. -/
inductive ItemRun (ds : Decoders σ) (settings : Settings) (sheet : Sheet) (latent : Latent) :
    Bool → σ → List Call → Except PreviewError Image → Bool → σ → Prop where
  /-- The primary decoder decides: it did not run out of memory, or nothing stands in for it. -/
  | primary {m m' : σ} {answer : Answer} (ha : ds.primary (settings.request latent sheet.cell sheet.skip) m = (answer, m'))
      (hr : (Call.primary (settings.request latent sheet.cell sheet.skip) answer).ranOut = true → settings.fallback = .absent) :
      ItemRun ds settings sheet latent false m [.primary (settings.request latent sheet.cell sheet.skip) answer] answer.result
        false m'
  /-- The primary decoder runs out of memory and the fallback decoder takes its place. -/
  | rescued {m m' m'' : σ} {answer answer' : Answer}
      (ha : ds.primary (settings.request latent sheet.cell sheet.skip) m = (answer, m'))
      (hr : (Call.primary (settings.request latent sheet.cell sheet.skip) answer).ranOut = true)
      (hf : settings.fallback = .projection) (ha' : ds.fallback latent sheet.cell m' = (answer', m'')) :
      ItemRun ds settings sheet latent false m
        [.primary (settings.request latent sheet.cell sheet.skip) answer, .fallback latent sheet.cell answer'] answer'.result
        true m''
  /-- The fallback decoder is in use. -/
  | fallback {m m' : σ} {answer : Answer} (ha : ds.fallback latent sheet.cell m = (answer, m')) :
      ItemRun ds settings sheet latent true m [.fallback latent sheet.cell answer] answer.result true m'

/-- The cycle after a call of the primary decoder that did not run out of memory. -/
theorem Served.called {settings : Settings} (c : Cycle σ) {request : Request} {answer : Answer} (m : σ)
    (h : (Call.primary request answer).ranOut = false) :
    Served settings c [.primary request answer] (c.called (.primary request answer) m) := by
  refine ⟨?_, rfl, ?_⟩
  · cases hc : answer.cancels <;>
      simp [Cycle.called, Session.noting, Session.cancel, Call.cancels, Call.answer, Call.isPrimary, h, hc]
  · obtain ⟨result, cancels⟩ := answer
    cases result with
    | ok image => simp [Cycle.called, reports, Call.reports]
    | error e =>
      simp only [Call.ranOut] at h
      simp [Cycle.called, reports, Call.reports, h]

/-- The cycle after the primary decoder ran out of memory. -/
theorem Served.outOfMemory (settings : Settings) (c : Cycle σ) (request : Request) (e : PreviewError) (cancels : Bool) (m : σ)
    (he : e.isOutOfMemory = true) :
    Served settings c [.primary request ⟨.error e, cancels⟩]
      ((c.called (.primary request ⟨.error e, cancels⟩) m).outOfMemory settings e) := by
  obtain ⟨⟨gate, degraded, cancelled, stats⟩, memory, onFallback, calls, events⟩ := c
  cases hretry : settings.retry <;> cases degraded <;> cases cancels <;>
    constructor <;>
      simp [Cycle.called, Cycle.outOfMemory, Cycle.giveUp, Cycle.report, Session.noting, Session.cancel, Call.cancels,
        Call.answer, Call.isPrimary, Call.ranOut, Call.reports, reports, hretry, he]

/-- The cycle after a call of the fallback decoder. -/
theorem Served.decodeFallback (settings : Settings) (ds : Decoders σ) (latent : Latent) (target : Size) (c : Cycle σ) :
    Served settings c [.fallback latent target (ds.fallback latent target c.memory).1]
      (c.decodeFallback ds latent target).2 := by
  refine ⟨?_, rfl, by simp [Cycle.decodeFallback, Cycle.called, reports, Call.reports]⟩
  cases hc : (ds.fallback latent target c.memory).1.cancels <;>
    simp [Cycle.decodeFallback, Cycle.called, Session.noting, Session.cancel, Call.cancels, Call.answer, Call.isPrimary,
      Call.ranOut, hc]

/-- Which decoder is in use is nothing that calls leave behind. -/
theorem Served.switch {settings : Settings} {c c' : Cycle σ} {calls : List Call} (h : Served settings c calls c') (b : Bool) :
    Served settings c calls { c' with onFallback := b } :=
  ⟨h.session_eq, h.calls_eq, h.events_eq⟩

@[simp] theorem Cycle.called_onFallback (c : Cycle σ) (call : Call) (m : σ) : (c.called call m).onFallback = c.onFallback := rfl

@[simp] theorem Cycle.called_memory (c : Cycle σ) (call : Call) (m : σ) : (c.called call m).memory = m := rfl

@[simp] theorem Cycle.giveUp_onFallback (c : Cycle σ) : c.giveUp.onFallback = c.onFallback := by
  unfold Cycle.giveUp
  split <;> rfl

@[simp] theorem Cycle.giveUp_memory (c : Cycle σ) : c.giveUp.memory = c.memory := by
  unfold Cycle.giveUp
  split <;> rfl

@[simp] theorem Cycle.outOfMemory_onFallback (c : Cycle σ) (settings : Settings) (e : PreviewError) :
    (c.outOfMemory settings e).onFallback = c.onFallback := by
  simp only [Cycle.outOfMemory]
  split
  · rfl
  · rw [Cycle.giveUp_onFallback, Cycle.report]

@[simp] theorem Cycle.outOfMemory_memory (c : Cycle σ) (settings : Settings) (e : PreviewError) :
    (c.outOfMemory settings e).memory = c.memory := by
  simp only [Cycle.outOfMemory]
  split
  · rfl
  · rw [Cycle.giveUp_memory, Cycle.report]

/-- The cycle decodes an item as `ItemRun` says. -/
theorem Cycle.decode_run (ds : Decoders σ) (settings : Settings) (sheet : Sheet) (latent : Latent) (c : Cycle σ) :
    ∃ calls, ItemRun ds settings sheet latent c.onFallback c.memory calls
        (c.decode ds settings latent sheet.cell sheet.skip).1
        (c.decode ds settings latent sheet.cell sheet.skip).2.onFallback
        (c.decode ds settings latent sheet.cell sheet.skip).2.memory ∧
      Served settings c calls (c.decode ds settings latent sheet.cell sheet.skip).2 := by
  cases hf : c.onFallback with
  | true =>
    simp only [Cycle.decode, hf, if_true]
    refine ⟨_, ?_, Served.decodeFallback settings ds latent sheet.cell c⟩
    have hm : (c.decodeFallback ds latent sheet.cell).2.onFallback = true := hf
    rw [hm]
    exact .fallback rfl
  | false =>
    rcases ha : ds.primary (settings.request latent sheet.cell sheet.skip) c.memory with ⟨⟨result, cancels⟩, m⟩
    cases result with
    | ok image =>
      simp only [Cycle.decode, hf, Bool.false_eq_true, if_false, ha, Cycle.called_onFallback, Cycle.called_memory]
      exact ⟨_, .primary ha (by simp [Call.ranOut]), Served.called c m rfl⟩
    | error e =>
      simp only [Cycle.decode, hf, Bool.false_eq_true, if_false, ha]
      cases he : e.isOutOfMemory with
      | false =>
        simp only [Bool.false_eq_true, if_false, Cycle.called_onFallback, Cycle.called_memory, hf]
        have hr : (Call.primary (settings.request latent sheet.cell sheet.skip) ⟨.error e, cancels⟩).ranOut = false := he
        exact ⟨_, .primary ha (by simp [hr]), Served.called c m hr⟩
      | true =>
        have hs := Served.outOfMemory settings c (settings.request latent sheet.cell sheet.skip) e cancels m he
        cases hfb : settings.fallback with
        | absent =>
          simp only [if_true, Cycle.outOfMemory_onFallback, Cycle.called_onFallback, Cycle.outOfMemory_memory,
            Cycle.called_memory, hf]
          exact ⟨_, .primary ha fun _ => hfb, hs⟩
        | projection =>
          simp only [if_true]
          refine ⟨_, ?_, (hs.switch true).trans (Served.decodeFallback settings ds latent sheet.cell _)⟩
          exact .rescued ha he hfb (by simp only [Cycle.outOfMemory_memory, Cycle.called_memory]; rfl)

/-! ## Sheets -/

/-- How the items of a sheet are decoded: whether the fallback decoder is in use, whether the session was cancelled and what the
decoders remember, then the items, the calls made, the images of all items or the error that ended the sheet, and what the
decoders remember in the end. -/
inductive SheetRun (ds : Decoders σ) (settings : Settings) (sheet : Sheet) :
    Bool → Bool → σ → List Latent → List Call → Except PreviewError (List Image) → σ → Prop where
  /-- No item is left. -/
  | done {onFallback cancelled : Bool} {m : σ} : SheetRun ds settings sheet onFallback cancelled m [] [] (.ok []) m
  /-- The session was cancelled before an item. -/
  | stopped {onFallback : Bool} {m : σ} {latent : Latent} {latents : List Latent} :
      SheetRun ds settings sheet onFallback true m (latent :: latents) [] (.error .cancelled) m
  /-- An item gives an error. -/
  | failed {onFallback onFallback' : Bool} {m m' : σ} {latent : Latent} {latents : List Latent} {calls : List Call}
      {e : PreviewError} (hi : ItemRun ds settings sheet latent onFallback m calls (.error e) onFallback' m') :
      SheetRun ds settings sheet onFallback false m (latent :: latents) calls (.error e) m'
  /-- An item gives an image, and the next one is due. -/
  | decoded {onFallback onFallback' : Bool} {m m' m'' : σ} {latent : Latent} {latents : List Latent}
      {calls calls' : List Call} {image : Image} {result : Except PreviewError (List Image)}
      (hi : ItemRun ds settings sheet latent onFallback m calls (.ok image) onFallback' m')
      (hs : SheetRun ds settings sheet onFallback' (calls.any Call.cancels) m' latents calls' result m'') :
      SheetRun ds settings sheet onFallback false m (latent :: latents) (calls ++ calls') (result.map (image :: ·)) m''

/-- An error that no fallback decoder makes up for is what comes of an item. -/
theorem ItemRun.result_of_error {ds : Decoders σ} {settings : Settings} {sheet : Sheet} {latent : Latent} {f f' : Bool}
    {m m' : σ} {calls : List Call} {result : Except PreviewError Image}
    (h : ItemRun ds settings sheet latent f m calls result f' m') {c : Call} (hc : c ∈ calls) {e : PreviewError}
    (he : c.answer.result = .error e) (hran : c.ranOut = true → settings.fallback = .absent) : result = .error e := by
  cases h with
  | primary =>
    obtain rfl := List.mem_singleton.1 hc
    exact he
  | fallback =>
    obtain rfl := List.mem_singleton.1 hc
    exact he
  | rescued ha hr hf =>
    rcases List.mem_cons.1 hc with rfl | hc
    · rw [hran hr] at hf
      cases hf
    · obtain rfl := List.mem_singleton.1 hc
      exact he

/-- An error that no fallback decoder makes up for ends the sheet. -/
theorem SheetRun.result_of_error {ds : Decoders σ} {settings : Settings} {sheet : Sheet} {f k : Bool} {m m' : σ}
    {latents : List Latent} {calls : List Call} {result : Except PreviewError (List Image)}
    (h : SheetRun ds settings sheet f k m latents calls result m') {c : Call} (hc : c ∈ calls) {e : PreviewError}
    (he : c.answer.result = .error e) (hran : c.ranOut = true → settings.fallback = .absent) : result = .error e := by
  induction h with
  | done => cases hc
  | stopped => cases hc
  | failed hi => rw [Except.error.inj (hi.result_of_error hc he hran)]
  | decoded hi hs ih =>
    rcases List.mem_append.1 hc with hc | hc
    · cases hi.result_of_error hc he hran
    · rw [ih hc]
      rfl

/-- Every image that one of two decoders gives is of a kind. -/
structure Decoders.OnlyGive (ds : Decoders σ) (kind : Image → Prop) : Prop where
  primary : ∀ request m image, (ds.primary request m).1.result = .ok image → kind image
  fallback : ∀ latent target m image, (ds.fallback latent target m).1.result = .ok image → kind image

/-- The image of an item is one that a decoder gave. -/
theorem ItemRun.image_of_onlyGive {ds : Decoders σ} {kind : Image → Prop} (hd : ds.OnlyGive kind) {settings : Settings}
    {sheet : Sheet} {latent : Latent} {f f' : Bool} {m m' : σ} {calls : List Call} {result : Except PreviewError Image}
    {image : Image} (h : ItemRun ds settings sheet latent f m calls result f' m') (hr : result = .ok image) : kind image := by
  cases h with
  | primary ha _ => exact hd.primary _ _ image (by rw [ha]; exact hr)
  | rescued _ _ _ ha' => exact hd.fallback _ _ _ image (by rw [ha']; exact hr)
  | fallback ha => exact hd.fallback _ _ _ image (by rw [ha]; exact hr)

/-- What comes of an item is what its last call gave. -/
theorem ItemRun.getLast?_result {ds : Decoders σ} {settings : Settings} {sheet : Sheet} {latent : Latent} {f f' : Bool} {m m' : σ}
    {calls : List Call} {result : Except PreviewError Image} (h : ItemRun ds settings sheet latent f m calls result f' m') :
    ∃ call, calls.getLast? = some call ∧ call.answer.result = result := by
  cases h with
  | primary => exact ⟨_, rfl, rfl⟩
  | rescued => exact ⟨_, rfl, rfl⟩
  | fallback => exact ⟨_, rfl, rfl⟩

/-- An error that ends a sheet is a cancellation, or the last call gave it. -/
theorem SheetRun.getLast?_of_error {ds : Decoders σ} {settings : Settings} {sheet : Sheet} {f k : Bool} {m m' : σ}
    {latents : List Latent} {calls : List Call} {result : Except PreviewError (List Image)}
    (h : SheetRun ds settings sheet f k m latents calls result m') {e : PreviewError} (he : result = .error e)
    (hc : e ≠ .cancelled) : ∃ call, calls.getLast? = some call ∧ call.answer.result = .error e := by
  induction h with
  | done => cases he
  | stopped => exact absurd (Except.error.inj he).symm hc
  | failed hi =>
    obtain rfl := Except.error.inj he
    exact hi.getLast?_result
  | @decoded _ _ _ _ _ _ _ calls calls' image result _ _ ih =>
    cases result with
    | ok images => cases he
    | error e' =>
      obtain rfl := Except.error.inj he
      obtain ⟨call, hlast, hcall⟩ := ih rfl
      refine ⟨call, ?_, hcall⟩
      rw [List.getLast?_append, hlast]
      rfl

/-- The sheet with the images of items copied into the cells from a position on. -/
def Sheet.placeAll (s : Sheet) : Nat → Image → List Image → Image
  | _, composite, [] => composite
  | position, composite, image :: images => s.placeAll (position + 1) (s.place composite position image) images

/-- The cycle decodes the items that its picks stand for as `SheetRun` says, and copies the image of each into its cell. -/
theorem Cycle.tile_run (ds : Decoders σ) (settings : Settings) (batch : Batch) (sheet : Sheet) (picks : List Nat)
    (latents : List Latent) (hl : picks.map batch.get? = latents.map some) (position : Nat) (composite : Image) (c : Cycle σ) :
    ∃ calls result, SheetRun ds settings sheet c.onFallback c.session.cancelled c.memory latents calls result
        (c.tile ds settings batch sheet position picks composite).2.memory ∧
      (c.tile ds settings batch sheet position picks composite).1 = result.map (sheet.placeAll position composite) ∧
      Served settings c calls (c.tile ds settings batch sheet position picks composite).2 := by
  induction picks generalizing latents position composite c with
  | nil =>
    obtain rfl : latents = [] := by simpa using hl.symm
    exact ⟨[], .ok [], .done, rfl, Served.refl settings c⟩
  | cons pick picks ih =>
    obtain ⟨latent, latents, rfl⟩ : ∃ l ls, latents = l :: ls := by
      cases latents with
      | nil => simp at hl
      | cons l ls => exact ⟨l, ls, rfl⟩
    simp only [List.map_cons, List.cons.injEq] at hl
    obtain ⟨hp, hl⟩ := hl
    cases hc : c.session.cancelled with
    | true =>
      simp only [Cycle.tile, hc, if_true]
      exact ⟨[], .error .cancelled, .stopped, rfl, Served.refl settings c⟩
    | false =>
      obtain ⟨calls, hi, hs⟩ := c.decode_run ds settings sheet latent
      rcases hd : c.decode ds settings latent sheet.cell sheet.skip with ⟨r, c'⟩
      simp only [hd] at hi hs
      cases r with
      | error e =>
        simp only [Cycle.tile, hc, Bool.false_eq_true, if_false, hp, hd]
        exact ⟨calls, .error e, .failed hi, rfl, hs⟩
      | ok image =>
        simp only [Cycle.tile, hc, Bool.false_eq_true, if_false, hp, hd]
        obtain ⟨calls', result, ht, hr, hs'⟩ := ih latents hl (position + 1) (sheet.place composite position image) c'
        have hk : c'.session.cancelled = calls.any Call.cancels := by
          rw [hs.session_eq, Session.foldl_noting, hc, Bool.false_or]
        rw [hk] at ht
        refine ⟨calls ++ calls', result.map (image :: ·), .decoded hi ht, ?_, hs.trans hs'⟩
        rw [hr]
        cases result <;> rfl

end ContactSheet
