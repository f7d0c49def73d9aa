import ContactSheet.Proofs.CycleRun
import ContactSheet.Proofs.Layout

/-!
# Runs of a step

A host asks for a preview in one of two ways, which differ in what becomes of an error (`Ask`). `Ask.Run` lists all that a step
can do, each way with the conditions under which it is taken and with everything it leaves behind; `Ask.report_run` says that a
step does one of them. What holds of all steps is read off this list.
-/

namespace ContactSheet

variable {σ : Type}

/-- A preview that a host asks for: by which previewer and decoders, of which batch and at which moment, and whether an error is
handed to the host or reported as an outcome. -/
structure Ask (σ : Type) where
  previewer : Previewer
  decoders : Decoders σ
  batch : Batch
  now : Duration
  handsOver : Bool

/-- What the step leaves behind. -/
def Ask.report (a : Ask σ) (s : Session) (m : σ) : Report σ (Except PreviewError Outcome) :=
  if a.handsOver then a.previewer.attempt a.decoders a.batch a.now s m
  else
    let r := a.previewer.step a.decoders a.batch a.now s m
    ⟨.ok r.result, r.session, r.memory, r.calls, r.events⟩

/-- The settings that the step is made under. -/
def Ask.settings (a : Ask σ) : Settings := a.previewer.settings

/-- The grid of the step. -/
def Ask.grid (a : Ask σ) : Grid := a.previewer.sampler.plan a.batch.size

/-- The latents that the step shows, in the order of their cells. -/
def Ask.latents (a : Ask σ) : List Latent := a.batch.pickAll a.grid.picks

/-- The sheet of the step for latents of a size. -/
def Ask.sheet (a : Ask σ) (dims : Size) : Sheet := a.previewer.sheet a.grid dims

/-- The session gave the primary decoder up, and the step may not try it again. -/
def Ask.givenUp (a : Ask σ) (s : Session) : Bool := !a.settings.retry && s.degraded

/-- How the step ends with an error. -/
def Ask.failure (a : Ask σ) (e : PreviewError) : Except PreviewError Outcome :=
  if a.handsOver then .error e else .ok (.failed e)

/-- What is reported of an error that ends the step. -/
def Ask.failureEvents (a : Ask σ) (e : PreviewError) : List Event := if a.handsOver then [] else [.failed e]

/-- The step decodes items: previews are on, the gate is open, the session is not cancelled, there are latents and there is a
decoder for them. -/
structure Ask.Ready (a : Ask σ) (s : Session) (dims : Size) : Prop where
  enabled : a.settings.enabled = true
  allowed : s.gate.check a.now = .allow
  active : s.cancelled = false
  dims_eq : a.batch.dims? = some dims
  served : a.givenUp s = true → a.settings.fallback = .projection

/-- A step that decodes items has a decoder for them. -/
theorem Ask.Ready.not_unserved {a : Ask σ} {s : Session} {dims : Size} (hr : a.Ready s dims) :
    ¬(a.givenUp s = true ∧ a.settings.fallback = .absent) := by
  rintro ⟨hg, hf⟩
  rw [hr.served hg] at hf
  cases hf

/-- The decoders serve the items of the step with these calls and this result. -/
def Ask.Serves (a : Ask σ) (s : Session) (m : σ) (dims : Size) (calls : List Call) (result : Except PreviewError (List Image))
    (m' : σ) : Prop :=
  SheetRun a.decoders a.settings (a.sheet dims) (a.givenUp s) false m a.latents calls result m'

/-- The session after calls that a step made. -/
def Ask.noted (a : Ask σ) (s : Session) (calls : List Call) : Session := calls.foldl (Session.noting a.settings) s.invoked

/-- Calls leave the gate as it is. -/
@[simp] theorem Ask.noted_gate (a : Ask σ) (s : Session) (calls : List Call) : (a.noted s calls).gate = s.gate := by
  rw [Ask.noted, Session.foldl_noting, Session.invoked]

/-- The primary decoder is given up after calls when it was before, or when it ran out of memory and may not be tried again. -/
@[simp] theorem Ask.noted_degraded (a : Ask σ) (s : Session) (calls : List Call) :
    (a.noted s calls).degraded = (s.degraded || calls.any Call.ranOut && !a.settings.retry) := by
  rw [Ask.noted, Session.foldl_noting, Session.invoked]

/-- The session is cancelled after calls when it was before, or when it was during one of them. -/
@[simp] theorem Ask.noted_cancelled (a : Ask σ) (s : Session) (calls : List Call) :
    (a.noted s calls).cancelled = (s.cancelled || calls.any Call.cancels) := by
  rw [Ask.noted, Session.foldl_noting, Session.invoked]

/-- The counters after calls: one more step was asked for, and each call of the fallback decoder and each time that the primary
decoder ran out of memory counts. -/
@[simp] theorem Ask.noted_stats (a : Ask σ) (s : Session) (calls : List Call) :
    (a.noted s calls).stats =
      { s.stats with
        invocations := s.stats.invocations + 1
        fallbackDecodes := s.stats.fallbackDecodes + calls.countP (!·.isPrimary)
        oomEvents := s.stats.oomEvents + calls.countP Call.ranOut } := by
  rw [Ask.noted, Session.foldl_noting, Session.invoked]

/-- All that a step can do. -/
inductive Ask.Run (a : Ask σ) (s : Session) (m : σ) : Report σ (Except PreviewError Outcome) → Prop where
  | disabled (he : a.settings.enabled = false) : Run a s m ⟨.ok .disabled, s.invoked, m, [], []⟩
  | throttled {remaining : Duration} (he : a.settings.enabled = true) (hg : s.gate.check a.now = .suppress remaining) :
      Run a s m ⟨.ok .throttled, s.invoked.heldBack, m, [], [.throttled remaining]⟩
  | cancelled (he : a.settings.enabled = true) (hg : s.gate.check a.now = .allow) (hc : s.cancelled = true) :
      Run a s m ⟨.ok .cancelled, s.invoked, m, [], [.cancelled]⟩
  | empty (he : a.settings.enabled = true) (hg : s.gate.check a.now = .allow) (hc : s.cancelled = false)
      (hb : a.batch.size = 0) : Run a s m ⟨.ok .skipped, s.invoked, m, [], []⟩
  | unserved (he : a.settings.enabled = true) (hg : s.gate.check a.now = .allow) (hc : s.cancelled = false)
      (hb : a.batch.size ≠ 0) (hu : a.givenUp s = true) (hf : a.settings.fallback = .absent) :
      Run a s m ⟨.ok .skipped, s.invoked, m, [], [.noDecoder]⟩
  | emitted {dims : Size} {calls : List Call} {images : List Image} {m' : σ} (hr : a.Ready s dims)
      (hs : a.Serves s m dims calls (.ok images) m') :
      Run a s m
        ⟨.ok (.emitted ((a.sheet dims).placeAll 0 (.blank (a.sheet dims).size) images)), (a.noted s calls).showed a.now, m',
          calls, reports a.settings s.degraded calls ++
            [.emitted ((a.sheet dims).placeAll 0 (.blank (a.sheet dims).size) images).size]⟩
  | interrupted {dims : Size} {calls : List Call} {m' : σ} (hr : a.Ready s dims)
      (hs : a.Serves s m dims calls (.error .cancelled) m') :
      Run a s m ⟨.ok .cancelled, a.noted s calls, m', calls, reports a.settings s.degraded calls ++ [.cancelled]⟩
  | failed {dims : Size} {calls : List Call} {e : PreviewError} {m' : σ} (hr : a.Ready s dims)
      (hs : a.Serves s m dims calls (.error e) m') (he : e ≠ .cancelled) :
      Run a s m ⟨a.failure e, (a.noted s calls).failed, m', calls,
        reports a.settings s.degraded calls ++ a.failureEvents e⟩

/-- The picks of a step are places of its batch. -/
theorem Ask.map_get?_latents (a : Ask σ) : a.grid.picks.map a.batch.get? = a.latents.map some :=
  a.batch.map_get?_pickAll a.grid.picks fun _ hi => a.previewer.sampler.pick_lt hi

/-- The latents of a step, read off its batch. -/
theorem Ask.getElem?_latents (a : Ask σ) (n : Nat) : a.latents[n]? = a.grid.picks[n]?.bind a.batch.get? := by
  have h := congrArg (fun latents => latents[n]?.join) a.map_get?_latents
  simp only [List.getElem?_map] at h
  cases hp : a.grid.picks[n]? <;> cases hl : a.latents[n]? <;> rw [hp, hl] at h <;> exact h.symm

/-- A step shows as many latents as its grid has items. -/
theorem Ask.length_latents (a : Ask σ) : a.latents.length = a.grid.size := by
  have h := congrArg List.length a.map_get?_latents
  rw [List.length_map, List.length_map] at h
  exact h.symm

/-- A grid of a batch with latents shows one. -/
theorem Ask.grid_isEmpty (a : Ask σ) (h : a.batch.size ≠ 0) : a.grid.isEmpty = false := by
  have hsize := a.previewer.sampler.size_plan a.batch.size
  have hbatch := a.previewer.sampler.maxBatch_pos
  cases hp : a.grid.picks with
  | nil =>
    have h0 : (a.previewer.sampler.plan a.batch.size).size = 0 := by
      rw [Grid.size, show (a.previewer.sampler.plan a.batch.size).picks = [] from hp, List.length_nil]
    omega
  | cons i picks => rw [Grid.isEmpty, hp]; rfl

/-- A step is an attempt whose error, if it has one, is handed over or reported. -/
theorem Ask.report_eq (a : Ask σ) (s : Session) (m : σ) :
    a.report s m =
      match (a.previewer.attempt a.decoders a.batch a.now s m).result with
      | .ok _ => a.previewer.attempt a.decoders a.batch a.now s m
      | .error e =>
        ⟨a.failure e, (a.previewer.attempt a.decoders a.batch a.now s m).session,
          (a.previewer.attempt a.decoders a.batch a.now s m).memory, (a.previewer.attempt a.decoders a.batch a.now s m).calls,
          (a.previewer.attempt a.decoders a.batch a.now s m).events ++ a.failureEvents e⟩ := by
  rcases hr : a.previewer.attempt a.decoders a.batch a.now s m with ⟨result, session, memory, calls, events⟩
  cases hh : a.handsOver <;> cases result <;>
    simp [Ask.report, Previewer.step, Report.told, Ask.failure, Ask.failureEvents, hh, hr]

/-- The cycle of a step before its first item. -/
def Ask.start (a : Ask σ) (s : Session) (m : σ) : Cycle σ := { session := s.invoked, memory := m, onFallback := a.givenUp s }

/-- The cycle of a step, in the words of `Ask`. -/
theorem Ask.render_eq (a : Ask σ) (s : Session) (m : σ) :
    a.previewer.render a.decoders a.batch s.invoked m =
      if s.cancelled then (.error .cancelled, a.start s m)
      else
        match a.batch.dims? with
        | none => (.ok none, a.start s m)
        | some dims =>
          if a.grid.isEmpty then (.ok none, a.start s m)
          else if a.givenUp s ∧ a.settings.fallback = .absent then (.ok none, (a.start s m).report .noDecoder)
          else
            match (a.start s m).tile a.decoders a.settings a.batch (a.sheet dims) 0 a.grid.picks
              (.blank (a.sheet dims).size) with
            | (.ok image, c) => (.ok (some image), c)
            | (.error e, c) => (.error e, c) := rfl

/-- What a cycle comes to when it decodes items: their images are copied onto a blank sheet, or an error ends it. -/
theorem Ask.render_of_ready (a : Ask σ) (s : Session) (m : σ) {dims : Size} (hr : a.Ready s dims) :
    ∃ calls result c, a.Serves s m dims calls result c.memory ∧
      c.session = a.noted s calls ∧ c.calls = calls ∧ c.events = reports a.settings s.degraded calls ∧
      a.previewer.render a.decoders a.batch s.invoked m =
        (result.map fun images => some ((a.sheet dims).placeAll 0 (.blank (a.sheet dims).size) images), c) := by
  obtain ⟨calls, result, hrun, hresult, hleft⟩ :=
    (a.start s m).tile_run a.decoders a.settings a.batch (a.sheet dims) a.grid.picks a.latents a.map_get?_latents 0
      (.blank (a.sheet dims).size)
  have hk : (a.start s m).session.cancelled = false := hr.active
  rw [hk] at hrun
  rcases ht : (a.start s m).tile a.decoders a.settings a.batch (a.sheet dims) 0 a.grid.picks (.blank (a.sheet dims).size)
    with ⟨r, c⟩
  rw [ht] at hrun hresult hleft
  refine ⟨calls, result, c, hrun, hleft.session_eq, hleft.calls_eq, hleft.events_eq, ?_⟩
  simp only [a.render_eq, hr.active, hr.dims_eq, a.grid_isEmpty (Batch.size_ne_zero hr.dims_eq), hr.not_unserved, Bool.false_eq_true,
    if_false, ht]
  subst hresult
  cases result <;> rfl

/-- A step under settings that switch previews off does nothing. -/
theorem Ask.attempt_of_disabled (a : Ask σ) (s : Session) (m : σ) (he : a.settings.enabled = false) :
    a.previewer.attempt a.decoders a.batch a.now s m = ⟨.ok .disabled, s.invoked, m, [], []⟩ := by
  have he' : a.previewer.settings.enabled = false := he
  simp only [Previewer.attempt, he', Bool.not_false, if_true]

/-- A step whose gate is not open is held back. -/
theorem Ask.attempt_of_suppress (a : Ask σ) (s : Session) (m : σ) (he : a.settings.enabled = true) {remaining : Duration}
    (hg : s.gate.check a.now = .suppress remaining) :
    a.previewer.attempt a.decoders a.batch a.now s m = ⟨.ok .throttled, s.invoked.heldBack, m, [], [.throttled remaining]⟩ := by
  have he' : a.previewer.settings.enabled = true := he
  have hg' : s.invoked.gate.check a.now = .suppress remaining := hg
  simp only [Previewer.attempt, he', Bool.not_true, Bool.false_eq_true, if_false, hg']

/-- A step whose gate is open comes to what its cycle does. -/
theorem Ask.attempt_of_allow (a : Ask σ) (s : Session) (m : σ) (he : a.settings.enabled = true)
    (hg : s.gate.check a.now = .allow) :
    a.previewer.attempt a.decoders a.batch a.now s m =
      Cycle.close a.now (a.previewer.render a.decoders a.batch s.invoked m) := by
  have he' : a.previewer.settings.enabled = true := he
  have hg' : s.invoked.gate.check a.now = .allow := hg
  simp only [Previewer.attempt, he', Bool.not_true, Bool.false_eq_true, if_false, hg']

/-- A step that decodes items makes a sheet, is interrupted or fails. -/
theorem Ask.report_run_of_ready (a : Ask σ) (s : Session) (m : σ) {dims : Size} (hr : a.Ready s dims) :
    a.Run s m (a.report s m) := by
  obtain ⟨calls, result, c, hs, hsession, hcalls, hevents, hrender⟩ := a.render_of_ready s m hr
  rw [a.report_eq, a.attempt_of_allow s m hr.enabled hr.allowed, hrender]
  cases result with
  | ok images =>
    simp only [Except.map, Cycle.close, Cycle.finish, hsession, hcalls, hevents]
    exact .emitted hr hs
  | error e =>
    by_cases hcan : e = .cancelled
    · subst hcan
      simp only [Except.map, Cycle.close, Cycle.finish, hsession, hcalls, hevents]
      exact .interrupted hr hs
    · have h := Run.failed hr hs hcan
      cases e with
      | cancelled => exact absurd rfl hcan
      | _ => simpa only [Except.map, Cycle.close, Cycle.finish, hsession, hcalls, hevents, List.append_nil] using h

/-- A step does one of the things that `Ask.Run` lists. -/
theorem Ask.report_run (a : Ask σ) (s : Session) (m : σ) : a.Run s m (a.report s m) := by
  by_cases he : a.settings.enabled = false
  · rw [a.report_eq, a.attempt_of_disabled s m he]
    exact .disabled he
  rw [Bool.not_eq_false] at he
  cases hg : s.gate.check a.now with
  | suppress remaining =>
    rw [a.report_eq, a.attempt_of_suppress s m he hg]
    exact .throttled he hg
  | allow =>
    have ha := a.attempt_of_allow s m he hg
    rw [a.render_eq] at ha
    cases hc : s.cancelled with
    | true =>
      simp only [hc, if_true] at ha
      rw [a.report_eq, ha]
      exact .cancelled he hg hc
    | false =>
      simp only [hc, Bool.false_eq_true, if_false] at ha
      cases hd : a.batch.dims? with
      | none =>
        simp only [hd] at ha
        rw [a.report_eq, ha]
        exact .empty he hg hc ((a.batch.dims?_eq_none_iff).1 hd)
      | some dims =>
        have hsize := Batch.size_ne_zero hd
        by_cases hu : a.givenUp s = true ∧ a.settings.fallback = .absent
        · simp only [hd, a.grid_isEmpty hsize, Bool.false_eq_true, if_false, if_pos hu] at ha
          rw [a.report_eq, ha]
          exact .unserved he hg hc hsize hu.1 hu.2
        · refine a.report_run_of_ready s m ⟨he, hg, hc, hd, ?_⟩
          intro hgiven
          cases hf : a.settings.fallback with
          | absent => exact absurd ⟨hgiven, hf⟩ hu
          | projection => rfl

/-! ## What holds of all steps -/

/-- A step makes no calls, or it decodes items of its batch. -/
theorem Ask.Run.serves {a : Ask σ} {s : Session} {m : σ} {r : Report σ (Except PreviewError Outcome)} (h : a.Run s m r) :
    r.calls = [] ∨ ∃ dims result m', a.Ready s dims ∧ a.Serves s m dims r.calls result m' := by
  cases h with
  | emitted hr hs => exact .inr ⟨_, _, _, hr, hs⟩
  | interrupted hr hs => exact .inr ⟨_, _, _, hr, hs⟩
  | failed hr hs => exact .inr ⟨_, _, _, hr, hs⟩
  | _ => exact .inl rfl

/-- The session after a step gave the primary decoder up if it had before, or if the decoder ran out of memory in the step and may
not be tried again. -/
theorem Ask.Run.degraded_eq {a : Ask σ} {s : Session} {m : σ} {r : Report σ (Except PreviewError Outcome)} (h : a.Run s m r) :
    r.session.degraded = (s.degraded || r.calls.any Call.ranOut && !a.settings.retry) := by
  cases h with
  | emitted => exact a.noted_degraded s _
  | interrupted => exact a.noted_degraded s _
  | failed => exact a.noted_degraded s _
  | _ => exact (Bool.or_false _).symm

/-- The session is cancelled after a step if it was before, or if it was during a call. -/
theorem Ask.Run.cancelled_eq {a : Ask σ} {s : Session} {m : σ} {r : Report σ (Except PreviewError Outcome)} (h : a.Run s m r) :
    r.session.cancelled = (s.cancelled || r.calls.any Call.cancels) := by
  cases h with
  | emitted => exact a.noted_cancelled s _
  | interrupted => exact a.noted_cancelled s _
  | failed => exact a.noted_cancelled s _
  | _ => exact (Bool.or_false _).symm

/-! ## Small steps -/

namespace Sample

/-- A latent of one pixel. -/
def latent : Latent := .filled 1 1 1 0

/-- A batch of such latents. -/
def batch (n : Nat) : Batch where
  items := Array.replicate n latent
  uniform := by
    intro a ha b hb
    rw [(Array.mem_replicate.1 ha).2, (Array.mem_replicate.1 hb).2]
    exact ⟨rfl, rfl⟩

/-- One red pixel. -/
def red : Image := .solid ⟨1, 1⟩ ⟨255, 0, 0, 255⟩

/-- A previewer for a decoder of one stage. -/
def previewer (settings : Settings) : Previewer := ⟨settings, ⟨1⟩, by decide⟩

/-- Both decoders give a red pixel for everything. -/
def steady : Decoders Unit := ⟨fun _ m => (⟨.ok red, false⟩, m), fun _ _ m => (⟨.ok red, false⟩, m)⟩

end Sample

end ContactSheet
