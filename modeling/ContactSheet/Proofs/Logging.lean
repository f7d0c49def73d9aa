import ContactSheet.Proofs.Accounts
import ContactSheet.Proofs.GivingUp

/-!
# What the log tells

The log of a generation tells the same story as its counters. A step reports its calls, of which only those matter in which the
primary decoder ran out of memory, and then how it ended (`Ask.Run.events_eq`); so each message stands in the log as often as what
it tells happened. That the primary decoder is given up is reported once at most, directly after the lack of memory that it is given
up for (`SwitchesInPlace`, closed under append). `Generation.log_tells` adds up the steps.
-/

namespace ContactSheet

variable {σ : Type}

/-! ## Messages -/

/-- The event reads so: this is its message. -/
def Event.reads (message : String) (e : Event) : Bool := e.message == message

/-- The message that tells how a step ended; finding previews switched off, or nothing to show, is no message. -/
def Ending.message? : Ending → Option String
  | .disabled => none
  | .throttled => some "Preview throttled"
  | .skipped => none
  | .cancelled => some "Preview cycle cancelled"
  | .failed => some "Preview cycle failed, keeping previous preview"
  | .emitted => some "Emitted preview"

/-- The way in which the step ended, as far as its log tells: of an error that is handed over it tells nothing. -/
def Turn.told (t : Turn σ) : Option Ending := if t.ask.handsOver ∧ t.ending = .failed then none else some t.ending

/-- Of every other ending the log tells. -/
theorem Turn.told_iff (t : Turn σ) {x : Ending} (hx : x ≠ .failed) : t.told = some x ↔ t.ending = x := by
  unfold Turn.told
  split
  · next h =>
    rw [h.2]
    exact ⟨nofun, fun h => absurd h.symm hx⟩
  · exact ⟨Option.some.inj, congrArg some⟩

/-! ## The log of a step -/

/-- What is reported of a call: nothing, unless the primary decoder ran out of memory. -/
theorem Call.reports_cases (settings : Settings) (degraded : Bool) (c : Call) :
    c.ranOut = false ∧ c.reports settings degraded = [] ∨
      c.ranOut = true ∧ ∃ e, c.reports settings degraded =
        .outOfMemory e :: if settings.retry || degraded then [] else [.degraded] := by
  obtain ⟨request, ⟨result, cancels⟩⟩ | ⟨latent, target, answer⟩ := c
  · cases result with
    | ok image => exact .inl ⟨rfl, rfl⟩
    | error e =>
      cases he : e.isOutOfMemory with
      | false => exact .inl ⟨he, by simp only [Call.reports, he, Bool.false_eq_true, if_false]⟩
      | true =>
        refine .inr ⟨he, e, ?_⟩
        simp only [Call.reports, he, if_true]
        split <;> rfl
  · exact .inl ⟨rfl, rfl⟩

/-- What is reported of calls does not tell how their step ended. -/
theorem countP_ending_reports (settings : Settings) (degraded : Bool) (calls : List Call) {x : Ending} {message : String}
    (hx : x.message? = some message) : (reports settings degraded calls).countP (Event.reads message) = 0 := by
  induction calls generalizing degraded with
  | nil => rfl
  | cons call calls ih =>
    rw [reports, List.countP_append, ih, Nat.add_zero]
    rcases call.reports_cases settings degraded with ⟨-, h⟩ | ⟨-, e, h⟩
    · rw [h]
      rfl
    · rw [h]
      cases x <;> cases hx <;> split <;> simp [Event.reads, Event.message]

/-- Each time that the primary decoder ran out of memory is reported. -/
theorem countP_ranOut_reports (settings : Settings) (degraded : Bool) (calls : List Call) :
    (reports settings degraded calls).countP (Event.reads "Preview decoder ran out of memory") = calls.countP Call.ranOut := by
  induction calls generalizing degraded with
  | nil => rfl
  | cons call calls ih =>
    rw [reports, List.countP_append, ih, countP_cons_eq_add]
    rcases call.reports_cases settings degraded with ⟨hran, h⟩ | ⟨hran, e, h⟩
    · rw [h, hran]
      rfl
    · rw [h, hran]
      split <;> simp [Event.reads, Event.message]

/-- That the primary decoder is given up is reported once, when it runs out of memory and may not be tried again, unless it was
given up before. -/
theorem countP_switch_reports (settings : Settings) (degraded : Bool) (calls : List Call) :
    (reports settings degraded calls).countP (Event.reads "Switching previews to fallback for the rest of this session") =
      (!degraded && (calls.any Call.ranOut && !settings.retry)).toNat := by
  induction calls generalizing degraded with
  | nil =>
    rw [List.any_nil, Bool.false_and, Bool.and_false]
    rfl
  | cons call calls ih =>
    rw [reports, List.countP_append, ih, List.any_cons]
    rcases call.reports_cases settings degraded with ⟨hran, h⟩ | ⟨hran, e, h⟩
    · simp [h, hran]
    · rw [h, hran]
      cases settings.retry <;> cases degraded <;> simp [Event.reads, Event.message]

/-- How a step ends, and what is reported then. -/
inductive Ask.Closes (a : Ask σ) : Except PreviewError Outcome → List Event → Prop where
  | disabled : Closes a (.ok .disabled) []
  | throttled (remaining : Duration) : Closes a (.ok .throttled) [.throttled remaining]
  | cancelled : Closes a (.ok .cancelled) [.cancelled]
  | empty : Closes a (.ok .skipped) []
  | unserved : Closes a (.ok .skipped) [.noDecoder]
  | emitted (image : Image) : Closes a (.ok (.emitted image)) [.emitted image.size]
  | failed (e : PreviewError) : Closes a (a.failure e) (a.failureEvents e)

/-- A step reports its calls, and then how it ended. -/
theorem Ask.Run.events_eq {a : Ask σ} {s : Session} {m : σ} {r : Report σ (Except PreviewError Outcome)} (h : a.Run s m r) :
    ∃ last, a.Closes r.result last ∧ r.events = reports a.settings s.degraded r.calls ++ last := by
  cases h with
  | disabled => exact ⟨_, .disabled, rfl⟩
  | throttled => exact ⟨_, .throttled _, rfl⟩
  | cancelled => exact ⟨_, .cancelled, rfl⟩
  | empty => exact ⟨_, .empty, rfl⟩
  | unserved => exact ⟨_, .unserved, rfl⟩
  | emitted => exact ⟨_, .emitted _, rfl⟩
  | interrupted => exact ⟨_, .cancelled, rfl⟩
  | failed => exact ⟨_, .failed _, rfl⟩

/-- What is reported at the end of a step tells how it ended, once. -/
theorem Ask.Closes.countP_ending {a : Ask σ} {r : Report σ (Except PreviewError Outcome)} {last : List Event}
    (h : a.Closes r.result last) {x : Ending} {message : String} (hx : x.message? = some message) :
    last.countP (Event.reads message) = if (Turn.mk a r).told = some x then 1 else 0 := by
  obtain ⟨result, s, m, calls, events⟩ := r
  change a.Closes result last at h
  cases h with
  | failed e =>
    have hend := a.ending_failure e s m calls events
    cases hh : a.handsOver <;> cases x <;> cases hx <;> simp [Turn.told, hend, hh, Ask.failureEvents, Event.reads, Event.message]
  | _ => cases x <;> cases hx <;> simp [Turn.told, Turn.ending, Outcome.ending, Event.reads, Event.message]

/-- What is reported at the end of a step is not about memory. -/
theorem Ask.Closes.countP_other {a : Ask σ} {result : Except PreviewError Outcome} {last : List Event} (h : a.Closes result last) :
    last.countP (Event.reads "Preview decoder ran out of memory") = 0 ∧
      last.countP (Event.reads "Switching previews to fallback for the rest of this session") = 0 := by
  cases h with
  | failed e => cases hh : a.handsOver <;> simp [Ask.failureEvents, hh, Event.reads, Event.message]
  | _ => simp [Event.reads, Event.message]

/-- A step tells once how it ended. -/
theorem Ask.Run.countP_ending {a : Ask σ} {s : Session} {m : σ} {r : Report σ (Except PreviewError Outcome)} (h : a.Run s m r)
    {x : Ending} {message : String} (hx : x.message? = some message) :
    r.events.countP (Event.reads message) = if (Turn.mk a r).told = some x then 1 else 0 := by
  obtain ⟨last, hlast, hevents⟩ := h.events_eq
  rw [hevents, List.countP_append, countP_ending_reports _ _ _ hx, Nat.zero_add, hlast.countP_ending hx]

/-- A step reports each time that the primary decoder ran out of memory. -/
theorem Ask.Run.countP_ranOut {a : Ask σ} {s : Session} {m : σ} {r : Report σ (Except PreviewError Outcome)} (h : a.Run s m r) :
    r.events.countP (Event.reads "Preview decoder ran out of memory") = r.calls.countP Call.ranOut := by
  obtain ⟨last, hlast, hevents⟩ := h.events_eq
  rw [hevents, List.countP_append, countP_ranOut_reports, hlast.countP_other.1, Nat.add_zero]

/-- A step reports once that the primary decoder is given up, just when the session gives it up in this step. -/
theorem Ask.Run.countP_switch {a : Ask σ} {s : Session} {m : σ} {r : Report σ (Except PreviewError Outcome)} (h : a.Run s m r) :
    r.events.countP (Event.reads "Switching previews to fallback for the rest of this session") =
      (!s.degraded && r.session.degraded).toNat := by
  obtain ⟨last, hlast, hevents⟩ := h.events_eq
  rw [hevents, List.countP_append, countP_switch_reports, hlast.countP_other.2, Nat.add_zero, h.degraded_eq]
  cases s.degraded <;> rfl

/-- A step that reports a sheet made one, and reports its sides. -/
theorem Ask.Run.fields_of_emitted {a : Ask σ} {s : Session} {m : σ} {r : Report σ (Except PreviewError Outcome)} (h : a.Run s m r)
    {e : Event} (he : e ∈ r.events) (hreads : e.reads "Emitted preview" = true) :
    ∃ image, r.result = .ok (.emitted image) ∧ e.fields = [("width", toString image.width), ("height", toString image.height)] := by
  obtain ⟨last, hlast, hevents⟩ := h.events_eq
  have hno : e ∉ reports a.settings s.degraded r.calls := by
    have hcount := countP_ending_reports a.settings s.degraded r.calls (x := .emitted) rfl
    exact fun hmem => List.countP_eq_zero.1 hcount e hmem hreads
  have hmem : e ∈ last := (List.mem_append.1 (hevents ▸ he)).resolve_left hno
  generalize r.result = result at hlast ⊢
  cases hlast with
  | emitted image =>
    obtain rfl := List.mem_singleton.1 hmem
    exact ⟨image, rfl, rfl⟩
  | failed error =>
    cases hh : a.handsOver <;> simp [Ask.failureEvents, hh] at hmem
    subst hmem
    cases hreads
  | disabled => cases hmem
  | empty => cases hmem
  | _ =>
    obtain rfl := List.mem_singleton.1 hmem
    cases hreads

/-! ## Where giving up is reported -/

/-- That the primary decoder is given up is reported directly after it ran out of memory. -/
def SwitchesInPlace (log : List Event) : Prop :=
  ∀ before e after, log = before ++ e :: after →
    e.reads "Switching previews to fallback for the rest of this session" = true →
    ∃ cause, before.getLast? = some cause ∧ cause.reads "Preview decoder ran out of memory" = true

/-- So it is where it is not reported at all. -/
theorem SwitchesInPlace.of_countP {log : List Event}
    (h : log.countP (Event.reads "Switching previews to fallback for the rest of this session") = 0) : SwitchesInPlace log := by
  rintro before e after rfl hreads
  exact absurd hreads (List.countP_eq_zero.1 h e (List.mem_append_right _ List.mem_cons_self))

/-- So it is of two logs, one after the other. -/
theorem SwitchesInPlace.append {log log' : List Event} (h : SwitchesInPlace log) (h' : SwitchesInPlace log') :
    SwitchesInPlace (log ++ log') := by
  intro before e after heq hreads
  rcases List.append_eq_append_iff.1 heq with ⟨middle, rfl, hright⟩ | ⟨middle, hleft, hright⟩
  · obtain ⟨cause, hlast, hcause⟩ := h' middle e after hright hreads
    exact ⟨cause, by rw [List.getLast?_append, hlast, Option.some_or], hcause⟩
  · cases middle with
    | nil =>
      obtain ⟨cause, hlast, -⟩ := h' [] e after hright.symm hreads
      cases hlast
    | cons e' middle =>
      obtain ⟨rfl, -⟩ := List.cons.inj hright
      exact h before e middle hleft hreads

/-- So it is of calls. -/
theorem switchesInPlace_reports (settings : Settings) (degraded : Bool) (calls : List Call) :
    SwitchesInPlace (reports settings degraded calls) := by
  induction calls generalizing degraded with
  | nil => exact .of_countP rfl
  | cons call calls ih =>
    refine SwitchesInPlace.append ?_ (ih _)
    rcases call.reports_cases settings degraded with ⟨-, h⟩ | ⟨-, e, h⟩
    · rw [h]
      exact .of_countP rfl
    · rw [h]
      split
      · exact .of_countP rfl
      · intro before event after heq hreads
        cases before with
        | nil =>
          obtain ⟨rfl, -⟩ := List.cons.inj heq
          cases hreads
        | cons first before =>
          obtain ⟨rfl, heq⟩ := List.cons.inj heq
          obtain rfl : before = [] := by
            cases before with
            | nil => rfl
            | cons second before => cases before <;> cases heq
          exact ⟨_, rfl, rfl⟩

/-- So it is of a step. -/
theorem Ask.Run.switchesInPlace {a : Ask σ} {s : Session} {m : σ} {r : Report σ (Except PreviewError Outcome)} (h : a.Run s m r) :
    SwitchesInPlace r.events := by
  obtain ⟨last, hlast, hevents⟩ := h.events_eq
  rw [hevents]
  exact (switchesInPlace_reports _ _ _).append (.of_countP hlast.countP_other.2)

/-! ## The log of a generation -/

namespace Generation

/-- What a generation reports along moves. -/
def log (g : Generation σ) (moves : List (Move σ)) : List Event := (g.later moves).flatMap (·.report.events)

/-- A move reports what its steps do, and the other moves report the rest. -/
theorem log_cons (g : Generation σ) (move : Move σ) (moves : List (Move σ)) :
    g.log (move :: moves) = (g.taken move).flatMap (·.report.events) ++ (g.act move).log moves := List.flatMap_append

/-- A message stands in the log as often as something happened, if that is so of each step. -/
theorem countP_log (g : Generation σ) (moves : List (Move σ)) {β : Type} {p : Event → Bool} {see : Turn σ → List β} {q : β → Bool}
    (h : ∀ t s m, t.ask.Run s m t.report → t.report.events.countP p = (see t).countP q) :
    (g.log moves).countP p = ((g.later moves).flatMap see).countP q := by
  rw [log, List.countP_flatMap, List.countP_flatMap]
  refine congrArg List.sum (List.map_congr_left fun t ht => ?_)
  obtain ⟨s, m, hrun⟩ := g.later_run moves t ht
  exact h t s m hrun

/-- The log tells of each step once how it ended, unless an error was handed over. -/
theorem countP_ending_log (g : Generation σ) (moves : List (Move σ)) {x : Ending} (hx : x ≠ .failed) {message : String}
    (hmessage : x.message? = some message) :
    (g.log moves).countP (Event.reads message) = ((g.later moves).map Turn.ending).count x := by
  rw [List.count, List.map_eq_flatMap]
  refine g.countP_log moves fun t s m hrun => ?_
  rw [hrun.countP_ending hmessage, List.countP_singleton]
  simp only [Turn.told_iff _ hx, beq_iff_eq]

/-- The log tells each time that the primary decoder ran out of memory. -/
theorem countP_ranOut_log (g : Generation σ) (moves : List (Move σ)) :
    (g.log moves).countP (Event.reads "Preview decoder ran out of memory") =
      ((g.later moves).flatMap (·.report.calls)).countP Call.ranOut :=
  g.countP_log moves fun _ _ _ hrun => hrun.countP_ranOut

/-- The log tells once that the primary decoder is given up, if the session gives it up. -/
theorem countP_switch_log (g : Generation σ) (moves : List (Move σ)) :
    (g.log moves).countP (Event.reads "Switching previews to fallback for the rest of this session") =
      (!g.session.degraded && (g.run moves).session.degraded).toNat := by
  induction moves generalizing g with
  | nil =>
    show 0 = (!g.session.degraded && g.session.degraded).toNat
    rw [Bool.not_and_self]
    rfl
  | cons move moves ih =>
    rw [log_cons, List.countP_append, ih]
    show _ = (!g.session.degraded && ((g.act move).run moves).session.degraded).toNat
    cases move with
    | cancel => exact Nat.zero_add _
    | resetCancel => exact Nat.zero_add _
    | ask a =>
      have hstep := (g.turn_run a).countP_switch
      have hkept : g.session.degraded = true → (g.act (.ask a)).session.degraded = true := by
        intro h
        show (g.turn a).report.session.degraded = true
        rw [(g.turn_run a).degraded_eq, h, Bool.true_or]
      have hlater : (g.act (.ask a)).session.degraded = true → ((g.act (.ask a)).run moves).session.degraded = true :=
        fun h => degraded_run h moves
      rw [taken, List.flatMap_singleton, hstep]
      show (!g.session.degraded && (g.act (.ask a)).session.degraded).toNat + _ = _
      revert hkept hlater
      cases g.session.degraded <;> cases (g.act (.ask a)).session.degraded <;>
        cases ((g.act (.ask a)).run moves).session.degraded <;> simp

/-- That the primary decoder is given up is reported in its place. -/
theorem switchesInPlace_log (g : Generation σ) (moves : List (Move σ)) : SwitchesInPlace (g.log moves) := by
  induction moves generalizing g with
  | nil => exact .of_countP rfl
  | cons move moves ih =>
    rw [log_cons]
    refine SwitchesInPlace.append ?_ (ih _)
    cases move with
    | cancel => exact .of_countP rfl
    | resetCancel => exact .of_countP rfl
    | ask a =>
      rw [taken, List.flatMap_singleton]
      exact (g.turn_run a).switchesInPlace

/-- Whatever a host does in a generation, the log along its moves tells the same story as the counters. The counters of sheets, of
steps held back and of times that the primary decoder ran out of memory grow by the number of messages about them, and there are as
many messages about cancelled cycles as steps that ended so. A step that failed has one message about it, unless its error was
handed over. That the primary decoder is given up is told at most once, in the step in which the session gives it up, directly after
the message that it ran out of memory. A message about a sheet tells the sides of the sheet that its step made. -/
theorem log_tells (g : Generation σ) (moves : List (Move σ)) :
    let before := g.session
    let after := (g.run moves).session
    let turns := g.later moves
    let log := turns.flatMap (·.report.events)
    turns.map Turn.ask = moves.filterMap Move.ask? ∧
    after.stats.emitted = before.stats.emitted + log.countP (Event.reads "Emitted preview") ∧
    after.stats.throttled = before.stats.throttled + log.countP (Event.reads "Preview throttled") ∧
    after.stats.oomEvents = before.stats.oomEvents + log.countP (Event.reads "Preview decoder ran out of memory") ∧
    log.countP (Event.reads "Preview cycle cancelled") = (turns.map Turn.ending).count .cancelled ∧
    (∀ t ∈ turns, t.report.events.countP (Event.reads "Preview cycle failed, keeping previous preview") =
      if t.ending = .failed ∧ t.ask.handsOver = false then 1 else 0) ∧
    log.countP (Event.reads "Switching previews to fallback for the rest of this session") =
      (!before.degraded && after.degraded).toNat ∧
    (∀ earlier a later, moves = earlier ++ .ask a :: later →
      ((g.run earlier).turn a).report.events.countP (Event.reads "Switching previews to fallback for the rest of this session") =
        (!(g.run earlier).session.degraded && ((g.run earlier).turn a).report.session.degraded).toNat) ∧
    (∀ pre e post, log = pre ++ e :: post → e.reads "Switching previews to fallback for the rest of this session" = true →
      ∃ cause, pre.getLast? = some cause ∧ cause.reads "Preview decoder ran out of memory" = true) ∧
    ∀ t ∈ turns, ∀ e ∈ t.report.events, e.reads "Emitted preview" = true →
      ∃ image, t.report.result = .ok (.emitted image) ∧
        e.fields = [("width", toString image.width), ("height", toString image.height)] := by
  intro before after turns log
  have hstats : after.stats = turns.foldl Stats.counting before.stats := g.stats_run moves
  rw [Stats.foldl_counting] at hstats
  have hemitted : log.countP (Event.reads "Emitted preview") = _ := g.countP_ending_log moves (x := .emitted) (by decide) rfl
  have hthrottled : log.countP (Event.reads "Preview throttled") = _ := g.countP_ending_log moves (x := .throttled) (by decide) rfl
  have hcancelled : log.countP (Event.reads "Preview cycle cancelled") = _ :=
    g.countP_ending_log moves (x := .cancelled) (by decide) rfl
  have hran : log.countP (Event.reads "Preview decoder ran out of memory") = _ := g.countP_ranOut_log moves
  refine ⟨g.map_ask_later moves, ?_, ?_, ?_, hcancelled, ?_, g.countP_switch_log moves, ?_, g.switchesInPlace_log moves, ?_⟩
  · rw [hemitted]
    exact congrArg Stats.emitted hstats
  · rw [hthrottled]
    exact congrArg Stats.throttled hstats
  · rw [hran]
    exact congrArg Stats.oomEvents hstats
  · intro t ht
    obtain ⟨s, m, hrun⟩ := g.later_run moves t ht
    rw [hrun.countP_ending (x := .failed) rfl, Turn.told]
    cases hh : t.ask.handsOver <;> simp
  · intro earlier a later _
    exact ((g.run earlier).turn_run a).countP_switch
  · intro t ht e he hreads
    obtain ⟨s, m, hrun⟩ := g.later_run moves t ht
    exact hrun.fields_of_emitted he hreads

end Generation

/-! Two previews, five moments apart: for the first one the primary decoder runs out of memory and may not be tried again, so the
fallback decoder takes over for good; the second one comes too soon. -/

namespace Sample

/-- One latent is asked for at a moment, and the primary decoder may not be tried again. -/
def outgrownAt (now : Duration) : Ask Nat :=
  ⟨previewer { (default : Settings) with fallback := .projection, retry := false }, failing, batch 1, now, true⟩

/-- What the host does. -/
def outgrown : List (Move Nat) := [.ask (outgrownAt 0), .ask (outgrownAt 5)]

theorem outgrown_tells :
    (((Generation.start 10 0).later outgrown).flatMap (·.report.events)).map Event.message =
      ["Preview decoder ran out of memory", "Switching previews to fallback for the rest of this session", "Emitted preview",
        "Preview throttled"] ∧
    ((Generation.start 10 0).run outgrown).session.stats.emitted = 1 ∧
    ((Generation.start 10 0).run outgrown).session.stats.oomEvents = 1 ∧
    ((Generation.start 10 0).run outgrown).session.degraded = true ∧
    ∃ image, ((Generation.start 10 0).turn (outgrownAt 0)).report.result = .ok (.emitted image) := by
  obtain ⟨-, hemitted, -, hran, -, -, hswitch, -, -, hfields⟩ := Generation.log_tells (.start 10 0) outgrown
  have hlog : (((Generation.start 10 0).later outgrown).flatMap (·.report.events)).map Event.message =
      ["Preview decoder ran out of memory", "Switching previews to fallback for the rest of this session", "Emitted preview",
        "Preview throttled"] := by
    decide +kernel
  have hcount (message : String) : (((Generation.start 10 0).later outgrown).flatMap (·.report.events)).countP
      (Event.reads message) = _ := (List.countP_map (p := (· == message))).symm.trans (congrArg _ hlog)
  rw [hcount] at hemitted hran hswitch
  have hmade : ((Generation.start 10 0).turn (outgrownAt 0)).report.events.any (Event.reads "Emitted preview") = true := by
    decide +kernel
  obtain ⟨e, he, hreads⟩ := List.any_eq_true.1 hmade
  obtain ⟨image, himage, -⟩ := hfields _ (List.mem_append_left _ (List.mem_singleton.2 rfl)) e he hreads
  refine ⟨hlog, hemitted, hran, ?_, image, himage⟩
  exact Bool.toNat_eq_one.1 hswitch.symm

end Sample

end ContactSheet
