import ContactSheet.Proofs.StepRun

/-!
# Runs of a generation

During a generation a host asks for previews, cancels, and takes cancellations back, in any order (`Move`). A `Generation` is its
session, what the decoders remember, and the previews asked for so far, each with what came of it. What every move preserves holds
all along: `Generation.run_induction`.
-/

namespace ContactSheet

variable {σ : Type}

/-- What a host does in a generation. -/
inductive Move (σ : Type) where
  | ask (a : Ask σ)
  | cancel
  | resetCancel

/-- The preview that a move asks for. -/
def Move.ask? : Move σ → Option (Ask σ)
  | .ask a => some a
  | .cancel => none
  | .resetCancel => none

/-- A preview that was asked for, and what came of it. -/
structure Turn (σ : Type) where
  ask : Ask σ
  report : Report σ (Except PreviewError Outcome)

/-- The ways in which a step ends. -/
inductive Ending where
  | disabled | throttled | skipped | cancelled | failed | emitted
  deriving DecidableEq, Repr

/-- The way in which a step with this outcome ended. -/
def Outcome.ending : Outcome → Ending
  | .disabled => .disabled
  | .throttled => .throttled
  | .skipped => .skipped
  | .cancelled => .cancelled
  | .failed _ => .failed
  | .emitted _ => .emitted

/-- The way in which the step ended. An error that was handed over is a failure like one that was reported. -/
def Turn.ending (t : Turn σ) : Ending :=
  match t.report.result with
  | .ok outcome => outcome.ending
  | .error _ => .failed

/-- The step made a sheet. -/
def Turn.emitted (t : Turn σ) : Bool :=
  match t.report.result with
  | .ok outcome => outcome.isEmitted
  | .error _ => false

/-- A step that made a sheet ended so. -/
theorem Turn.emitted_eq (t : Turn σ) : t.emitted = decide (t.ending = .emitted) := by
  rw [Turn.emitted, Turn.ending]
  rcases t.report.result with e | outcome
  · rfl
  · cases outcome <;> rfl

/-- A step that an error ends has failed. -/
theorem Ask.ending_failure (a : Ask σ) (e : PreviewError) (s : Session) (m : σ) (calls : List Call) (events : List Event) :
    (Turn.mk a ⟨a.failure e, s, m, calls, events⟩).ending = .failed := by
  rw [Turn.ending, Ask.failure]
  cases a.handsOver <;> rfl

/-- The primary decoder ran out of memory during the step. -/
def Turn.ranOut (t : Turn σ) : Bool := t.report.calls.any Call.ranOut

/-- A generation up to some moment: its session, what the decoders remember, and the previews asked for, the first one first. -/
structure Generation (σ : Type) where
  session : Session
  memory : σ
  turns : List (Turn σ) := []

namespace Generation

/-- A generation with a new session. -/
def start (interval : Duration) (memory : σ) : Generation σ := { session := .withInterval interval, memory := memory }

/-- The step that is made next for a preview. -/
def turn (g : Generation σ) (a : Ask σ) : Turn σ := ⟨a, a.report g.session g.memory⟩

/-- The generation after a move. -/
def act (g : Generation σ) : Move σ → Generation σ
  | .ask a => ⟨(g.turn a).report.session, (g.turn a).report.memory, g.turns ++ [g.turn a]⟩
  | .cancel => { g with session := g.session.cancel }
  | .resetCancel => { g with session := g.session.resetCancel }

/-- The generation after moves. -/
def run (g : Generation σ) (moves : List (Move σ)) : Generation σ := moves.foldl act g

/-- The calls of the decoders so far. -/
def calls (g : Generation σ) : List Call := g.turns.flatMap (·.report.calls)

/-- The moments at which a sheet was made. -/
def emissions (g : Generation σ) : List Duration := (g.turns.filter Turn.emitted).map (·.ask.now)

/-- What a move preserves holds after any moves. -/
theorem run_induction {P : Generation σ → Prop} {g : Generation σ} (moves : List (Move σ)) (h : P g)
    (hact : ∀ g, ∀ move ∈ moves, P g → P (g.act move)) : P (g.run moves) := by
  induction moves generalizing g with
  | nil => exact h
  | cons move moves ih =>
    exact ih (hact g move List.mem_cons_self h) fun g' move' hm => hact g' move' (List.mem_cons_of_mem _ hm)

/-- What is to be seen of a generation along moves, one move after the other. -/
def along {α : Type} (see : Generation σ → Move σ → List α) (g : Generation σ) : List (Move σ) → List α
  | [] => []
  | move :: moves => see g move ++ along see (g.act move) moves

/-- The steps of a move. -/
def taken (g : Generation σ) : Move σ → List (Turn σ)
  | .ask a => [g.turn a]
  | .cancel => []
  | .resetCancel => []

/-- The steps that a generation takes along moves. -/
def later (g : Generation σ) (moves : List (Move σ)) : List (Turn σ) := g.along taken moves

/-- A move adds its steps. -/
theorem turns_act (g : Generation σ) (move : Move σ) : (g.act move).turns = g.turns ++ g.taken move := by
  cases move with
  | ask a => rfl
  | cancel => exact (List.append_nil _).symm
  | resetCancel => exact (List.append_nil _).symm

/-- Moves add their steps. -/
theorem turns_run (g : Generation σ) (moves : List (Move σ)) : (g.run moves).turns = g.turns ++ g.later moves := by
  induction moves generalizing g with
  | nil => exact (List.append_nil _).symm
  | cons move moves ih =>
    show ((g.act move).run moves).turns = g.turns ++ (g.taken move ++ (g.act move).later moves)
    rw [ih, turns_act, List.append_assoc]

/-- The steps along moves are those that the moves ask for, in their order. -/
theorem map_ask_later (g : Generation σ) (moves : List (Move σ)) : (g.later moves).map Turn.ask = moves.filterMap Move.ask? := by
  induction moves generalizing g with
  | nil => rfl
  | cons move moves ih =>
    show (g.taken move ++ (g.act move).later moves).map Turn.ask = _
    rw [List.map_append, ih]
    cases move <;> rfl

/-- The next step does one of the things that a step can do. -/
theorem turn_run (g : Generation σ) (a : Ask σ) : a.Run g.session g.memory (g.turn a).report :=
  a.report_run g.session g.memory

/-- Each step along moves does one of the things that a step can do. -/
theorem later_run (g : Generation σ) (moves : List (Move σ)) : ∀ t ∈ g.later moves, ∃ s m, t.ask.Run s m t.report := by
  induction moves generalizing g with
  | nil => exact fun t ht => absurd ht List.not_mem_nil
  | cons move moves ih =>
    intro t ht
    rcases List.mem_append.1 ht with ht | ht
    · cases move with
      | ask a =>
        obtain rfl := List.mem_singleton.1 ht
        exact ⟨g.session, g.memory, g.turn_run a⟩
      | cancel => cases ht
      | resetCancel => cases ht
    · exact ih (g.act move) t ht

/-- A step adds its moment if it made a sheet. -/
theorem emissions_act_ask (g : Generation σ) (a : Ask σ) :
    (g.act (.ask a)).emissions = g.emissions ++ if (g.turn a).emitted then [a.now] else [] := by
  show ((g.turns ++ [g.turn a]).filter Turn.emitted).map (·.ask.now) = _
  rw [List.filter_append, List.map_append, List.filter_cons, List.filter_nil]
  cases (g.turn a).emitted <;> rfl

end Generation

end ContactSheet
