import ContactSheet.Proofs.Generation
import Mathlib.Data.List.Chain

/-!
# How far previews are apart

Whatever a host does in a generation, its sheets are made an interval apart, even if its clock goes backwards, and the gate holds
a step back just when the last sheet is less than an interval old: `Generation.emissions_spaced`. Nothing but a sheet is noted by
the gate (`Ask.Run.gate_eq`), so that neither an error nor a cancellation counts.
-/

namespace ContactSheet

variable {σ : Type}

/-- How long ago something was, as a sum instead of a difference. -/
theorem le_sub_iff_add_le {interval last now : Nat} (h : 0 < interval) : interval ≤ now - last ↔ last + interval ≤ now := by
  omega

/-- A gate with an interval is open when the interval has gone by since the last sheet. -/
theorem Gate.check_eq_allow_iff {g : Gate} (h : 0 < g.interval) (now : Duration) :
    g.check now = .allow ↔ ∀ last, g.lastEmit = some last → last + g.interval ≤ now := by
  rw [Gate.check, if_neg (Nat.pos_iff_ne_zero.1 h)]
  cases g.lastEmit with
  | none => simp
  | some last =>
    simp only [Option.some.injEq, forall_eq', ← le_sub_iff_add_le h]
    split <;> simp_all

/-- A step that an error ends makes no sheet. -/
theorem Ask.emitted_failure (a : Ask σ) (e : PreviewError) (s : Session) (m : σ) (calls : List Call) (events : List Event) :
    (Turn.mk a ⟨a.failure e, s, m, calls, events⟩).emitted = false := by
  rw [Turn.emitted_eq, a.ending_failure]
  rfl

/-- The gate after a step: it notes the moment when a sheet was made, and stays as it is otherwise. -/
theorem Ask.Run.gate_eq {a : Ask σ} {s : Session} {m : σ} {r : Report σ (Except PreviewError Outcome)} (h : a.Run s m r) :
    r.session.gate = if (Turn.mk a r).emitted then s.gate.mark a.now else s.gate := by
  cases h with
  | disabled => rfl
  | throttled => rfl
  | cancelled => rfl
  | empty => rfl
  | unserved => rfl
  | emitted =>
    show ((a.noted s _).gate.mark a.now) = s.gate.mark a.now
    rw [a.noted_gate]
  | interrupted => exact a.noted_gate s _
  | failed =>
    rw [a.emitted_failure, if_neg Bool.false_ne_true]
    exact a.noted_gate s _

/-- A sheet is made only when the gate is open. -/
theorem Ask.Run.allowed {a : Ask σ} {s : Session} {m : σ} {r : Report σ (Except PreviewError Outcome)} (h : a.Run s m r)
    (he : (Turn.mk a r).emitted = true) : s.gate.check a.now = .allow := by
  cases h with
  | emitted hr => exact hr.allowed
  | failed =>
    rw [a.emitted_failure] at he
    cases he
  | _ => cases he

/-- A step under settings that are on is held back just when the gate is not open. -/
theorem Ask.Run.throttled_iff {a : Ask σ} {s : Session} {m : σ} {r : Report σ (Except PreviewError Outcome)} (h : a.Run s m r)
    (he : a.settings.enabled = true) : r.result = .ok .throttled ↔ s.gate.check a.now ≠ .allow := by
  cases h with
  | disabled he' =>
    rw [he] at he'
    cases he'
  | throttled _ hg => simp [hg]
  | cancelled _ hg => simp [hg]
  | empty _ hg => simp [hg]
  | unserved _ hg => simp [hg]
  | emitted hr => simp [hr.allowed]
  | interrupted hr => simp [hr.allowed]
  | failed hr =>
    rw [Ask.failure]
    cases a.handsOver <;> simp [hr.allowed]

/-! ## A whole generation -/

/-- The sheets of a generation were made an interval apart, and its gate knows the interval and the last of them. -/
structure Generation.Spaced (interval : Duration) (g : Generation σ) : Prop where
  interval_eq : g.session.gate.interval = interval
  last_eq : g.session.gate.lastEmit = g.emissions.getLast?
  chain : g.emissions.IsChain (· + interval ≤ ·)

/-- A move keeps the sheets apart. -/
theorem Generation.Spaced.act {interval : Duration} (hi : 0 < interval) {g : Generation σ} (h : g.Spaced interval)
    (move : Move σ) : (g.act move).Spaced interval := by
  cases move with
  | cancel => exact ⟨h.interval_eq, h.last_eq, h.chain⟩
  | resetCancel => exact ⟨h.interval_eq, h.last_eq, h.chain⟩
  | ask a =>
    have hrun := g.turn_run a
    have hgate : (g.act (.ask a)).session.gate = if (g.turn a).emitted then g.session.gate.mark a.now else g.session.gate :=
      hrun.gate_eq
    have hemissions := g.emissions_act_ask a
    cases he : (g.turn a).emitted with
    | false =>
      rw [he] at hgate hemissions
      simp only [Bool.false_eq_true, if_false, List.append_nil] at hgate hemissions
      exact ⟨hgate ▸ h.interval_eq, by rw [hgate, hemissions, h.last_eq], hemissions ▸ h.chain⟩
    | true =>
      rw [he] at hgate hemissions
      simp only [if_true] at hgate hemissions
      refine ⟨by rw [hgate]; exact h.interval_eq, by rw [hgate, hemissions, List.getLast?_concat]; rfl, ?_⟩
      have hopen := (Gate.check_eq_allow_iff (h.interval_eq ▸ hi) a.now).1 (hrun.allowed he)
      rw [hemissions]
      refine h.chain.append (List.isChain_singleton _) fun last hlast now hnow => ?_
      obtain rfl : a.now = now := Option.some.inj hnow
      rw [← h.interval_eq]
      exact hopen last (h.last_eq.trans hlast)

/-- The sheets of a new generation are apart after any moves. -/
theorem Generation.spaced {interval : Duration} (hi : 0 < interval) (m : σ) (moves : List (Move σ)) :
    ((start interval m).run moves).Spaced interval :=
  run_induction moves ⟨rfl, rfl, List.isChain_nil⟩ fun _ move _ h => h.act hi move

/-- Moments of which each is an interval after the one before: two of them are as many intervals apart as there are steps between
them. -/
theorem add_mul_le_of_isChain {interval : Duration} {moments : List Duration} (h : moments.IsChain (· + interval ≤ ·))
    {i k : Nat} (hk : i + k < moments.length) : moments[i] + k * interval ≤ moments[i + k] := by
  induction k with
  | zero => simp
  | succ k ih =>
    have hprev := ih (by omega)
    have hnext := List.isChain_iff_getElem.1 h (i + k) hk
    rw [Nat.succ_mul, ← Nat.add_assoc]
    exact le_trans (Nat.add_le_add_right hprev interval) hnext

/-- In a generation whose previews are to be an interval apart, whatever the host does: each sheet is made an interval after the
one before, and two of them are as many intervals apart as there are sheets from one to the other; the gate knows the last one;
and a step under settings that are on is held back just when there is a last sheet that is less than an interval old. -/
theorem Generation.emissions_spaced {interval : Duration} (hi : 0 < interval) (m : σ) (moves : List (Move σ)) :
    let g := (start interval m).run moves
    g.emissions.IsChain (· + interval ≤ ·) ∧
    (∀ i j, ∀ _ : i < j, ∀ _ : j < g.emissions.length, g.emissions[i] + (j - i) * interval ≤ g.emissions[j]) ∧
    g.session.gate.lastEmit = g.emissions.getLast? ∧
    ∀ a : Ask σ, a.settings.enabled = true →
      ((g.turn a).report.result = .ok .throttled ↔ ∃ last, g.emissions.getLast? = some last ∧ a.now < last + interval) := by
  intro g
  have h : g.Spaced interval := spaced hi m moves
  refine ⟨h.chain, ?_, h.last_eq, ?_⟩
  · intro i j hij hj
    obtain ⟨k, rfl⟩ := Nat.exists_eq_add_of_le hij.le
    rw [Nat.add_sub_cancel_left]
    exact add_mul_le_of_isChain h.chain hj
  · intro a ha
    have hrun := g.turn_run a
    rw [hrun.throttled_iff ha, Ne, Gate.check_eq_allow_iff (h.interval_eq ▸ hi), h.last_eq, h.interval_eq]
    simp only [not_forall, Nat.not_le, exists_prop]

/-! A host whose clock goes backwards, with previews ten moments apart: it gets a sheet at 5, none at 3 and none at 20, when the
generation is cancelled, but one at 21. The next is to be had at 31. -/

namespace Sample

/-- One latent is asked for at a moment. -/
def asked (now : Duration) : Ask Unit := ⟨previewer default, steady, batch 1, now, true⟩

/-- What the host does. -/
def moves : List (Move Unit) := [.ask (asked 5), .ask (asked 3), .cancel, .ask (asked 20), .resetCancel, .ask (asked 21)]

theorem moves_spaced : 0 < 10 ∧ ((Generation.start 10 ()).run moves).emissions = [5, 21] ∧
    (((Generation.start 10 ()).run moves).turn (asked 30)).report.result = .ok .throttled ∧
    (((Generation.start 10 ()).run moves).turn (asked 31)).report.result ≠ .ok .throttled := by
  have hi : 0 < 10 := by decide
  have hemissions : ((Generation.start 10 ()).run moves).emissions = [5, 21] := by decide +kernel
  obtain ⟨-, -, -, h⟩ := Generation.emissions_spaced hi () moves
  rw [hemissions] at h
  refine ⟨hi, hemissions, (h (asked 30) rfl).2 ⟨21, rfl, by decide⟩, fun hthrottled => ?_⟩
  obtain ⟨last, hlast, hlt⟩ := (h (asked 31) rfl).1 hthrottled
  obtain rfl : 21 = last := Option.some.inj hlast
  exact absurd hlt (by decide)

end Sample

end ContactSheet
