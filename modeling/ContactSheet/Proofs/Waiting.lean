import ContactSheet.Proofs.Spacing

/-!
# How long a gate stays shut

A gate that holds a preview back says how much time is left. Whatever was done with the gate before, it stays shut for just that time,
counted from the moment when it was asked or, if that lies before the last preview, from the last preview: `Gate.remaining_tells`. So a
clock that was set back makes the gate promise too much (`Sample.setBack_shut`). Asking a gate that is shut changes nothing
(`Gate.after_of_shut`).
-/

namespace ContactSheet

/-! ## What is done with a gate -/

/-- What is done with a gate at a moment: it is asked, in one of two ways, a preview is noted, or one is tried for. -/
inductive Gate.Use where
  | check (now : Duration)
  | ready (now : Duration)
  | mark (now : Duration)
  | acquire (now : Duration)

/-- The moment of a use. -/
def Gate.Use.moment : Gate.Use → Duration
  | .check now | .ready now | .mark now | .acquire now => now

/-- The use notes a preview only if the gate is open. -/
def Gate.Use.asks : Gate.Use → Prop
  | .mark _ => False
  | .check _ | .ready _ | .acquire _ => True

/-- The gate after a use. -/
def Gate.use (g : Gate) : Gate.Use → Gate
  | .check _ => g
  | .ready _ => g
  | .mark now => g.mark now
  | .acquire now => (g.acquire now).2

/-- The gate after some uses. -/
def Gate.after (g : Gate) (uses : List Gate.Use) : Gate := uses.foldl Gate.use g

/-- The gate of an interval before any use. -/
def Gate.fresh (interval : Duration) : Gate := ⟨interval, none⟩

/-- No use changes the interval. -/
theorem Gate.interval_use (g : Gate) (u : Gate.Use) : (g.use u).interval = g.interval := by
  cases u with
  | check => rfl
  | ready => rfl
  | mark => rfl
  | acquire now =>
    simp only [Gate.use, Gate.acquire]
    split <;> rfl

/-- No uses change the interval. -/
theorem Gate.interval_after (g : Gate) (uses : List Gate.Use) : (g.after uses).interval = g.interval := by
  induction uses generalizing g with
  | nil => rfl
  | cons u uses ih => exact (ih (g.use u)).trans (g.interval_use u)

/-- Asking a gate that is shut, or trying to pass it, changes nothing. -/
theorem Gate.use_of_shut {g : Gate} {u : Gate.Use} (ha : u.asks) (hs : g.check u.moment ≠ .allow) : g.use u = g := by
  cases u with
  | check => rfl
  | ready => rfl
  | mark => exact absurd ha id
  | acquire now =>
    have hready : g.ready now = false := decide_eq_false hs
    simp [Gate.use, Gate.acquire, hready]

/-- Asking a gate while it is shut, however often, changes nothing. -/
theorem Gate.after_of_shut {g : Gate} {uses : List Gate.Use} (h : ∀ u ∈ uses, u.asks ∧ g.check u.moment ≠ .allow) :
    g.after uses = g := by
  induction uses with
  | nil => rfl
  | cons u uses ih =>
    obtain ⟨ha, hs⟩ := h u List.mem_cons_self
    show (g.use u).after uses = g
    rw [Gate.use_of_shut ha hs]
    exact ih fun v hv => h v (List.mem_cons_of_mem u hv)

/-! ## The time that is left -/

/-- What is left of an interval leads from the later one of now and its start to its end, as a sum instead of differences. -/
theorem sub_sub_eq_iff {interval last now remaining : Nat} :
    (¬interval ≤ now - last ∧ interval - (now - last) = remaining) ↔
      0 < remaining ∧ max now last + remaining = last + interval := by
  omega

/-- A gate holds back when less than its interval has gone by since the last preview; what it says is left leads from the later one of
the moment and the last preview to the end of the interval. -/
theorem Gate.check_eq_suppress_iff {g : Gate} {now remaining : Duration} :
    g.check now = .suppress remaining ↔
      0 < remaining ∧ ∃ last, g.lastEmit = some last ∧ max now last + remaining = last + g.interval := by
  unfold Gate.check
  cases g.lastEmit with
  | none => split <;> simp
  | some last =>
    simp only [Option.some.injEq, exists_eq_left', ← sub_sub_eq_iff]
    split
    · rename_i hinterval
      simp [hinterval]
    · split <;> simp_all

/-- A gate that does not allow a preview says how much time is left. -/
theorem Gate.exists_suppress {g : Gate} {now : Duration} (h : g.check now ≠ .allow) : ∃ left, g.check now = .suppress left := by
  cases hcheck : g.check now with
  | allow => exact absurd hcheck h
  | suppress left => exact ⟨left, rfl⟩

/-- A gate that holds back opens at the end of what it says is left, counted from the later one of the moment and the last preview. -/
theorem Gate.check_eq_allow_iff_of_suppress {g : Gate} {now remaining last : Duration} (h : g.check now = .suppress remaining)
    (hlast : g.lastEmit = some last) (t : Duration) : g.check t = .allow ↔ max now last + remaining ≤ t := by
  obtain ⟨hpos, last', hlast', hend⟩ := Gate.check_eq_suppress_iff.1 h
  obtain rfl : last = last' := Option.some.inj (hlast.symm.trans hlast')
  have hshort : ¬g.interval ≤ now - last := (sub_sub_eq_iff.2 ⟨hpos, hend⟩).1
  have hinterval : 0 < g.interval := Nat.lt_of_le_of_lt (Nat.zero_le _) (Nat.not_le.1 hshort)
  rw [Gate.check_eq_allow_iff hinterval, hlast, hend]
  simp

/-- A gate that holds a preview back, after any uses at any moments, says how much time is left: some, and at most an interval. Until
that time has gone by it holds back. It opens when that time has gone by since it was asked, or since the last preview if that is later,
and then only; so it keeps its word just when it was not asked about a moment before the last preview. Whoever asks it or tries to pass
it while it is shut changes nothing of that. -/
theorem Gate.remaining_tells (interval : Duration) (uses : List Gate.Use) {now remaining : Duration}
    (h : ((Gate.fresh interval).after uses).check now = .suppress remaining) :
    let g := (Gate.fresh interval).after uses
    (0 < remaining ∧ remaining ≤ interval) ∧
    (∀ t, now ≤ t → t < now + remaining → ∃ left, g.check t = .suppress left) ∧
    ∃ last, g.lastEmit = some last ∧
      (∀ t, g.check t = .allow ↔ max now last + remaining ≤ t) ∧
      (g.check (now + remaining) = .allow ↔ last ≤ now) ∧
      ∀ later : List Gate.Use, (∀ u ∈ later, u.asks ∧ u.moment < max now last + remaining) → g.after later = g := by
  intro g
  obtain ⟨hpos, last, hlast, hend⟩ := Gate.check_eq_suppress_iff.1 h
  have hinterval : g.interval = interval := Gate.interval_after _ uses
  have hopens : ∀ t, g.check t = .allow ↔ max now last + remaining ≤ t := Gate.check_eq_allow_iff_of_suppress h hlast
  refine ⟨⟨hpos, ?_⟩, ?_, last, hlast, hopens, ?_, ?_⟩
  · rw [← hinterval, ← (sub_sub_eq_iff.2 ⟨hpos, hend⟩).2]
    exact Nat.sub_le _ _
  · intro t _ ht
    refine Gate.exists_suppress fun hallow => ?_
    have hopen : max now last + remaining ≤ t := (hopens t).1 hallow
    have hlate : now + remaining ≤ max now last + remaining := Nat.add_le_add_right (Nat.le_max_left now last) remaining
    exact Nat.not_lt.2 (hlate.trans hopen) ht
  · simp [hopens]
  · intro later hlater
    refine Gate.after_of_shut fun u hu => ?_
    obtain ⟨ha, hbefore⟩ := hlater u hu
    exact ⟨ha, fun hallow => Nat.not_lt.2 ((hopens u.moment).1 hallow) hbefore⟩

namespace Sample

/-- A gate of ten seconds is passed after five of them, asked after seven, and tried in vain after nine. -/
def uses : List Gate.Use := [.acquire (.ofParts 5 0), .check (.ofParts 7 0), .acquire (.ofParts 9 0)]

theorem uses_tell :
    ((Gate.fresh (.ofParts 10 0)).after uses).check (.ofParts 8 0) = .suppress (.ofParts 7 0) ∧
      ((Gate.fresh (.ofParts 10 0)).after uses).check (.ofParts 8 0 + .ofParts 7 0) = .allow := by
  have h : ((Gate.fresh (.ofParts 10 0)).after uses).check (.ofParts 8 0) = .suppress (.ofParts 7 0) := by decide
  obtain ⟨-, -, last, hlast, -, hword, -⟩ := Gate.remaining_tells (.ofParts 10 0) uses h
  refine ⟨h, hword.2 ?_⟩
  obtain rfl : Duration.ofParts 5 0 = last := Option.some.inj hlast
  decide

/-- A gate of ten seconds that noted a preview after a hundred is asked about the start, as a clock that was set back would have it: ten
seconds are left, it says, but ten seconds after the start it is still shut. -/
theorem setBack_shut :
    ((Gate.fresh (.ofParts 10 0)).after [.mark (.ofParts 100 0)]).check (.ofParts 0 0) = .suppress (.ofParts 10 0) ∧
      ((Gate.fresh (.ofParts 10 0)).after [.mark (.ofParts 100 0)]).check (.ofParts 0 0 + .ofParts 10 0) ≠ .allow := by
  decide

end Sample

end ContactSheet
