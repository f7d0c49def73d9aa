import ContactSheet.Proofs.StepRun

/-!
# Which decoder is asked what

`Ask.due` says what a step has to ask next, from nothing but the calls it has made so far. A step that decodes items asks just
that, call by call, until nothing is due: `Ask.calls_eq_iff` says that its calls are the only ones with this property. The proof
carries along a run of a sheet where the step stands after the calls so far (`Ask.Stands`).
-/

namespace ContactSheet

variable {σ : Type}

/-- What a decoder answers to a question, and what the decoders remember then. -/
def Decoders.ask (ds : Decoders σ) : Question → σ → Answer × σ
  | .primary request, m => ds.primary request m
  | .fallback latent target, m => ds.fallback latent target m

/-- The decoder gave an image. -/
def Call.succeeded (c : Call) : Bool := c.answer.result.toBool

/-- A call with an image as its result succeeded. -/
theorem Call.succeeded_of_ok {c : Call} {image : Image} (h : c.answer.result = .ok image) : c.succeeded = true := by
  rw [Call.succeeded, h]
  rfl

/-- A call with an error as its result did not succeed. -/
theorem Call.succeeded_of_error {c : Call} {e : PreviewError} (h : c.answer.result = .error e) : c.succeeded = false := by
  rw [Call.succeeded, h]
  rfl

/-- A call of the primary decoder that ran out of memory gave no image. -/
theorem Call.succeeded_of_ranOut {c : Call} (h : c.ranOut = true) : c.succeeded = false := by
  obtain ⟨e, he, -⟩ := Call.error_of_ranOut h
  exact Call.succeeded_of_error he

/-- What a step has to ask next, after the calls that it has made.

Nothing is due at all when there are no latents, when the session was cancelled before the step, or when it gave the primary
decoder up for good and nothing stands in for it. Otherwise, if the last call says that the primary decoder ran out of memory and
the fallback decoder stands in for it, that is asked for the same latent. After any other error nothing is due any more, and
neither when the session was cancelled during a call. If it was not, the next latent is due, that is the one after those that
have their image: at the fallback decoder if the primary one ran out of memory before, or was given up, and at the primary one
if not. -/
def Ask.due (a : Ask σ) (s : Session) (history : List Call) : Option Question :=
  match a.batch.dims? with
  | none => none
  | some dims =>
    let settings := a.previewer.settings
    let grid := a.previewer.sampler.plan a.batch.size
    let cell := grid.cellSize settings a.previewer.stages dims
    let givenUp := !settings.retry && s.degraded
    if s.cancelled ∨ givenUp ∧ settings.fallback = .absent then none
    else
      match history.getLast?.filter (!·.succeeded) with
      | some call => if call.ranOut ∧ settings.fallback = .projection then some (.fallback call.latent cell) else none
      | none =>
        if history.any Call.cancels then none
        else
          (grid.picks[history.countP Call.succeeded]?.bind a.batch.get?).map fun latent =>
            if givenUp || history.any Call.ranOut then .fallback latent cell
            else .primary ⟨latent, cell, a.previewer.stages.skip cell dims settings.skip, settings.device, settings.compile⟩

/-- After a history, the decoders were asked just what was due, one question after the other, the calls tell what they answered,
and in the end nothing is due. -/
def Conversation (ds : Decoders σ) (due : List Call → Option Question) : List Call → σ → List Call → Prop
  | history, _, [] => due history = none
  | history, m, call :: calls =>
    due history = some call.question ∧ (ds.ask call.question m).1 = call.answer ∧
      Conversation ds due (history ++ [call]) (ds.ask call.question m).2 calls

/-- A call is its question and its answer. -/
theorem Call.ext_iff {c c' : Call} : c = c' ↔ c.question = c'.question ∧ c.answer = c'.answer := by
  constructor
  · rintro rfl
    exact ⟨rfl, rfl⟩
  · rintro ⟨hq, ha⟩
    cases c <;> cases c' <;> cases hq <;> cases ha <;> rfl

/-- There is only one conversation. -/
theorem Conversation.unique {ds : Decoders σ} {due : List Call → Option Question} {history : List Call} {m : σ}
    {calls calls' : List Call} (h : Conversation ds due history m calls) (h' : Conversation ds due history m calls') :
    calls = calls' := by
  induction calls generalizing history m calls' with
  | nil =>
    cases calls' with
    | nil => rfl
    | cons call' calls' =>
      have hn : due history = none := h
      have hd := h'.1
      rw [hn] at hd
      cases hd
  | cons call calls ih =>
    cases calls' with
    | nil =>
      have hn : due history = none := h'
      have hd := h.1
      rw [hn] at hd
      cases hd
    | cons call' calls' =>
      obtain ⟨hd, ha, hc⟩ := h
      obtain ⟨hd', ha', hc'⟩ := h'
      have hq : call.question = call'.question := Option.some.inj (hd.symm.trans hd')
      obtain rfl : call = call' := Call.ext_iff.2 ⟨hq, by rw [← ha, ← ha', hq]⟩
      rw [ih hc hc']

/-! ## Where a step stands -/

/-- Where a step stands between two items, after the calls so far: the last item has its image, the latents left are those after
the ones with an image, the fallback decoder is in use if the primary one was given up or ran out of memory, and the session is
cancelled if it was during a call. -/
structure Ask.Stands (a : Ask σ) (s : Session) (history : List Call) (onFallback cancelled : Bool) (latents : List Latent) :
    Prop where
  settled : history.getLast?.filter (!·.succeeded) = none
  left : a.latents.drop (history.countP Call.succeeded) = latents
  mode : onFallback = (a.givenUp s || history.any Call.ranOut)
  flag : cancelled = history.any Call.cancels

/-- What is due in a step that decodes items. -/
theorem Ask.Ready.due_eq {a : Ask σ} {s : Session} {dims : Size} (hr : a.Ready s dims) (history : List Call) :
    a.due s history =
      match history.getLast?.filter (!·.succeeded) with
      | some call =>
        if call.ranOut ∧ a.settings.fallback = .projection then some (.fallback call.latent (a.sheet dims).cell) else none
      | none =>
        if history.any Call.cancels then none
        else
          a.latents[history.countP Call.succeeded]?.map fun latent =>
            if a.givenUp s || history.any Call.ranOut then .fallback latent (a.sheet dims).cell
            else .primary (a.settings.request latent (a.sheet dims).cell (a.sheet dims).skip) := by
  have hu : ¬(s.cancelled = true ∨ a.givenUp s = true ∧ a.settings.fallback = .absent) := by
    rintro (hc | hu)
    · rw [hr.active] at hc
      cases hc
    · exact hr.not_unserved hu
  rw [a.getElem?_latents]
  simp only [Ask.due, hr.dims_eq]
  exact if_neg hu

/-- Nothing is due when no latent is left. -/
theorem Ask.Stands.due_nil {a : Ask σ} {s : Session} {dims : Size} (hr : a.Ready s dims) {history : List Call} {f k : Bool}
    (h : a.Stands s history f k []) : a.due s history = none := by
  rw [hr.due_eq, h.settled]
  simp only []
  split
  · rfl
  · rw [← List.head?_drop, h.left]
    rfl

/-- Nothing is due when the session was cancelled. -/
theorem Ask.Stands.due_cancelled {a : Ask σ} {s : Session} {dims : Size} (hr : a.Ready s dims) {history : List Call} {f : Bool}
    {latents : List Latent} (h : a.Stands s history f true latents) : a.due s history = none := by
  rw [hr.due_eq, h.settled]
  simp only [← h.flag, if_true]

/-- The next latent is due otherwise, at the decoder in use. -/
theorem Ask.Stands.due_cons {a : Ask σ} {s : Session} {dims : Size} (hr : a.Ready s dims) {history : List Call} {f : Bool}
    {latent : Latent} {latents : List Latent} (h : a.Stands s history f false (latent :: latents)) :
    a.due s history =
      some (if f then .fallback latent (a.sheet dims).cell
        else .primary (a.settings.request latent (a.sheet dims).cell (a.sheet dims).skip)) := by
  rw [hr.due_eq, h.settled]
  simp only [← h.flag, ← h.mode, Bool.false_eq_true, if_false]
  rw [← List.head?_drop, h.left]
  rfl

/-- After calls of which only the last one gave an image, the next latent is to be dealt with. -/
theorem Ask.Stands.append {a : Ask σ} {s : Session} {history : List Call} {f f' : Bool} {latent : Latent}
    {latents : List Latent} (h : a.Stands s history f false (latent :: latents)) {calls : List Call} {call : Call}
    (hlast : calls.getLast? = some call) (hcall : call.succeeded = true) (hcount : calls.countP Call.succeeded = 1)
    (hf : f' = (f || calls.any Call.ranOut)) : a.Stands s (history ++ calls) f' (calls.any Call.cancels) latents := by
  refine ⟨?_, ?_, ?_, ?_⟩
  · rw [List.getLast?_append, hlast]
    simp [hcall]
  · rw [List.countP_append, hcount, ← List.drop_drop, h.left]
    rfl
  · rw [hf, h.mode, List.any_append, Bool.or_assoc]
  · rw [List.any_append, ← h.flag, Bool.false_or]

/-- After a call that gave no image, and that no fallback makes up for, nothing is due. -/
theorem Ask.Ready.due_concat {a : Ask σ} {s : Session} {dims : Size} (hr : a.Ready s dims) (history : List Call) {call : Call}
    (hcall : call.succeeded = false) (hran : call.ranOut = true → a.settings.fallback = .absent) :
    a.due s (history ++ [call]) = none := by
  rw [hr.due_eq, List.getLast?_concat, Option.filter_some, hcall]
  simp only [Bool.not_false, if_true]
  refine if_neg fun ⟨hc, hf⟩ => ?_
  rw [hran hc] at hf
  cases hf

/-- After the primary decoder ran out of memory, the fallback decoder is due for the same latent, if it stands in. -/
theorem Ask.Ready.due_ranOut {a : Ask σ} {s : Session} {dims : Size} (hr : a.Ready s dims) (history : List Call) {call : Call}
    (hran : call.ranOut = true) (hf : a.settings.fallback = .projection) :
    a.due s (history ++ [call]) = some (.fallback call.latent (a.sheet dims).cell) := by
  rw [hr.due_eq, List.getLast?_concat, Option.filter_some, Call.succeeded_of_ranOut hran]
  exact if_pos ⟨hran, hf⟩

/-! ## Runs are conversations -/

/-- A call of the primary decoder that it answers so can be made when it is due. -/
theorem Conversation.primary {ds : Decoders σ} {due : List Call → Option Question} {history : List Call} {m m' : σ}
    {r : Request} {answer : Answer} {calls : List Call} (hd : due history = some (.primary r))
    (ha : ds.primary r m = (answer, m')) (hc : Conversation ds due (history ++ [.primary r answer]) m' calls) :
    Conversation ds due history m (.primary r answer :: calls) := by
  refine ⟨hd, ?_, ?_⟩
  · simp only [Call.question, Decoders.ask, ha, Call.answer]
  · simpa only [Call.question, Decoders.ask, ha] using hc

/-- A call of the fallback decoder that it answers so can be made when it is due. -/
theorem Conversation.fallback {ds : Decoders σ} {due : List Call → Option Question} {history : List Call} {m m' : σ}
    {latent : Latent} {target : Size} {answer : Answer} {calls : List Call} (hd : due history = some (.fallback latent target))
    (ha : ds.fallback latent target m = (answer, m'))
    (hc : Conversation ds due (history ++ [.fallback latent target answer]) m' calls) :
    Conversation ds due history m (.fallback latent target answer :: calls) := by
  refine ⟨hd, ?_, ?_⟩
  · simp only [Call.question, Decoders.ask, ha, Call.answer]
  · simpa only [Call.question, Decoders.ask, ha] using hc

/-- The calls of an item are due one after the other. -/
theorem ItemRun.conversation {a : Ask σ} {s : Session} {dims : Size} (hr : a.Ready s dims) {latent : Latent} {f f' : Bool}
    {m m' : σ} {calls calls' : List Call} {result : Except PreviewError Image}
    (h : ItemRun a.decoders a.settings (a.sheet dims) latent f m calls result f' m') {history : List Call}
    (hd : a.due s history =
      some (if f then .fallback latent (a.sheet dims).cell
        else .primary (a.settings.request latent (a.sheet dims).cell (a.sheet dims).skip)))
    (hc : Conversation a.decoders (a.due s) (history ++ calls) m' calls') :
    Conversation a.decoders (a.due s) history m (calls ++ calls') := by
  cases h with
  | primary ha => exact .primary hd ha hc
  | fallback ha => exact .fallback hd ha hc
  | rescued ha hran hf ha' =>
    refine .primary hd ha (.fallback (hr.due_ranOut history hran hf) ha' ?_)
    rwa [List.append_assoc]

/-- Of the calls for an item that has its image, only the last one gave it. -/
theorem ItemRun.getLast?_of_ok {ds : Decoders σ} {settings : Settings} {sheet : Sheet} {latent : Latent} {f f' : Bool} {m m' : σ}
    {calls : List Call} {result : Except PreviewError Image} {image : Image}
    (h : ItemRun ds settings sheet latent f m calls result f' m') (hi : result = .ok image) :
    ∃ call, calls.getLast? = some call ∧ call.succeeded = true ∧ calls.countP Call.succeeded = 1 := by
  cases h with
  | @primary _ _ answer ha hran =>
    have hsucc : (Call.primary (settings.request latent sheet.cell sheet.skip) answer).succeeded = true := Call.succeeded_of_ok hi
    exact ⟨_, rfl, hsucc, by rw [List.countP_singleton, if_pos hsucc]⟩
  | @fallback _ _ answer ha =>
    have hsucc : (Call.fallback latent sheet.cell answer).succeeded = true := Call.succeeded_of_ok hi
    exact ⟨_, rfl, hsucc, by rw [List.countP_singleton, if_pos hsucc]⟩
  | @rescued _ _ _ answer answer' ha hran hf ha' =>
    have hsucc : (Call.fallback latent sheet.cell answer').succeeded = true := Call.succeeded_of_ok hi
    exact ⟨_, rfl, hsucc, by simp [hsucc, Call.succeeded_of_ranOut hran]⟩

/-- After an item that has its image, the next one is to be dealt with. -/
theorem ItemRun.stands {a : Ask σ} {s : Session} {dims : Size} {latent : Latent} {f f' : Bool} {m m' : σ} {calls : List Call}
    {result : Except PreviewError Image} {image : Image}
    (h : ItemRun a.decoders a.settings (a.sheet dims) latent f m calls result f' m') (hi : result = .ok image)
    {history : List Call} {latents : List Latent} (hst : a.Stands s history f false (latent :: latents)) :
    a.Stands s (history ++ calls) f' (calls.any Call.cancels) latents := by
  obtain ⟨call, hlast, hcall, hcount⟩ := h.getLast?_of_ok hi
  refine hst.append hlast hcall hcount ?_
  cases h with
  | @primary _ _ answer ha hran =>
    obtain rfl := Option.some.inj hlast
    have hno : (Call.primary (a.settings.request latent (a.sheet dims).cell (a.sheet dims).skip) answer).ranOut = false := by
      by_contra hran'
      rw [Call.succeeded_of_ranOut (by simpa using hran')] at hcall
      cases hcall
    simp [hno]
  | fallback ha => rfl
  | rescued ha hran hf ha' => simp [hran]

/-- After an item that gives an error nothing is due. -/
theorem ItemRun.due_error {a : Ask σ} {s : Session} {dims : Size} (hr : a.Ready s dims) {latent : Latent} {f f' : Bool}
    {m m' : σ} {calls : List Call} {result : Except PreviewError Image} {e : PreviewError}
    (h : ItemRun a.decoders a.settings (a.sheet dims) latent f m calls result f' m') (he : result = .error e)
    (history : List Call) : a.due s (history ++ calls) = none := by
  cases h with
  | primary ha hran => exact hr.due_concat history (Call.succeeded_of_error he) hran
  | fallback ha => exact hr.due_concat history (Call.succeeded_of_error he) nofun
  | rescued ha hran hf ha' =>
    rw [List.append_cons]
    exact hr.due_concat _ (Call.succeeded_of_error he) nofun

/-- The calls of the items that are left are due one after the other. -/
theorem SheetRun.conversation {a : Ask σ} {s : Session} {dims : Size} (hr : a.Ready s dims) {f k : Bool} {m m' : σ}
    {latents : List Latent} {calls : List Call} {result : Except PreviewError (List Image)}
    (h : SheetRun a.decoders a.settings (a.sheet dims) f k m latents calls result m') {history : List Call}
    (hst : a.Stands s history f k latents) : Conversation a.decoders (a.due s) history m calls := by
  induction h generalizing history with
  | done => exact hst.due_nil hr
  | stopped => exact hst.due_cancelled hr
  | @failed _ _ _ m' _ _ calls _ hi =>
    have hend : Conversation a.decoders (a.due s) (history ++ calls) m' [] := hi.due_error hr rfl history
    have h := hi.conversation hr (hst.due_cons hr) hend
    rwa [List.append_nil] at h
  | decoded hi _ ih => exact hi.conversation hr (hst.due_cons hr) (ih (hi.stands rfl hst))

/-- A step starts with all its latents, and with the fallback decoder if the primary one was given up. -/
theorem Ask.stands_start (a : Ask σ) (s : Session) : a.Stands s [] (a.givenUp s) false a.latents :=
  ⟨rfl, rfl, (Bool.or_false _).symm, rfl⟩

/-- The calls of a step that the gate lets pass are those, and only those, that are due one after the other. The step is taken without
the limits of a machine: one that breaks down before its first item, of `2 ^ 32` columns or of a sheet that there is no room for
(`Previewer.render?`), makes no call. -/
theorem Ask.calls_eq_iff (a : Ask σ) (s : Session) (m : σ) (he : a.settings.enabled = true)
    (hg : s.gate.check a.now = .allow) (calls : List Call) :
    (a.report s m).calls = calls ↔ Conversation a.decoders (a.due s) [] m calls := by
  have h : Conversation a.decoders (a.due s) [] m (a.report s m).calls := by
    have hrun := a.report_run s m
    generalize a.report s m = r at hrun
    cases hrun with
    | disabled he' =>
      rw [he] at he'
      cases he'
    | throttled _ hg' =>
      rw [hg] at hg'
      cases hg'
    | cancelled _ _ hc =>
      show a.due s [] = none
      rw [Ask.due]
      split
      · rfl
      · exact if_pos (.inl hc)
    | empty _ _ _ hb =>
      show a.due s [] = none
      rw [Ask.due, (a.batch.dims?_eq_none_iff).2 hb]
    | unserved _ _ _ _ hu hf =>
      show a.due s [] = none
      rw [Ask.due]
      split
      · rfl
      · exact if_pos (.inr ⟨hu, hf⟩)
    | emitted hr hs => exact SheetRun.conversation hr hs (a.stands_start s)
    | interrupted hr hs => exact SheetRun.conversation hr hs (a.stands_start s)
    | failed hr hs => exact SheetRun.conversation hr hs (a.stands_start s)
  constructor
  · rintro rfl
    exact h
  · exact h.unique

/-! A step that shows three latents: the primary decoder runs out of memory at the second one, and meanwhile the session is
cancelled. The fallback decoder is still asked for that latent, and nobody for the third. -/

namespace Sample

/-- The primary decoder gives one image, then it runs out of memory while the session is cancelled. -/
def waning : Decoders Nat :=
  ⟨fun _ n => (if n = 0 then ⟨.ok red, false⟩ else ⟨.error (.outOfMemory "gpu" "full"), true⟩, n + 1),
    fun _ _ n => (⟨.ok red, false⟩, n)⟩

/-- Three latents are asked for, with the fallback decoder at hand. -/
def interrupted : Ask Nat := ⟨previewer { (default : Settings) with fallback := .projection }, waning, batch 3, 0, true⟩

theorem interrupted_calls : interrupted.settings.enabled = true ∧ (Session.withInterval 0).gate.check interrupted.now = .allow ∧
    (interrupted.report (.withInterval 0) 0).calls.map Call.isPrimary = [true, true, false] := by
  have he : interrupted.settings.enabled = true := rfl
  have hg : (Session.withInterval 0).gate.check interrupted.now = .allow := rfl
  have hready : interrupted.Ready (.withInterval 0) ⟨1, 1⟩ := ⟨he, hg, rfl, rfl, nofun⟩
  have hcell : (interrupted.sheet ⟨1, 1⟩).cell = ⟨2, 2⟩ := by decide +kernel
  have hskip : (interrupted.sheet ⟨1, 1⟩).skip = 0 := by decide +kernel
  have hdue := hready.due_eq
  simp only [hcell, hskip] at hdue
  have hc := (interrupted.calls_eq_iff (.withInterval 0) 0 he hg
    [.primary ⟨latent, ⟨2, 2⟩, 0, none, .disabled⟩ ⟨.ok red, false⟩,
      .primary ⟨latent, ⟨2, 2⟩, 0, none, .disabled⟩ ⟨.error (.outOfMemory "gpu" "full"), true⟩,
      .fallback latent ⟨2, 2⟩ ⟨.ok red, false⟩]).2
    ⟨(hdue _).trans rfl, rfl, (hdue _).trans rfl, rfl, (hdue _).trans rfl, rfl, (hdue _).trans rfl⟩
  exact ⟨he, hg, by rw [hc]; rfl⟩

end Sample

end ContactSheet
