import ContactSheet.Proofs.Conversation
import ContactSheet.Proofs.Generation

/-!
# Cancelling a generation

A host cancels a generation between its steps, or while a decoder works on an item. What comes of a step of the second kind
depends on the item: `Ask.ending_of_cancels` says that the step ends as a cancelled one if another item is left, and makes its
sheet if none is. Over a whole generation the session is cancelled from the first cancellation until it is taken back, and in
that time no decoder is called, but for the fallback decoder on the item that the primary one was working on:
`Generation.cancellation_heeded`.
-/

namespace ContactSheet

variable {σ : Type}

/-! ## The items of a step -/

/-- Calls with the number of the item that each is for, from some number on: an item is done with when it has its image. -/
def itemized : Nat → List Call → List (Nat × Call)
  | _, [] => []
  | n, call :: calls => (n, call) :: itemized (n + call.succeeded.toNat) calls

/-- Calls after others are for the items after those that have their image. -/
theorem itemized_append (n : Nat) (calls calls' : List Call) :
    itemized n (calls ++ calls') = itemized n calls ++ itemized (n + calls.countP Call.succeeded) calls' := by
  induction calls generalizing n with
  | nil => rfl
  | cons call calls ih =>
    rw [List.cons_append, itemized, itemized, ih, countP_cons_eq_add, Nat.add_assoc, List.cons_append]

/-- Only the last call for an item can give its image, so that all calls for it bear its number. -/
theorem ItemRun.itemized_eq {ds : Decoders σ} {settings : Settings} {sheet : Sheet} {latent : Latent} {f f' : Bool} {m m' : σ}
    {calls : List Call} {result : Except PreviewError Image} (h : ItemRun ds settings sheet latent f m calls result f' m')
    (n : Nat) : itemized n calls = calls.map (Prod.mk n) := by
  cases h with
  | primary => rfl
  | fallback => rfl
  | rescued ha hr =>
    rw [itemized, Call.succeeded_of_ranOut hr]
    rfl

/-- Calls after those for an item that has its image are for the items after it. -/
theorem ItemRun.itemized_append {ds : Decoders σ} {settings : Settings} {sheet : Sheet} {latent : Latent} {f f' : Bool}
    {m m' : σ} {calls : List Call} {image : Image} (h : ItemRun ds settings sheet latent f m calls (.ok image) f' m') (n : Nat)
    (calls' : List Call) : itemized n (calls ++ calls') = calls.map (Prod.mk n) ++ itemized (n + 1) calls' := by
  obtain ⟨-, -, -, hcount⟩ := h.getLast?_of_ok rfl
  rw [ContactSheet.itemized_append, hcount, h.itemized_eq]

/-- All calls for an item are about its latent. -/
theorem ItemRun.latent_of_mem {ds : Decoders σ} {settings : Settings} {sheet : Sheet} {latent : Latent} {f f' : Bool} {m m' : σ}
    {calls : List Call} {result : Except PreviewError Image} (h : ItemRun ds settings sheet latent f m calls result f' m')
    {c : Call} (hc : c ∈ calls) : c.latent = latent := by
  cases h with
  | primary =>
    obtain rfl := List.mem_singleton.1 hc
    rfl
  | fallback =>
    obtain rfl := List.mem_singleton.1 hc
    rfl
  | rescued =>
    rcases List.mem_cons.1 hc with rfl | hc
    · rfl
    · obtain rfl := List.mem_singleton.1 hc
      rfl

/-- Each call for the items of a sheet is about the latent whose number it bears. -/
theorem SheetRun.latent_of_itemized {ds : Decoders σ} {settings : Settings} {sheet : Sheet} {f k : Bool} {m m' : σ}
    {latents : List Latent} {calls : List Call} {result : Except PreviewError (List Image)}
    (h : SheetRun ds settings sheet f k m latents calls result m') (n : Nat) :
    ∀ p ∈ itemized n calls, ∃ i, p.1 = n + i ∧ latents[i]? = some p.2.latent := by
  induction h generalizing n with
  | done => exact fun p hp => absurd hp List.not_mem_nil
  | stopped => exact fun p hp => absurd hp List.not_mem_nil
  | failed hi =>
    intro p hp
    rw [hi.itemized_eq] at hp
    obtain ⟨c, hc, rfl⟩ := List.mem_map.1 hp
    exact ⟨0, rfl, congrArg some (hi.latent_of_mem hc).symm⟩
  | decoded hi hs ih =>
    intro p hp
    rw [hi.itemized_append] at hp
    rcases List.mem_append.1 hp with hp | hp
    · obtain ⟨c, hc, rfl⟩ := List.mem_map.1 hp
      exact ⟨0, rfl, congrArg some (hi.latent_of_mem hc).symm⟩
    · obtain ⟨i, hn, hl⟩ := ih (n + 1) p hp
      exact ⟨i + 1, by omega, hl⟩

/-- Each call of a step is about the latent whose number it bears. -/
theorem Ask.Run.latent_of_itemized {a : Ask σ} {s : Session} {m : σ} {r : Report σ (Except PreviewError Outcome)}
    (h : a.Run s m r) {n : Nat} {c : Call} (hn : (n, c) ∈ itemized 0 r.calls) : a.latents[n]? = some c.latent := by
  rcases h.serves with hnil | ⟨dims, result, m', -, hs⟩
  · rw [hnil] at hn
    cases hn
  · obtain ⟨i, hi, hl⟩ := SheetRun.latent_of_itemized hs 0 _ hn
    obtain rfl : n = i := hi.trans (Nat.zero_add i)
    exact hl

/-! ## Cancelling during a step -/

/-- The decoder gave an image, or it was the primary one that ran out of memory and the fallback decoder stands in for it. -/
def Call.fulfilled (settings : Settings) (c : Call) : Bool := c.succeeded || c.ranOut && settings.fallback = .projection

/-- A call that succeeded gave an image. -/
theorem Call.ok_of_succeeded {c : Call} (h : c.succeeded = true) : ∃ image, c.answer.result = .ok image := by
  cases hr : c.answer.result with
  | ok image => exact ⟨image, rfl⟩
  | error e =>
    rw [Call.succeeded_of_error hr] at h
    cases h

/-- A call that was fulfilled and did not run out of memory gave an image. -/
theorem Call.ok_of_fulfilled {settings : Settings} {c : Call} (h : c.fulfilled settings = true)
    (hran : c.ranOut = true → settings.fallback = .absent) : ∃ image, c.answer.result = .ok image := by
  rcases Bool.or_eq_true_iff.1 h with hok | hout
  · exact Call.ok_of_succeeded hok
  · obtain ⟨hout, hf⟩ := Bool.and_eq_true_iff.1 hout
    rw [hran hout] at hf
    cases hf

/-- An item has its image when all its calls were fulfilled. -/
theorem ItemRun.ok_of_fulfilled {ds : Decoders σ} {settings : Settings} {sheet : Sheet} {latent : Latent} {f f' : Bool}
    {m m' : σ} {calls : List Call} {result : Except PreviewError Image}
    (h : ItemRun ds settings sheet latent f m calls result f' m') (hall : ∀ c ∈ calls, c.fulfilled settings = true) :
    ∃ image, result = .ok image := by
  cases h with
  | primary ha hr => exact Call.ok_of_fulfilled (hall _ List.mem_cons_self) hr
  | fallback ha => exact Call.ok_of_fulfilled (hall _ List.mem_cons_self) nofun
  | rescued ha hr hf ha' => exact Call.ok_of_fulfilled (hall _ (List.mem_cons_of_mem _ List.mem_cons_self)) nofun

/-- A sheet in a cancelled session is complete when it has no items, and is cancelled when it has. -/
theorem SheetRun.of_cancelled {ds : Decoders σ} {settings : Settings} {sheet : Sheet} {f : Bool} {m m' : σ}
    {latents : List Latent} {calls : List Call} {result : Except PreviewError (List Image)}
    (h : SheetRun ds settings sheet f true m latents calls result m') :
    (latents = [] → result = .ok []) ∧ (latents ≠ [] → result = .error .cancelled) := by
  cases h with
  | done => exact ⟨fun _ => rfl, fun h => absurd rfl h⟩
  | stopped => exact ⟨nofun, fun _ => rfl⟩

/-- A sheet whose session is cancelled during a call for an item ends as a cancelled one if there are items after that, and is
complete if there are none, unless an item ends with an error. -/
theorem SheetRun.of_cancels {ds : Decoders σ} {settings : Settings} {sheet : Sheet} {f k : Bool} {m m' : σ}
    {latents : List Latent} {calls : List Call} {result : Except PreviewError (List Image)}
    (h : SheetRun ds settings sheet f k m latents calls result m') (hall : ∀ c ∈ calls, c.fulfilled settings = true) {n i : Nat}
    {c : Call} (hi : (n + i, c) ∈ itemized n calls) (hc : c.cancels = true) :
    (i + 1 < latents.length → result = .error .cancelled) ∧ (i + 1 = latents.length → ∃ images, result = .ok images) := by
  induction h generalizing n i with
  | done => cases hi
  | stopped => cases hi
  | failed hitem =>
    obtain ⟨image, himage⟩ := hitem.ok_of_fulfilled hall
    cases himage
  | @decoded _ _ _ _ _ _ latents calls calls' image result hitem hs ih =>
    rw [hitem.itemized_append] at hi
    rcases List.mem_append.1 hi with hi | hi
    · -- The session is cancelled when the next item is due, so what counts is whether there is one.
      obtain ⟨c', hmem, hi⟩ := List.mem_map.1 hi
      obtain ⟨hn, rfl⟩ := Prod.mk.inj hi
      obtain rfl : i = 0 := by omega
      have hcancelled : calls.any Call.cancels = true := List.any_eq_true.2 ⟨c', hmem, hc⟩
      rw [hcancelled] at hs
      obtain ⟨hnil, hcons⟩ := hs.of_cancelled
      constructor
      · intro hlen
        rw [hcons (by rintro rfl; exact absurd hlen (by simp))]
        rfl
      · intro hlen
        rw [hnil (List.eq_nil_of_length_eq_zero (by simpa using hlen.symm))]
        exact ⟨_, rfl⟩
    · obtain ⟨j, hj, -⟩ := hs.latent_of_itemized (n + 1) _ hi
      obtain rfl : i = j + 1 := by omega
      have hi' : (n + 1 + j, c) ∈ itemized (n + 1) calls' := by
        rwa [Nat.add_assoc, Nat.add_comm 1 j]
      obtain ⟨hleft, hlast⟩ := ih (fun c hc => hall c (List.mem_append_right _ hc)) hi'
      constructor
      · intro hlen
        rw [hleft (Nat.lt_of_succ_lt_succ hlen)]
        rfl
      · intro hlen
        obtain ⟨images, himages⟩ := hlast (Nat.succ.inj hlen)
        exact ⟨_, by rw [himages]; rfl⟩

/-- A step during which the session is cancelled while a decoder works on an item, and whose decoders give all the images that
they are asked for, ends as a cancelled one if there are items after that one; then neither the gate nor the number of sheets
has changed. If that item is the last one, the step makes its sheet all the same. -/
theorem Ask.ending_of_cancels (a : Ask σ) (s : Session) (m : σ)
    (hall : ∀ c ∈ (a.report s m).calls, c.fulfilled a.settings = true) {n : Nat} {c : Call}
    (hn : (n, c) ∈ itemized 0 (a.report s m).calls) (hc : c.cancels = true) :
    (n + 1 < a.latents.length →
      (a.report s m).result = .ok .cancelled ∧ (a.report s m).session.gate = s.gate ∧
        (a.report s m).session.stats.emitted = s.stats.emitted) ∧
    (n + 1 = a.latents.length → ∃ image, (a.report s m).result = .ok (.emitted image)) := by
  have hrun := a.report_run s m
  generalize a.report s m = r at hrun hall hn
  have hn' : (0 + n, c) ∈ itemized 0 r.calls := by rwa [Nat.zero_add]
  cases hrun with
  | emitted hr hs =>
    obtain ⟨hleft, -⟩ := SheetRun.of_cancels hs hall hn' hc
    exact ⟨fun hlen => absurd (hleft hlen) nofun, fun _ => ⟨_, rfl⟩⟩
  | @interrupted _ calls _ hr hs =>
    obtain ⟨-, hlast⟩ := SheetRun.of_cancels hs hall hn' hc
    have hemitted : (a.noted s calls).stats.emitted = s.stats.emitted := by rw [a.noted_stats]
    refine ⟨fun _ => ⟨rfl, a.noted_gate s calls, hemitted⟩, fun hlen => ?_⟩
    obtain ⟨images, himages⟩ := hlast hlen
    cases himages
  | failed hr hs he =>
    obtain ⟨hleft, hlast⟩ := SheetRun.of_cancels hs hall hn' hc
    refine ⟨fun hlen => absurd (Except.error.inj (hleft hlen)) he, fun hlen => ?_⟩
    obtain ⟨images, himages⟩ := hlast hlen
    cases himages
  | _ => cases hn

namespace Sample

/-- Of the three latents of `interrupted`, the second one is being decoded when the session is cancelled. -/
theorem interrupted_ending : (∀ c ∈ (interrupted.report (.withInterval 0) 0).calls, c.fulfilled interrupted.settings = true) ∧
    1 + 1 < interrupted.latents.length ∧ (interrupted.report (.withInterval 0) 0).result = .ok .cancelled := by
  have hall : ∀ c ∈ (interrupted.report (.withInterval 0) 0).calls, c.fulfilled interrupted.settings = true :=
    List.all_eq_true.1 (by decide +kernel)
  have hlen : 1 + 1 < interrupted.latents.length := by decide +kernel
  have hsecond : (itemized 0 (interrupted.report (.withInterval 0) 0).calls).any (fun p => p.1 == 1 && p.2.cancels) = true := by
    decide +kernel
  obtain ⟨⟨n, c⟩, hn, hc⟩ := List.any_eq_true.1 hsecond
  obtain ⟨hone, hc⟩ := Bool.and_eq_true_iff.1 hc
  obtain rfl : n = 1 := eq_of_beq hone
  obtain ⟨hleft, -⟩ := interrupted.ending_of_cancels (.withInterval 0) 0 hall hn hc
  exact ⟨hall, hlen, (hleft hlen).1⟩

/-- The session is cancelled while the primary decoder gives an image. -/
def interrupting : Decoders Unit := ⟨fun _ m => (⟨.ok red, true⟩, m), fun _ _ m => (⟨.ok red, false⟩, m)⟩

/-- One latent is asked for. -/
def lastItem : Ask Unit := ⟨previewer default, interrupting, batch 1, 0, true⟩

/-- A cancellation that comes while the last item is being decoded does not keep the sheet back. -/
theorem lastItem_emitted : lastItem.settings.enabled = true ∧ (Session.withInterval 0).gate.check lastItem.now = .allow ∧
    (Session.withInterval 0).cancelled = false ∧ lastItem.batch.size = 1 ∧
    (∀ c ∈ (lastItem.report (.withInterval 0) ()).calls, c.succeeded = true) ∧
    (∃ c ∈ (lastItem.report (.withInterval 0) ()).calls, c.cancels = true) ∧
    (lastItem.report (.withInterval 0) ()).session.cancelled = true ∧
    (Turn.mk lastItem (lastItem.report (.withInterval 0) ())).ending = .emitted ∧
    (lastItem.report (.withInterval 0) ()).session.gate.lastEmit = some 0 ∧
    (lastItem.report (.withInterval 0) ()).session.stats.emitted = 1 := by
  refine ⟨rfl, rfl, rfl, rfl, List.all_eq_true.1 ?_, List.any_eq_true.1 ?_, ?_, ?_, ?_, ?_⟩
  · decide +kernel
  · decide +kernel
  · decide +kernel
  · decide +kernel
  · decide +kernel
  · decide +kernel

end Sample

/-! ## What happens in a generation -/

/-- What happens in a generation. -/
inductive Happening where
  /-- A decoder is called, in the step and for the item with these numbers. -/
  | call (step item : Nat) (call : Call)
  | cancel
  | resetCancel

namespace Happening

/-- Whether the session is cancelled after something happened, given whether it was before. -/
def flag (cancelled : Bool) : Happening → Bool
  | .call _ _ c => cancelled || c.cancels
  | .cancel => true
  | .resetCancel => false

/-- The calls of a step, from some item on. -/
def ofCalls (step n : Nat) (calls : List Call) : List Happening := (itemized n calls).map fun p => .call step p.1 p.2

/-- The calls of a step for some items and for those after them. -/
theorem ofCalls_append (step n : Nat) (calls calls' : List Call) :
    ofCalls step n (calls ++ calls') = ofCalls step n calls ++ ofCalls step (n + calls.countP Call.succeeded) calls' := by
  rw [ofCalls, itemized_append, List.map_append]
  rfl

/-- The session is cancelled after calls when it was before, or when it was during one of them. -/
theorem foldl_flag_ofCalls (step n : Nat) (calls : List Call) (cancelled : Bool) :
    (ofCalls step n calls).foldl flag cancelled = (cancelled || calls.any Call.cancels) := by
  induction calls generalizing n cancelled with
  | nil => exact (Bool.or_false _).symm
  | cons call calls ih =>
    show (ofCalls step (n + call.succeeded.toNat) calls).foldl flag (cancelled || call.cancels) = _
    rw [ih, List.any_cons, Bool.or_assoc]

end Happening

/-- A decoder that is called while the session is cancelled is the fallback decoder, and it is called for an item for which the
primary decoder just ran out of memory in the same step; the session was not cancelled before that. -/
def Heeded (cancelled : Bool) (trace : List Happening) : Prop :=
  ∀ before step item call after, trace = before ++ .call step item call :: after →
    before.foldl Happening.flag cancelled = true →
      ∃ earlier request answer, before = earlier ++ [.call step item (.primary request answer)] ∧
        earlier.foldl Happening.flag cancelled = false ∧ (Call.primary request answer).ranOut = true ∧
        call.question = .fallback request.latent request.target

/-- Nothing happens. -/
theorem Heeded.nil (cancelled : Bool) : Heeded cancelled [] := by
  intro before step item call after h
  cases before <;> cases h

/-- One thing happens, and it is not a call in a cancelled session. -/
theorem Heeded.singleton {cancelled : Bool} {h : Happening}
    (hcall : ∀ step item call, h = .call step item call → cancelled = false) : Heeded cancelled [h] := by
  intro before step item call after heq hflag
  cases before with
  | nil =>
    obtain ⟨rfl, -⟩ := List.cons.inj heq
    rw [hcall step item call rfl] at hflag
    cases hflag
  | cons x before =>
    obtain ⟨-, hnil⟩ := List.cons.inj heq
    cases before <;> cases hnil

/-- The primary decoder runs out of memory for an item, and the fallback decoder is called for the same one. -/
theorem Heeded.rescued (step item : Nat) {request : Request} {answer : Answer} (answer' : Answer)
    (hran : (Call.primary request answer).ranOut = true) :
    Heeded false
      [.call step item (.primary request answer), .call step item (.fallback request.latent request.target answer')] := by
  intro before step' item' call after heq hflag
  cases before with
  | nil => cases hflag
  | cons x before =>
    obtain ⟨rfl, htail⟩ := List.cons.inj heq
    cases before with
    | nil =>
      obtain ⟨hcall, -⟩ := List.cons.inj htail
      obtain ⟨rfl, rfl, rfl⟩ := Happening.call.inj hcall
      exact ⟨[], request, answer, rfl, rfl, hran, rfl⟩
    | cons y before =>
      obtain ⟨-, hnil⟩ := List.cons.inj htail
      cases before <;> cases hnil

/-- One thing happens after the other. -/
theorem Heeded.append {cancelled : Bool} {trace trace' : List Happening} (h : Heeded cancelled trace)
    (h' : Heeded (trace.foldl Happening.flag cancelled) trace') : Heeded cancelled (trace ++ trace') := by
  intro before step item call after heq hflag
  rcases List.append_eq_append_iff.1 heq with ⟨before', rfl, htrace'⟩ | ⟨rest, rfl, hrest⟩
  · rw [List.foldl_append] at hflag
    obtain ⟨earlier, request, answer, rfl, hearlier, hran, hq⟩ := h' before' step item call after htrace' hflag
    exact ⟨trace ++ earlier, request, answer, (List.append_assoc _ _ _).symm, by rwa [List.foldl_append], hran, hq⟩
  · cases rest with
    | nil =>
      -- The call comes first in the second part, where nothing before it explains it.
      rw [List.append_nil] at h'
      obtain ⟨earlier, request, answer, hnil, -⟩ := h' [] step item call after hrest.symm hflag
      cases earlier <;> cases hnil
    | cons x rest =>
      obtain ⟨rfl, -⟩ := List.cons.inj hrest
      exact h before step item call rest rfl hflag

/-- While an item is decoded, no decoder is called after a cancellation but to make up for one that ran out of memory. -/
theorem ItemRun.heeded {ds : Decoders σ} {settings : Settings} {sheet : Sheet} {latent : Latent} {f f' : Bool} {m m' : σ}
    {calls : List Call} {result : Except PreviewError Image} (h : ItemRun ds settings sheet latent f m calls result f' m')
    (step n : Nat) : Heeded false (Happening.ofCalls step n calls) := by
  have hof : Happening.ofCalls step n calls = calls.map (Happening.call step n) := by
    rw [Happening.ofCalls, h.itemized_eq, List.map_map]
    rfl
  rw [hof]
  cases h with
  | primary => exact Heeded.singleton fun _ _ _ _ => rfl
  | fallback => exact Heeded.singleton fun _ _ _ _ => rfl
  | @rescued _ _ _ answer answer' ha hr => exact Heeded.rescued step n answer' hr

/-- While the items of a sheet are decoded, no decoder is called after a cancellation but to make up for one that ran out of
memory. -/
theorem SheetRun.heeded {ds : Decoders σ} {settings : Settings} {sheet : Sheet} {f k : Bool} {m m' : σ} {latents : List Latent}
    {calls : List Call} {result : Except PreviewError (List Image)}
    (h : SheetRun ds settings sheet f k m latents calls result m') (step n : Nat) :
    Heeded k (Happening.ofCalls step n calls) := by
  induction h generalizing n with
  | done => exact Heeded.nil _
  | stopped => exact Heeded.nil _
  | failed hi => exact hi.heeded step n
  | decoded hi hs ih =>
    rw [Happening.ofCalls_append]
    refine (hi.heeded step n).append ?_
    rw [Happening.foldl_flag_ofCalls, Bool.false_or]
    exact ih _

/-- The calls of a step heed a cancellation. -/
theorem Ask.Run.heeded {a : Ask σ} {s : Session} {m : σ} {r : Report σ (Except PreviewError Outcome)} (h : a.Run s m r)
    (step : Nat) : Heeded s.cancelled (Happening.ofCalls step 0 r.calls) := by
  rcases h.serves with hnil | ⟨dims, result, m', hr, hs⟩
  · rw [hnil]
    exact Heeded.nil _
  · rw [hr.active]
    exact SheetRun.heeded hs step 0

/-- A step in a cancelled session finds previews switched off or too early, or is cancelled itself. It is counted, and if the
gate holds it back that is counted, too; nothing else of the session changes. -/
theorem Ask.Run.of_cancelled {a : Ask σ} {s : Session} {m : σ} {r : Report σ (Except PreviewError Outcome)} (h : a.Run s m r)
    (hc : s.cancelled = true) :
    (Turn.mk a r).ending ∈ [Ending.disabled, .throttled, .cancelled] ∧
      r.session = { s with stats := { s.stats with
        invocations := s.stats.invocations + 1
        throttled := s.stats.throttled + if (Turn.mk a r).ending = .throttled then 1 else 0 } } := by
  have hno {dims : Size} (hr : a.Ready s dims) : False := by
    rw [hr.active] at hc
    cases hc
  cases h with
  | disabled => exact ⟨by simp [Turn.ending, Outcome.ending], rfl⟩
  | throttled => exact ⟨by simp [Turn.ending, Outcome.ending], rfl⟩
  | cancelled => exact ⟨by simp [Turn.ending, Outcome.ending], rfl⟩
  | empty _ _ hc' =>
    rw [hc'] at hc
    cases hc
  | unserved _ _ hc' =>
    rw [hc'] at hc
    cases hc
  | emitted hr => exact (hno hr).elim
  | interrupted hr => exact (hno hr).elim
  | failed hr => exact (hno hr).elim

namespace Generation

/-- What happens in a move. -/
def happenings (g : Generation σ) : Move σ → List Happening
  | .ask a => Happening.ofCalls g.turns.length 0 (g.turn a).report.calls
  | .cancel => [.cancel]
  | .resetCancel => [.resetCancel]

/-- What happens along moves. -/
def trace (g : Generation σ) (moves : List (Move σ)) : List Happening := g.along happenings moves

/-- Whether the session is cancelled after a move is told by what happened in it. -/
theorem cancelled_act (g : Generation σ) (move : Move σ) :
    (g.act move).session.cancelled = (g.happenings move).foldl Happening.flag g.session.cancelled := by
  cases move with
  | ask a => exact (g.turn_run a).cancelled_eq.trans (Happening.foldl_flag_ofCalls _ _ _ _).symm
  | cancel => rfl
  | resetCancel => rfl

/-- Whether the session is cancelled after moves is told by what happened along them. -/
theorem cancelled_run (g : Generation σ) (moves : List (Move σ)) :
    (g.run moves).session.cancelled = (g.trace moves).foldl Happening.flag g.session.cancelled := by
  induction moves generalizing g with
  | nil => rfl
  | cons move moves ih =>
    show ((g.act move).run moves).session.cancelled = (g.happenings move ++ (g.act move).trace moves).foldl _ _
    rw [ih, List.foldl_append, cancelled_act]

/-- What happens along moves heeds a cancellation. -/
theorem heeded_trace (g : Generation σ) (moves : List (Move σ)) : Heeded g.session.cancelled (g.trace moves) := by
  induction moves generalizing g with
  | nil => exact Heeded.nil _
  | cons move moves ih =>
    have hmove : Heeded g.session.cancelled (g.happenings move) := by
      cases move with
      | ask a => exact (g.turn_run a).heeded g.turns.length
      | cancel => exact Heeded.singleton fun _ _ _ h => nomatch h
      | resetCancel => exact Heeded.singleton fun _ _ _ h => nomatch h
    refine hmove.append ?_
    rw [← cancelled_act]
    exact ih (g.act move)

/-- A call along moves is about the latent whose number it bears, in the step whose number it bears. -/
theorem latent_of_mem_trace (g : Generation σ) (moves : List (Move σ)) {step item : Nat} {c : Call}
    (h : .call step item c ∈ g.trace moves) :
    ∃ t, (g.run moves).turns[step]? = some t ∧ t.ask.latents[item]? = some c.latent := by
  induction moves generalizing g with
  | nil => cases h
  | cons move moves ih =>
    rcases List.mem_append.1 h with h | h
    · cases move with
      | ask a =>
        obtain ⟨⟨n, c'⟩, hn, heq⟩ := List.mem_map.1 h
        obtain ⟨rfl, rfl, rfl⟩ := Happening.call.inj heq
        refine ⟨g.turn a, ?_, (g.turn_run a).latent_of_itemized hn⟩
        rw [turns_run, List.getElem?_append_right (Nat.le_refl _), Nat.sub_self]
        rfl
      | cancel => cases List.mem_singleton.1 h
      | resetCancel => cases List.mem_singleton.1 h
    · exact ih (g.act move) h

/-- Whatever a host does in a generation, and whatever happens during the calls of its decoders: the session is cancelled just
when a cancellation came that was not taken back since, which no step does; while it is cancelled no decoder is called, but for
the fallback decoder that makes up for the primary one on the item at hand; and a step that begins then finds previews switched
off or too early, or is cancelled itself, and changes nothing of the session but the counters for this. -/
theorem cancellation_heeded (g : Generation σ) (moves : List (Move σ)) :
    (g.run moves).session.cancelled = (g.trace moves).foldl Happening.flag g.session.cancelled ∧
    Heeded g.session.cancelled (g.trace moves) ∧
    (∀ step item call, .call step item call ∈ g.trace moves →
      ∃ t, (g.run moves).turns[step]? = some t ∧ t.ask.latents[item]? = some call.latent) ∧
    ∀ a, (g.run moves).session.cancelled = true →
      let s := (g.run moves).session
      let t := (g.run moves).turn a
      t.ending ∈ [Ending.disabled, .throttled, .cancelled] ∧
        t.report.session = { s with stats := { s.stats with
          invocations := s.stats.invocations + 1
          throttled := s.stats.throttled + if t.ending = .throttled then 1 else 0 } } :=
  ⟨g.cancelled_run moves, g.heeded_trace moves, fun _ _ _ h => g.latent_of_mem_trace moves h,
    fun a hc => ((g.run moves).turn_run a).of_cancelled hc⟩

end Generation

namespace Sample

/-- The session of `interrupted` was cancelled during its second call. The third call is still made, for the item of the second
one, and a step that follows calls nobody. -/
theorem interrupted_heeded : ((Generation.start 0 0).trace [.ask interrupted, .ask interrupted]).length = 3 ∧
    Heeded false ((Generation.start 0 0).trace [.ask interrupted, .ask interrupted]) ∧
    ((Generation.start 0 0).run [.ask interrupted, .ask interrupted]).session.cancelled = true ∧
    (((Generation.start 0 0).run [.ask interrupted, .ask interrupted]).turn interrupted).ending ∈
      [Ending.disabled, .throttled, .cancelled] := by
  obtain ⟨hflag, hheeded, -, hstep⟩ := (Generation.start 0 0).cancellation_heeded [.ask interrupted, .ask interrupted]
  have hcancelled : ((Generation.start 0 0).run [.ask interrupted, .ask interrupted]).session.cancelled = true := by
    rw [hflag]
    decide +kernel
  exact ⟨by decide +kernel, hheeded, hcancelled, (hstep interrupted hcancelled).1⟩

end Sample

end ContactSheet
