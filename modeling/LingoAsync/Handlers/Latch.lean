import LingoAsync.Handlers.Invariants
import LingoAsync.Handlers.Journal

/-!
# The quests latch over a run

A core that does not mount the quests answers a listing with 404. The evaluator then sets a latch
and asks for no quests again while the process lives. `live_latch` says that of whole runs: the
latch is set exactly if a listing has been answered so, there is one such listing in the journal at
most, and no call about quests comes after it; from then on, events that call for quests alone are
settled without a call.

Between that answer and the setting of the latch neither half of the invariant holds, so it is one
of programs, not of calls: `LatchSound` holds before and after `evaluate_quests_for`.
-/

namespace LingoAsync.Handlers

open LingoAsync.Text LingoAsync.Contracts LingoAsync.Handler LingoAsync.Machine LingoAsync.Action

variable {F D T : Type}

/-- A listing that was answered with 404. -/
def Entry.Unmounts (e : Entry F) : Prop :=
  (∃ userId, e.call = .listQuests userId) ∧ e.answer = .error (.HTTPStatusError 404)

/-- No listing has been answered with 404, and the latch is not set. -/
structure Mounted (s : LiveState F T) : Prop where
  unset : s.world.unmounted = false
  none : ∀ e ∈ s.journal, ¬ e.Unmounts

/-- The latch is set, by one listing, and no call about quests has come after it. -/
structure Latched (s : LiveState F T) : Prop where
  set : s.world.unmounted = true
  once : ∃ pre e post, s.journal = pre ++ e :: post ∧ e.Unmounts ∧ (∀ e' ∈ pre, ¬ e'.Unmounts) ∧
    ∀ e' ∈ post, asksQuests e'.call = false

def LatchSound (s : LiveState F T) : Prop := Mounted s ∨ Latched s

variable {stack : Stack F T} {s : LiveState F T}

/-! ## Calls -/

/-- An entry that is no such listing changes nothing. -/
theorem Mounted.noted (h : Mounted s) {e : Entry F} (he : ¬ e.Unmounts)
    (client : Http.ClientState T) (updates : Nat) : Mounted (s.noted e client updates) where
  unset := h.unset
  none e' he' := by
    rcases List.mem_append.mp he' with hold | hnew
    · exact h.none e' hold
    · rw [List.mem_singleton.mp hnew]
      exact he

/-- Nor does one that is not about quests. -/
theorem Latched.noted (h : Latched s) {e : Entry F} (he : asksQuests e.call = false)
    (client : Http.ClientState T) (updates : Nat) : Latched (s.noted e client updates) where
  set := h.set
  once := by
    obtain ⟨pre, first, post, hjournal, hfirst, hpre, hpost⟩ := h.once
    refine ⟨pre, first, post ++ [e], ?_, hfirst, hpre, ?_⟩
    · show s.journal ++ [e] = _
      rw [hjournal, List.append_assoc]
      rfl
    · intro e' he'
      rcases List.mem_append.mp he' with hold | hnew
      · exact hpost e' hold
      · rw [List.mem_singleton.mp hnew]
        exact he

variable [Http.Clock T]

/-- A call that is no listing keeps the quests mounted. -/
theorem call_mounted {c : Call F} (hc : ∀ userId, c ≠ .listQuests userId) (h : Mounted s) :
    Mounted (stack.call c s).2 := by
  obtain ⟨e, client, updates, hcall, rfl⟩ := call_cases stack c s
  rw [hcall]
  exact h.noted (fun hu => hu.1.elim hc) client updates

/-- A call that is not about quests settles nothing. -/
theorem call_latchSound {c : Call F} (hc : asksQuests c = false) (h : LatchSound s) :
    LatchSound (stack.call c s).2 := by
  rcases h with hm | hl
  · refine .inl (call_mounted (fun userId he => ?_) hm)
    rw [he] at hc
    cases hc
  · obtain ⟨e, client, updates, hcall, rfl⟩ := call_cases stack c s
    rw [hcall]
    exact .inr (hl.noted hc client updates)

/-! ## Programs -/

theorem run_mounted {α : Type} {p : Prog F α} (hp : p.Makes BumpsOnly) (h : Mounted s) :
    Mounted (p.run stack.live s).2 := by
  refine hp.run_inv (P := Mounted) ?_ h
  intro r hr s h
  cases r with
  | call c =>
    obtain ⟨questId, userId, delta, hc⟩ := hr
    exact call_mounted (fun userId he => by rw [hc] at he; cases he) h
  | now => exact ⟨h.unset, h.none⟩
  | questsSurfaceUnmounted => exact h
  | setQuestsSurfaceUnmounted => cases hr

variable [PyFloat F]

/-- `evaluate_quests_for` keeps the latch sound. -/
theorem evaluateQuestsFor_latchSound (rt : Runtime) (userId : PyStr) (event : EventMessage F D)
    (h : LatchSound s) :
    LatchSound ((Quests.evaluateQuestsFor rt userId event).run stack.live s).2 := by
  unfold Quests.evaluateQuestsFor
  split
  · exact h
  · next unit delta _ =>
    split
    · exact h
    · have hread : stack.live .questsSurfaceUnmounted s = (.ok s.world.unmounted, s) := rfl
      rw [Program.run_bind, Program.run_perform, Action.bind_ok hread]
      cases hu : s.world.unmounted with
      | true => exact h
      | false =>
        have hm : Mounted s := h.resolve_right fun hl => by rw [hl.set] at hu; cases hu
        obtain ⟨e, client, updates, hcall, he⟩ := call_cases stack (.listQuests userId) s
        have hattempt : (stack.live (.call (.listQuests userId))).attempt s =
            (.ok e.answer, s.noted e client updates) := by
          rw [Action.attempt, Stack.live, hcall]
        rw [if_neg Bool.false_ne_true, Program.run_bind, Program.run_attempt,
          Action.bind_ok hattempt]
        cases hans : e.answer with
        | ok listed =>
          refine .inl (run_mounted (evaluateListing_bumpsOnly rt userId unit delta listed)
            (hm.noted (fun hun => ?_) client updates))
          rw [hun.2] at hans
          cases hans
        | error exc =>
          dsimp only
          split
          · next h404 =>
            -- the latch is set right after the answer that calls for it
            rw [h404] at hans
            exact .inr ⟨rfl, s.journal, e, [], rfl, ⟨⟨userId, he⟩, hans⟩, hm.none,
              List.forall_mem_nil _⟩
          · next hother =>
            refine .inl (hm.noted (fun hun => hother ?_) client updates)
            exact Except.error.inj (hans.symm.trans hun.2)

/-- Once the latch is set the evaluator returns at once. -/
theorem evaluateQuestsFor_latched (rt : Runtime) (userId : PyStr) (event : EventMessage F D)
    (h : s.world.unmounted = true) :
    (Quests.evaluateQuestsFor rt userId event).run stack.live s = (.ok [], s) := by
  have hread : stack.live .questsSurfaceUnmounted s = (.ok true, s) := by
    rw [← h]
    rfl
  unfold Quests.evaluateQuestsFor
  split
  · rfl
  · split
    · rfl
    · rw [Program.run_bind, Program.run_perform, Action.bind_ok hread]
      rfl

/-- And so do the handlers that evaluate the quests and nothing else. -/
theorem handle_latched (cfg : Settings) (rt : Runtime) {event : EventMessage F D}
    (hevent : ∀ m, event ≠ .xpAwarded m) (h : s.world.unmounted = true) :
    ∃ outcomes, (handle cfg rt event).run stack.live s = (.ok outcomes, s) := by
  have hsole : ∀ event : EventMessage F D,
      ∃ outcomes, (questsOnly rt event).run stack.live s = (.ok outcomes, s) := by
    intro event
    have hquests : (questEval rt event).run stack.live s =
        (.ok (outcome "quest_eval" []), s) := by
      exact Program.run_bind_ok (evaluateQuestsFor_latched rt event.userId event h) _
    exact ⟨_, Program.run_bind_ok hquests _⟩
  cases event with
  | xpAwarded m => exact absurd rfl (hevent m)
  | lessonCompleted m => exact hsole _
  | reviewCompleted m => exact hsole _
  | friendAdded m => exact hsole _
  | subscriptionChanged m => exact ⟨_, rfl⟩
  | adWatched m => exact ⟨_, rfl⟩

/-! ## Runs -/

/-- Nothing a record does unsettles it: of the requests, only those about quests could. -/
theorem preserves_latchSound (app : App F D) (stack : Stack F T) :
    Preserves app stack.now stack.live LatchSound where
  now s h := h.imp (fun hm => ⟨hm.unset, hm.none⟩) fun hl => ⟨hl.set, hl.once⟩
  quiet r hr s h := by
    cases r with
    | call c => exact call_latchSound hr h
    | now => exact h.imp (fun hm => ⟨hm.unset, hm.none⟩) fun hl => ⟨hl.set, hl.once⟩
    | questsSurfaceUnmounted => exact h
    | setQuestsSurfaceUnmounted => cases hr
  quests event s h := evaluateQuestsFor_latchSound app.rt event.userId event h

/-- **One listing unmounts the quests for good.** Over any schedule, from a process that has just
started: either no listing was answered with 404 and the latch is not set, or one was, the latch is
set, and no call about quests has come after it. From then on an event that calls for quests alone
is settled, and no call is made for it. -/
theorem live_latch (app : App F D) (stack : Stack F T) (client : Http.ClientState T)
    (schedule : List (List SqsRecord)) :
    let w := app.live stack
    let s' := run w.invoke (.start client) schedule
    (Mounted s' ∨ Latched s') ∧
    (Latched s' → ∀ record event, w.parse record = .ok event →
      (∀ m, event ≠ .xpAwarded m) → (w.handleRecord none record s').1 = .ok none ∧
        (w.handleRecord none record s').2.journal = s'.journal) := by
  intro w s'
  have hstart : LatchSound (.start client : LiveState F T) :=
    .inl ⟨rfl, fun _ he => absurd he List.not_mem_nil⟩
  refine ⟨(preserves_latchSound app stack).run schedule hstart, ?_⟩
  intro hlatched record event hparse hevent
  rw [handleRecord_dispatched hparse]
  have hquiet : ∃ outcomes, dispatch w.handlers event (w.tick s') = (.ok outcomes, w.tick s') := by
    show ∃ outcomes, dispatch (handlersOn app.cfg app.rt stack.live) event (w.tick s') = _
    rw [dispatch_handlersOn]
    exact handle_latched app.cfg app.rt hevent hlatched.set
  obtain ⟨outcomes, hdispatch⟩ := hquiet
  rw [hdispatch]
  exact ⟨rfl, rfl⟩

end LingoAsync.Handlers
