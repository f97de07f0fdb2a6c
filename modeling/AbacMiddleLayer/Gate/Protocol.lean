import AbacMiddleLayer.Gate.Session
import Mathlib.Data.List.Chain

/-! # The answers of the command loop

The steps of `Session` fail where the code itself raises an ERROR. Here an ERROR may be
raised anywhere: at the head of the loop before ReadyForQuery is sent, and at every point
of handling a message, and what aborting leaves in the store is not restricted. While a
message is being read an ERROR is turned into FATAL, so that no message follows.
-/
namespace AbacMiddleLayer.Gate

/-- The session as a message finds it: the head of the loop has reset both flags. -/
def Session.atRead (s : Session) : Session := { s with doingExtended := false, sendReady := false }

/-- `SocketBackend` has read the type of the message. -/
def Session.received (s : Session) (msg : Message) : Session :=
  { s with
    ignoreTillSync := s.ignoreTillSync && !msg.endsSkip
    doingExtended := msg.extended }

/-- The recovery at `sigsetjmp`, up to the loop. -/
def Session.recover (s : Session) (st : Store) : Session :=
  let ignore := s.ignoreTillSync || s.doingExtended
  { s with
    store := st
    ignoreTillSync := ignore
    sendReady := s.sendReady || !ignore }

/-- The head of the loop: readiness is announced, after any number of ERRORs. -/
inductive Head : Session → List Event → Session → Prop where
  | ready (s : Session) : Head s (announce s) s.atRead
  | error {s s' : Session} {events : List Event} (st : Store)
      (again : Head (Session.recover { s with doingExtended := false } st) events s') :
      Head s events s'

/-- A message that was read is skipped, handled to the end, or interrupted by an ERROR. -/
inductive Turn (cfg : Config) (s : Session) (msg : Message) : List Event → Session → Prop where
  | skip (h : skipped s msg = true) : Turn cfg s msg [] (s.received msg)
  | whole (h : skipped s msg = false) (o : Oracle) :
      Turn cfg s msg (handle cfg o s.store msg).1 (settle s msg (handle cfg o s.store msg).2)
  | interrupt (o : Oracle) (st : Store) {events : List Event}
      (begun : events <+: if skipped s msg then [] else (handle cfg o s.store msg).1) :
      Turn cfg s msg events ((s.received msg).recover st)

/-- A message with what was sent before it was read, the state that it found, and what was
sent while it was handled. -/
structure Exchange where
  head : List Event
  state : Session
  msg : Message
  events : List Event

inductive Loop (cfg : Config) : Session → List Exchange → Session → Prop where
  | stop (s : Session) : Loop cfg s [] s
  | turn {s s₁ s₂ s₃ : Session} {head events : List Event} {msg : Message}
      {rest : List Exchange} (alive : s.alive = true) (hhead : Head s head s₁)
      (hturn : Turn cfg s₁ msg events s₂) (hrest : Loop cfg s₂ rest s₃) :
      Loop cfg s (⟨head, s₁, msg, events⟩ :: rest) s₃

theorem received_of_skipped {s : Session} {msg : Message} (h : skipped s msg = true) :
    s.atRead.received msg = { s with doingExtended := msg.extended, sendReady := false } := by
  have hends : msg.endsSkip = false := by
    simp only [skipped, Bool.and_eq_true, Bool.not_eq_true'] at h
    exact h.1.2
  simp [Session.received, Session.atRead, hends]

theorem run_of_dead {cfg : Config} {s : Session} (h : s.alive = false)
    (msgs : List (Message × Oracle)) : run cfg s msgs = ([], s) := by
  induction msgs with
  | nil => rfl
  | cons i msgs ih =>
    have hstep : step cfg s i.1 i.2 = ([], s) := by rw [step, if_pos h]
    change ((step cfg s i.1 i.2).1 ++ (run cfg (step cfg s i.1 i.2).2 msgs).1,
      (run cfg (step cfg s i.1 i.2).2 msgs).2) = _
    rw [hstep, ih]
    rfl

/-- Unless the session ends, what a message leaves does not depend on the flags that the head
of the loop resets. -/
theorem settle_atRead (s : Session) (msg : Message) (outcome : Outcome) :
    settle s.atRead msg outcome = settle s msg outcome ∨
      (settle s.atRead msg outcome).alive = false ∧ (settle s msg outcome).alive = false ∧
        (settle s.atRead msg outcome).atRead = (settle s msg outcome).atRead := by
  cases outcome with
  | done st ready => exact Or.inl rfl
  | error st => exact Or.inl rfl
  | exit => exact Or.inr ⟨rfl, rfl, rfl⟩

theorem exists_turn (cfg : Config) {s : Session} (hs : s.alive = true) (msg : Message)
    (o : Oracle) : ∃ events s', Turn cfg s.atRead msg events s' ∧
      (step cfg s msg o).1 = announce s ++ events ∧
      (s' = (step cfg s msg o).2 ∨
        s'.alive = false ∧ (step cfg s msg o).2.alive = false ∧
          s'.atRead = (step cfg s msg o).2.atRead) := by
  have hskipped : skipped s.atRead msg = skipped s msg := rfl
  unfold step
  rw [if_neg (by simp [hs])]
  by_cases h : skipped s msg = true
  · rw [if_pos h]
    exact ⟨[], _, .skip (hskipped.trans h), (List.append_nil _).symm, Or.inl (received_of_skipped h)⟩
  · rw [if_neg h]
    rw [Bool.not_eq_true] at h
    exact ⟨_, _, .whole (hskipped.trans h) o, rfl, settle_atRead s msg _⟩

/-- Every run of the session is a run of the loop without stray ERRORs. -/
theorem loop_of_run (cfg : Config) (s : Session) (msgs : List (Message × Oracle)) :
    ∃ rest s', Loop cfg s rest s' ∧ s'.atRead = (run cfg s msgs).2.atRead ∧
      (rest.flatMap fun x => x.head ++ x.events) = (run cfg s msgs).1 := by
  induction msgs generalizing s with
  | nil => exact ⟨[], s, .stop s, rfl, rfl⟩
  | cons i msgs ih =>
    by_cases hs : s.alive = true
    · obtain ⟨events, s', hturn, hevents, heq⟩ := exists_turn cfg hs i.1 i.2
      have hrun : run cfg s (i :: msgs) = ((step cfg s i.1 i.2).1 ++
          (run cfg (step cfg s i.1 i.2).2 msgs).1, (run cfg (step cfg s i.1 i.2).2 msgs).2) := rfl
      rw [hrun, hevents]
      rcases heq with rfl | ⟨hdead, hdead', hread⟩
      · obtain ⟨rest, s'', hloop, hfinal, hrest⟩ := ih (step cfg s i.1 i.2).2
        refine ⟨_, s'', .turn hs (.ready s) hturn hloop, hfinal, ?_⟩
        rw [List.flatMap_cons, hrest]
      · rw [run_of_dead hdead']
        refine ⟨_, s', .turn hs (.ready s) hturn (.stop s'), hread, ?_⟩
        simp
    · rw [run_of_dead (by simpa using hs)]
      exact ⟨[], s, .stop s, rfl, rfl⟩

/-- Between the two messages ReadyForQuery is sent once, if the first is a simple query that is
not skipped. -/
def OneReady (x y : Exchange) : Prop :=
  ∀ q, x.msg = .query q → skipped x.state x.msg = false →
    (x.events ++ y.head).count .readyForQuery = 1

theorem Head.count_ready {s s' : Session} {events : List Event} (h : Head s events s')
    (hready : s.sendReady = true) : events.count .readyForQuery = 1 := by
  induction h with
  | ready s =>
    rw [announce, if_pos hready]
    rfl
  | error st again ih => exact ih (by simp [Session.recover, hready])

theorem ready_notMem_gateEvents (cfg : Config) (o : Oracle) (q : Text) :
    Event.readyForQuery ∉ gateEvents cfg o q := by
  unfold gateEvents
  dsimp only
  split_ifs <;> simp

theorem ready_notMem_runQuery (cfg : Config) (o : Oracle) (q : Text) :
    Event.readyForQuery ∉ runQuery cfg o q := by
  unfold runQuery
  split_ifs <;> simp

theorem ready_notMem_handleQuery (cfg : Config) (o : Oracle) (st : Store) (q : Text) :
    Event.readyForQuery ∉ (handleQuery cfg o st q).1 := by
  unfold handleQuery
  split_ifs
  · simp
  · simp [ready_notMem_gateEvents, ready_notMem_runQuery, elapsedNotice]
  · simp [ready_notMem_gateEvents, elapsedNotice, deniedNotice]

/-- A simple query is answered or fails. -/
theorem handleQuery_outcome (cfg : Config) (o : Oracle) (st : Store) (q : Text) :
    ∃ st', (handleQuery cfg o st q).2 = .done st' true ∨ (handleQuery cfg o st q).2 = .error st' := by
  unfold handleQuery finish
  split_ifs
  · exact ⟨_, Or.inr rfl⟩
  · exact ⟨_, Or.inr rfl⟩
  · exact ⟨_, Or.inl rfl⟩
  · exact ⟨_, Or.inl rfl⟩

theorem handle_query (cfg : Config) (o : Oracle) (st : Store) (q : Text) :
    handle cfg o st (.query q) = handleQuery cfg o st q := rfl

theorem ignore_of_not_skipped {s : Session} {q : Text} (h : skipped s (.query q) = false) :
    s.ignoreTillSync = false := by
  simpa [skipped, Message.endsSkip] using h

/-- Whatever becomes of a simple query, readiness is due afterwards and was not announced yet. -/
theorem Turn.query_ready {cfg : Config} {s s' : Session} {q : Text} {events : List Event}
    (h : Turn cfg s (.query q) events s') (hskip : skipped s (.query q) = false) :
    s'.sendReady = true ∧ Event.readyForQuery ∉ events := by
  have hignore := ignore_of_not_skipped hskip
  cases h with
  | skip hs =>
    rw [hskip] at hs
    cases hs
  | whole hs o =>
    rw [handle_query]
    refine ⟨?_, ready_notMem_handleQuery cfg o s.store q⟩
    obtain ⟨st, hdone | herror⟩ := handleQuery_outcome cfg o s.store q
    · rw [hdone]
      rfl
    · rw [herror]
      simp [settle, hignore, Message.extended]
  | interrupt o st begun =>
    rw [hskip, handle_query] at begun
    refine ⟨by simp [Session.recover, Session.received, hignore, Message.extended], fun hmem => ?_⟩
    exact ready_notMem_handleQuery cfg o s.store q (begun.subset hmem)

theorem Loop.isChain_oneReady {cfg : Config} {s s' : Session} {xs : List Exchange}
    (h : Loop cfg s xs s') : xs.IsChain OneReady := by
  induction h with
  | stop s => exact List.isChain_nil
  | @turn s s₁ s₂ s₃ head events msg rest alive hhead hturn hrest ih =>
    cases hrest with
    | stop => exact List.isChain_singleton _
    | @turn _ s₁' _ _ head' events' msg' rest' alive' hhead' hturn' hrest' =>
      refine List.isChain_cons_cons.mpr ⟨?_, ih⟩
      rintro q rfl hskip
      obtain ⟨hready, hnone⟩ := hturn.query_ready hskip
      rw [List.count_append, List.count_eq_zero_of_not_mem hnone, hhead'.count_ready hready]

/-- The query is read, not skipped, and ends in the branch that denies it. -/
def Denied (cfg : Config) (s : Session) (q : Text) (o : Oracle) : Prop :=
  s.alive = true ∧ skipped s (.query q) = false ∧ o.malformed = false ∧ decision cfg o q = false

theorem settle_denied {cfg : Config} {s : Session} {q : Text} {o : Oracle}
    (h : Denied cfg s q o) :
    settle s (.query q) (handle cfg o s.store (.query q)).2 =
      { s with doingExtended := false, sendReady := true } := by
  obtain ⟨-, -, hmalformed, hdecision⟩ := h
  simp [handle_query, handleQuery, hmalformed, hdecision, settle, Message.endsSkip,
    Message.extended]

theorem step_denied {cfg : Config} {s : Session} {q : Text} {o : Oracle}
    (h : Denied cfg s q o) :
    (step cfg s (.query q) o).2 = { s with doingExtended := false, sendReady := true } := by
  rw [step, if_neg (by simp [h.1]), if_neg (by simp [h.2.1]), ← settle_denied h]

theorem Head.atRead_eq {s s' : Session} {events : List Event} (h : Head s events s') :
    s'.atRead = s' := by
  induction h with
  | ready s => rfl
  | error st again ih => exact ih

theorem step_atRead (cfg : Config) (s : Session) (msg : Message) (o : Oracle) :
    (step cfg s msg o).2.atRead = (step cfg s.atRead msg o).2.atRead := by
  unfold step
  by_cases halive : s.alive = false
  · rw [if_pos halive, if_pos (show s.atRead.alive = false from halive)]
    rfl
  · rw [if_neg halive, if_neg (show ¬s.atRead.alive = false from halive)]
    by_cases hskip : skipped s msg = true
    · rw [if_pos hskip, if_pos (show skipped s.atRead msg = true from hskip)]
      rfl
    · rw [if_neg hskip, if_neg (show ¬skipped s.atRead msg = true from hskip)]
      rcases settle_atRead s msg (handle cfg o s.store msg).2 with h | ⟨-, -, h⟩
      · exact congrArg Session.atRead h.symm
      · exact h.symm

/-- The messages behind a denied query find what they would have found without it. -/
theorem run_denied {cfg : Config} {s : Session} {q : Text} {o : Oracle} (h : Denied cfg s q o)
    (post : List (Message × Oracle)) :
    (run cfg s ((.query q, o) :: post)).2.atRead = (run cfg s post).2.atRead := by
  have hcongr (s t : Session) (i : Message × Oracle) (hst : s.atRead = t.atRead) :
      (step cfg s i.1 i.2).2.atRead = (step cfg t i.1 i.2).2.atRead := by
    rw [step_atRead cfg s, step_atRead cfg t, hst]
  refine Machine.run_congr hcongr ?_ post
  change (step cfg s (.query q) o).2.atRead = s.atRead
  rw [step_denied h]
  rfl

/-- In every run of the loop, with ERRORs anywhere, a simple query that is not skipped is answered
by one ReadyForQuery before the next message is read. After a denied query the loop comes back to
the state that the query found, and all later messages find what they would have found
without it. -/
theorem queries_in_step (cfg : Config) :
    (∀ s xs s', Loop cfg s xs s' → xs.IsChain OneReady) ∧
      (∀ s head s₁ q o, Head s head s₁ → Denied cfg s₁ q o →
        (settle s₁ (.query q) (handle cfg o s₁.store (.query q)).2).atRead = s₁) ∧
      ∀ s q o post, Denied cfg s q o →
        (run cfg s ((.query q, o) :: post)).2.atRead = (run cfg s post).2.atRead := by
  refine ⟨fun s xs s' h => h.isChain_oneReady, fun s head s₁ q o hhead h => ?_,
    fun s q o post h => run_denied h post⟩
  rw [settle_denied h]
  exact hhead.atRead_eq

/-- A DELETE that the policy denies, in front of a Sync. -/
theorem queries_in_step_delete :
    Denied clientConfig initialSession "DELETE FROM t".toList (calmOracle true) ∧
      (run clientConfig initialSession [(.query "DELETE FROM t".toList, calmOracle true),
          (.sync, calmOracle true)]).2.atRead =
        (run clientConfig initialSession [(.sync, calmOracle true)]).2.atRead := by
  have hdenied : Denied clientConfig initialSession "DELETE FROM t".toList (calmOracle true) :=
    ⟨rfl, rfl, rfl, rfl⟩
  exact ⟨hdenied, (queries_in_step clientConfig).2.2 _ _ _ _ hdenied⟩

end AbacMiddleLayer.Gate
