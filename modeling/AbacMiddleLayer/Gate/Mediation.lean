import AbacMiddleLayer.Gate.Session

/-! # Which executions the gate checks

The check stands in the arm of the simple query only, and its result is kept in a
variable without initial value. Both gaps are described by the messages that fall
into them; all other messages execute what was checked and permitted.
-/
namespace AbacMiddleLayer.Gate

/-- The JNI call returns what the policy says. -/
def Config.underPolicy (cfg : Config) (policy : Text → Text → Text → Bool) : Config :=
  { cfg with checkAbacPermission := fun u a r => if policy u a r then jniTrue else jniFalse }

def Executed.text? : Executed → Option Text
  | .simpleQuery text | .replicationCommand text | .portal text => some text
  | .function => none

/-- The text that an event executes was checked before, with result true. -/
def Checked (e : Event) (before : List Event) : Prop :=
  match e with
  | .exec x => ∃ text action uri, x.text? = some text ∧
      Event.check text action uri jniTrue ∈ before
  | _ => True

theorem checked_mono (e : Event) (xs ys : List Event) (h : xs ⊆ ys) (he : Checked e xs) :
    Checked e ys := by
  cases e with
  | exec x =>
    obtain ⟨text, action, uri, ht, hmem⟩ := he
    exact ⟨text, action, uri, ht, h hmem⟩
  | _ => trivial

theorem checked_of_not_exec {e : Event} (h : ∀ x, e ≠ .exec x) (before : List Event) :
    Checked e before := by
  cases e with
  | exec x => exact absurd rfl (h x)
  | _ => trivial

section Query
variable (cfg : Config) (o : Oracle) (q : Text)

theorem exec_not_mem_gateEvents (x : Executed) : Event.exec x ∉ gateEvents cfg o q := by
  unfold gateEvents
  dsimp only
  split_ifs <;> simp

/-- The call is among the events exactly when all the JNI functions before it succeed. -/
theorem check_mem_gateEvents_iff (text action uri : Text) (result : UInt8) :
    Event.check text action uri result ∈ gateEvents cfg o q ↔
      o.jni.reachesCall = true ∧ text = q ∧
        (action, uri) = deriveRequest o.staleCommand cfg.dbname q ∧
        result = cfg.checkAbacPermission cfg.username action uri := by
  unfold gateEvents Jni.reachesCall
  dsimp only
  split_ifs <;> simp_all [Prod.ext_iff] <;> grind

theorem exec_mem_runQuery {x : Executed} (h : Event.exec x ∈ runQuery cfg o q) :
    x.text? = some q := by
  unfold runQuery at h
  split_ifs at h <;> simp at h
  · simp [h, Executed.text?]
  · rcases h with rfl | rfl <;> rfl
  · simp [h, Executed.text?]

theorem runQuery_exec : ∃ x, Event.exec x ∈ runQuery cfg o q := by
  unfold runQuery
  split_ifs
  · exact ⟨.replicationCommand q, by simp⟩
  · exact ⟨.replicationCommand q, by simp⟩
  · exact ⟨.simpleQuery q, by simp⟩

theorem runQuery_no_check (text action uri : Text) (result : UInt8) :
    Event.check text action uri result ∉ runQuery cfg o q := by
  unfold runQuery
  split_ifs <;> simp

theorem decision_reached (policy : Text → Text → Text → Bool) (h : o.jni.reachesCall = true) :
    decision (cfg.underPolicy policy) o q =
      policy cfg.username (deriveRequest o.staleCommand cfg.dbname q).1
        (deriveRequest o.staleCommand cfg.dbname q).2 := by
  simp only [decision, h, if_true, Config.underPolicy]
  by_cases hp : policy cfg.username (deriveRequest o.staleCommand cfg.dbname q).1
      (deriveRequest o.staleCommand cfg.dbname q).2 = true
  · simp [hp]
  · simp [hp, jniTrue, jniFalse]

theorem decision_unreached (h : o.jni.reachesCall = false) :
    decision cfg o q = o.entryDecision := by
  simp [decision, h]

/-- A decision that comes from the call and is true has its check among the events. -/
theorem check_of_decision (policy : Text → Text → Text → Bool) (h : o.jni.reachesCall = true)
    (hd : decision (cfg.underPolicy policy) o q = true) :
    ∃ action uri, Event.check q action uri jniTrue ∈ gateEvents (cfg.underPolicy policy) o q := by
  rw [decision_reached cfg o q policy h] at hd
  refine ⟨(deriveRequest o.staleCommand cfg.dbname q).1,
    (deriveRequest o.staleCommand cfg.dbname q).2, ?_⟩
  rw [check_mem_gateEvents_iff]
  refine ⟨h, rfl, rfl, ?_⟩
  simp [Config.underPolicy, hd]

end Query

/-- The message, unless it is skipped or refused, executes nothing unchecked: a simple query
reaches the call or finds `decision` false at block entry, an Execute does not get as far
as running a portal, and a function call not as far as the function. -/
def Guarded (cfg : Config) (s : Session) (i : Message × Oracle) : Prop :=
  s.alive = true → skipped s i.1 = false → refused cfg i.2 i.1 = false →
    match i.1 with
    | .query _ => i.2.malformed = true ∨ i.2.jni.reachesCall = true ∨ i.2.entryDecision = false
    | .execute portal => portalRun? cfg i.2 s.store portal = none
    | .functionCall => functionRuns i.2 s.store = false
    | _ => True

section Steps
variable (cfg : Config) (policy : Text → Text → Text → Bool) (o : Oracle) (st : Store)

/-- A guarded simple query executes behind its own check. -/
theorem handleQuery_preceded (q : Text)
    (h : o.malformed = true ∨ o.jni.reachesCall = true ∨ o.entryDecision = false) :
    Machine.Preceded Checked (handleQuery (cfg.underPolicy policy) o st q).1 := by
  have hgate : Machine.Preceded Checked (gateEvents (cfg.underPolicy policy) o q) :=
    Machine.preceded_of_forall fun e he before => checked_of_not_exec
      (fun x hx => exec_not_mem_gateEvents _ o q x (hx ▸ he)) before
  unfold handleQuery
  by_cases hm : o.malformed = true
  · rw [if_pos hm]
    exact Machine.preceded_of_forall (by simp)
  rw [if_neg hm]
  by_cases hd : decision (cfg.underPolicy policy) o q = true
  · rw [if_pos hd]
    have hreach : o.jni.reachesCall = true := by
      by_contra hn
      rw [Bool.not_eq_true] at hn
      rw [decision_unreached _ o q hn] at hd
      simp_all
    obtain ⟨action, uri, hcheck⟩ := check_of_decision cfg o q policy hreach hd
    refine hgate.append_of_mem checked_mono fun e he => ?_
    cases e with
    | exec x =>
      have hx : Event.exec x ∈ runQuery (cfg.underPolicy policy) o q := by
        simpa [elapsedNotice] using he
      exact ⟨q, action, uri, exec_mem_runQuery _ o q hx, hcheck⟩
    | _ => trivial
  · rw [if_neg hd]
    refine hgate.append_of_mem checked_mono fun e he => checked_of_not_exec (fun x hx => ?_) _
    subst hx
    simp [elapsedNotice, deniedNotice] at he

/-- A guarded message executes nothing unchecked. -/
theorem dispatch_guarded {s : Session} {i : Message × Oracle}
    (h : Guarded (cfg.underPolicy policy) s i) (ha : s.alive = true)
    (hs : skipped s i.1 = false) (hr : refused (cfg.underPolicy policy) i.2 i.1 = false) :
    Machine.Preceded Checked (dispatch (cfg.underPolicy policy) i.2 s.store i.1).1 := by
  have hg := h ha hs hr
  obtain ⟨msg, o⟩ := i
  cases msg with
  | query q => exact handleQuery_preceded cfg policy o s.store q hg
  | execute portal =>
    have hnone : portalRun? (cfg.underPolicy policy) o s.store portal = none := hg
    simp only [dispatch, handleExecute, hnone]
    split_ifs <;> exact Machine.preceded_of_forall (by simp)
  | functionCall =>
    have hfalse : functionRuns o s.store = false := hg
    simp only [dispatch, handleFunctionCall, hfalse]
    exact Machine.preceded_of_forall (by simp)
  | _ => exact Machine.preceded_of_forall (by simp [dispatch])

theorem announce_preceded (s : Session) : Machine.Preceded Checked (announce s) := by
  refine Machine.preceded_of_forall fun e he before => checked_of_not_exec (fun x hx => ?_) before
  subst hx
  unfold announce at he
  split_ifs at he <;> simp at he

theorem step_preceded (s : Session) (i : Message × Oracle)
    (h : Guarded (cfg.underPolicy policy) s i) :
    Machine.Preceded Checked (step (cfg.underPolicy policy) s i.1 i.2).1 := by
  unfold step
  split_ifs with halive hskip
  · exact Machine.preceded_of_forall (by simp)
  · exact announce_preceded s
  · refine (announce_preceded s).append_self checked_mono ?_
    rw [Bool.not_eq_true] at hskip
    unfold handle
    split_ifs with hrefused
    · exact Machine.preceded_of_forall (by simp)
    · exact dispatch_guarded cfg policy h (by simpa using halive) hskip (by simpa using hrefused)

end Steps

/-- Complete mediation of a run: each executed text was checked before, with result true. -/
def Mediated (trace : List Event) : Prop := Machine.Preceded Checked trace

/-- Every run whose messages are guarded is completely mediated, under every policy. -/
theorem guarded_run_mediated (cfg : Config) (policy : Text → Text → Text → Bool) (s : Session)
    (msgs : List (Message × Oracle))
    (h : Machine.Along (fun s i => step (cfg.underPolicy policy) s i.1 i.2)
      (Guarded (cfg.underPolicy policy)) s msgs) :
    Mediated (run (cfg.underPolicy policy) s msgs).1 :=
  Machine.preceded_run checked_mono (step_preceded cfg policy) h

/-- A permitted query, then a statement that is parsed and bound but not executed. -/
theorem guarded_run_mediated_query_parse_bind :
    Machine.Along (fun s i => step (clientConfig.underPolicy fun _ _ _ => true) s i.1 i.2)
        (Guarded (clientConfig.underPolicy fun _ _ _ => true)) initialSession
        [(.query "SELECT 1".toList, calmOracle true),
          (.parse [] "DELETE FROM t".toList, calmOracle true), (.bind [] [] 0, calmOracle true)] ∧
      Mediated (run (clientConfig.underPolicy fun _ _ _ => true) initialSession
        [(.query "SELECT 1".toList, calmOracle true),
          (.parse [] "DELETE FROM t".toList, calmOracle true),
          (.bind [] [] 0, calmOracle true)]).1 := by
  have h : Machine.Along (fun s i => step (clientConfig.underPolicy fun _ _ _ => true) s i.1 i.2)
      (Guarded (clientConfig.underPolicy fun _ _ _ => true)) initialSession
      [(.query "SELECT 1".toList, calmOracle true),
        (.parse [] "DELETE FROM t".toList, calmOracle true), (.bind [] [] 0, calmOracle true)] :=
    ⟨fun _ _ _ => .inr (.inl rfl), fun _ _ _ => trivial, fun _ _ _ => trivial, trivial⟩
  exact ⟨h, guarded_run_mediated clientConfig (fun _ _ _ => true) initialSession _ h⟩

/-- Under a policy that denies everything, Parse, Bind and Execute delete a table's rows. -/
theorem execute_unmediated :
    Event.exec (.portal "DELETE FROM t".toList) ∈
        (run (clientConfig.underPolicy fun _ _ _ => false) initialSession
          [(.parse [] "DELETE FROM t".toList, calmOracle false), (.bind [] [] 0, calmOracle false),
            (.execute [], calmOracle false)]).1 ∧
      ¬ Mediated (run (clientConfig.underPolicy fun _ _ _ => false) initialSession
        [(.parse [] "DELETE FROM t".toList, calmOracle false), (.bind [] [] 0, calmOracle false),
          (.execute [], calmOracle false)]).1 := by
  have htrace : (run (clientConfig.underPolicy fun _ _ _ => false) initialSession
      [(.parse [] "DELETE FROM t".toList, calmOracle false), (.bind [] [] 0, calmOracle false),
        (.execute [], calmOracle false)]).1 =
      [.readyForQuery, .exec (.portal "DELETE FROM t".toList)] := by decide +kernel
  rw [htrace]
  refine ⟨by simp, fun h => ?_⟩
  obtain ⟨text, action, uri, -, hmem⟩ := h [.readyForQuery] _ [] rfl
  simp at hmem

/-- A message that is not guarded executes something, and no check with result true is
among the events of its step. -/
theorem unguarded_step_unchecked (cfg : Config) (s : Session) (i : Message × Oracle)
    (h : ¬ Guarded cfg s i) :
    (∃ x, Event.exec x ∈ (step cfg s i.1 i.2).1) ∧
      ∀ text action uri, Event.check text action uri jniTrue ∉ (step cfg s i.1 i.2).1 := by
  obtain ⟨msg, o⟩ := i
  simp only [Guarded, Classical.not_imp] at h
  obtain ⟨ha, hs, hr, hgap⟩ := h
  have hstep : (step cfg s msg o).1 = announce s ++ (dispatch cfg o s.store msg).1 := by
    simp [step, ha, hs, handle, hr]
  have hannounce (text action uri : Text) : Event.check text action uri jniTrue ∉ announce s := by
    unfold announce
    split_ifs <;> simp
  simp only [hstep, List.mem_append, hannounce, false_or]
  cases msg with
  | query q =>
    simp only [not_or, Bool.not_eq_true, Bool.not_eq_false] at hgap
    obtain ⟨hm, hn, he⟩ := hgap
    have hd : decision cfg o q = true := by rw [decision_unreached cfg o q hn, he]
    simp only [dispatch, handleQuery, hm, hd, if_true, Bool.false_eq_true, if_false,
      List.mem_append, List.mem_cons]
    refine ⟨?_, ?_⟩
    · obtain ⟨x, hx⟩ := runQuery_exec cfg o q
      exact ⟨x, .inr (.inr (.inr hx))⟩
    · intro text action uri
      simp [check_mem_gateEvents_iff, hn, elapsedNotice, runQuery_no_check]
  | execute portal =>
    obtain ⟨text, ht⟩ := Option.ne_none_iff_exists'.mp hgap
    simp [dispatch, handleExecute, ht]
  | functionCall =>
    rw [Bool.not_eq_false] at hgap
    simp [dispatch, handleFunctionCall, hgap]
  | _ => exact absurd trivial hgap

end AbacMiddleLayer.Gate
