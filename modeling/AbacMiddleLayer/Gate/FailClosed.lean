import AbacMiddleLayer.Gate.Mediation

/-! # Simple queries when the Java side fails

Every failure of a JNI function leaves `decision` as it was at block entry. A run of
simple queries fails closed exactly when none of its messages meets such a failure
with an entry value of true.
-/
namespace AbacMiddleLayer.Gate

/-- What the step executes was checked in the same step, with result true. -/
def StepFailsClosed (cfg : Config) (s : Session) (i : Message × Oracle) : Prop :=
  ∀ x, Event.exec x ∈ (step cfg s i.1 i.2).1 → Checked (.exec x) (step cfg s i.1 i.2).1

def FailsClosed (cfg : Config) (s : Session) (msgs : List (Message × Oracle)) : Prop :=
  Machine.Along (fun s i => step cfg s i.1 i.2) (StepFailsClosed cfg) s msgs

/-- The session reads its messages and skips none. -/
def Session.Reading (s : Session) : Prop := s.alive = true ∧ s.ignoreTillSync = false

def Message.IsQuery (msg : Message) : Prop := ∃ q, msg = .query q

/-- A message of the run finds the call reachable or `decision` false; a malformed one does
not get as far. -/
def Oracle.Safe (o : Oracle) : Prop :=
  o.malformed = true ∨ o.jni.reachesCall = true ∨ o.entryDecision = false

theorem finish_reading (s : Session) (hs : s.Reading) (o : Oracle) (q : Text) :
    (settle s (.query q) (finish o true)).Reading := by
  unfold finish
  split_ifs <;> exact ⟨hs.1, by simp [settle, Message.extended, hs.2]⟩

theorem step_query_reading (cfg : Config) (s : Session) (hs : s.Reading) (o : Oracle) (q : Text) :
    (step cfg s (.query q) o).2.Reading := by
  have hskip : skipped s (.query q) = false := by simp [skipped, hs.2]
  have hrefused : refused cfg o (.query q) = false := by
    simp [refused, Message.forbiddenInWalSender, Message.readsBody]
  simp only [step, hs.1, hskip, handle, hrefused, dispatch, handleQuery, Bool.true_eq_false,
    Bool.false_eq_true, if_false]
  split_ifs
  · exact ⟨hs.1, by simp [settle, Message.extended, hs.2]⟩
  · exact finish_reading s hs o q
  · exact ⟨hs.1, by simp [settle, hs.2]⟩

/-- One simple query fails closed exactly when its circumstances are safe. -/
theorem stepFailsClosed_iff (cfg : Config) (policy : Text → Text → Text → Bool) (s : Session)
    (hs : s.Reading) (o : Oracle) (q : Text) :
    StepFailsClosed (cfg.underPolicy policy) s (.query q, o) ↔ o.Safe := by
  have hskip : skipped s (.query q) = false := by simp [skipped, hs.2]
  have hrefused : refused (cfg.underPolicy policy) o (.query q) = false := by
    simp [refused, Message.forbiddenInWalSender, Message.readsBody]
  have hguard : Guarded (cfg.underPolicy policy) s (.query q, o) ↔ o.Safe :=
    ⟨fun h => h hs.1 hskip hrefused, fun h _ _ _ => h⟩
  rw [← hguard]
  constructor
  · intro hclosed
    by_contra hn
    obtain ⟨⟨x, hx⟩, hnone⟩ := unguarded_step_unchecked _ s (.query q, o) hn
    obtain ⟨text, action, uri, -, hcheck⟩ := hclosed x hx
    exact hnone text action uri hcheck
  · intro hg x hx
    obtain ⟨before, after, htrace⟩ := List.append_of_mem hx
    refine checked_mono _ before _ ?_ (step_preceded cfg policy s (.query q, o) hg before _ after htrace)
    rw [htrace]
    exact List.subset_append_left before _

/-- A run of simple queries fails closed exactly when each of its messages is malformed,
reaches the call, or has `decision` false at block entry. -/
theorem failsClosed_iff (cfg : Config) (policy : Text → Text → Text → Bool) (s : Session)
    (hs : s.Reading) (msgs : List (Text × Oracle)) :
    FailsClosed (cfg.underPolicy policy) s (msgs.map fun m => (.query m.1, m.2)) ↔
      ∀ m ∈ msgs, m.2.malformed = true ∨ m.2.jni.reachesCall = true ∨
        m.2.entryDecision = false := by
  have hinv (s : Session) (i : Message × Oracle) (hs : s.Reading) (hi : i.1.IsQuery) :
      (step (cfg.underPolicy policy) s i.1 i.2).2.Reading := by
    obtain ⟨q, hq⟩ := hi
    rw [hq]
    exact step_query_reading _ s hs i.2 q
  have hsafe (s : Session) (i : Message × Oracle) (hs : s.Reading) (hi : i.1.IsQuery) :
      StepFailsClosed (cfg.underPolicy policy) s i ↔ i.2.Safe := by
    obtain ⟨msg, o⟩ := i
    obtain ⟨q, rfl⟩ := hi
    exact stepFailsClosed_iff cfg policy s hs o q
  have hquery : ∀ i ∈ msgs.map fun m => (Message.query m.1, m.2), i.1.IsQuery := by
    intro i hi
    obtain ⟨m, -, rfl⟩ := List.mem_map.mp hi
    exact ⟨m.1, rfl⟩
  refine (Machine.along_congr hinv hsafe hs hquery).trans ?_
  refine (Machine.along_const (fun i : Message × Oracle => i.2.Safe) s _).trans ?_
  simp only [List.mem_map, forall_exists_index, and_imp, forall_apply_eq_imp_iff₂, Oracle.Safe]

/-- The policy that permits reading column A of table T. -/
def readA : Text → Text → Text → Bool := fun _ _ uri =>
  decide (uri = "/UOA_CANVAS_LMS/lms/T/A".toList)

/-- The Java virtual machine cannot be created while `decision` holds `entry`. -/
def brokenOracle (entry : Bool) : Oracle :=
  { calmOracle entry with jni := ⟨-1, jniOk, jniOk, true, true⟩ }

theorem failsClosed_fresh_decision :
    initialSession.Reading ∧
      FailsClosed (clientConfig.underPolicy readA) initialSession
        ([("SELECT a FROM t".toList, calmOracle true),
          ("DROP TABLE t".toList, brokenOracle false)].map fun m => (.query m.1, m.2)) := by
  have hs : initialSession.Reading := ⟨rfl, rfl⟩
  refine ⟨hs, (failsClosed_iff clientConfig readA initialSession hs _).mpr ?_⟩
  decide

/-- A permitted query leaves `decision` true; when the next one cannot start the Java side,
it is executed without a call. -/
theorem stale_decision_executes :
    Event.check "SELECT a FROM t".toList "Get".toList "/UOA_CANVAS_LMS/lms/T/A".toList jniTrue ∈
        (step (clientConfig.underPolicy readA) initialSession (.query "SELECT a FROM t".toList)
          (calmOracle false)).1 ∧
      ¬ FailsClosed (clientConfig.underPolicy readA) initialSession
        [(.query "SELECT a FROM t".toList, calmOracle false),
          (.query "DROP TABLE t".toList, brokenOracle true)] := by
  refine ⟨by decide +kernel, ?_⟩
  rintro ⟨-, h, -⟩
  obtain ⟨text, action, uri, -, hcheck⟩ :=
    h (.simpleQuery "DROP TABLE t".toList) (by decide +kernel)
  have htrace : (step (clientConfig.underPolicy readA)
      (step (clientConfig.underPolicy readA) initialSession (.query "SELECT a FROM t".toList)
        (calmOracle false)).2 (.query "DROP TABLE t".toList) (brokenOracle true)).1 =
      [.readyForQuery, .notice "JVM Created failed!\n",
        .notice "ABAC execution time: 0.000001s", .exec (.simpleQuery "DROP TABLE t".toList)] := by
    decide +kernel
  rw [htrace] at hcheck
  simp at hcheck

end AbacMiddleLayer.Gate
