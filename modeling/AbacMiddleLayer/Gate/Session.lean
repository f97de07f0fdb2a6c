import AbacMiddleLayer.Gate.Request
import AbacMiddleLayer.Machine

/-! # The command loop of PostgresMain

One step of the machine is one turn of the loop: announce readiness, read a message,
skip it or handle it, and recover from an ERROR. What the rest of the backend does
with a message (whether it raises an ERROR, which portals survive an abort, what a
completed run leaves behind) is drawn from an `Oracle`, one for each message.
-/
namespace AbacMiddleLayer.Gate

def jniOk : ℤ := 0
def jniEexist : ℤ := -5
def jniTrue : UInt8 := 1
def jniFalse : UInt8 := 0

/-- The results of the JNI functions during one simple query. -/
structure Jni where
  createJavaVM : ℤ
  getCreatedJavaVMs : ℤ
  attachCurrentThread : ℤ
  findClass : Bool
  getStaticMethodID : Bool
deriving DecidableEq, Repr

/-- The variable `status` when it is compared with `JNI_OK` before `FindClass`. -/
def Jni.status (j : Jni) : ℤ :=
  if j.createJavaVM = jniEexist then
    if j.getCreatedJavaVMs = jniOk then j.attachCurrentThread else j.getCreatedJavaVMs
  else j.createJavaVM

/-- `CallStaticBooleanMethod` is reached. -/
def Jni.reachesCall (j : Jni) : Bool :=
  decide (j.status = jniOk) && j.findClass && j.getStaticMethodID

inductive Message where
  | query (text : Text)
  | parse (name text : Text)
  | bind (portal name : Text) (numParams : ℕ)
  | execute (portal : Text)
  | functionCall
  | close (kind : Char) (target : Text)
  | describe (kind : Char) (target : Text)
  | flush
  | sync
  | terminate
  | eof
  | copyData
  | copyDone
  | copyFail
  | invalid (kind : Char)
deriving DecidableEq, Repr

inductive Xact where
  | idle
  | inBlock
  | aborted
deriving DecidableEq, Repr

/-- What a message can change besides the flags of the loop. -/
structure Store where
  xact : Xact
  prepared : List (Text × Text)
  unnamed : Option Text
  portals : List (Text × Text)
deriving DecidableEq, Repr

structure Session where
  store : Store
  ignoreTillSync : Bool
  doingExtended : Bool
  sendReady : Bool
  alive : Bool
deriving DecidableEq, Repr

/-- The texts and calls that the backend executes. -/
inductive Executed where
  | simpleQuery (text : Text)
  | replicationCommand (text : Text)
  | portal (text : Text)
  | function
deriving DecidableEq, Repr

inductive Event where
  | readyForQuery
  | notice (text : String)
  | check (text action uri : Text) (result : UInt8)
  | exec (e : Executed)
deriving DecidableEq, Repr

/-- The session's constants: the method that the JNI call runs, and what the SQL parser
says of a text (`none` is a syntax error). -/
structure Config where
  username : Text
  dbname : Text
  amWalsender : Bool
  checkAbacPermission : Text → Text → Text → UInt8
  statements : Text → Option (List Text)
  isTransactionExit : Text → Bool

/-- The choices of the environment during one message. -/
structure Oracle where
  jni : Jni
  /-- The indeterminate value of `decision` at block entry. -/
  entryDecision : Bool
  /-- The character that an unset `parse[0]` points to. -/
  staleCommand : Char
  /-- The time taken by the check, as `%.6lf` prints it. -/
  elapsed : String
  malformed : Bool
  replicationHandled : Bool
  raisesBefore : Bool
  raisesDuring : Bool
  survives : Text → Bool
  after : Store

/-- What handling a message comes to. -/
inductive Outcome where
  | done (store : Store) (ready : Bool)
  | error (store : Store)
  | exit

/-- The NOTICEs on the way to the call, and the call itself. -/
def gateEvents (cfg : Config) (o : Oracle) (q : Text) : List Event :=
  let j := o.jni
  let attach := if j.createJavaVM = jniEexist ∧ j.getCreatedJavaVMs = jniOk ∧
      j.attachCurrentThread ≠ jniOk then [.notice "Failed to get jvm env."] else []
  attach ++
    if j.status = jniOk then
      if j.findClass then
        if j.getStaticMethodID then
          let request := deriveRequest o.staleCommand cfg.dbname q
          [.check q request.1 request.2
            (cfg.checkAbacPermission cfg.username request.1 request.2)]
        else [.notice "Method not found!\n"]
      else [.notice "Class not found!\n"]
    else [.notice "JVM Created failed!\n"]

def elapsedNotice (o : Oracle) : Event := .notice ("ABAC execution time: " ++ o.elapsed ++ "s")

/-- The value of `decision` where it is tested. -/
def decision (cfg : Config) (o : Oracle) (q : Text) : Bool :=
  if o.jni.reachesCall then
    let request := deriveRequest o.staleCommand cfg.dbname q
    let result := cfg.checkAbacPermission cfg.username request.1 request.2
    if result = jniTrue then true else if result = jniFalse then false else o.entryDecision
  else o.entryDecision

/-- What a permitted query executes; a replication command is tried first in a WAL sender. -/
def runQuery (cfg : Config) (o : Oracle) (q : Text) : List Event :=
  if cfg.amWalsender then
    if o.replicationHandled then [.exec (.replicationCommand q)]
    else [.exec (.replicationCommand q), .exec (.simpleQuery q)]
  else [.exec (.simpleQuery q)]

/-- The notice of a denied query. -/
def deniedNotice : Event := .notice "ABACML: Permission Denied."

/-- The transaction is aborted: a block becomes an aborted block, and portals are dropped. -/
def Store.abort (survives : Text → Bool) (st : Store) : Store :=
  { st with
    xact := if st.xact = .idle then .idle else .aborted
    portals := st.portals.filter fun p => survives p.1 }

/-- A run that completes, or an ERROR in the middle of it. -/
def finish (o : Oracle) (ready : Bool) : Outcome :=
  if o.raisesDuring then .error (o.after.abort o.survives) else .done o.after ready

def handleQuery (cfg : Config) (o : Oracle) (st : Store) (q : Text) : List Event × Outcome :=
  if o.malformed then ([], .error (st.abort o.survives))
  else if decision cfg o q then
    (gateEvents cfg o q ++ elapsedNotice o :: runQuery cfg o q, finish o true)
  else (gateEvents cfg o q ++ [elapsedNotice o, deniedNotice], .done st true)

def Store.statement? (st : Store) (name : Text) : Option Text :=
  if name = [] then st.unnamed else st.prepared.lookup name

/-- Outside COMMIT and ROLLBACK nothing runs in an aborted block. -/
def blocked (cfg : Config) (st : Store) (text : Text) : Bool :=
  decide (st.xact = .aborted) && !cfg.isTransactionExit text

/-- `exec_parse_message`: the unnamed statement is dropped before anything can fail. -/
def handleParse (cfg : Config) (o : Oracle) (st : Store) (name text : Text) : Outcome :=
  let dropped := if name = [] then { st with unnamed := none } else st
  let failed := Outcome.error (dropped.abort o.survives)
  match cfg.statements text with
  | none => failed
  | some stmts =>
    if 1 < stmts.length then failed
    else if stmts ≠ [] ∧ blocked cfg st text = true then failed
    else if o.raisesBefore then failed
    else if name = [] then .done { dropped with unnamed := some text } false
    else if (st.prepared.lookup name).isSome then failed
    else .done { st with prepared := (name, text) :: st.prepared } false

/-- `exec_bind_message`: the unnamed portal is replaced, a named one must be new. -/
def handleBind (cfg : Config) (o : Oracle) (st : Store) (portal name : Text) (numParams : ℕ) :
    Outcome :=
  let failed := Outcome.error (st.abort o.survives)
  match st.statement? name with
  | none => failed
  | some text =>
    if st.xact = .aborted ∧ (cfg.isTransactionExit text = false ∨ numParams ≠ 0) then failed
    else if o.raisesBefore then failed
    else if portal ≠ [] ∧ (st.portals.lookup portal).isSome = true then failed
    else .done { st with
      portals := (portal, text) :: st.portals.filter fun p => decide (p.1 ≠ portal) } false

/-- The text that an Execute message runs, if it gets as far as `PortalRun`. -/
def portalRun? (cfg : Config) (o : Oracle) (st : Store) (portal : Text) : Option Text :=
  match st.portals.lookup portal with
  | none => none
  | some text =>
    if cfg.statements text = some [] ∨ blocked cfg st text = true ∨ o.raisesBefore = true then none
    else some text

/-- `exec_execute_message`: an empty query only answers EmptyQueryResponse. -/
def handleExecute (cfg : Config) (o : Oracle) (st : Store) (portal : Text) :
    List Event × Outcome :=
  match portalRun? cfg o st portal with
  | some text => ([.exec (.portal text)], finish o false)
  | none =>
    if (st.portals.lookup portal).any fun text => cfg.statements text = some [] then
      ([], .done st false)
    else ([], .error (st.abort o.survives))

/-- `HandleFunctionRequest` gets as far as the function. -/
def functionRuns (o : Oracle) (st : Store) : Bool :=
  decide (st.xact ≠ .aborted) && !o.raisesBefore

def handleFunctionCall (o : Oracle) (st : Store) : List Event × Outcome :=
  if functionRuns o st then ([.exec .function], finish o true)
  else ([], .error (st.abort o.survives))

def handleClose (o : Oracle) (st : Store) (kind : Char) (target : Text) : Outcome :=
  if kind = 'S' then
    if target = [] then .done { st with unnamed := none } false
    else .done { st with prepared := st.prepared.filter fun p => decide (p.1 ≠ target) } false
  else if kind = 'P' then
    .done { st with portals := st.portals.filter fun p => decide (p.1 ≠ target) } false
  else .error (st.abort o.survives)

def handleDescribe (o : Oracle) (st : Store) (kind : Char) (target : Text) : Outcome :=
  let found := if kind = 'S' then (st.statement? target).isSome
    else if kind = 'P' then (st.portals.lookup target).isSome else false
  if found = true ∧ o.raisesBefore = false then .done st false
  else .error (st.abort o.survives)

/-- Sync ends the transaction command; outside a block its portals end with it. -/
def handleSync (o : Oracle) (st : Store) : Outcome :=
  if o.raisesDuring then .error (st.abort o.survives)
  else .done (if st.xact = .idle then
    { st with portals := st.portals.filter fun p => o.survives p.1 } else st) true

/-- The messages that `forbidden_in_wal_sender` guards. -/
def Message.forbiddenInWalSender : Message → Bool
  | .parse .. | .bind .. | .execute _ | .functionCall | .close .. | .describe .. => true
  | _ => false

/-- The `switch` over the message type. -/
def dispatch (cfg : Config) (o : Oracle) (st : Store) : Message → List Event × Outcome
  | .query q => handleQuery cfg o st q
  | .parse name text => ([], handleParse cfg o st name text)
  | .bind portal name numParams => ([], handleBind cfg o st portal name numParams)
  | .execute portal => handleExecute cfg o st portal
  | .functionCall => handleFunctionCall o st
  | .close kind target => ([], handleClose o st kind target)
  | .describe kind target => ([], handleDescribe o st kind target)
  | .flush => ([], .done st false)
  | .sync => ([], handleSync o st)
  | .terminate | .eof | .invalid _ => ([], .exit)
  | .copyData | .copyDone | .copyFail => ([], .done st false)

/-- The messages whose body is read to its end before or while they are handled; the
simple query reads its own. -/
def Message.readsBody : Message → Bool
  | .flush | .sync => true
  | msg => msg.forbiddenInWalSender

/-- The message is refused before it is handled: in a WAL sender, or as malformed. -/
def refused (cfg : Config) (o : Oracle) (msg : Message) : Bool :=
  (msg.forbiddenInWalSender && cfg.amWalsender) || (msg.readsBody && o.malformed)

def handle (cfg : Config) (o : Oracle) (st : Store) (msg : Message) : List Event × Outcome :=
  if refused cfg o msg then ([], .error (st.abort o.survives)) else dispatch cfg o st msg

/-- The messages that set `doing_extended_query_message`. -/
def Message.extended : Message → Bool
  | .parse .. | .bind .. | .execute _ | .close .. | .describe .. | .flush => true
  | _ => false

/-- The messages that end skipping. -/
def Message.endsSkip : Message → Bool
  | .sync | .terminate => true
  | _ => false

/-- The message is read but not processed. -/
def skipped (s : Session) (msg : Message) : Bool :=
  s.ignoreTillSync && !msg.endsSkip &&
    match msg with
    | .eof | .invalid _ => false
    | _ => true

/-- The flags after an ERROR, and after completion. -/
def settle (s : Session) (msg : Message) : Outcome → Session
  | .done st ready =>
    { s with
      store := st
      ignoreTillSync := s.ignoreTillSync && !msg.endsSkip
      doingExtended := msg.extended
      sendReady := ready }
  | .error st =>
    let ignore := msg.extended || (s.ignoreTillSync && !msg.endsSkip)
    { s with
      store := st
      ignoreTillSync := ignore
      doingExtended := msg.extended
      sendReady := !ignore }
  | .exit => { s with alive := false, sendReady := false }

def announce (s : Session) : List Event := if s.sendReady then [.readyForQuery] else []

/-- One turn of the loop. -/
def step (cfg : Config) (s : Session) (msg : Message) (o : Oracle) : List Event × Session :=
  if s.alive = false then ([], s)
  else if skipped s msg then
    (announce s, { s with doingExtended := msg.extended, sendReady := false })
  else
    let result := handle cfg o s.store msg
    (announce s ++ result.1, settle s msg result.2)

/-- A run of the loop over messages, each with the choices made while it is handled. -/
def run (cfg : Config) (s : Session) (msgs : List (Message × Oracle)) : List Event × Session :=
  Machine.run (fun s i => step cfg s i.1 i.2) s msgs

def emptyStore : Store := ⟨.idle, [], none, []⟩

/-- The state in which the loop is entered. -/
def initialSession : Session where
  store := emptyStore
  ignoreTillSync := false
  doingExtended := false
  sendReady := true
  alive := true

/-- A client's session on the database `lms`, whose texts are single statements. -/
def clientConfig : Config where
  username := "user".toList
  dbname := "lms".toList
  amWalsender := false
  checkAbacPermission := fun _ _ _ => jniFalse
  statements := fun text => some [text]
  isTransactionExit := fun _ => false

/-- A message during which nothing fails; `decision` holds `entry` at block entry. -/
def calmOracle (entry : Bool) : Oracle where
  jni := ⟨jniOk, jniOk, jniOk, true, true⟩
  entryDecision := entry
  staleCommand := ' '
  elapsed := "0.000001"
  malformed := false
  replicationHandled := false
  raisesBefore := false
  raisesDuring := false
  survives := fun _ => true
  after := emptyStore

end AbacMiddleLayer.Gate
