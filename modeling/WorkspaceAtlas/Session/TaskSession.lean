/-
# Task sessions

Sessions as `task_session.rs` creates them: the kind of a task is declared or derived from its
words, and the id of a session is a hash of what it is about, so that the same request finds
the same session again.
-/
import WorkspaceAtlas.Broker.Packet
import WorkspaceAtlas.Route.Policy
import WorkspaceAtlas.Session.Compaction

namespace WorkspaceAtlas

open Relational Transition

/-! ## Texts of columns -/

/-- `retention_str`. -/
def retentionStr : RawTaskRetention → String
  | .none => "none"
  | .hashOnly => "hash_only"
  | .localOptIn => "local_opt_in"

/-- `task_kind_str`. -/
def taskKindStr : TaskKind → String
  | .explore => "explore"
  | .bugFix => "bug_fix"
  | .behaviorChange => "behavior_change"
  | .apiChange => "api_change"
  | .refactor => "refactor"
  | .configurationChange => "configuration_change"
  | .testChange => "test_change"
  | .review => "review"
  | .audit => "audit"
  | .unknown => "unknown"

/-- `task_kind_source_str`. -/
def taskKindSourceStr : TaskKindSource → String
  | .declared => "declared"
  | .deterministicRule => "deterministic_rule"
  | .unknown => "unknown"

/-- `state_str`. -/
def stateStr : TaskSessionState → String
  | .created => "created"
  | .contextCompiled => "context_compiled"
  | .active => "active"
  | .reconciled => "reconciled"
  | .completed => "completed"
  | .abandoned => "abandoned"
  | .failed => "failed"

/-! ## The kind of a task -/

/-- The characters of a word. -/
def isWordChar (c : Char) : Bool := c.isAlphanum || c = '_'

/-- `has_task_keyword`. -/
def hasTaskKeyword (rawTaskText keyword : String) : Bool :=
  (rawTaskText.toList.splitOnP fun c => !isWordChar c).any fun word =>
    word.map Char.toLower = keyword.toList.map Char.toLower

/-- `RULES`. -/
def taskRules : List (String × TaskKind × String) :=
  [("fix", .bugFix, "rule_bugfix_keyword_fix"),
    ("fixed", .bugFix, "rule_bugfix_keyword_fix"),
    ("fixes", .bugFix, "rule_bugfix_keyword_fix"),
    ("bugfix", .bugFix, "rule_bugfix_keyword_fix"),
    ("bug", .bugFix, "rule_bugfix_keyword_bug"),
    ("bugs", .bugFix, "rule_bugfix_keyword_bug"),
    ("broken", .bugFix, "rule_bugfix_keyword_bug"),
    ("refactor", .refactor, "rule_refactor_keyword"),
    ("refactoring", .refactor, "rule_refactor_keyword"),
    ("rename", .refactor, "rule_refactor_keyword_rename"),
    ("renamed", .refactor, "rule_refactor_keyword_rename"),
    ("api", .apiChange, "rule_api_change_keyword"),
    ("interface", .apiChange, "rule_api_change_keyword_interface"),
    ("configuration", .configurationChange, "rule_configuration_change_keyword"),
    ("configure", .configurationChange, "rule_configuration_change_keyword"),
    ("config", .configurationChange, "rule_configuration_change_keyword"),
    ("tests", .testChange, "rule_test_change_keyword"),
    ("test", .testChange, "rule_test_change_keyword"),
    ("review", .review, "rule_review_keyword"),
    ("audit", .audit, "rule_audit_keyword"),
    ("explore", .explore, "rule_explore_keyword"),
    ("investigate", .explore, "rule_explore_keyword_investigate"),
    ("understand", .explore, "rule_explore_keyword_understand"),
    ("changes", .behaviorChange, "rule_behavior_change_keyword"),
    ("change", .behaviorChange, "rule_behavior_change_keyword"),
    ("adding", .behaviorChange, "rule_behavior_change_keyword_add"),
    ("add", .behaviorChange, "rule_behavior_change_keyword_add")]

/-- `classify_task`. -/
def classifyTask (declared : Option TaskKind) (rawTaskText : String) :
    TaskKind × TaskKindSource × Option String :=
  match declared with
  | some kind => (kind, .declared, none)
  | none =>
    match taskRules.find? fun rule => hasTaskKeyword rawTaskText rule.1 with
    | some (_, kind, ruleId) => (kind, .deterministicRule, some ruleId)
    | none => (.unknown, .deterministicRule, some "rule_default_unknown")

/-- `normalized_task_hash`. -/
def normalizedTaskHash (H : Hasher) (task : String) : String :=
  contentHashOfBytes H
    (utf8 (String.ofList ((Broker.trimText task).map Char.toLower)))

/-! ## Creation -/

/-- `PLANNER_POLICY_VERSION`. -/
def plannerPolicyVersion : String := "planner-v1.1.0"

/-- What a session is created from. -/
structure NewTask where
  workspaceId : String
  startGenerationId : String
  taskHash : String
  normalizedGoalHash : String
  rawTaskRetention : RawTaskRetention
  rawTask : Option String
  taskKind : TaskKind
  taskKindSource : TaskKindSource
  taskKindRuleId : Option String
  contextIrVersion : String
  deriving DecidableEq, Repr

/-- The id of the session of a task. -/
def NewTask.sessionId (H : Hasher) (task : NewTask) : String :=
  deterministicId H "task" [task.workspaceId, task.startGenerationId, task.taskHash,
    task.normalizedGoalHash, taskKindStr task.taskKind, taskKindSourceStr task.taskKindSource,
    task.taskKindRuleId.getD "", retentionStr task.rawTaskRetention, plannerPolicyVersion,
    task.contextIrVersion]

/-- The row of a new session. -/
def NewTask.row (H : Hasher) (task : NewTask) (now : Timestamp) : TaskSession where
  taskSessionId := task.sessionId H
  workspaceId := task.workspaceId
  startGenerationId := task.startGenerationId
  endGenerationId := none
  taskHash := task.taskHash
  normalizedGoalHash := task.normalizedGoalHash
  rawTaskRetention := task.rawTaskRetention
  rawTask := task.rawTask
  taskKind := task.taskKind
  taskKindSource := task.taskKindSource
  taskKindRuleId := task.taskKindRuleId
  plannerPolicyVersion := plannerPolicyVersion
  contextIrVersion := task.contextIrVersion
  state := .created
  accepted := none
  testsPassed := none
  outcomeCode := none
  startTreeHash := none
  endTreeHash := none
  createdAt := now
  completedAt := none

/-- A hash of a session is checked. -/
def checkHash (D : Text.DebugFormat) (field value : String) : Except AtlasError Unit :=
  ensure (ContextRoute.validDigest value = true) (.invalidConfig
    (field ++ " must be 64 lowercase hex characters, got " ++ String.ofList (D.debugStr value)))

/-- `TaskSession::validate`. -/
def TaskSession.validate (D : Text.DebugFormat) (ts : TaskSession) : Except AtlasError Unit := do
  ensure (ts.rawTaskRetention = .localOptIn ∨ ts.rawTask = none)
    (.invalidConfig "raw_task must be null unless raw_task_retention = local_opt_in")
  checkHash D "task_hash" ts.taskHash
  checkHash D "normalized_goal_hash" ts.normalizedGoalHash

namespace SessionStore

/-- `load_task_session`. -/
def loadTaskSession (s : SessionStore) (taskSessionId : String) : Option TaskSession :=
  s.taskSession.find? fun ts => ts.taskSessionId = taskSessionId

/-- The result of a statement that has to find the session. -/
def session (s : SessionStore) (taskSessionId : String) (e : AtlasError) :
    Except AtlasError TaskSession :=
  (s.loadTaskSession taskSessionId).elim (.error e) .ok

/-- `INSERT OR IGNORE INTO task_session`: the references of a row that is ignored are not
checked. -/
def insertSession (s : SessionStore) (ts : TaskSession) : Except AtlasError SessionStore :=
  match s.taskSession.insert? ts with
  | none => .ok s
  | some sessions => do
    ensure (s.catalogue.hasWorkspace ts.workspaceId = true ∧
      s.catalogue.hasGeneration ts.startGenerationId = true)
      (.sqlite (.foreignKey "task_session"))
    return s.withSessions sessions

/-- `create_classified_task_session`. -/
def createClassifiedTaskSession (H : Hasher) (D : Text.DebugFormat) (s : SessionStore)
    (task : NewTask) (now : Timestamp) : Except AtlasError (TaskSession × SessionStore) := do
  ensure (task.contextIrVersion = Delta.contextSchemaVersion) (.invalidConfig
    ("durable task lifecycle supports only legacy Context IR " ++ Delta.contextSchemaVersion ++
      "; transient V2 lifecycle must not be persisted before H7"))
  (task.row H now).validate D
  let s ← s.insertSession (task.row H now)
  let ts ← s.session (task.sessionId H) (.other
    ("task_session " ++ task.sessionId H ++ " missing immediately after insert"))
  return (ts, s)

end SessionStore

end WorkspaceAtlas
