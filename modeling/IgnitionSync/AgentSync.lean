import IgnitionSync.AgentProfile

/-! The agent's orchestration (`internal/agent/agent.go`): `Run` waits for metadata, clones and
syncs once, then handles trigger events one at a time. Every call to the outside world takes
its answer from the event being handled (the metadata read, `CloneOrFetch`,
`SyncEngine.Sync`, `TriggerScan`, `HealthCheck` and the clock), so a run is a fold of `step`
over a list of events and every pattern of answers is some list. The world records the calls
that fetch, sync, scan or write a status. -/
namespace IgnitionSync.SyncAgent

/-- `agentVersion`. -/
def agentVersion : String := "0.1.0"

/-- `synctypes.SyncStatusSynced`. -/
def syncStatusSynced : String := "Synced"

/-- `synctypes.SyncStatusError`. -/
def syncStatusError : String := "Error"

/-- `synctypes.GatewayStatus`. -/
structure GatewayStatus where
  syncStatus : String
  syncedCommit : String
  syncedRef : String
  lastSyncTime : String
  lastSyncDuration : String
  agentVersion : String
  lastScanResult : String
  filesChanged : BitVec 32
  projectsSynced : List String
  errorMessage : String
deriving DecidableEq, Repr

/-- Modelled from the spec: `git.Result`, what `CloneOrFetch` returns. -/
structure CloneResult where
  commit : String
  ref : String
deriving DecidableEq, Repr

/-- Modelled from the spec: `syncengine.SyncResult`, the fields `syncOnce` reads. -/
structure SyncResult where
  filesAdded : BitVec 64
  filesModified : BitVec 64
  filesDeleted : BitVec 64
  projectsSynced : List String
  duration : String
deriving DecidableEq, Repr

/-- What the metadata read, `CloneOrFetch`, `Sync`, `TriggerScan`, `HealthCheck` and the clock answer. -/
structure Outcomes where
  metadata : Except String Metadata
  fetch : Except String CloneResult
  sync : Except String SyncResult
  scan : String
  health : Option String
  now : String

inductive Call where
  | cloneOrFetch (url ref : String)
  | sync
  | triggerScan
  | healthCheck
  | writeStatus (status : GatewayStatus)
deriving DecidableEq, Repr

/-- `Agent`: the field its loop keeps from one event to the next. -/
structure Agent where
  lastSyncedCommit : String
deriving DecidableEq, Repr

def statusWrites (calls : List Call) : List GatewayStatus :=
  calls.filterMap fun
    | .writeStatus st => some st
    | _ => none

/-- `int32(FilesAdded + FilesModified + FilesDeleted)`. -/
def filesChangedOf (r : SyncResult) : BitVec 32 :=
  (r.filesAdded + r.filesModified + r.filesDeleted).setWidth 32

/-- `reportError`: the write of an error status. -/
def reportError (commit ref errMsg now : String) : Call :=
  .writeStatus
    { syncStatus := syncStatusError, syncedCommit := commit, syncedRef := ref,
      lastSyncTime := now, lastSyncDuration := "", agentVersion := agentVersion,
      lastScanResult := "", filesChanged := 0, projectsSynced := [], errorMessage := errMsg }

/-- The scan step of `syncOnce` after a successful `Sync`: its calls and `scanResultStr`. -/
def scanAfterSync (o : Outcomes) (syncResult : SyncResult) (isInitial : Bool) :
    List Call × String :=
  if !isInitial then
    if 0 < (filesChangedOf syncResult).toInt then ([.triggerScan], o.scan) else ([], "")
  else
    match o.health with
    | some err => ([.healthCheck], "health check failed: " ++ err)
    | none => ([.healthCheck], "")

/-- The status `syncOnce` writes after a successful `Sync`. -/
def syncedStatus (o : Outcomes) (syncResult : SyncResult) (commit ref scanResultStr : String) :
    GatewayStatus :=
  let failed := scanResultStr ≠ "" ∧ "error".toList <:+: scanResultStr.toList
  { syncStatus := if failed then syncStatusError else syncStatusSynced, syncedCommit := commit,
    syncedRef := ref, lastSyncTime := o.now, lastSyncDuration := syncResult.duration,
    agentVersion := agentVersion, lastScanResult := scanResultStr,
    filesChanged := filesChangedOf syncResult, projectsSynced := syncResult.projectsSynced,
    errorMessage := if failed then scanResultStr else "" }

/-- `syncOnce`: the agent after it, its calls in order, and the error it returns. -/
def syncOnce (a : Agent) (o : Outcomes) (commit ref : String) (isInitial : Bool) :
    Agent × List Call × Option String :=
  match o.sync with
  | .error err =>
    (a, [.sync, reportError commit ref ("sync engine: " ++ err) o.now], some ("sync engine: " ++ err))
  | .ok syncResult =>
    let scan := scanAfterSync o syncResult isInitial
    ({ a with lastSyncedCommit := commit },
      .sync :: scan.1 ++ [.writeStatus (syncedStatus o syncResult commit ref scan.2)], none)

/-- `handleSyncTrigger`: the agent after it and its calls in order. -/
def handleSyncTrigger (gitURL : String) (a : Agent) (o : Outcomes) : Agent × List Call :=
  match o.metadata with
  | .error _ => (a, [])
  | .ok meta =>
    if meta.paused = "true" then (a, [])
    else if meta.commit = a.lastSyncedCommit then (a, [])
    else
      match o.fetch with
      | .error err =>
        (a, [.cloneOrFetch gitURL meta.ref, reportError meta.commit meta.ref ("git fetch: " ++ err) o.now])
      | .ok result =>
        let r := syncOnce a o result.commit result.ref false
        (r.1, .cloneOrFetch gitURL meta.ref :: r.2.1)

/-- `waitForMetadata`, over the reads it makes before it is cancelled. -/
def waitForMetadata : List (Except String Metadata) → Option Metadata
  | [] => none
  | .error _ :: reads => waitForMetadata reads
  | .ok meta :: reads => if meta.commit ≠ "" then some meta else waitForMetadata reads

structure World where
  agent : Agent
  calls : List Call

/-- One trigger event of `Run`'s loop. -/
def step (gitURL : String) (w : World) (o : Outcomes) : World :=
  let r := handleSyncTrigger gitURL w.agent o
  { agent := r.1, calls := w.calls ++ r.2 }

/-- `Run` up to its loop: the world after the initial sync, and the loop's git URL or the error. -/
def runStart (reads : List (Except String Metadata)) (clone : Except String CloneResult)
    (o : Outcomes) : World × Except String String :=
  let a : Agent := { lastSyncedCommit := "" }
  match waitForMetadata reads with
  | none => (⟨a, []⟩, .error "waiting for metadata: context canceled")
  | some meta =>
    if meta.gitURL = "" then (⟨a, []⟩, .error "gitURL not found in metadata ConfigMap")
    else
      match clone with
      | .error err => (⟨a, [.cloneOrFetch meta.gitURL meta.ref]⟩, .error ("initial clone: " ++ err))
      | .ok result =>
        let r := syncOnce a o result.commit result.ref true
        (⟨r.1, .cloneOrFetch meta.gitURL meta.ref :: r.2.1⟩, .ok meta.gitURL)

/-- `Run` over a finite sequence of triggers: the world, and the error if it stopped early. -/
def run (reads : List (Except String Metadata)) (clone : Except String CloneResult)
    (o : Outcomes) (events : List Outcomes) : World × Option String :=
  match runStart reads clone o with
  | (w, .error err) => (w, some err)
  | (w, .ok gitURL) => (events.foldl (step gitURL) w, none)

def unpausedCommit (o : Outcomes) : Option String :=
  match o.metadata with
  | .ok meta => if meta.paused = "true" then none else some meta.commit
  | .error _ => none

def startsCycle (a : Agent) (o : Outcomes) : Bool :=
  match unpausedCommit o with
  | some c => c ≠ a.lastSyncedCommit
  | none => false

def cyclesRun (gitURL : String) : Agent → List Outcomes → Nat
  | _, [] => 0
  | a, o :: os => (if startsCycle a o then 1 else 0) + cyclesRun gitURL (handleSyncTrigger gitURL a o).1 os

/-- How a cycle past the skip tests ends, given its fetch and `Sync` and the status `st` it writes. -/
def CycleOutcome (before after : String) (fetch : Except String CloneResult)
    (sync : Except String SyncResult) (st : GatewayStatus) : Prop :=
  match fetch, sync with
  | .ok r, .ok _ => after = r.commit
  | _, _ => after = before ∧ st.syncStatus = syncStatusError ∧ st.errorMessage ≠ ""

theorem append_ne_empty {p : String} (s : String) (hp : p ≠ "") : p ++ s ≠ "" := fun h =>
  hp (String.ext (List.append_eq_nil.1 (congrArg String.data h)).1)

@[simp] theorem statusWrites_append (l l' : List Call) :
    statusWrites (l ++ l') = statusWrites l ++ statusWrites l' :=
  List.filterMap_append _ _ _

@[simp] theorem statusWrites_cons_write (st : GatewayStatus) (l : List Call) :
    statusWrites (.writeStatus st :: l) = st :: statusWrites l := rfl

@[simp] theorem statusWrites_cons_cloneOrFetch (url ref : String) (l : List Call) :
    statusWrites (.cloneOrFetch url ref :: l) = statusWrites l := rfl

@[simp] theorem statusWrites_cons_sync (l : List Call) :
    statusWrites (.sync :: l) = statusWrites l := rfl

@[simp] theorem statusWrites_nil : statusWrites [] = [] := rfl

@[simp] theorem statusWrites_scanAfterSync (o : Outcomes) (sr : SyncResult) (isInitial : Bool) :
    statusWrites (scanAfterSync o sr isInitial).1 = [] := by
  unfold scanAfterSync
  split_ifs <;> (try split) <;> rfl

@[simp] theorem count_sync_scanAfterSync (o : Outcomes) (sr : SyncResult) (isInitial : Bool) :
    (scanAfterSync o sr isInitial).1.count .sync = 0 := by
  unfold scanAfterSync
  split_ifs <;> (try split) <;> rfl

section Steps

variable {gitURL : String} {a : Agent} {o : Outcomes}

theorem syncOnce_of_error {err : String} (h : o.sync = .error err) (commit ref : String)
    (isInitial : Bool) :
    syncOnce a o commit ref isInitial =
      (a, [.sync, reportError commit ref ("sync engine: " ++ err) o.now],
        some ("sync engine: " ++ err)) := by
  simp [syncOnce, h]

theorem syncOnce_of_ok {sr : SyncResult} (h : o.sync = .ok sr) (commit ref : String)
    (isInitial : Bool) :
    syncOnce a o commit ref isInitial =
      (⟨commit⟩, .sync :: (scanAfterSync o sr isInitial).1 ++
        [.writeStatus (syncedStatus o sr commit ref (scanAfterSync o sr isInitial).2)], none) := by
  simp [syncOnce, h]

theorem unpausedCommit_eq_some {c : String} :
    unpausedCommit o = some c ↔
      ∃ meta, o.metadata = .ok meta ∧ meta.paused ≠ "true" ∧ meta.commit = c := by
  unfold unpausedCommit
  split <;> rename_i h <;> simp [h]

theorem handleSyncTrigger_of_skip (h : ∀ c, unpausedCommit o = some c → c = a.lastSyncedCommit) :
    handleSyncTrigger gitURL a o = (a, []) := by
  unfold handleSyncTrigger
  split
  next => rfl
  next meta hm =>
    have hc := h meta.commit
    simp only [unpausedCommit, hm] at hc
    split_ifs with hp <;> simp_all

theorem handleSyncTrigger_of_fetch_error {meta : Metadata} {err : String}
    (hm : o.metadata = .ok meta) (hp : meta.paused ≠ "true") (hc : meta.commit ≠ a.lastSyncedCommit)
    (hf : o.fetch = .error err) :
    handleSyncTrigger gitURL a o =
      (a, [.cloneOrFetch gitURL meta.ref,
        reportError meta.commit meta.ref ("git fetch: " ++ err) o.now]) := by
  simp [handleSyncTrigger, hm, hp, hc, hf]

theorem handleSyncTrigger_of_fetch_ok {meta : Metadata} {result : CloneResult}
    (hm : o.metadata = .ok meta) (hp : meta.paused ≠ "true") (hc : meta.commit ≠ a.lastSyncedCommit)
    (hf : o.fetch = .ok result) :
    handleSyncTrigger gitURL a o =
      ((syncOnce a o result.commit result.ref false).1,
        .cloneOrFetch gitURL meta.ref :: (syncOnce a o result.commit result.ref false).2.1) := by
  simp [handleSyncTrigger, hm, hp, hc, hf]

/-- `syncOnce` on a fetched commit writes one status and ends as its cycle should. -/
theorem syncOnce_cycle (a : Agent) (o : Outcomes) (r : CloneResult) (isInitial : Bool) :
    ∃ st, statusWrites (syncOnce a o r.commit r.ref isInitial).2.1 = [st] ∧
      CycleOutcome a.lastSyncedCommit (syncOnce a o r.commit r.ref isInitial).1.lastSyncedCommit
        (.ok r) o.sync st := by
  cases hs : o.sync with
  | error err =>
    rw [syncOnce_of_error hs]
    exact ⟨_, rfl, rfl, rfl, append_ne_empty err (by decide)⟩
  | ok sr =>
    rw [syncOnce_of_ok hs]
    exact ⟨syncedStatus o sr r.commit r.ref (scanAfterSync o sr isInitial).2, by simp, rfl⟩

theorem count_sync_syncOnce (a : Agent) (o : Outcomes) (commit ref : String) (isInitial : Bool) :
    (syncOnce a o commit ref isInitial).2.1.count .sync = 1 := by
  cases hs : o.sync with
  | error err => simp [syncOnce_of_error hs, reportError]
  | ok sr => simp [syncOnce_of_ok hs]

/-- A trigger that reads a new unpaused commit writes one status and ends as its cycle
should. -/
theorem handleSyncTrigger_cycle {c : String} (h : unpausedCommit o = some c)
    (hc : c ≠ a.lastSyncedCommit) :
    ∃ st, statusWrites (handleSyncTrigger gitURL a o).2 = [st] ∧
      CycleOutcome a.lastSyncedCommit (handleSyncTrigger gitURL a o).1.lastSyncedCommit
        o.fetch o.sync st := by
  obtain ⟨meta, hm, hp, rfl⟩ := unpausedCommit_eq_some.1 h
  cases hf : o.fetch with
  | error err =>
    rw [handleSyncTrigger_of_fetch_error hm hp hc hf]
    exact ⟨_, rfl, rfl, rfl, append_ne_empty err (by decide)⟩
  | ok result =>
    rw [handleSyncTrigger_of_fetch_ok hm hp hc hf, statusWrites_cons_cloneOrFetch]
    exact syncOnce_cycle a o result false

theorem statusWrites_handleSyncTrigger_length :
    (statusWrites (handleSyncTrigger gitURL a o).2).length = if startsCycle a o then 1 else 0 := by
  unfold startsCycle
  cases hu : unpausedCommit o with
  | none =>
    have hskip : ∀ c, unpausedCommit o = some c → c = a.lastSyncedCommit := by simp [hu]
    rw [handleSyncTrigger_of_skip hskip]
    rfl
  | some c =>
    by_cases hc : c = a.lastSyncedCommit
    · have hskip : ∀ c', unpausedCommit o = some c' → c' = a.lastSyncedCommit := by
        simp [hu, hc, eq_comm]
      simp [handleSyncTrigger_of_skip hskip, hc]
    · obtain ⟨st, hst, -⟩ := @handleSyncTrigger_cycle gitURL a o c hu hc
      simp [hst, hc]

/-- A trigger calls `Sync` once when it starts a cycle and its fetch succeeds, and not
otherwise. -/
theorem count_sync_handleSyncTrigger :
    (handleSyncTrigger gitURL a o).2.count .sync = if startsCycle a o && o.fetch.toBool then 1 else 0 := by
  unfold startsCycle
  cases hu : unpausedCommit o with
  | none =>
    rw [handleSyncTrigger_of_skip (by simp [hu])]
    rfl
  | some c =>
    by_cases hc : c = a.lastSyncedCommit
    · rw [handleSyncTrigger_of_skip (by simp [hu, hc, eq_comm])]
      simp [hc]
    · obtain ⟨meta, hm, hp, rfl⟩ := unpausedCommit_eq_some.1 hu
      cases hf : o.fetch with
      | error err => simp [handleSyncTrigger_of_fetch_error hm hp hc hf, reportError, hc, Except.toBool]
      | ok r => simp [handleSyncTrigger_of_fetch_ok hm hp hc hf, count_sync_syncOnce, hc, Except.toBool]

end Steps

/-- Over every run of the trigger loop the agent writes exactly one status per trigger that
starts a sync cycle, and none for the others. -/
theorem statusWrites_run_length (gitURL : String) (es : List Outcomes) (w : World) :
    (statusWrites (es.foldl (step gitURL) w).calls).length =
      (statusWrites w.calls).length + cyclesRun gitURL w.agent es := by
  induction es generalizing w with
  | nil => rfl
  | cons e es ih =>
    rw [List.foldl_cons, ih, cyclesRun]
    simp only [step, statusWrites_append, List.length_append, statusWrites_handleSyncTrigger_length]
    omega

theorem runStart_of_clone_ok {reads : List (Except String Metadata)} {o : Outcomes}
    {meta : Metadata} (result : CloneResult) (hm : waitForMetadata reads = some meta)
    (hg : meta.gitURL ≠ "") :
    runStart reads (.ok result) o =
      (⟨(syncOnce ⟨""⟩ o result.commit result.ref true).1,
        .cloneOrFetch meta.gitURL meta.ref :: (syncOnce ⟨""⟩ o result.commit result.ref true).2.1⟩,
        .ok meta.gitURL) := by
  simp [runStart, hm, hg]

/-- A trigger that reads a commit other than the last synced one, fetches `r` and syncs it makes
one `Sync` call and writes one status, and leaves `r.commit` as the last synced commit. -/
theorem step_of_synced (gitURL : String) {w : World} {o : Outcomes} {c : String} {r : CloneResult}
    {sr : SyncResult} (hu : unpausedCommit o = some c) (hc : c ≠ w.agent.lastSyncedCommit)
    (hf : o.fetch = .ok r) (hs : o.sync = .ok sr) :
    (step gitURL w o).agent.lastSyncedCommit = r.commit ∧
      (step gitURL w o).calls.count .sync = w.calls.count .sync + 1 ∧
      (statusWrites (step gitURL w o).calls).length = (statusWrites w.calls).length + 1 := by
  have hstart : startsCycle w.agent o = true := by simp [startsCycle, hu, hc]
  obtain ⟨meta, hm, hp, rfl⟩ := unpausedCommit_eq_some.1 hu
  refine ⟨by simp [step, handleSyncTrigger_of_fetch_ok hm hp hc hf, syncOnce_of_ok hs], ?_, ?_⟩
  · simp [step, count_sync_handleSyncTrigger, hstart, hf, Except.toBool]
  · simp [step, statusWrites_handleSyncTrigger_length, hstart]

theorem foldl_step_of_moved_ref (gitURL c : String) (w : World) {es : List Outcomes}
    (hw : w.agent.lastSyncedCommit ≠ c)
    (hes : ∀ e ∈ es, unpausedCommit e = some c ∧
      ∃ r sr, e.fetch = .ok r ∧ r.commit ≠ c ∧ e.sync = .ok sr) :
    (es.foldl (step gitURL) w).calls.count .sync = w.calls.count .sync + es.length ∧
      (statusWrites (es.foldl (step gitURL) w).calls).length =
        (statusWrites w.calls).length + es.length := by
  induction es generalizing w with
  | nil => exact ⟨rfl, rfl⟩
  | cons e es ih =>
    obtain ⟨hu, r, sr, hf, hr, hs⟩ := hes e (List.mem_cons_self e es)
    obtain ⟨hlast, hsync, hwrites⟩ := step_of_synced gitURL hu (Ne.symm hw) hf hs
    obtain ⟨ih₁, ih₂⟩ := ih (step gitURL w e) (by rw [hlast]; exact hr)
      fun e' he' => hes e' (List.mem_cons_of_mem e he')
    rw [List.foldl_cons, ih₁, ih₂, hsync, hwrites, List.length_cons]
    omega

/-- While every fetch returns another commit than the metadata's, the initial sync and each
trigger reading that unpaused commit again call `Sync` and write a status. -/
theorem moved_ref_resyncs_every_trigger (reads : List (Except String Metadata)) (o : Outcomes)
    (events : List Outcomes) (meta : Metadata) (r : CloneResult) (sr : SyncResult)
    (hm : waitForMetadata reads = some meta) (hg : meta.gitURL ≠ "") (hr : r.commit ≠ meta.commit)
    (hs : o.sync = .ok sr)
    (hes : ∀ e ∈ events, unpausedCommit e = some meta.commit ∧
      ∃ r' sr', e.fetch = .ok r' ∧ r'.commit ≠ meta.commit ∧ e.sync = .ok sr') :
    (run reads (.ok r) o events).1.calls.count .sync = events.length + 1 ∧
      (statusWrites (run reads (.ok r) o events).1.calls).length = events.length + 1 := by
  unfold run
  rw [runStart_of_clone_ok r hm hg]
  have hw : (syncOnce ⟨""⟩ o r.commit r.ref true).1.lastSyncedCommit ≠ meta.commit := by
    rw [syncOnce_of_ok hs]
    exact hr
  obtain ⟨h₁, h₂⟩ := foldl_step_of_moved_ref meta.gitURL meta.commit
    ⟨_, .cloneOrFetch meta.gitURL meta.ref :: (syncOnce ⟨""⟩ o r.commit r.ref true).2.1⟩ hw hes
  obtain ⟨st, hst, -⟩ := syncOnce_cycle ⟨""⟩ o r true
  simp [h₁, h₂, count_sync_syncOnce, hst, Nat.add_comm]

theorem moved_ref_resyncs_unchanged_metadata :
    let meta : Metadata := ⟨"origin", "c1", "main", "false"⟩
    let o : Outcomes := ⟨.ok meta, .ok ⟨"c2", "main"⟩, .ok ⟨0, 0, 0, [], "1ms"⟩, "", none, "t"⟩
    unpausedCommit o = some meta.commit ∧
      (run [o.metadata] o.fetch o [o, o]).1.calls.count .sync = 3 ∧
      (statusWrites (run [o.metadata] o.fetch o [o, o]).1.calls).length = 3 := by
  intro meta o
  have hes : ∀ e ∈ [o, o], unpausedCommit e = some meta.commit ∧
      ∃ r' sr', e.fetch = .ok r' ∧ r'.commit ≠ meta.commit ∧ e.sync = .ok sr' := by
    simp only [List.mem_cons, List.not_mem_nil, or_false, or_self]
    rintro e rfl
    exact ⟨rfl, _, _, rfl, by decide, rfl⟩
  exact ⟨rfl, moved_ref_resyncs_every_trigger [o.metadata] o [o, o] meta ⟨"c2", "main"⟩ _ rfl
    (by decide) (by decide) rfl hes⟩

theorem runStart_of_clone_error (reads : List (Except String Metadata)) (o : Outcomes)
    (err : String) :
    statusWrites (runStart reads (.error err) o).1.calls = [] ∧
      ∀ meta, waitForMetadata reads = some meta → meta.gitURL ≠ "" →
        (runStart reads (.error err) o).2 = .error ("initial clone: " ++ err) := by
  refine ⟨?_, fun meta hm hg => by simp [runStart, hm, hg]⟩
  unfold runStart
  split
  · rfl
  · split_ifs <;> rfl

/-- A trigger skips, making no call, or writes one status and ends as `CycleOutcome` says; so
does the initial sync once its clone succeeded, while a failed initial clone writes none. -/
theorem sync_cycles_write_one_status (gitURL : String) (a : Agent) (o : Outcomes)
    (reads : List (Except String Metadata)) (clone : Except String CloneResult) :
    ((∀ c, unpausedCommit o = some c → c = a.lastSyncedCommit) →
      handleSyncTrigger gitURL a o = (a, [])) ∧
    (∀ c, unpausedCommit o = some c → c ≠ a.lastSyncedCommit →
      ∃ st, statusWrites (handleSyncTrigger gitURL a o).2 = [st] ∧
        CycleOutcome a.lastSyncedCommit (handleSyncTrigger gitURL a o).1.lastSyncedCommit
          o.fetch o.sync st) ∧
    (∀ meta, waitForMetadata reads = some meta → meta.gitURL ≠ "" → ∀ r, clone = .ok r →
      (runStart reads clone o).2 = .ok meta.gitURL ∧
      ∃ st, statusWrites (runStart reads clone o).1.calls = [st] ∧
        CycleOutcome "" (runStart reads clone o).1.agent.lastSyncedCommit clone o.sync st) ∧
    (∀ err, clone = .error err → statusWrites (runStart reads clone o).1.calls = [] ∧
      ∀ meta, waitForMetadata reads = some meta → meta.gitURL ≠ "" →
        (runStart reads clone o).2 = .error ("initial clone: " ++ err)) := by
  refine ⟨handleSyncTrigger_of_skip, fun _ h hc => handleSyncTrigger_cycle h hc,
    fun meta hm hg r hr => ?_, fun err hr => hr ▸ runStart_of_clone_error reads o err⟩
  subst hr
  rw [runStart_of_clone_ok r hm hg]
  exact ⟨rfl, by simpa using syncOnce_cycle ⟨""⟩ o r true⟩

/-- A failed initial clone, a fetch failure of the initial cycle, writes no status. -/
theorem initial_clone_failure_writes_no_status :
    let o : Outcomes := ⟨.ok ⟨"origin", "c1", "main", "false"⟩, .error "authentication required",
      .ok ⟨0, 0, 0, [], "1ms"⟩, "", none, "t"⟩
    statusWrites (run [o.metadata] o.fetch o []).1.calls = [] ∧
      (run [o.metadata] o.fetch o []).2 = some "initial clone: authentication required" := by
  decide

/-- A trigger whose fetch fails writes one status that names as synced the commit it failed
to fetch, while the agent's last synced commit stays the old one. -/
theorem fetch_failure_reports_unsynced_commit (gitURL : String) (a : Agent) (o : Outcomes)
    {meta : Metadata} {err : String} (hm : o.metadata = .ok meta) (hp : meta.paused ≠ "true")
    (hc : meta.commit ≠ a.lastSyncedCommit) (hf : o.fetch = .error err) :
    ∃ st, statusWrites (handleSyncTrigger gitURL a o).2 = [st] ∧ st.syncedCommit = meta.commit ∧
      (handleSyncTrigger gitURL a o).1.lastSyncedCommit ≠ st.syncedCommit := by
  rw [handleSyncTrigger_of_fetch_error hm hp hc hf]
  exact ⟨_, rfl, rfl, Ne.symm hc⟩

theorem fetch_failure_reports_c2_after_c1 :
    let o : Outcomes := ⟨.ok ⟨"origin", "c2", "main", "false"⟩, .error "connection refused",
      .error "", "", none, "t"⟩
    ∃ st, statusWrites (handleSyncTrigger "origin" ⟨"c1"⟩ o).2 = [st] ∧ st.syncedCommit = "c2" ∧
      (handleSyncTrigger "origin" ⟨"c1"⟩ o).1.lastSyncedCommit ≠ st.syncedCommit := by
  intro o
  exact fetch_failure_reports_unsynced_commit "origin" ⟨"c1"⟩ o rfl (by decide) (by decide) rfl

theorem filesChangedOf_toInt (sr : SyncResult) :
    (filesChangedOf sr).toInt =
      Int.bmod (sr.filesAdded.toNat + sr.filesModified.toNat + sr.filesDeleted.toNat : Nat)
        4294967296 := by
  rw [BitVec.toInt_eq_toNat_bmod, filesChangedOf, BitVec.toNat_setWidth, BitVec.toNat_add,
    BitVec.toNat_add]
  simp only [Nat.reducePow]
  have hmod : ((sr.filesAdded.toNat + sr.filesModified.toNat) % 18446744073709551616 +
      sr.filesDeleted.toNat) % 18446744073709551616 % 4294967296 =
      (sr.filesAdded.toNat + sr.filesModified.toNat + sr.filesDeleted.toNat) % 4294967296 := by
    omega
  rw [hmod, Int.ofNat_emod, Int.emod_bmod]

/-- A non-initial `syncOnce` calls `TriggerScan` exactly when the counts' sum, wrapped to a
signed 32-bit value, is positive, and reports that value as `FilesChanged`. -/
theorem syncOnce_scan_iff_wrapped_sum (a : Agent) (o : Outcomes) (commit ref : String)
    {sr : SyncResult} (h : o.sync = .ok sr) :
    (Call.triggerScan ∈ (syncOnce a o commit ref false).2.1 ↔
      0 < Int.bmod (sr.filesAdded.toNat + sr.filesModified.toNat + sr.filesDeleted.toNat : Nat)
        4294967296) ∧
    ∃ st, statusWrites (syncOnce a o commit ref false).2.1 = [st] ∧
      st.filesChanged.toInt =
        Int.bmod (sr.filesAdded.toNat + sr.filesModified.toNat + sr.filesDeleted.toNat : Nat)
          4294967296 := by
  rw [syncOnce_of_ok h, ← filesChangedOf_toInt]
  refine ⟨?_, syncedStatus o sr commit ref (scanAfterSync o sr false).2, by simp, rfl⟩
  simp only [scanAfterSync, Bool.not_false, if_true]
  split_ifs <;> simp_all

theorem syncOnce_scan_skipped_at_wrapped_sum :
    let o : Outcomes :=
      ⟨.error "", .error "", .ok ⟨1073741824, 1073741824, 0, [], "1ms"⟩, "", none, "t"⟩
    Call.triggerScan ∉ (syncOnce ⟨"c1"⟩ o "c2" "main" false).2.1 ∧
      ∃ st, statusWrites (syncOnce ⟨"c1"⟩ o "c2" "main" false).2.1 = [st] ∧
        st.filesChanged.toInt = -2147483648 := by
  intro o
  obtain ⟨hscan, st, hst, hfc⟩ := syncOnce_scan_iff_wrapped_sum ⟨"c1"⟩ o "c2" "main" rfl
  have hwrap : Int.bmod ((1073741824 : BitVec 64).toNat + (1073741824 : BitVec 64).toNat +
      (0 : BitVec 64).toNat : Nat) 4294967296 = -2147483648 := by decide
  rw [hwrap] at hscan hfc
  exact ⟨fun hin => absurd (hscan.1 hin) (by decide), st, hst, hfc⟩

/-! ### The statuses the agent writes -/

/-- A status as the agent writes it, when `fetched` holds of what `CloneOrFetch` returned. -/
def WrittenStatus (fetched : CloneResult → Prop) (st : GatewayStatus) : Prop :=
  (st.syncStatus = syncStatusSynced ∧ st.errorMessage = "" ∧
      ∃ r, fetched r ∧ st.syncedCommit = r.commit ∧ st.syncedRef = r.ref) ∨
    (st.syncStatus = syncStatusError ∧ st.errorMessage ≠ "")

theorem WrittenStatus.mono {fetched fetched' : CloneResult → Prop}
    (h : ∀ r, fetched r → fetched' r) {st : GatewayStatus} :
    WrittenStatus fetched st → WrittenStatus fetched' st
  | .inl ⟨hs, hm, r, hr, hc, hf⟩ => .inl ⟨hs, hm, r, h r hr, hc, hf⟩
  | .inr he => .inr he

theorem reportError_written (fetched : CloneResult → Prop) {commit ref err now : String}
    (pre : String) (hpre : pre ≠ "") :
    ∀ st ∈ statusWrites [reportError commit ref (pre ++ err) now], WrittenStatus fetched st := by
  simp only [reportError, statusWrites_cons_write, statusWrites_nil, List.mem_singleton, forall_eq]
  exact .inr ⟨rfl, append_ne_empty err hpre⟩

theorem syncedStatus_written (o : Outcomes) (sr : SyncResult) (r : CloneResult) (s : String) :
    WrittenStatus (· = r) (syncedStatus o sr r.commit r.ref s) := by
  unfold syncedStatus WrittenStatus
  by_cases hf : s ≠ "" ∧ "error".toList <:+: s.toList
  · exact .inr ⟨if_pos hf, by simpa only [if_pos hf] using hf.1⟩
  · exact .inl ⟨if_neg hf, if_neg hf, r, rfl, rfl, rfl⟩

theorem syncOnce_written (a : Agent) (o : Outcomes) (r : CloneResult) (isInitial : Bool) :
    ∀ st ∈ statusWrites (syncOnce a o r.commit r.ref isInitial).2.1, WrittenStatus (· = r) st := by
  cases hs : o.sync with
  | error err =>
    rw [syncOnce_of_error hs, show [Call.sync, _] = [.sync] ++ [_] from rfl, statusWrites_append]
    simpa using reportError_written (· = r) "sync engine: " (by decide)
  | ok sr =>
    rw [syncOnce_of_ok hs]
    simp only [statusWrites_cons_sync, statusWrites_append, statusWrites_scanAfterSync,
      statusWrites_cons_write, statusWrites_nil, List.nil_append, List.mem_singleton, forall_eq]
    exact syncedStatus_written o sr r _

theorem handleSyncTrigger_written (gitURL : String) (a : Agent) (o : Outcomes) :
    ∀ st ∈ statusWrites (handleSyncTrigger gitURL a o).2, WrittenStatus (o.fetch = .ok ·) st := by
  unfold handleSyncTrigger
  split
  · simp
  · split_ifs
    · simp
    · simp
    · split
      · rw [show [Call.cloneOrFetch _ _, _] = [.cloneOrFetch gitURL _] ++ [_] from rfl,
          statusWrites_append]
        simpa using reportError_written _ "git fetch: " (by decide)
      · next result hf =>
        simp only [statusWrites_cons_cloneOrFetch]
        exact fun st hst => (syncOnce_written a o result false st hst).mono fun r hr => hr ▸ hf

theorem runStart_written (reads : List (Except String Metadata)) (clone : Except String CloneResult)
    (o : Outcomes) :
    ∀ st ∈ statusWrites (runStart reads clone o).1.calls, WrittenStatus (clone = .ok ·) st := by
  unfold runStart
  split
  · simp
  · split_ifs
    · simp
    · split
      · simp
      · next _ result =>
        simp only [statusWrites_cons_cloneOrFetch]
        exact fun st hst => (syncOnce_written _ o result true st hst).mono fun r hr => hr ▸ rfl

theorem foldl_step_written (gitURL : String) (es : List Outcomes) {w : World}
    {fetched : CloneResult → Prop} (hw : ∀ st ∈ statusWrites w.calls, WrittenStatus fetched st) :
    ∀ st ∈ statusWrites (es.foldl (step gitURL) w).calls,
      WrittenStatus (fun r => fetched r ∨ ∃ e ∈ es, e.fetch = .ok r) st := by
  induction es generalizing w fetched with
  | nil => simpa using hw
  | cons e es ih =>
    have hstep : ∀ st ∈ statusWrites (step gitURL w e).calls,
        WrittenStatus (fun r => fetched r ∨ e.fetch = .ok r) st := by
      simp only [step, statusWrites_append, List.mem_append]
      rintro st (h | h)
      · exact (hw st h).mono fun _ => .inl
      · exact (handleSyncTrigger_written gitURL w.agent e st h).mono fun _ => .inr
    intro st hst
    refine (ih hstep st hst).mono fun r hr => ?_
    rcases hr with (hr | hr) | ⟨e', he', hr⟩
    · exact .inl hr
    · exact .inr ⟨e, List.mem_cons_self e es, hr⟩
    · exact .inr ⟨e', List.mem_cons_of_mem e he', hr⟩

/-- Every status a run writes is `Synced`, with no message, for a commit and ref that a
`CloneOrFetch` returned, or `Error` with a message. -/
theorem run_writes_only_fetched_synced_statuses (reads : List (Except String Metadata))
    (clone : Except String CloneResult) (o : Outcomes) (events : List Outcomes) :
    ∀ st ∈ statusWrites (run reads clone o events).1.calls,
      WrittenStatus (fun r => clone = .ok r ∨ ∃ e ∈ events, e.fetch = .ok r) st := by
  have hstart := runStart_written reads clone o
  unfold run
  split
  · next w err h =>
    rw [h] at hstart
    exact fun st hst => (hstart st hst).mono fun _ => .inl
  · next w gitURL h =>
    rw [h] at hstart
    exact foldl_step_written gitURL events hstart

theorem run_writes_only_fetched_synced_statuses_sample :
    let meta : Metadata := ⟨"origin", "c1", "main", "false"⟩
    let o : Outcomes := ⟨.ok meta, .error "", .ok ⟨1, 0, 0, [], "1ms"⟩, "", none, "t"⟩
    let trigger : Outcomes :=
      { o with metadata := .ok { meta with commit := "c2" }, fetch := .error "timeout" }
    let st := reportError "c2" "main" "git fetch: timeout" "t"
    statusWrites [st] ⊆ statusWrites (run [.ok meta] (.ok ⟨"c1", "main"⟩) o [trigger]).1.calls ∧
      ∀ st' ∈ statusWrites [st], WrittenStatus
        (fun r => (.ok ⟨"c1", "main"⟩ : Except String CloneResult) = .ok r ∨
          ∃ e ∈ [trigger], e.fetch = .ok r) st' := by
  intro meta o trigger st
  have hsub : statusWrites [st] ⊆ statusWrites (run [.ok meta] (.ok ⟨"c1", "main"⟩) o [trigger]).1.calls := by
    decide
  exact ⟨hsub, fun st' h => run_writes_only_fetched_synced_statuses _ _ o [trigger] st' (hsub h)⟩

/-! ### The trigger loop settles -/

end IgnitionSync.SyncAgent
