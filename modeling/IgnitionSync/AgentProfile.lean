import Mathlib.Data.List.Forall2
import IgnitionSync.FilepathJoin


/-! The agent's sync profile (`internal/agent/profile.go`): mapping templates resolved against
a context, every resolved path validated, and the sync plan built mapping by mapping.
`text/template` is the parameter `engine`, what parsing and executing a template on the
context gives; the filesystem is the parameter `missing`, the paths `os.Stat` reports as not
existing. -/
namespace IgnitionSync.SyncAgent

open Filepath

/-- The agent's `Config`: the fields `buildTemplateContext` reads. -/
structure Config where
  gatewayName : String
  podName : String
  crNamespace : String
  crName : String

/-- Modelled from the spec: the metadata ConfigMap as `ReadMetadataConfigMap` returns it. -/
structure Metadata where
  gitURL : String
  commit : String
  ref : String
  paused : String
deriving DecidableEq, Repr

/-- `TemplateContext`; its `Labels` and `Vars` maps are association lists. -/
structure TemplateContext where
  gatewayName : String
  podName : String
  «namespace» : String
  ref : String
  commit : String
  crName : String
  labels : List (String × String)
  vars : List (String × String)
deriving Inhabited

/-- `buildTemplateContext`: the maps are copied, so the context shares nothing with them. -/
def buildTemplateContext (cfg : Config) (meta : Metadata)
    (profileVars labels : List (String × String)) : TemplateContext where
  gatewayName := cfg.gatewayName
  podName := cfg.podName
  «namespace» := cfg.crNamespace
  ref := meta.ref
  commit := meta.commit
  crName := cfg.crName
  labels := labels
  vars := profileVars

/-- What `text/template`, with `missingkey=error`, does with a template on the context. -/
inductive TemplateRun where
  | parseError (err : String)
  | execError (err : String)
  | output (text : List Char)

/-- `resolveTemplate`'s errors. -/
inductive TemplateError where
  | parsing (tmpl : List Char) (err : String)
  | executing (tmpl : List Char) (err : String)
deriving DecidableEq, Repr

/-- `validateResolvedPath`'s errors. -/
inductive PathError where
  | absolute (label : String) (path : List Char)
  | traversal (label : String) (path : List Char)
deriving DecidableEq, Repr

/-- `validateResolvedPath`; `filepath.ToSlash` is the identity on Unix. -/
def validateResolvedPath (path : List Char) (label : String) : Option PathError :=
  if isAbs path then some (.absolute label path)
  else
    let cleaned := clean path
    if cleaned = ['.', '.'] ∨ ['.', '.', '/'] <+: cleaned ∨ ['/', '.', '.', '/'] <:+: cleaned then
      some (.traversal label path)
    else none

section Validate

/-- On a relative path the first two traversal tests hold exactly when the cleaned path has a
`..` element: `Clean` leaves `..` only in a leading run. -/
theorem traversal_test_iff {p : List Char} (hp : isAbs p = false) :
    (clean p = ['.', '.'] ∨ ['.', '.', '/'] <+: clean p) ↔ ['.', '.'] ∈ pathElems (clean p) := by
  refine ⟨fun h => dotdot_mem_pathElems_of_test (h.imp_right .inl), fun h => ?_⟩
  rw [clean_eq_cleanSpec, cleanSpec] at h ⊢
  have hr : (Lexical.ofPath p).rooted = false := by simp [hp]
  exact Lexical.render_of_ups hr ((Lexical.dotdot_mem_render_iff (Lexical.ofPath_sepFree p)).1 h)

theorem validateResolvedPath_eq_none_iff (p : List Char) (label : String) :
    validateResolvedPath p label = none ↔ isAbs p = false ∧ ['.', '.'] ∉ pathElems (clean p) := by
  cases hp : isAbs p
  · have hT : (clean p = ['.', '.'] ∨ ['.', '.', '/'] <+: clean p ∨
        ['/', '.', '.', '/'] <:+: clean p) ↔ ['.', '.'] ∈ pathElems (clean p) :=
      ⟨dotdot_mem_pathElems_of_test, fun h => ((traversal_test_iff hp).2 h).imp_right .inl⟩
    simp only [validateResolvedPath, hp, Bool.false_eq_true, if_false, hT]
    split_ifs <;> simp_all
  · simp [validateResolvedPath, hp]

/-- `validateResolvedPath` accepts exactly the relative paths whose cleaned form has no `..`
element; its `Contains(cleaned, "/../")` test never decides. -/
theorem validateResolvedPath_accepts_iff_no_dotdot (p : List Char) (label : String) :
    (validateResolvedPath p label = none ↔
      isAbs p = false ∧ ['.', '.'] ∉ pathElems (clean p)) ∧
    (isAbs p = false → ['/', '.', '.', '/'] <:+: clean p →
      clean p = ['.', '.'] ∨ ['.', '.', '/'] <+: clean p) :=
  ⟨validateResolvedPath_eq_none_iff p label,
    fun hp h => (traversal_test_iff hp).2 (dotdot_mem_pathElems_of_test (.inr (.inr h)))⟩

example : validateResolvedPath "a/../b".toList "l" = none := by decide
example : validateResolvedPath "a/../../b".toList "l" = some (.traversal "l" "a/../../b".toList) := by
  decide

end Validate

/-- `stokertypes.ResolvedMapping`: a profile mapping with the controller's defaults merged. -/
structure ProfileMapping where
  source : List Char
  destination : List Char
  type : String
  required : Bool
  template : Bool
deriving DecidableEq, Repr

/-- `stokertypes.ResolvedProfile`: the fields `buildSyncPlan` reads. -/
structure ResolvedProfile where
  mappings : List ProfileMapping
  excludePatterns : List String
  dryRun : Bool
deriving DecidableEq, Repr

/-- `syncengine.ResolvedMapping`. -/
structure ResolvedMapping where
  source : List Char
  destination : List Char
  type : String
  template : Bool
deriving DecidableEq, Repr

/-- The errors of the callback `buildApplyTemplateFunc` returns. -/
inductive ApplyError where
  | reading (err : String)
  | binary (stagedPath : List Char)
  | resolving (stagedPath : List Char) (err : TemplateError)
  | writing (stagedPath : List Char) (err : String)
deriving DecidableEq, Repr

/-- `syncengine.SyncPlan`; `applyTemplate` is the callback on a staged path. -/
structure SyncPlan where
  stagingDir : List Char
  liveDir : List Char
  mappings : List ResolvedMapping
  excludePatterns : List String
  dryRun : Bool
  applyTemplate :
    List Char → Except String (List Char) → Option String → Except ApplyError (Option (List Char))

/-- `buildSyncPlan`'s errors. -/
inductive PlanError where
  | source (i : Nat) (err : TemplateError)
  | destination (i : Nat) (err : TemplateError)
  | path (err : PathError)
  | requiredMissing (i : Nat) (src : List Char)
deriving DecidableEq, Repr

/-- `fmt.Sprintf("mapping[%d].<field>", i)`, the label of a mapping's path. -/
def mappingLabel (i : Nat) (field : String) : String :=
  "mapping[" ++ toString i ++ "]." ++ field

theorem exists_of_forall₂_of_mem {α β : Type} {R : α → β → Prop} {l₁ : List α} {l₂ : List β}
    (h : List.Forall₂ R l₁ l₂) {b : β} (hb : b ∈ l₂) : ∃ a ∈ l₁, R a b := by
  induction h with
  | nil => cases hb
  | cons hab _ ih =>
    rcases List.mem_cons.1 hb with rfl | hb
    · exact ⟨_, List.mem_cons_self _ _, hab⟩
    · obtain ⟨a, ha, h⟩ := ih hb
      exact ⟨a, List.mem_cons_of_mem _ ha, h⟩

section Engine

variable (engine : List Char → TemplateContext → TemplateRun)

/-- `resolveTemplate`, with its fast path for a text without `{{`. -/
def resolveTemplate (tmpl : List Char) (ctx : TemplateContext) :
    Except TemplateError (List Char) :=
  if ['{', '{'] <:+: tmpl then
    match engine tmpl ctx with
    | .parseError err => .error (.parsing tmpl err)
    | .execError err => .error (.executing tmpl err)
    | .output text => .ok text
  else .ok tmpl

/-- The callback `buildApplyTemplateFunc` returns, on the staged file at `stagedPath`. -/
def buildApplyTemplateFunc (tmplCtx : TemplateContext) (stagedPath : List Char)
    (content : Except String (List Char)) (writeErr : Option String) :
    Except ApplyError (Option (List Char)) :=
  match content with
  | .error err => .error (.reading err)
  | .ok content =>
    if Char.ofNat 0 ∈ content then .error (.binary stagedPath)
    else if ¬ ['{', '{'] <:+: content then .ok none
    else
      match resolveTemplate engine content tmplCtx with
      | .error err => .error (.resolving stagedPath err)
      | .ok resolved =>
        match writeErr with
        | some err => .error (.writing stagedPath err)
        | none => .ok (some resolved)

variable (tmplCtx : TemplateContext) (repoPath : List Char) (missing : List Char → Bool)

/-- One turn of `buildSyncPlan`'s loop, on mapping `m` at index `i`. -/
def resolveMapping (i : Nat) (m : ProfileMapping) : Except PlanError ResolvedMapping :=
  match resolveTemplate engine m.source tmplCtx with
  | .error err => .error (.source i err)
  | .ok src =>
    match resolveTemplate engine m.destination tmplCtx with
    | .error err => .error (.destination i err)
    | .ok dst =>
      match validateResolvedPath src (mappingLabel i "source") with
      | some err => .error (.path err)
      | none =>
        match validateResolvedPath dst (mappingLabel i "destination") with
        | some err => .error (.path err)
        | none =>
          let absSrc := join [repoPath, src]
          if m.required && missing absSrc then .error (.requiredMissing i src)
          else .ok { source := absSrc, destination := dst,
                     type := if m.type = "" then "dir" else m.type, template := m.template }

/-- The loop `for i, m := range profile.Mappings`, appending to `plan.Mappings`. -/
def buildSyncPlanLoop : Nat → List ProfileMapping → List ResolvedMapping →
    Except PlanError (List ResolvedMapping)
  | _, [], acc => .ok acc
  | i, m :: ms, acc =>
    match resolveMapping engine tmplCtx repoPath missing i m with
    | .error err => .error err
    | .ok r => buildSyncPlanLoop (i + 1) ms (acc ++ [r])

/-- `buildSyncPlan`. -/
def buildSyncPlan (profile : ResolvedProfile) (liveDir : List Char) : Except PlanError SyncPlan :=
  let stagingDir := join [liveDir, ".sync-staging".toList]
  match buildSyncPlanLoop engine tmplCtx repoPath missing 0 profile.mappings [] with
  | .error err => .error err
  | .ok mappings => .ok
    { stagingDir := stagingDir, liveDir := liveDir, mappings := mappings,
      excludePatterns := profile.excludePatterns, dryRun := profile.dryRun,
      applyTemplate := buildApplyTemplateFunc engine tmplCtx }

/-- Mapping `m`, at index `i`, passes every check and resolves to `r`. -/
def MappingResolves (i : Nat) (m : ProfileMapping) (r : ResolvedMapping) : Prop :=
  ∃ src dst, resolveTemplate engine m.source tmplCtx = .ok src ∧
    resolveTemplate engine m.destination tmplCtx = .ok dst ∧
    validateResolvedPath src (mappingLabel i "source") = none ∧
    validateResolvedPath dst (mappingLabel i "destination") = none ∧
    (m.required = true → missing (join [repoPath, src]) = false) ∧
    r = { source := join [repoPath, src], destination := dst,
          type := if m.type = "" then "dir" else m.type, template := m.template }

/-- The error of the first check of mapping `i` that fails, in the code's order. -/
def firstFailure (i : Nat) (m : ProfileMapping) : Option PlanError :=
  match resolveTemplate engine m.source tmplCtx, resolveTemplate engine m.destination tmplCtx with
  | .error e, _ => some (.source i e)
  | .ok _, .error e => some (.destination i e)
  | .ok src, .ok dst =>
    ((validateResolvedPath src (mappingLabel i "source")).map .path).orElse fun _ =>
      ((validateResolvedPath dst (mappingLabel i "destination")).map .path).orElse fun _ =>
        if m.required = true ∧ missing (join [repoPath, src]) = true then
          some (.requiredMissing i src)
        else none

variable {engine tmplCtx repoPath missing}

theorem resolveMapping_ok_iff {i : Nat} {m : ProfileMapping} {r : ResolvedMapping} :
    resolveMapping engine tmplCtx repoPath missing i m = .ok r ↔
      MappingResolves engine tmplCtx repoPath missing i m r := by
  unfold resolveMapping MappingResolves
  split
  next _ e hs => simp [hs]
  next _ src hs =>
    split
    next _ e hd => simp [hs, hd]
    next _ dst hd =>
      split
      next _ e hvs => simp [hs, hd, hvs]
      next _ hvs =>
        split
        next _ e hvd => simp [hs, hd, hvs, hvd]
        next _ hvd =>
          cases hreq : m.required <;> cases hmis : missing (join [repoPath, src]) <;>
            simp [hs, hd, hvs, hvd, hreq, hmis, @eq_comm _ r]

theorem resolveMapping_error_iff {i : Nat} {m : ProfileMapping} {e : PlanError} :
    resolveMapping engine tmplCtx repoPath missing i m = .error e ↔
      firstFailure engine tmplCtx repoPath missing i m = some e := by
  unfold resolveMapping firstFailure
  split
  next _ e hs => simp [hs]
  next _ src hs =>
    split
    next _ e hd => simp [hs, hd]
    next _ dst hd =>
      split
      next _ e hvs => simp [hs, hd, hvs]
      next _ hvs =>
        split
        next _ e hvd => simp [hs, hd, hvs, hvd]
        next _ hvd =>
          cases hreq : m.required <;> cases hmis : missing (join [repoPath, src]) <;>
            simp [hs, hd, hvs, hvd, hreq, hmis, @eq_comm _ e]

theorem buildSyncPlanLoop_eq_ok {k : Nat} {ms : List ProfileMapping}
    {acc res : List ResolvedMapping} :
    buildSyncPlanLoop engine tmplCtx repoPath missing k ms acc = .ok res ↔
      ∃ rs, res = acc ++ rs ∧
        List.Forall₂ (fun im r => MappingResolves engine tmplCtx repoPath missing im.1 im.2 r)
          (ms.enumFrom k) rs := by
  induction ms generalizing k acc with
  | nil => simp [buildSyncPlanLoop, eq_comm]
  | cons m ms ih =>
    have hhead : ∀ b, MappingResolves engine tmplCtx repoPath missing k m b ↔
        resolveMapping engine tmplCtx repoPath missing k m = .ok b := fun _ =>
      resolveMapping_ok_iff.symm
    rw [buildSyncPlanLoop, List.enumFrom_cons]
    simp only [List.forall₂_cons_left_iff, hhead]
    cases h : resolveMapping engine tmplCtx repoPath missing k m with
    | error e => simp
    | ok r =>
      simp only [ih, Except.ok.injEq]
      constructor
      · rintro ⟨rs, rfl, hF⟩
        exact ⟨r :: rs, by simp, r, rs, rfl, hF, rfl⟩
      · rintro ⟨_, rfl, _, rs, rfl, hF, rfl⟩
        exact ⟨rs, by simp, hF⟩

theorem buildSyncPlanLoop_eq_error {k : Nat} {ms : List ProfileMapping}
    {acc : List ResolvedMapping} {e : PlanError} :
    buildSyncPlanLoop engine tmplCtx repoPath missing k ms acc = .error e ↔
      ∃ i, ∃ h : i < ms.length,
        (∀ j (hj : j < i), ∃ r, MappingResolves engine tmplCtx repoPath missing (k + j) ms[j] r) ∧
        firstFailure engine tmplCtx repoPath missing (k + i) ms[i] = some e := by
  induction ms generalizing k acc with
  | nil => simp [buildSyncPlanLoop]
  | cons m ms ih =>
    rw [buildSyncPlanLoop]
    cases h : resolveMapping engine tmplCtx repoPath missing k m with
    | error e' =>
      have hf := resolveMapping_error_iff.1 h
      constructor
      · rintro ⟨⟩
        exact ⟨0, by simp, fun j hj => absurd hj (Nat.not_lt_zero j), by simpa using hf⟩
      · rintro ⟨i, hi, hpre, hfi⟩
        cases i with
        | zero => simp_all
        | succ i =>
          obtain ⟨r, hr⟩ := hpre 0 (Nat.succ_pos i)
          simp [← resolveMapping_ok_iff, h] at hr
    | ok r =>
      simp only [ih]
      constructor
      · rintro ⟨i, hi, hpre, hfi⟩
        refine ⟨i + 1, by simpa using hi, fun j hj => ?_, by simpa [Nat.add_right_comm] using hfi⟩
        cases j with
        | zero => exact ⟨r, by simpa using resolveMapping_ok_iff.1 h⟩
        | succ j => simpa [Nat.add_right_comm] using hpre j (by omega)
      · rintro ⟨i, hi, hpre, hfi⟩
        cases i with
        | zero =>
          have := resolveMapping_error_iff.2 (by simpa using hfi)
          rw [h] at this
          cases this
        | succ i =>
          refine ⟨i, by simpa using hi, fun j hj => ?_, by simpa [Nat.add_right_comm] using hfi⟩
          simpa [Nat.add_right_comm] using hpre (j + 1) (by omega)

theorem buildSyncPlan_eq_ok {profile : ResolvedProfile} {liveDir : List Char} {plan : SyncPlan} :
    buildSyncPlan engine tmplCtx repoPath missing profile liveDir = .ok plan ↔
      List.Forall₂ (fun im r => MappingResolves engine tmplCtx repoPath missing im.1 im.2 r)
        profile.mappings.enum plan.mappings ∧
      plan.stagingDir = join [liveDir, ".sync-staging".toList] ∧ plan.liveDir = liveDir ∧
      plan.excludePatterns = profile.excludePatterns ∧ plan.dryRun = profile.dryRun ∧
      plan.applyTemplate = buildApplyTemplateFunc engine tmplCtx := by
  have hloop : ∀ rs, buildSyncPlanLoop engine tmplCtx repoPath missing 0 profile.mappings [] =
      .ok rs ↔ List.Forall₂ (fun im r => MappingResolves engine tmplCtx repoPath missing im.1 im.2 r)
        profile.mappings.enum rs := fun rs => by
    simp [buildSyncPlanLoop_eq_ok, List.enum]
  unfold buildSyncPlan
  split
  next e h =>
    refine ⟨fun h' => (by cases h'), fun ⟨hF, _⟩ => ?_⟩
    rw [(hloop _).2 hF] at h
    cases h
  next rs h =>
    constructor
    · rintro ⟨⟩
      exact ⟨(hloop rs).1 h, rfl, rfl, rfl, rfl, rfl⟩
    · rintro ⟨hF, h1, h2, h3, h4, h5⟩
      rw [(hloop _).2 hF] at h
      cases h
      cases plan
      simp_all

theorem buildSyncPlan_eq_error {profile : ResolvedProfile} {liveDir : List Char}
    {err : PlanError} :
    buildSyncPlan engine tmplCtx repoPath missing profile liveDir = .error err ↔
      ∃ i, ∃ h : i < profile.mappings.length,
        (∀ j (hj : j < i), ∃ r,
          MappingResolves engine tmplCtx repoPath missing j profile.mappings[j] r) ∧
        firstFailure engine tmplCtx repoPath missing i profile.mappings[i] = some err := by
  have hloop := @buildSyncPlanLoop_eq_error engine tmplCtx repoPath missing 0 profile.mappings [] err
  simp only [Nat.zero_add] at hloop
  rw [← hloop]
  unfold buildSyncPlan
  split <;> rename_i h <;> simp [h]

variable (engine tmplCtx repoPath missing)

/-- `buildSyncPlan` succeeds exactly when every mapping passes its checks, keeping profile order;
otherwise it fails with the first failing check of the least failing mapping. -/
theorem buildSyncPlan_spec (profile : ResolvedProfile) (liveDir : List Char) :
    (∀ plan, buildSyncPlan engine tmplCtx repoPath missing profile liveDir = .ok plan ↔
      List.Forall₂ (fun im r => MappingResolves engine tmplCtx repoPath missing im.1 im.2 r)
        profile.mappings.enum plan.mappings ∧
      plan.stagingDir = join [liveDir, ".sync-staging".toList] ∧ plan.liveDir = liveDir ∧
      plan.excludePatterns = profile.excludePatterns ∧ plan.dryRun = profile.dryRun ∧
      plan.applyTemplate = buildApplyTemplateFunc engine tmplCtx) ∧
    (∀ err, buildSyncPlan engine tmplCtx repoPath missing profile liveDir = .error err ↔
      ∃ i, ∃ h : i < profile.mappings.length,
        (∀ j (hj : j < i), ∃ r,
          MappingResolves engine tmplCtx repoPath missing j profile.mappings[j] r) ∧
        firstFailure engine tmplCtx repoPath missing i profile.mappings[i] = some err) :=
  ⟨fun _ => buildSyncPlan_eq_ok, fun _ => buildSyncPlan_eq_error⟩

/-- With an absolute repository and live directory, no resolved source leaves the cleaned
repository and no destination joined onto the live directory leaves the cleaned live directory. -/
theorem buildSyncPlan_paths_contained (profile : ResolvedProfile) (liveDir : List Char)
    {plan : SyncPlan} (hrepo : isAbs repoPath = true) (hlive : isAbs liveDir = true)
    (h : buildSyncPlan engine tmplCtx repoPath missing profile liveDir = .ok plan) :
    ∀ r ∈ plan.mappings, IsWithin (clean repoPath) r.source ∧
      IsWithin (clean liveDir) (join [liveDir, r.destination]) := by
  intro r hr
  obtain ⟨_, -, src, dst, -, -, hvs, hvd, -, rfl⟩ :=
    exists_of_forall₂_of_mem (buildSyncPlan_eq_ok.1 h).1 hr
  rw [validateResolvedPath_eq_none_iff] at hvs hvd
  exact ⟨join_isWithin hrepo hvs.1 hvs.2, join_isWithin hlive hvd.1 hvd.2⟩

theorem buildSyncPlan_paths_contained_sample :
    isAbs "/repo/.".toList = true ∧ isAbs "/srv//live/".toList = true ∧
    ∃ plan, buildSyncPlan (fun t _ => .output t) default "/repo/.".toList (fun _ => false)
        ⟨[⟨"config/../config".toList, "data".toList, "", true, false⟩], [], false⟩
        "/srv//live/".toList = .ok plan ∧
      ∀ r ∈ plan.mappings, IsWithin (clean "/repo/.".toList) r.source ∧
        IsWithin (clean "/srv//live/".toList) (join ["/srv//live/".toList, r.destination]) :=
  ⟨rfl, rfl, _, rfl, buildSyncPlan_paths_contained (fun t _ => .output t) default _ (fun _ => false)
    ⟨[⟨"config/../config".toList, "data".toList, "", true, false⟩], [], false⟩ _ rfl rfl rfl⟩

/-- The staging directory is the name `.sync-staging` directly below the cleaned live
directory, so it is neither the live directory nor its cleaned form. -/
theorem buildSyncPlan_stagingDir_child (profile : ResolvedProfile) (liveDir : List Char)
    {plan : SyncPlan} (h : buildSyncPlan engine tmplCtx repoPath missing profile liveDir = .ok plan) :
    dir plan.stagingDir = clean liveDir ∧ base plan.stagingDir = ".sync-staging".toList ∧
      plan.stagingDir ≠ clean liveDir ∧ plan.stagingDir ≠ liveDir := by
  have hx : RealElem ".sync-staging".toList := by decide
  have hxs : '/' ∉ ".sync-staging".toList := by decide
  let S := (Lexical.ofPath liveDir).push ".sync-staging".toList
  have hL := Lexical.ofPath_sepFree liveDir
  have hb : S.buffer ≠ [] := Lexical.buffer_push_ne_nil _ hx
  have hS : plan.stagingDir = S.render := by
    rw [(buildSyncPlan_eq_ok.1 h).2.1, join_name liveDir hx hxs]
  have hclean : clean liveDir = (Lexical.ofPath liveDir).render := clean_eq_cleanSpec liveDir
  have hne : plan.stagingDir ≠ clean liveDir := by
    rw [hS, hclean]
    exact render_push_ne _ hx
  have hfix : clean plan.stagingDir = plan.stagingDir := by
    rw [hS, Lexical.render_of_buffer hb, Lexical.clean_buffer (Lexical.sepFree_push hL hxs),
      Lexical.render_of_buffer hb]
  refine ⟨by rw [hS, hclean, dir_render_push hL hx hxs], by rw [hS, base_render_push _ hx hxs],
    hne, fun heq => hne ?_⟩
  calc plan.stagingDir = clean plan.stagingDir := hfix.symm
    _ = clean liveDir := by rw [heq]

theorem buildSyncPlan_stagingDir_child_sample :
    ∃ plan, buildSyncPlan (fun t _ => .output t) default "/repo".toList (fun _ => false)
        ⟨[], [], false⟩ "live/./x/..".toList = .ok plan ∧
      dir plan.stagingDir = clean "live/./x/..".toList ∧
      base plan.stagingDir = ".sync-staging".toList ∧
      plan.stagingDir ≠ clean "live/./x/..".toList ∧ plan.stagingDir ≠ "live/./x/..".toList :=
  ⟨_, rfl, buildSyncPlan_stagingDir_child (fun t _ => .output t) default "/repo".toList
    (fun _ => false) ⟨[], [], false⟩ _ rfl⟩

end Engine

end IgnitionSync.SyncAgent
