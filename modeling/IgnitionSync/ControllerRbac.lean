import Mathlib.Data.List.Sort
import Mathlib.Data.String.Basic

/-! The controller's agent RBAC (`internal/controller/rbac.go`): `ensureAgentRoleBinding` keeps
one RoleBinding per GatewaySync, binding the `stoker-agent` ClusterRole to the service accounts
of the CR's gateway pods. The cluster is a store of RoleBindings by namespace and name, with
the pods of each namespace; what each API call of one reconcile answers is an `ApiFaults`
record, and the reconcile returns the cluster after it, the writes it sent and its error. -/
namespace IgnitionSync.Controller

/-- `agentClusterRoleName`. -/
def agentClusterRoleName : String := "stoker-agent"

/-- `agentRoleBindingName`: `stoker-agent-%s`. -/
def agentRoleBindingName (crName : String) : String := "stoker-agent-" ++ crName

/-- `stokertypes.AnnotationCRName`, the `stoker.io/cr-name` annotation of a gateway pod. -/
def annotationCRName : String := "stoker.io/cr-name"

/-- `rbacv1.Subject`. -/
structure Subject where
  kind : String
  name : String
  «namespace» : String
deriving DecidableEq, Repr

/-- `rbacv1.RoleRef`. -/
structure RoleRef where
  apiGroup : String
  kind : String
  name : String
deriving DecidableEq, Repr

/-- `rbacv1.RoleBinding`: its name, namespace, labels, controlling owner (the GatewaySync
`SetControllerReference` names), role reference and subjects. -/
structure RoleBinding where
  name : String
  «namespace» : String
  labels : List (String × String)
  controller : Option String
  roleRef : RoleRef
  subjects : List Subject
deriving DecidableEq, Repr

/-- `corev1.Pod`: its annotations and `Spec.ServiceAccountName`. -/
structure Pod where
  annotations : List (String × String)
  serviceAccountName : String
deriving DecidableEq, Repr

/-- `stokerv1alpha1.GatewaySync`: its name and namespace. -/
structure GatewaySync where
  name : String
  «namespace» : String
deriving DecidableEq, Repr

/-- The cluster the reconciler reads and writes: RoleBindings by namespace and name, and the
pods of each namespace. -/
structure Cluster where
  bindings : String → String → Option RoleBinding
  pods : String → List Pod

/-- What the API calls of one reconcile answer: the error of each call that fails. A failed
`Delete` is one other than NotFound, which the code treats as success. -/
structure ApiFaults where
  list : Option String := none
  get : Option String := none
  setOwner : Option String := none
  create : Option String := none
  delete : Option String := none
  update : Option String := none

/-- The writes the reconciler sends to the API server. -/
inductive Write where
  | create (rb : RoleBinding)
  | update (rb : RoleBinding)
  | delete («namespace» name : String)
deriving DecidableEq, Repr

namespace Cluster

/-- The cluster after a successful `Create` or `Update` of `rb` at `ns`/`n`. -/
def put (c : Cluster) (ns n : String) (rb : RoleBinding) : Cluster :=
  { c with bindings := fun ns' n' => if ns' = ns ∧ n' = n then some rb else c.bindings ns' n' }

/-- The cluster after a successful `Delete` at `ns`/`n`. -/
def remove (c : Cluster) (ns n : String) : Cluster :=
  { c with bindings := fun ns' n' => if ns' = ns ∧ n' = n then none else c.bindings ns' n' }

@[simp] theorem bindings_put (c : Cluster) (ns n : String) (rb : RoleBinding) (ns' n' : String) :
    (c.put ns n rb).bindings ns' n' = if ns' = ns ∧ n' = n then some rb else c.bindings ns' n' :=
  rfl

@[simp] theorem bindings_remove (c : Cluster) (ns n ns' n' : String) :
    (c.remove ns n).bindings ns' n' = if ns' = ns ∧ n' = n then none else c.bindings ns' n' :=
  rfl

@[simp] theorem pods_put (c : Cluster) (ns n : String) (rb : RoleBinding) :
    (c.put ns n rb).pods = c.pods := rfl

@[simp] theorem pods_remove (c : Cluster) (ns n : String) : (c.remove ns n).pods = c.pods := rfl

end Cluster

/-- `≤` on strings decided through their characters, so that `decide` evaluates it. -/
instance decidableLEByChars : @DecidableRel String (· ≤ ·) := fun _ _ =>
  decidable_of_iff _ String.le_iff_toList_le.symm

/-- `sort.Strings`: Go compares strings bytewise, which on characters is the order of code
points, the one Mathlib's `≤` on strings is, since UTF-8 keeps that order. -/
def sortStrings (names : List String) : List String :=
  names.insertionSort (· ≤ ·)

theorem sortStrings_perm (names : List String) : (sortStrings names).Perm names :=
  List.perm_insertionSort _ names

theorem sortStrings_sorted (names : List String) : (sortStrings names).Sorted (· ≤ ·) :=
  List.sorted_insertionSort _ names

/-- `sort.Strings` yields the one sorted permutation: two lists sort alike exactly when each is
a permutation of the other. -/
theorem sortStrings_eq_iff_perm {l l' : List String} : sortStrings l = sortStrings l' ↔ l.Perm l' :=
  ⟨fun h => (sortStrings_perm l).symm.trans (h ▸ sortStrings_perm l'),
    fun h => List.eq_of_perm_of_sorted ((sortStrings_perm l).trans (h.trans (sortStrings_perm l').symm))
      (sortStrings_sorted l) (sortStrings_sorted l')⟩

/-- `collectServiceAccountsFromPods`: the service accounts (empty meaning `default`) of the
pods in the CR's namespace annotated with its name, each once, sorted; none when the pod
`List` call fails. -/
def collectServiceAccountsFromPods (c : Cluster) (f : ApiFaults) (gs : GatewaySync) :
    List String :=
  match f.list with
  | some _ => []
  | none =>
    let seen := (c.pods gs.namespace).foldl (fun seen pod =>
      match pod.annotations.lookup annotationCRName with
      | some crName =>
        if crName ≠ gs.name then seen
        else seen.insert (if pod.serviceAccountName = "" then "default" else pod.serviceAccountName)
      | none => seen) []
    sortStrings seen

/-- The service accounts `ensureAgentRoleBinding` binds: those it collected, or `default`
when it collected none. -/
def agentSANames (c : Cluster) (f : ApiFaults) (gs : GatewaySync) : List String :=
  let saNames := collectServiceAccountsFromPods c f gs
  if saNames.length = 0 then ["default"] else saNames

/-- `buildSubjects`. -/
def buildSubjects (saNames : List String) («namespace» : String) : List Subject :=
  saNames.map fun name => ⟨"ServiceAccount", name, «namespace»⟩

/-- `subjectsEqual`: equal lengths and equal sorted names. -/
def subjectsEqual (a b : List Subject) : Bool :=
  if a.length ≠ b.length then false
  else decide (sortStrings (a.map (·.name)) = sortStrings (b.map (·.name)))

/-- The subjects `ensureAgentRoleBinding` wants: `buildSubjects(saNames, gs.Namespace)`. -/
def desiredSubjects (c : Cluster) (f : ApiFaults) (gs : GatewaySync) : List Subject :=
  buildSubjects (agentSANames c f gs) gs.namespace

/-- The RoleBinding `ensureAgentRoleBinding` creates. -/
def newRoleBinding (gs : GatewaySync) (desired : List Subject) : RoleBinding where
  name := agentRoleBindingName gs.name
  «namespace» := gs.namespace
  labels := [("app.kubernetes.io/managed-by", "stoker-operator"), ("stoker.io/gatewaysync", gs.name)]
  controller := some gs.name
  roleRef := ⟨"rbac.authorization.k8s.io", "ClusterRole", agentClusterRoleName⟩
  subjects := desired

/-- `ensureAgentRoleBinding`: the cluster after it, the writes it sent, and its error. -/
def ensureAgentRoleBinding (c : Cluster) (f : ApiFaults) (gs : GatewaySync) :
    Cluster × List Write × Except String Unit :=
  let rbName := agentRoleBindingName gs.name
  let desired := desiredSubjects c f gs
  match f.get, c.bindings gs.namespace rbName with
  | some err, _ => (c, [], .error ("getting agent RoleBinding: " ++ err))
  | none, none =>
    let rb := newRoleBinding gs desired
    match f.setOwner, f.create with
    | some err, _ => (c, [], .error ("setting owner reference on RoleBinding: " ++ err))
    | none, some err => (c, [.create rb], .error ("creating agent RoleBinding: " ++ err))
    | none, none => (c.put gs.namespace rbName rb, [.create rb], .ok ())
  | none, some existing =>
    if existing.roleRef.name ≠ agentClusterRoleName then
      match f.delete with
      | some err =>
        (c, [.delete gs.namespace rbName], .error ("deleting mismatched RoleBinding: " ++ err))
      | none => (c.remove gs.namespace rbName, [.delete gs.namespace rbName], .ok ())
    else if !subjectsEqual existing.subjects desired then
      let updated := { existing with subjects := desired }
      match f.update with
      | some err =>
        (c, [.update updated], .error ("updating agent RoleBinding subjects: " ++ err))
      | none => (c.put gs.namespace rbName updated, [.update updated], .ok ())
    else (c, [], .ok ())

/-- `n` consecutive reconciles of `gs` in which every API call succeeds. -/
def reconcileN (gs : GatewaySync) : Nat → Cluster → Cluster
  | 0, c => c
  | n + 1, c => reconcileN gs n (ensureAgentRoleBinding c {} gs).1

/-- The binding of `gs` exists, with the `stoker-agent` role and the subjects the reconciler
wants, as `subjectsEqual` compares them. -/
def Settled (c : Cluster) (gs : GatewaySync) : Prop :=
  ∃ rb, c.bindings gs.namespace (agentRoleBindingName gs.name) = some rb ∧
    rb.roleRef.name = agentClusterRoleName ∧ subjectsEqual rb.subjects (desiredSubjects c {} gs) = true

theorem subjectsEqual_self (l : List Subject) : subjectsEqual l l = true := by
  simp [subjectsEqual]

theorem subjectsEqual_eq_true_iff {a b : List Subject} :
    subjectsEqual a b = true ↔ (a.map (·.name)).Perm (b.map (·.name)) := by
  unfold subjectsEqual
  by_cases hl : a.length = b.length
  · simp [hl, sortStrings_eq_iff_perm]
  · simp only [if_pos hl, Bool.false_eq_true, false_iff]
    exact fun h => hl (by simpa using h.length_eq)

example : subjectsEqual [⟨"User", "b", "x"⟩, ⟨"ServiceAccount", "a", "x"⟩]
    [⟨"ServiceAccount", "a", "plant"⟩, ⟨"ServiceAccount", "b", "plant"⟩] = true := by decide

example : subjectsEqual [⟨"ServiceAccount", "a", "plant"⟩, ⟨"ServiceAccount", "a", "plant"⟩]
    [⟨"ServiceAccount", "a", "plant"⟩, ⟨"ServiceAccount", "b", "plant"⟩] = false := by decide

/-- `subjectsEqual` holds exactly when the names of the two lists are permutations of each
other, duplicates counted; so reordering either list never changes its answer. -/
theorem subjectsEqual_iff_names_perm :
    (∀ a b : List Subject, subjectsEqual a b = true ↔ (a.map (·.name)).Perm (b.map (·.name))) ∧
    ∀ a a' b b' : List Subject, a.Perm a' → b.Perm b' → subjectsEqual a' b' = subjectsEqual a b := by
  refine ⟨fun _ _ => subjectsEqual_eq_true_iff, fun a a' b b' ha hb => ?_⟩
  rw [Bool.eq_iff_iff, subjectsEqual_eq_true_iff, subjectsEqual_eq_true_iff]
  exact ⟨fun h => (ha.map _).trans (h.trans (hb.map _).symm),
    fun h => (ha.map _).symm.trans (h.trans (hb.map _))⟩

/-! ### The service accounts a reconcile binds -/

/-- One turn of `collectServiceAccountsFromPods`'s pod loop: the `seen` set after pod `pod`. -/
def seenStep (gs : GatewaySync) (seen : List String) (pod : Pod) : List String :=
  match pod.annotations.lookup annotationCRName with
  | some crName =>
    if crName ≠ gs.name then seen
    else seen.insert (if pod.serviceAccountName = "" then "default" else pod.serviceAccountName)
  | none => seen

/-- Pod `pod` carries `gs`'s name in its `stoker.io/cr-name` annotation and runs as `sa`
(`default` when it names no service account). -/
def ContributesSA (gs : GatewaySync) (pod : Pod) (sa : String) : Prop :=
  pod.annotations.lookup annotationCRName = some gs.name ∧
    sa = if pod.serviceAccountName = "" then "default" else pod.serviceAccountName

theorem collectServiceAccountsFromPods_eq (c : Cluster) (f : ApiFaults) (gs : GatewaySync) :
    collectServiceAccountsFromPods c f gs =
      match f.list with
      | some _ => []
      | none => sortStrings ((c.pods gs.namespace).foldl (seenStep gs) []) := rfl

theorem mem_seenStep {gs : GatewaySync} {seen : List String} {pod : Pod} {sa : String} :
    sa ∈ seenStep gs seen pod ↔ sa ∈ seen ∨ ContributesSA gs pod sa := by
  unfold seenStep ContributesSA
  cases pod.annotations.lookup annotationCRName with
  | none => simp
  | some crName =>
    by_cases h : crName = gs.name
    · subst h
      simp [or_comm]
    · simp [h]

theorem nodup_seenStep {gs : GatewaySync} {seen : List String} (h : seen.Nodup) (pod : Pod) :
    (seenStep gs seen pod).Nodup := by
  unfold seenStep
  split
  · split
    · exact h
    · exact h.insert
  · exact h

theorem mem_foldl_seenStep (gs : GatewaySync) (pods : List Pod) (seen : List String) (sa : String) :
    sa ∈ pods.foldl (seenStep gs) seen ↔ sa ∈ seen ∨ ∃ pod ∈ pods, ContributesSA gs pod sa := by
  induction pods generalizing seen with
  | nil => simp
  | cons pod pods ih => simp [ih, mem_seenStep, or_assoc]

theorem nodup_foldl_seenStep (gs : GatewaySync) (pods : List Pod) {seen : List String}
    (h : seen.Nodup) : (pods.foldl (seenStep gs) seen).Nodup := by
  induction pods generalizing seen with
  | nil => exact h
  | cons pod pods ih => exact ih (nodup_seenStep h pod)

/-- With the pod `List` call answering, `collectServiceAccountsFromPods` returns, sorted and
each once, exactly the service accounts of the pods annotated with the CR's name (`default`
for a pod that names none); so its answer does not depend on the order the pods are listed
in. -/
theorem collectServiceAccountsFromPods_spec (c : Cluster) (f : ApiFaults) (gs : GatewaySync)
    (hl : f.list = none) :
    (∀ sa, sa ∈ collectServiceAccountsFromPods c f gs ↔
        ∃ pod ∈ c.pods gs.namespace, ContributesSA gs pod sa) ∧
      (collectServiceAccountsFromPods c f gs).Nodup ∧
      (collectServiceAccountsFromPods c f gs).Sorted (· ≤ ·) ∧
      ∀ c' : Cluster, (c'.pods gs.namespace).Perm (c.pods gs.namespace) →
        collectServiceAccountsFromPods c' f gs = collectServiceAccountsFromPods c f gs := by
  simp only [collectServiceAccountsFromPods_eq, hl]
  have hsort := fun pods : List Pod => sortStrings_perm (pods.foldl (seenStep gs) [])
  have hmem : ∀ (pods : List Pod) sa, sa ∈ sortStrings (pods.foldl (seenStep gs) []) ↔
      ∃ pod ∈ pods, ContributesSA gs pod sa := fun pods sa => by
    rw [(hsort pods).mem_iff, mem_foldl_seenStep]
    simp
  refine ⟨hmem _, (hsort _).nodup_iff.2 (nodup_foldl_seenStep gs _ List.nodup_nil),
    sortStrings_sorted _, fun c' hp => sortStrings_eq_iff_perm.2 ?_⟩
  rw [List.perm_ext_iff_of_nodup (nodup_foldl_seenStep gs _ List.nodup_nil)
    (nodup_foldl_seenStep gs _ List.nodup_nil)]
  intro sa
  simp only [mem_foldl_seenStep, List.not_mem_nil, false_or, hp.mem_iff]

theorem collectServiceAccountsFromPods_spec_sample :
    let c : Cluster := ⟨fun _ _ => none, fun _ =>
      [⟨[("stoker.io/cr-name", "line1")], "gateway"⟩, ⟨[("stoker.io/cr-name", "line1")], ""⟩,
        ⟨[("stoker.io/cr-name", "line2")], "other"⟩, ⟨[("stoker.io/cr-name", "line1")], "gateway"⟩]⟩
    ({} : ApiFaults).list = none ∧
      collectServiceAccountsFromPods c {} ⟨"line1", "plant"⟩ = ["default", "gateway"] ∧
      (∀ sa, sa ∈ collectServiceAccountsFromPods c {} ⟨"line1", "plant"⟩ ↔
        ∃ pod ∈ c.pods "plant", ContributesSA ⟨"line1", "plant"⟩ pod sa) :=
  ⟨rfl, by decide, (collectServiceAccountsFromPods_spec _ {} ⟨"line1", "plant"⟩ rfl).1⟩

/-- The desired subjects read only the pods. -/
theorem desiredSubjects_congr {c c' : Cluster} (h : c'.pods = c.pods) (f : ApiFaults)
    (gs : GatewaySync) : desiredSubjects c' f gs = desiredSubjects c f gs := by
  simp only [desiredSubjects, agentSANames, collectServiceAccountsFromPods, h]

theorem desiredSubjects_of_list_error {c : Cluster} {f : ApiFaults} {err : String}
    (hl : f.list = some err) (gs : GatewaySync) :
    desiredSubjects c f gs = [⟨"ServiceAccount", "default", gs.namespace⟩] := by
  simp [desiredSubjects, agentSANames, collectServiceAccountsFromPods, hl, buildSubjects]

section Reconcile

variable {c : Cluster} {f : ApiFaults} {gs : GatewaySync} {rb : RoleBinding}

theorem ensure_of_absent (hg : f.get = none) (ho : f.setOwner = none) (hc : f.create = none)
    (hb : c.bindings gs.namespace (agentRoleBindingName gs.name) = none) :
    ensureAgentRoleBinding c f gs =
      (c.put gs.namespace (agentRoleBindingName gs.name) (newRoleBinding gs (desiredSubjects c f gs)),
        [.create (newRoleBinding gs (desiredSubjects c f gs))], .ok ()) := by
  simp [ensureAgentRoleBinding, hg, ho, hc, hb]

theorem ensure_of_wrong_ref (hg : f.get = none) (hd : f.delete = none)
    (hb : c.bindings gs.namespace (agentRoleBindingName gs.name) = some rb)
    (href : rb.roleRef.name ≠ agentClusterRoleName) :
    ensureAgentRoleBinding c f gs =
      (c.remove gs.namespace (agentRoleBindingName gs.name),
        [.delete gs.namespace (agentRoleBindingName gs.name)], .ok ()) := by
  simp [ensureAgentRoleBinding, hg, hd, hb, href]

theorem ensure_of_subjects_differ (hg : f.get = none) (hu : f.update = none)
    (hb : c.bindings gs.namespace (agentRoleBindingName gs.name) = some rb)
    (href : rb.roleRef.name = agentClusterRoleName)
    (hne : subjectsEqual rb.subjects (desiredSubjects c f gs) = false) :
    ensureAgentRoleBinding c f gs =
      (c.put gs.namespace (agentRoleBindingName gs.name)
          { rb with subjects := desiredSubjects c f gs },
        [.update { rb with subjects := desiredSubjects c f gs }], .ok ()) := by
  simp [ensureAgentRoleBinding, hg, hu, hb, href, hne]

theorem ensure_of_subjects_equal (hg : f.get = none)
    (hb : c.bindings gs.namespace (agentRoleBindingName gs.name) = some rb)
    (href : rb.roleRef.name = agentClusterRoleName)
    (heq : subjectsEqual rb.subjects (desiredSubjects c f gs) = true) :
    ensureAgentRoleBinding c f gs = (c, [], .ok ()) := by
  simp [ensureAgentRoleBinding, hg, hb, href, heq]

end Reconcile

theorem ensure_of_settled {c : Cluster} {gs : GatewaySync} (h : Settled c gs) :
    ensureAgentRoleBinding c {} gs = (c, [], .ok ()) := by
  obtain ⟨rb, hb, href, heq⟩ := h
  exact ensure_of_subjects_equal rfl hb href heq

theorem settled_put {c : Cluster} {gs : GatewaySync} {rb : RoleBinding}
    (href : rb.roleRef.name = agentClusterRoleName) (hs : rb.subjects = desiredSubjects c {} gs) :
    Settled (c.put gs.namespace (agentRoleBindingName gs.name) rb) gs :=
  ⟨rb, by simp, href, by rw [desiredSubjects_congr (Cluster.pods_put _ _ _ _), hs]; exact subjectsEqual_self _⟩

/-- One reconcile without faults settles the binding, or leaves it deleted when its role was
wrong. -/
theorem ensure_settled_or_absent (c : Cluster) (gs : GatewaySync) :
    Settled (ensureAgentRoleBinding c {} gs).1 gs ∨
      (ensureAgentRoleBinding c {} gs).1.bindings gs.namespace (agentRoleBindingName gs.name) = none := by
  cases hb : c.bindings gs.namespace (agentRoleBindingName gs.name) with
  | none =>
    rw [ensure_of_absent rfl rfl rfl hb]
    exact .inl (settled_put rfl rfl)
  | some rb =>
    by_cases href : rb.roleRef.name = agentClusterRoleName
    · cases heq : subjectsEqual rb.subjects (desiredSubjects c {} gs)
      · rw [ensure_of_subjects_differ rfl rfl hb href heq]
        exact .inl (settled_put href rfl)
      · rw [ensure_of_subjects_equal rfl hb href heq]
        exact .inl ⟨rb, hb, href, heq⟩
    · rw [ensure_of_wrong_ref rfl rfl hb href]
      exact .inr (by simp)

theorem ensure_settled_of_absent {c : Cluster} {gs : GatewaySync}
    (hb : c.bindings gs.namespace (agentRoleBindingName gs.name) = none) :
    Settled (ensureAgentRoleBinding c {} gs).1 gs := by
  rw [ensure_of_absent rfl rfl rfl hb]
  exact settled_put rfl rfl

theorem reconcileN_of_settled {c : Cluster} {gs : GatewaySync} (h : Settled c gs) (n : Nat) :
    reconcileN gs n c = c := by
  induction n with
  | zero => rfl
  | succ n ih => rw [reconcileN, ensure_of_settled h, ih]

/-- A reconcile writes RoleBindings only. -/
theorem ensure_pods (c : Cluster) (f : ApiFaults) (gs : GatewaySync) :
    (ensureAgentRoleBinding c f gs).1.pods = c.pods := by
  unfold ensureAgentRoleBinding
  dsimp only
  repeat' split
  all_goals rfl

/-- A reconcile writes no RoleBinding but its own. -/
theorem ensure_frame (c : Cluster) (f : ApiFaults) (gs : GatewaySync) {ns n : String}
    (h : ¬ (ns = gs.namespace ∧ n = agentRoleBindingName gs.name)) :
    (ensureAgentRoleBinding c f gs).1.bindings ns n = c.bindings ns n := by
  unfold ensureAgentRoleBinding
  dsimp only
  repeat' split
  all_goals simp [h]

/-- A reconcile that returns an error leaves the cluster as it was. -/
theorem ensure_unchanged_of_error (c : Cluster) (f : ApiFaults) (gs : GatewaySync) {e : String}
    (h : (ensureAgentRoleBinding c f gs).2.2 = .error e) :
    (ensureAgentRoleBinding c f gs).1 = c := by
  revert h
  unfold ensureAgentRoleBinding
  dsimp only
  repeat' split
  all_goals first | exact fun _ => rfl | exact fun h => nomatch h

theorem reconcileN_pods (gs : GatewaySync) (n : Nat) (c : Cluster) :
    (reconcileN gs n c).pods = c.pods := by
  induction n generalizing c with
  | zero => rfl
  | succ n ih => rw [reconcileN, ih, ensure_pods]

/-- With every API call succeeding and the pods fixed, two reconciles settle the binding of
`gs`: it has the `stoker-agent` role and the desired subjects as `subjectsEqual` compares
them, and every later reconcile writes nothing. -/
theorem reconcile_settles_in_two (c : Cluster) (gs : GatewaySync) :
    Settled (reconcileN gs 2 c) gs ∧
      ensureAgentRoleBinding (reconcileN gs 2 c) {} gs = (reconcileN gs 2 c, [], .ok ()) := by
  have h2 : Settled (reconcileN gs 2 c) gs := by
    simp only [reconcileN]
    rcases ensure_settled_or_absent c gs with h | h
    · rw [ensure_of_settled h]
      exact h
    · exact ensure_settled_of_absent h
  exact ⟨h2, ensure_of_settled h2⟩

/-- When the pod `List` call fails the reconciler binds `default` alone: an existing binding
with the right role whose subjects are not `default`'s by name has them replaced by it. -/
theorem list_failure_rebinds_default (c : Cluster) (f : ApiFaults) (gs : GatewaySync)
    (rb : RoleBinding) {err : String} (hl : f.list = some err) (hg : f.get = none)
    (hu : f.update = none) (hb : c.bindings gs.namespace (agentRoleBindingName gs.name) = some rb)
    (href : rb.roleRef.name = agentClusterRoleName)
    (hne : subjectsEqual rb.subjects [⟨"ServiceAccount", "default", gs.namespace⟩] = false) :
    (ensureAgentRoleBinding c f gs).2.1 =
        [.update { rb with subjects := [⟨"ServiceAccount", "default", gs.namespace⟩] }] ∧
      (ensureAgentRoleBinding c f gs).1.bindings gs.namespace (agentRoleBindingName gs.name) =
        some { rb with subjects := [⟨"ServiceAccount", "default", gs.namespace⟩] } := by
  rw [← desiredSubjects_of_list_error hl gs] at hne ⊢
  rw [ensure_of_subjects_differ hg hu hb href hne]
  exact ⟨rfl, by simp⟩

theorem list_failure_rebinds_default_sample :
    let rb : RoleBinding := ⟨"stoker-agent-line1", "plant", [], some "line1",
      ⟨"rbac.authorization.k8s.io", "ClusterRole", "stoker-agent"⟩,
      [⟨"ServiceAccount", "gateway", "plant"⟩]⟩
    let c : Cluster := ⟨fun ns n => if ns = "plant" ∧ n = "stoker-agent-line1" then some rb else none,
      fun _ => [⟨[("stoker.io/cr-name", "line1")], "gateway"⟩]⟩
    (ensureAgentRoleBinding c { list := some "etcdserver: request timed out" } ⟨"line1", "plant"⟩).1.bindings
        "plant" "stoker-agent-line1" =
      some { rb with subjects := [⟨"ServiceAccount", "default", "plant"⟩] } := by
  intro rb c
  exact (list_failure_rebinds_default c { list := some "etcdserver: request timed out" }
    ⟨"line1", "plant"⟩ rb rfl rfl rfl (by decide) rfl (by decide)).2

/-- Reconciling never touches a binding with the right role whose subjects' names sort to the
desired names, whatever kinds and namespaces those subjects carry. -/
theorem name_equal_subjects_never_repaired (c : Cluster) (gs : GatewaySync) (rb : RoleBinding)
    (hb : c.bindings gs.namespace (agentRoleBindingName gs.name) = some rb)
    (href : rb.roleRef.name = agentClusterRoleName)
    (heq : subjectsEqual rb.subjects (desiredSubjects c {} gs) = true) (n : Nat) :
    reconcileN gs n c = c :=
  reconcileN_of_settled ⟨rb, hb, href, heq⟩ n

theorem user_subject_never_repaired_sample :
    let rb : RoleBinding := ⟨"stoker-agent-line1", "plant", [], some "line1",
      ⟨"rbac.authorization.k8s.io", "ClusterRole", "stoker-agent"⟩, [⟨"User", "default", "other"⟩]⟩
    let c : Cluster :=
      ⟨fun ns n => if ns = "plant" ∧ n = "stoker-agent-line1" then some rb else none, fun _ => []⟩
    reconcileN ⟨"line1", "plant"⟩ 2 c = c ∧ rb.subjects ≠ desiredSubjects c {} ⟨"line1", "plant"⟩ := by
  intro rb c
  exact ⟨name_equal_subjects_never_repaired c ⟨"line1", "plant"⟩ rb (by decide) rfl (by decide) 2,
    by decide⟩

end IgnitionSync.Controller
