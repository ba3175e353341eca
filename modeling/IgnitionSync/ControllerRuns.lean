import IgnitionSync.ControllerRbac

/-! The controller over time. The reconciler calls `ensureAgentRoleBinding` once per reconcile
of a GatewaySync, with whatever its API calls answer, and between reconciles the pods of a
namespace may change. A run is any sequence of these events over one cluster: the reconciles
of different CRs share the store and interleave in any order. Over every run the reconciler
writes only agent RoleBindings, and the reconciles of other CRs never disturb a CR's binding,
so two fault-free reconciles of a CR settle it whatever runs between them. -/
namespace IgnitionSync.Controller

/-- An event of the cluster the controller works on: a reconcile of `gs` whose API calls
answer `f`, or the pods of a namespace becoming `pods`. -/
inductive Event where
  | reconcile (gs : GatewaySync) (f : ApiFaults)
  | podsChanged («namespace» : String) (pods : List Pod)

/-- The cluster with the pods of `ns` replaced by `pods`. -/
def Cluster.setPods (c : Cluster) (ns : String) (pods : List Pod) : Cluster :=
  { c with pods := fun ns' => if ns' = ns then pods else c.pods ns' }

/-- One event: the cluster after it and the writes it sent. -/
def Event.apply (c : Cluster) : Event → Cluster × List Write
  | .reconcile gs f => ((ensureAgentRoleBinding c f gs).1, (ensureAgentRoleBinding c f gs).2.1)
  | .podsChanged ns pods => (c.setPods ns pods, [])

/-- A run: the cluster after the events and the writes they sent, in order. -/
def controllerRun : Cluster → List Event → Cluster × List Write
  | c, [] => (c, [])
  | c, e :: es =>
    let r := e.apply c
    let rest := controllerRun r.1 es
    (rest.1, r.2 ++ rest.2)

/-- The namespace and name of the agent RoleBinding of `gs`. -/
def agentBindingKey (gs : GatewaySync) : String × String :=
  (gs.namespace, agentRoleBindingName gs.name)

/-- The RoleBinding an event owns: the agent binding of the CR it reconciles. -/
def Event.owns : Event → String × String → Prop
  | .reconcile gs _, k => agentBindingKey gs = k
  | .podsChanged _ _, _ => False

/-- The namespace and name a write addresses. -/
def Write.key : Write → String × String
  | .create rb => (rb.namespace, rb.name)
  | .update rb => (rb.namespace, rb.name)
  | .delete ns n => (ns, n)

/-- Every stored RoleBinding carries the namespace and name it is stored under, as the API
server keeps them. -/
def WellKeyed (c : Cluster) : Prop :=
  ∀ ns n rb, c.bindings ns n = some rb → rb.namespace = ns ∧ rb.name = n

/-- Event `e` leaves the binding of `gs` to it: a reconcile of another CR, whatever its API
calls answer; a reconcile of `gs` whose API calls all succeed; or a pod change in another
namespace. -/
def Quiet (gs : GatewaySync) : Event → Prop
  | .reconcile gs' f => gs' ≠ gs ∨ f = {}
  | .podsChanged ns _ => ns ≠ gs.namespace

/-- The binding of `gs` is settled, or absent. -/
def SettledOrAbsent (c : Cluster) (gs : GatewaySync) : Prop :=
  Settled c gs ∨ c.bindings gs.namespace (agentRoleBindingName gs.name) = none

@[simp] theorem bindings_setPods (c : Cluster) (ns : String) (pods : List Pod) :
    (c.setPods ns pods).bindings = c.bindings := rfl

@[simp] theorem pods_setPods (c : Cluster) (ns : String) (pods : List Pod) (ns' : String) :
    (c.setPods ns pods).pods ns' = if ns' = ns then pods else c.pods ns' := rfl

theorem agentRoleBindingName_inj {a b : String} (h : agentRoleBindingName a = agentRoleBindingName b) :
    a = b :=
  String.ext (List.append_cancel_left (congrArg String.data h))

theorem agentBindingKey_inj {gs gs' : GatewaySync} (h : agentBindingKey gs' = agentBindingKey gs) :
    gs' = gs := by
  obtain ⟨hns, hn⟩ := Prod.mk.inj h
  cases gs
  cases gs'
  cases agentRoleBindingName_inj hn
  cases hns
  rfl

/-- The desired subjects read only the pods of the CR's own namespace. -/
theorem desiredSubjects_congr_ns {c c' : Cluster} {gs : GatewaySync}
    (h : c'.pods gs.namespace = c.pods gs.namespace) (f : ApiFaults) :
    desiredSubjects c' f gs = desiredSubjects c f gs := by
  simp only [desiredSubjects, agentSANames, collectServiceAccountsFromPods, h]

theorem settled_congr {c c' : Cluster} {gs : GatewaySync}
    (hb : c'.bindings gs.namespace (agentRoleBindingName gs.name) =
      c.bindings gs.namespace (agentRoleBindingName gs.name))
    (hp : c'.pods gs.namespace = c.pods gs.namespace) (h : Settled c gs) : Settled c' gs := by
  obtain ⟨rb, hrb, href, heq⟩ := h
  exact ⟨rb, hb.trans hrb, href, by rwa [desiredSubjects_congr_ns hp]⟩

/-! ### The store stays well keyed and writes address agent bindings -/

theorem wellKeyed_put {c : Cluster} (hc : WellKeyed c) {ns n : String} {rb : RoleBinding}
    (hns : rb.namespace = ns) (hn : rb.name = n) : WellKeyed (c.put ns n rb) := by
  intro ns' n' rb' h
  simp only [Cluster.bindings_put] at h
  split_ifs at h with hk
  · cases h
    exact ⟨hns.trans hk.1.symm, hn.trans hk.2.symm⟩
  · exact hc _ _ _ h

theorem wellKeyed_remove {c : Cluster} (hc : WellKeyed c) (ns n : String) :
    WellKeyed (c.remove ns n) := by
  intro ns' n' rb' h
  simp only [Cluster.bindings_remove] at h
  split_ifs at h
  exact hc _ _ _ h

section Reconcile

variable {c : Cluster} (f : ApiFaults) (gs : GatewaySync)

theorem ensure_wellKeyed (hc : WellKeyed c) : WellKeyed (ensureAgentRoleBinding c f gs).1 := by
  unfold ensureAgentRoleBinding
  dsimp only
  repeat' split
  all_goals first
    | exact hc
    | exact wellKeyed_remove hc _ _
    | exact wellKeyed_put hc rfl rfl
    | (have h := ‹c.bindings _ _ = some _›; exact wellKeyed_put hc (hc _ _ _ h).1 (hc _ _ _ h).2)

theorem ensure_writes_key (hc : WellKeyed c) :
    ∀ w ∈ (ensureAgentRoleBinding c f gs).2.1, w.key = agentBindingKey gs := by
  unfold ensureAgentRoleBinding
  dsimp only
  repeat' split
  all_goals simp only [List.mem_singleton, List.not_mem_nil, false_imp_iff, forall_eq,
    Write.key, agentBindingKey, imp_true_iff, true_and]
  all_goals first
    | rfl
    | (have h := ‹c.bindings _ _ = some _›; exact Prod.ext (hc _ _ _ h).1 (hc _ _ _ h).2)

end Reconcile

theorem controllerRun_cons (c : Cluster) (e : Event) (es : List Event) :
    controllerRun c (e :: es) =
      ((controllerRun (e.apply c).1 es).1, (e.apply c).2 ++ (controllerRun (e.apply c).1 es).2) :=
  rfl

theorem controllerRun_append (c : Cluster) (es es' : List Event) :
    (controllerRun c (es ++ es')).1 = (controllerRun (controllerRun c es).1 es').1 := by
  induction es generalizing c with
  | nil => rfl
  | cons e es ih => exact ih _

/-- A property every event keeps holds after every run of those events. -/
theorem controllerRun_invariant (P : Cluster → Prop) {es : List Event}
    (hstep : ∀ e ∈ es, ∀ c, P c → P (e.apply c).1) {c : Cluster} (hc : P c) :
    P (controllerRun c es).1 := by
  induction es generalizing c with
  | nil => exact hc
  | cons e es ih =>
    exact ih (fun e' he' => hstep e' (List.mem_cons_of_mem e he')) (hstep e (List.mem_cons_self e es) c hc)

theorem apply_wellKeyed {c : Cluster} (hc : WellKeyed c) : ∀ e : Event, WellKeyed (e.apply c).1
  | .reconcile gs f => ensure_wellKeyed f gs hc
  | .podsChanged _ _ => hc

theorem apply_frame (c : Cluster) {ns n : String} :
    ∀ e : Event, ¬ e.owns (ns, n) → (e.apply c).1.bindings ns n = c.bindings ns n
  | .reconcile gs f, h => ensure_frame c f gs fun hk => h (Prod.ext hk.1.symm hk.2.symm)
  | .podsChanged _ _, _ => rfl

theorem apply_writes_owned {c : Cluster} (hc : WellKeyed c) :
    ∀ e : Event, ∀ w ∈ (e.apply c).2, e.owns w.key
  | .reconcile gs f, w, hw => (ensure_writes_key f gs hc w hw).symm
  | .podsChanged _ _, _, hw => absurd hw (List.not_mem_nil _)

/-- Over every run, whatever the API calls answer and however the pods change, the reconciler
keeps the store well keyed, sends every write to the agent binding of a CR it reconciled, and
never changes a RoleBinding that is no reconciled CR's agent binding. -/
theorem controllerRun_touches_only_agent_bindings (c : Cluster) (es : List Event)
    (hc : WellKeyed c) :
    WellKeyed (controllerRun c es).1 ∧
      (∀ w ∈ (controllerRun c es).2, ∃ e ∈ es, e.owns w.key) ∧
      ∀ ns n, (∀ e ∈ es, ¬ e.owns (ns, n)) →
        (controllerRun c es).1.bindings ns n = c.bindings ns n := by
  induction es generalizing c with
  | nil => exact ⟨hc, by simp [controllerRun], fun _ _ _ => rfl⟩
  | cons e es ih =>
    obtain ⟨hwk, hw, hfr⟩ := ih (e.apply c).1 (apply_wellKeyed hc e)
    rw [controllerRun_cons]
    refine ⟨hwk, fun w hmem => ?_, fun ns n hown => ?_⟩
    · rcases List.mem_append.1 hmem with h | h
      · exact ⟨e, List.mem_cons_self e es, apply_writes_owned hc e w h⟩
      · obtain ⟨e', he', ho⟩ := hw w h
        exact ⟨e', List.mem_cons_of_mem e he', ho⟩
    · rw [hfr ns n fun e' he' => hown e' (List.mem_cons_of_mem e he'),
        apply_frame c e (hown e (List.mem_cons_self e es))]

theorem controllerRun_touches_only_agent_bindings_sample :
    let other : RoleBinding := ⟨"stoker-agent-line2", "plant", [], some "line2",
      ⟨"rbac.authorization.k8s.io", "ClusterRole", "stoker-agent"⟩, [⟨"ServiceAccount", "gateway", "plant"⟩]⟩
    let c : Cluster := ⟨fun ns n => if ns = "plant" ∧ n = "stoker-agent-line2" then some other else none,
      fun _ => [⟨[("stoker.io/cr-name", "line2")], "gateway"⟩]⟩
    let es : List Event := [.reconcile ⟨"line1", "plant"⟩ { create := some "conflict" },
      .podsChanged "plant" [], .reconcile ⟨"line1", "plant"⟩ {}]
    WellKeyed c ∧ (∀ e ∈ es, ¬ e.owns ("plant", "stoker-agent-line2")) ∧
      (controllerRun c es).2.length = 2 ∧
      (∀ w ∈ (controllerRun c es).2, ∃ e ∈ es, e.owns w.key) ∧
      (controllerRun c es).1.bindings "plant" "stoker-agent-line2" = some other := by
  intro other c es
  have hc : WellKeyed c := fun ns n rb h => by
    simp only [c] at h
    split_ifs at h with hk
    cases h
    exact ⟨hk.1.symm, hk.2.symm⟩
  have hno : ∀ e ∈ es, ¬ e.owns ("plant", "stoker-agent-line2") := by
    simp only [es, List.mem_cons, List.not_mem_nil, or_false]
    rintro e (rfl | rfl | rfl)
    · exact show ¬ agentBindingKey _ = _ by decide
    · exact id
    · exact show ¬ agentBindingKey _ = _ by decide
  have h := controllerRun_touches_only_agent_bindings c es hc
  exact ⟨hc, hno, by decide, h.2.1, (h.2.2 "plant" "stoker-agent-line2" hno).trans (by decide)⟩

/-! ### Convergence whatever else runs -/

/-- A reconcile of another CR leaves the binding of `gs` as it is. -/
theorem ensure_other_binding {gs gs' : GatewaySync} (hg : gs' ≠ gs) (c : Cluster) (f : ApiFaults) :
    (ensureAgentRoleBinding c f gs').1.bindings gs.namespace (agentRoleBindingName gs.name) =
      c.bindings gs.namespace (agentRoleBindingName gs.name) :=
  ensure_frame c f gs' fun hk => hg (agentBindingKey_inj (Prod.ext hk.1.symm hk.2.symm))

theorem apply_settled {c : Cluster} {gs : GatewaySync} (h : Settled c gs) :
    ∀ e : Event, Quiet gs e → Settled (e.apply c).1 gs
  | .reconcile gs' f, hq => by
    by_cases hg : gs' = gs
    · subst hg
      obtain rfl : f = {} := hq.resolve_left (not_not.2 rfl)
      simpa only [Event.apply, ensure_of_settled h] using h
    · exact @settled_congr c (ensureAgentRoleBinding c f gs').1 gs (ensure_other_binding hg c f)
        (by rw [ensure_pods]) h
  | .podsChanged ns pods, hq => @settled_congr c (c.setPods ns pods) gs rfl (by simp [Ne.symm hq]) h

theorem apply_settledOrAbsent {c : Cluster} {gs : GatewaySync} (h : SettledOrAbsent c gs) :
    ∀ e : Event, Quiet gs e → SettledOrAbsent (e.apply c).1 gs
  | e, hq => by
    rcases h with h | h
    · exact .inl (apply_settled h e hq)
    · cases e with
      | reconcile gs' f =>
        by_cases hg : gs' = gs
        · subst hg
          obtain rfl : f = {} := hq.resolve_left (not_not.2 rfl)
          exact .inl (ensure_settled_of_absent h)
        · exact .inr ((ensure_other_binding hg c f).trans h)
      | podsChanged ns pods => exact .inr h

/-- Two reconciles of `gs` whose API calls all succeed settle its binding, whatever ran before
them and whatever runs between and after them, as long as that is reconciles of other CRs
(with any API failures), fault-free reconciles of `gs`, and pod changes in other namespaces:
the binding then has the `stoker-agent` role and the subjects its pods ask for. -/
theorem controllerRun_settles_despite_other_crs (c : Cluster) (gs : GatewaySync)
    (pre mid post : List Event) (hmid : ∀ e ∈ mid, Quiet gs e) (hpost : ∀ e ∈ post, Quiet gs e) :
    Settled (controllerRun c (pre ++ .reconcile gs {} :: mid ++ .reconcile gs {} :: post)).1 gs := by
  let c₁ := (ensureAgentRoleBinding (controllerRun c pre).1 {} gs).1
  have h₁ : SettledOrAbsent c₁ gs := ensure_settled_or_absent _ gs
  have h₂ : SettledOrAbsent (controllerRun c₁ mid).1 gs :=
    controllerRun_invariant (SettledOrAbsent · gs)
      (fun e he _ hc => apply_settledOrAbsent hc e (hmid e he)) h₁
  have h₃ : Settled (ensureAgentRoleBinding (controllerRun c₁ mid).1 {} gs).1 gs := by
    rcases h₂ with h | h
    · rwa [ensure_of_settled h]
    · exact ensure_settled_of_absent h
  rw [List.append_assoc, controllerRun_append, List.cons_append, controllerRun_cons,
    controllerRun_append, controllerRun_cons]
  exact controllerRun_invariant (Settled · gs) (fun e he _ hc => apply_settled hc e (hpost e he)) h₃

theorem controllerRun_settles_despite_other_crs_sample :
    let c : Cluster := ⟨fun ns n => if ns = "plant" ∧ n = "stoker-agent-line1" then
        some ⟨"stoker-agent-line1", "plant", [], none,
          ⟨"rbac.authorization.k8s.io", "ClusterRole", "view"⟩, []⟩ else none, fun _ => []⟩
    let gs : GatewaySync := ⟨"line1", "plant"⟩
    let mid : List Event :=
      [.reconcile ⟨"line2", "plant"⟩ { update := some "conflict" }, .podsChanged "other" []]
    (∀ e ∈ mid, Quiet gs e) ∧ (∀ e ∈ ([] : List Event), Quiet gs e) ∧
      Settled (controllerRun c ([] ++ .reconcile gs {} :: mid ++ .reconcile gs {} :: [])).1 gs := by
  intro c gs mid
  have hmid : ∀ e ∈ mid, Quiet gs e := by
    intro e he
    simp only [mid, List.mem_cons, List.not_mem_nil, or_false] at he
    rcases he with rfl | rfl
    · exact .inl (by decide)
    · exact show "other" ≠ "plant" by decide
  exact ⟨hmid, (fun _ h => nomatch h),
    controllerRun_settles_despite_other_crs c gs [] mid [] hmid (fun _ h => nomatch h)⟩

end IgnitionSync.Controller
