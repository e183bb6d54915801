/-
# The server that the operator deploys

The environment of the server comes from `BuildDeploymentForIShield` of
`integrity-shield-operator/resources/deploy.go`, and its configuration is the `ShieldConfig` object
that the operator keeps in the store.  Put together: which contents of this object a request is
handled with (`handled_config_fresh`).

The operator writes the interval of the resource into the environment, and the server follows it
only if it is no number.  So the interval is always that of the server.
-/

import IntegrityShield.Base.ObjectStore
import IntegrityShield.IshieldServer.Config
import IntegrityShield.Operator.Resources

namespace IntegrityShield
namespace IshieldServer

open Shield Interleaving Operator ObjectStore

/-- `os.Getenv` in a container. -/
def getenv (container : Container) (name : String) : String :=
  (container.env.lookup name).getD ""

/-- The object that a server in the container loads. -/
def configKey (container : Container) : Key :=
  ⟨.shieldConfig, getenv container "SHIELD_NS", getenv container "SHIELD_CONFIG_NAME"⟩

/-- The object that the operator keeps for the server. -/
def shieldConfigKey (cr : IntegrityShieldCR) : Key :=
  ⟨.shieldConfig, cr.namespace, cr.getShieldConfigCRName⟩

/-- The first container is the server. -/
theorem server_of_build {cr : IntegrityShieldCR} {object : Object .deployment}
    {server : Container} (hbuild : buildDeploymentForIShield cr = .ok object)
    (hserver : object.content.spec.template.spec.containers.head? = some server) :
    server = serverContainer cr := by
  obtain ⟨es, -, hbuild⟩ := Go.bind_eq_ok.1 hbuild
  obtain ⟨http, -, hbuild⟩ := Go.bind_eq_ok.1 hbuild
  cases hbuild
  exact (Option.some.inj hserver).symm

/-- `Atoi` of `Itoa` of a negative number. -/
theorem atoi_neg_itoa {n : ℕ} (hn : n ≤ 2 ^ 63) :
    Strings.atoi ("-" ++ Strings.itoa n) = (-(n : ℤ), none) := by
  have hlist : ("-" ++ Strings.itoa n).toList = '-' :: (Strings.itoa n).toList := by
    rw [String.toList_append]
    rfl
  unfold Strings.atoi
  rw [hlist]
  simp only [Strings.digits_itoa, if_pos hn]

theorem atoi_itoa_int {n : ℤ} (hlow : -2 ^ 31 ≤ n) (hhigh : n < 2 ^ 31) :
    (Strings.atoi (Operator.itoa n)).2 = none := by
  unfold Operator.itoa
  split
  · rw [atoi_neg_itoa (by omega)]
  · rw [Strings.atoi_itoa, if_pos (by omega)]

/-- The interval of the resource is not followed. -/
theorem reloadInterval_serverContainer {cr : IntegrityShieldCR}
    (hlow : -2 ^ 31 ≤ cr.spec.server.shieldCmReloadSec)
    (hhigh : cr.spec.server.shieldCmReloadSec < 2 ^ 31) :
    reloadInterval (getenv (serverContainer cr) "SHIELD_CM_RELOAD_SEC") = 20 :=
  reloadInterval_of_number (atoi_itoa_int hlow hhigh)

/-- What the API server answers if there is such an object or none. -/
def answerOf : Option (Option OperatorShieldConfig) → Answer
  | some content => .ok (content.map OperatorShieldConfig.toShieldConfig)
  | none => .error "not found"

/-- A store holds a configuration in the object that the operator keeps. -/
def Holds (cr : IntegrityShieldCR) (store : Store Key.Content) (c : ShieldConfig) : Prop :=
  ∃ config : OperatorShieldConfig, store (shieldConfigKey cr) = some (some config) ∧
    c = config.toShieldConfig

/-- The API server answers with what is in the store at the time, or not at all. -/
def Serves (store : ℕ → Store Key.Content) (container : Container)
    (sys : System ℕ Phase Shared) : Action ℕ Unit Answer ℕ → Prop
  | .advance i answer =>
      match sys.processes i with
      | some (.loading _) =>
          answer = answerOf (store sys.shared.now (configKey container)) ∨ ∃ e, answer = .error e
      | _ => True
  | _ => True

/-- Every answer there was is one that the store held when it was given. -/
def Served (store : ℕ → Store Key.Content) (cr : IntegrityShieldCR) (sh : Shared) : Prop :=
  ∀ u c, (u, c) ∈ sh.answers → u ≤ sh.now ∧ Holds cr (store u) c

theorem holds_of_load {store : Store Key.Content} {cr : IntegrityShieldCR} {c : ShieldConfig}
    (h : loadEnforceConfig (answerOf (store (shieldConfigKey cr))) = some c) :
    Holds cr store c := by
  cases hfound : store (shieldConfigKey cr) with
  | none =>
      rw [hfound] at h
      cases h
  | some content =>
      rw [hfound] at h
      obtain ⟨config, rfl, rfl⟩ := Option.map_eq_some_iff.1 h
      exact ⟨config, hfound, rfl⟩

/-- A request that asks the API server adds the answer, and no other step does. -/
theorem answers_advance (reloadSec : String) (answer : Answer) (p : Phase) (sh : Shared) :
    (advance reloadSec answer p sh).2.now = sh.now ∧
      ((advance reloadSec answer p sh).2.answers = sh.answers ∨
        ∃ t c, p = .loading t ∧ loadEnforceConfig answer = some c ∧
          (advance reloadSec answer p sh).2.answers = (sh.now, c) :: sh.answers) := by
  fun_cases advance reloadSec answer p sh
  case case6 t c hload => exact ⟨rfl, Or.inr ⟨t, c, rfl, hload, rfl⟩⟩
  all_goals exact ⟨rfl, Or.inl rfl⟩

theorem served_run {store : ℕ → Store Key.Content} {cr : IntegrityShieldCR} {reloadSec : String}
    {sys : System ℕ Phase Shared} {actions : List (Action ℕ Unit Answer ℕ)}
    (hmeets : Meets (requests reloadSec) (Serves store (serverContainer cr)) sys actions)
    (h : Served store cr sys.shared) :
    Served store cr (run (requests reloadSec) sys actions).shared := by
  refine run_invariant (fun sys => Served store cr sys.shared) (fun sys action h hserves => ?_) h
    hmeets
  rcases step_shared (requests reloadSec) sys action with
    hsame | ⟨i, answer, p, rfl, hp, hshared⟩ | ⟨d, rfl, hshared⟩
  · rw [hsame]
    exact h
  · rw [hshared]
    obtain ⟨hnow, hsame | ⟨t, c, rfl, hload, hanswers⟩⟩ :=
      answers_advance reloadSec answer p sys.shared
    · intro u c hmem
      exact hnow.symm ▸ h u c (hsame ▸ hmem)
    · intro u c' hmem
      rcases List.mem_cons.1 (hanswers ▸ hmem) with heq | hmem
      · cases heq
        simp only [Serves, hp] at hserves
        rcases hserves with rfl | ⟨e, rfl⟩
        · exact ⟨Nat.le_of_eq hnow.symm, holds_of_load hload⟩
        · cases hload
      · exact hnow.symm ▸ h u c' hmem
  · rw [hshared]
    exact fun u c hmem => ⟨Nat.le_add_right_of_le (h u c hmem).1, (h u c hmem).2⟩

/-- **A request is handled with a configuration that the operator has just kept.**  A server that
the operator deployed loads the object that the operator keeps.  However its requests interleave,
each gets to the handler with a configuration that the object had at some time, or finds one
without logging and faults; none makes the server exit.  If a request stores what it loads within
`delay`, and the API server answers from the time `recovery` on, then the configuration of a
request that arrives at least 21 seconds and `delay` later is at most 21 seconds and `delay` old.
The interval of the resource has no influence. -/
theorem handled_config_fresh (cr : IntegrityShieldCR) (object : Object .deployment)
    (server : Container) (hbuild : buildDeploymentForIShield cr = .ok object)
    (hserver : object.content.spec.template.spec.containers.head? = some server)
    (hlow : -2 ^ 31 ≤ cr.spec.server.shieldCmReloadSec)
    (hhigh : cr.spec.server.shieldCmReloadSec < 2 ^ 31) (store : ℕ → Store Key.Content)
    (t₀ wait delay recovery : ℕ) (c₀ : ShieldConfig) (hc₀ : Holds cr (store (t₀ + wait)) c₀)
    (before after : List (Action ℕ Unit Answer ℕ)) (i : ℕ)
    (hnew : (run (requests (getenv server "SHIELD_CM_RELOAD_SEC")) (started t₀ wait c₀)
      before).processes i = none) (hsteps : 10 ≤ steps i after)
    (htimely : Meets (requests (getenv server "SHIELD_CM_RELOAD_SEC")) (Timely delay recovery)
      (started t₀ wait c₀) (before ++ .spawn i () :: after))
    (hserves : Meets (requests (getenv server "SHIELD_CM_RELOAD_SEC")) (Serves store server)
      (started t₀ wait c₀) (before ++ .spawn i () :: after)) :
    let last := run (requests (getenv server "SHIELD_CM_RELOAD_SEC")) (started t₀ wait c₀)
      (before ++ .spawn i () :: after)
    ∃ u c, u ≤ last.shared.now ∧ Holds cr (store u) c ∧
      ((∃ t, last.processes i = some (.handling t c) ∧
        (recovery + delay + 21 * second ≤ t → t ≤ u + (21 * second + delay))) ∨
      last.processes i = some .panicked ∧ c.log = none) := by
  obtain rfl := server_of_build hbuild hserver
  have hreload := reloadInterval_serverContainer hlow hhigh
  intro last
  have hserved : Served store cr last.shared := by
    refine served_run hserves fun u c hmem => ?_
    cases List.mem_singleton.1 hmem
    exact ⟨Nat.le_refl _, hc₀⟩
  obtain ⟨p, hp, hrank⟩ := rank_run hnew hsteps
  have hknows := knows_run hreload t₀ wait c₀ htimely i p hp
  have hanswered : ∀ {t age c}, last.shared.Answered t age c →
      ∃ u, u ≤ last.shared.now ∧ Holds cr (store u) c ∧ t ≤ u + age := by
    rintro t age c ⟨u, hmem, hle⟩
    exact ⟨u, (hserved u c hmem).1, (hserved u c hmem).2, hle⟩
  cases p with
  | handling t c =>
      by_cases hlate : recovery + delay + 21 * second ≤ t
      · obtain ⟨u, hu, hholds, hle⟩ := hanswered (hknows.2 hlate)
        exact ⟨u, c, hu, hholds, Or.inl ⟨t, hp, fun _ => hle⟩⟩
      · obtain ⟨u, hu, hholds, -⟩ := hanswered hknows.1
        exact ⟨u, c, hu, hholds, Or.inl ⟨t, hp, fun hle => absurd hle hlate⟩⟩
  | panicked =>
      obtain ⟨c, hc, hlog⟩ := hknows
      obtain ⟨u, hu, hholds, -⟩ := hanswered hc
      exact ⟨u, c, hu, hholds, Or.inr ⟨hp, hlog⟩⟩
  | exited => exact absurd hknows id
  | _ => cases hrank

/-! A server whose configuration does not change, and a request that arrives after 100 seconds. -/

def plainCR : IntegrityShieldCR where
  «namespace» := "shield-ns"
  spec := {
    logger := { esConfig := some {}, httpConfig := some {} }
    server := { shieldCmReloadSec := 5 }
    shieldConfigCrName := "shield-config" }

def keptConfig : OperatorShieldConfig where
  log := some {}

def keptStore : Store Key.Content :=
  Function.update (fun _ => none) (shieldConfigKey plainCR) (some (some keptConfig))

theorem keptStore_self : keptStore (shieldConfigKey plainCR) = some (some keptConfig) :=
  Function.update_self ..

/-- What the API server answers. -/
def keptAnswer : Answer := .ok (some keptConfig.toShieldConfig)

theorem handled_config_fresh_kept :
    let last := run (requests "5") (started 0 0 keptConfig.toShieldConfig)
      ([.environment (100 * second)] ++ .spawn 0 () :: List.replicate 10 (.advance 0 keptAnswer))
    ∃ u c, u ≤ last.shared.now ∧ Holds plainCR keptStore c ∧
      ((∃ t, last.processes 0 = some (.handling t c) ∧
        (0 + 0 + 21 * second ≤ t → t ≤ u + (21 * second + 0))) ∨
      last.processes 0 = some .panicked ∧ c.log = none) := by
  have hanswer : keptAnswer = answerOf (keptStore (shieldConfigKey plainCR)) := by
    rw [keptStore_self]
    rfl
  refine handled_config_fresh plainCR _ (serverContainer plainCR) rfl rfl (by decide) (by decide)
    (fun _ => keptStore) 0 0 0 0 _ ⟨keptConfig, keptStore_self, rfl⟩ [.environment (100 * second)]
    _ 0 rfl (by decide) ?_ ?_
  · exact ⟨trivial, trivial, trivial, trivial, trivial, fun _ => Option.some_ne_none _,
      Nat.le_refl _, trivial, trivial, trivial, trivial, trivial, trivial⟩
  · exact ⟨trivial, trivial, trivial, trivial, trivial, Or.inl hanswer, trivial, trivial, trivial,
      trivial, trivial, trivial, trivial⟩

end IshieldServer
end IntegrityShield
