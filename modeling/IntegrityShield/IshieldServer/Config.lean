/-
# The configuration that a request is handled with

`Config.InitShieldConfig` of `shield/cmd/ishield-server/config.go`, and the part of
`WebhookServer.handleAdmissionRequest` that chooses the configuration of a request.

The server has one configuration for all requests.  A request loads it anew if it is old
enough, and otherwise takes what is there.  The requests are served concurrently and nothing is
locked, so a request takes a step here for each time it reads or writes the configuration or its
time stamp, looks at the clock or asks the API server (`advance`).  A request that is not
interrupted does what `initShieldConfig` does (`advance_alone`).

Among others, a request may store a configuration that is older than the one it replaces, and a
time stamp may belong to another configuration than the one that is there.  How old the
configuration of a request is all the same at most, is `handled_config_fresh`.

`ChartRepo` is left out: it is set to the same value every time, and nothing here reads it.
-/

import IntegrityShield.Base.Interleaving
import IntegrityShield.Base.Strings
import IntegrityShield.Shield.Config

namespace IntegrityShield
namespace IshieldServer

open Shield Interleaving

/-! ## One request -/

/-- `Config`; the time is in nanoseconds. -/
structure Config where
  shieldConfig : Option ShieldConfig := none
  lastUpdated : ℕ := 0

/-- The interval of `InitShieldConfig`.  The variable is followed only if it is no number. -/
def reloadInterval (reloadSec : String) : ℤ :=
  if reloadSec ≠ "" then
    match Strings.atoi reloadSec with
    | (v, some _) => v
    | (_, none) => 20
  else 20

/-- The nanoseconds of a second. -/
def second : ℕ := 1000000000

/-- `Time.Sub`, which saturates. -/
def sub (t u : ℕ) : ℤ := max (-2 ^ 63) (min (2 ^ 63 - 1) (t - u))

/-- The configuration is old enough: `int(duration.Seconds()) > interval`. -/
def due (reloadSec : String) (t lastUpdated : ℕ) : Bool :=
  decide ((sub t lastUpdated).tdiv second > reloadInterval reloadSec)

/-- What becomes of the request to the API server: there is no client or no object, or the
object is there, with or without a configuration. -/
abbrev Answer := Except String (Option ShieldConfig)

/-- `LoadEnforceConfig`. -/
def loadEnforceConfig : Answer → Option ShieldConfig
  | .ok ec => ec
  | .error _ => none

/-- `Config.InitShieldConfig` at the time `t`: whether the configuration was renewed, and what it
is then.  There is no result if the server exits. -/
def initShieldConfig (reloadSec : String) (t : ℕ) (answer : Answer) (conf : Config) :
    Option (Bool × Config) :=
  let renew :=
    match conf.shieldConfig with
    | some _ => due reloadSec t conf.lastUpdated
    | none => true
  if renew then
    match loadEnforceConfig answer with
    | some c => some (true, ⟨some c, t⟩)
    | none =>
        match conf.shieldConfig with
        | none => none
        | some c => some (true, ⟨some c, t⟩)
  else some (false, conf)

/-- A number that is set for the interval is not followed. -/
theorem reloadInterval_of_number {reloadSec : String}
    (h : (Strings.atoi reloadSec).2 = none) : reloadInterval reloadSec = 20 := by
  unfold reloadInterval
  split
  · split
    · rename_i heq
      rw [heq] at h
      cases h
    · rfl
  · rfl

/-- What is not old enough has been updated in the last 21 seconds. -/
theorem lt_of_not_due {reloadSec : String} (hreload : reloadInterval reloadSec = 20) {t u : ℕ}
    (h : due reloadSec t u = false) : t < u + 21 * second := by
  by_contra hle
  have hsub : ((21 * second : ℕ) : ℤ) ≤ sub t u := by
    unfold sub second at *
    omega
  have hseconds : (21 : ℤ) ≤ (sub t u).tdiv second := by
    rw [Int.tdiv_eq_ediv_of_nonneg (by omega)]
    unfold second at *
    omega
  unfold due at h
  rw [decide_eq_false_iff_not, hreload] at h
  omega

/-! ## Requests that are served concurrently -/

/-- Where a request is.  It keeps the time at which it looked at the clock, to the end. -/
inductive Phase where
  /-- before `time.Now()` -/
  | arrived
  /-- before it asks whether there is a configuration -/
  | checking (t : ℕ)
  /-- before it reads `lastUpdated` -/
  | comparing (t : ℕ)
  /-- before it asks the API server -/
  | loading (t : ℕ)
  /-- nothing was loaded; before it asks whether there is a configuration to use again -/
  | failed (t : ℕ)
  /-- before it reads the configuration to use again -/
  | reusing (t : ℕ)
  /-- before it stores a configuration -/
  | storing (t : ℕ) (c : ShieldConfig)
  /-- before it stores the time -/
  | stamping (t : ℕ)
  /-- before it reads the configuration for `LoggerConfig` -/
  | logging (t : ℕ)
  /-- before it reads the configuration for `NewHandler` -/
  | choosing (t : ℕ)
  /-- in `Handler.Run` -/
  | handling (t : ℕ) (c : ShieldConfig)
  /-- after `log.Fatal` -/
  | exited
  /-- after a nil dereference -/
  | panicked

/-- What the requests share, and two things for the statements: the time, and what the API server
has answered, and when. -/
structure Shared where
  conf : Config
  now : ℕ
  answers : List (ℕ × ShieldConfig) := []

/-- One step of a request.  The answer is for the request that asks the API server. -/
def advance (reloadSec : String) (answer : Answer) (p : Phase) (sh : Shared) : Phase × Shared :=
  match p with
  | .arrived => (.checking sh.now, sh)
  | .checking t =>
      match sh.conf.shieldConfig with
      | some _ => (.comparing t, sh)
      | none => (.loading t, sh)
  | .comparing t =>
      if due reloadSec t sh.conf.lastUpdated then (.loading t, sh) else (.logging t, sh)
  | .loading t =>
      match loadEnforceConfig answer with
      | some c => (.storing t c, { sh with answers := (sh.now, c) :: sh.answers })
      | none => (.failed t, sh)
  | .failed t =>
      match sh.conf.shieldConfig with
      | some _ => (.reusing t, sh)
      | none => (.exited, sh)
  | .reusing t =>
      match sh.conf.shieldConfig with
      | some c => (.storing t c, sh)
      -- `if shieldConfig != nil`
      | none => (.logging t, sh)
  | .storing t c => (.stamping t, { sh with conf.shieldConfig := some c })
  | .stamping t => (.logging t, { sh with conf.lastUpdated := t })
  | .logging t =>
      match sh.conf.shieldConfig with
      | some c =>
          match c.log with
          | some _ => (.choosing t, sh)
          | none => (.panicked, sh)
      | none => (.panicked, sh)
  | .choosing t =>
      match sh.conf.shieldConfig with
      | some c => (.handling t c, sh)
      -- the handler has no configuration and faults when it looks into it
      | none => (.panicked, sh)
  | .handling t c => (.handling t c, sh)
  | .exited => (.exited, sh)
  | .panicked => (.panicked, sh)

/-- The requests of a server; the environment lets time pass. -/
def requests (reloadSec : String) : Program Unit Answer ℕ Phase Shared where
  create _ := .arrived
  advance := advance reloadSec
  environment d sh := { sh with now := sh.now + d }

/-- The server after `init`, which has called `InitShieldConfig` at the time `t` and has loaded a
configuration after a while. -/
def started (t wait : ℕ) (c : ShieldConfig) : System ℕ Phase Shared where
  shared := { conf := ⟨some c, t⟩, now := t + wait, answers := [(t + wait, c)] }

/-- The steps that are left. -/
def rank : Phase → ℕ
  | .arrived => 10
  | .checking _ => 9
  | .comparing _ => 8
  | .loading _ => 7
  | .failed _ => 6
  | .reusing _ => 5
  | .storing .. => 4
  | .stamping _ => 3
  | .logging _ => 2
  | .choosing _ => 1
  | _ => 0

theorem rank_advance (reloadSec : String) (answer : Answer) (p : Phase) (sh : Shared) :
    rank (advance reloadSec answer p sh).1 ≤ rank p - 1 := by
  fun_cases advance reloadSec answer p sh <;> simp [rank]

/-- A request that arrives and is given its steps gets to its end. -/
theorem rank_run {reloadSec : String} {sys : System ℕ Phase Shared} {i : ℕ}
    {before after : List (Action ℕ Unit Answer ℕ)}
    (hnew : (run (requests reloadSec) sys before).processes i = none)
    (hsteps : 10 ≤ steps i after) :
    ∃ p, (run (requests reloadSec) sys (before ++ .spawn i () :: after)).processes i = some p ∧
      rank p = 0 := by
  have hspawn : (step (requests reloadSec) (run (requests reloadSec) sys before)
      (.spawn i ())).processes i = some .arrived := by
    simp only [step, hnew, Function.update_self]
    rfl
  obtain ⟨p, hp, hrank⟩ := run_rank (requests reloadSec) (rank_advance reloadSec) hspawn after
  have harrived : rank .arrived = 10 := rfl
  exact ⟨p, by rwa [run_append], by omega⟩

/-- What a request that looked at the clock at the time `t` does with a configuration. -/
def Config.chosen (conf : Config) (t : ℕ) : Phase :=
  match conf.shieldConfig with
  | some c =>
      match c.log with
      | some _ => .handling t c
      | none => .panicked
  | none => .panicked

/-- A request that is not interrupted calls `InitShieldConfig` and takes the configuration that
is there then. -/
theorem advance_alone (reloadSec : String) (answer : Answer) (sh : Shared) :
    let last := (fun s : Phase × Shared => advance reloadSec answer s.1 s.2)^[10] (.arrived, sh)
    (last.1, last.2.conf) =
      match initShieldConfig reloadSec sh.now answer sh.conf with
      | some (_, conf) => (conf.chosen sh.now, conf)
      | none => (.exited, sh.conf) := by
  obtain ⟨⟨stored, lastUpdated⟩, now, answers⟩ := sh
  cases stored with
  | none =>
      cases hload : loadEnforceConfig answer with
      | none => simp [advance, initShieldConfig, hload]
      | some c =>
          cases hlog : c.log <;> simp [advance, initShieldConfig, hload, hlog, Config.chosen]
  | some c₀ =>
      cases hdue : due reloadSec now lastUpdated with
      | false =>
          cases hlog : c₀.log <;> simp [advance, initShieldConfig, hdue, hlog, Config.chosen]
      | true =>
          cases hload : loadEnforceConfig answer with
          | none =>
              cases hlog : c₀.log <;>
                simp [advance, initShieldConfig, hdue, hload, hlog, Config.chosen]
          | some c =>
              cases hlog : c.log <;>
                simp [advance, initShieldConfig, hdue, hload, hlog, Config.chosen]

/-! ## How old the configuration is -/

/-- The API server has answered with the configuration, at most so long before the time `t`. -/
def Shared.Answered (sh : Shared) (t age : ℕ) (c : ShieldConfig) : Prop :=
  ∃ u, (u, c) ∈ sh.answers ∧ t ≤ u + age

/-- The configuration that is there is one that the API server has answered with. -/
def Shared.Current (sh : Shared) (t age : ℕ) : Prop :=
  ∃ c, sh.conf.shieldConfig = some c ∧ sh.Answered t age c

theorem Shared.Answered.mono {sh sh' : Shared} {t age t' age' : ℕ} {c : ShieldConfig}
    (h : sh.Answered t age c) (hsub : sh.answers ⊆ sh'.answers) (hle : t' + age ≤ t + age') :
    sh'.Answered t' age' c := by
  obtain ⟨u, hmem, hu⟩ := h
  exact ⟨u, hsub hmem, by omega⟩

section Freshness

variable {reloadSec : String} {delay recovery : ℕ}

/-- What is assumed of a run.  A request stores a configuration at most `delay` after it looked at
the clock, and from the time `recovery` on the API server answers with a configuration. -/
def Timely (delay recovery : ℕ) (sys : System ℕ Phase Shared) :
    Action ℕ Unit Answer ℕ → Prop
  | .advance i answer =>
      match sys.processes i with
      | some (.storing t _) => sys.shared.now ≤ t + delay
      | some (.loading _) => recovery ≤ sys.shared.now → loadEnforceConfig answer ≠ none
      | _ => True
  | _ => True

/-- What a request may find changed after the steps of the others: the configuration may be
another one, but after the recovery it is no older than `delay`. -/
structure Rely (delay recovery : ℕ) (sh sh' : Shared) : Prop where
  answers : sh.answers ⊆ sh'.answers
  now : sh.now ≤ sh'.now
  conf : sh'.conf.shieldConfig = sh.conf.shieldConfig ∨
    ∃ c, sh'.conf.shieldConfig = some c ∧ sh'.Answered 0 0 c ∧
      (recovery + delay ≤ sh.now → sh'.Answered sh.now delay c)

/-- The configuration that is there was answered at some time, and at most so long before `t` if
`t` is late enough. -/
def Shared.Fresh (sh : Shared) (late t age : ℕ) : Prop :=
  sh.Current 0 0 ∧ (late ≤ t → sh.Current t age)

/-- What is always true of what the requests share. -/
structure Consistent (delay recovery : ℕ) (sh : Shared) : Prop where
  lastUpdated : sh.conf.lastUpdated ≤ sh.now
  fresh : sh.Fresh (recovery + delay) sh.conf.lastUpdated delay

/-- What a request knows. -/
def Knows (delay recovery : ℕ) (p : Phase) (sh : Shared) : Prop :=
  match p with
  | .arrived => True
  | .checking t | .comparing t | .loading t => t ≤ sh.now
  -- the API server has not answered, so this was before the recovery
  | .failed t | .reusing t => t ≤ sh.now ∧ t < recovery
  | .storing t c => t ≤ sh.now ∧ sh.Answered 0 0 c ∧ (recovery ≤ t → sh.Answered t 0 c)
  | .stamping t => t ≤ sh.now ∧ sh.Fresh (recovery + delay) t delay
  | .logging t | .choosing t =>
      t ≤ sh.now ∧ sh.Fresh (recovery + delay + 21 * second) t (21 * second + delay)
  | .handling t c => sh.Answered 0 0 c ∧
      (recovery + delay + 21 * second ≤ t → sh.Answered t (21 * second + delay) c)
  | .exited => False
  | .panicked => ∃ c, sh.Answered 0 0 c ∧ c.log = none

theorem Rely.refl (sh : Shared) : Rely delay recovery sh sh :=
  ⟨List.Subset.refl _, Nat.le_refl _, Or.inl rfl⟩

theorem Shared.Fresh.mono {sh : Shared} {late t age late' t' age' : ℕ} (h : sh.Fresh late t age)
    (hle : late' ≤ t' → late ≤ t ∧ t' + age ≤ t + age') : sh.Fresh late' t' age' := by
  refine ⟨h.1, fun hlate => ?_⟩
  obtain ⟨c, hc, hanswered⟩ := h.2 (hle hlate).1
  exact ⟨c, hc, hanswered.mono (List.Subset.refl _) (hle hlate).2⟩

/-- What another request stores is no older. -/
theorem Shared.Fresh.rely {sh sh' : Shared} {late t age : ℕ} (h : sh.Fresh late t age)
    (hrely : Rely delay recovery sh sh') (ht : t ≤ sh.now) (hlate : recovery + delay ≤ late)
    (hage : delay ≤ age) : sh'.Fresh late t age := by
  rcases hrely.conf with hsame | ⟨c, hc, hzero, hanswered⟩
  · have hcurrent : ∀ t age, sh.Current t age → sh'.Current t age := by
      rintro t age ⟨c, hc, hanswered⟩
      exact ⟨c, hsame.trans hc, hanswered.mono hrely.answers (Nat.le_refl _)⟩
    exact ⟨hcurrent 0 0 h.1, fun hle => hcurrent t age (h.2 hle)⟩
  · refine ⟨⟨c, hc, hzero⟩, fun hle => ⟨c, hc, ?_⟩⟩
    exact (hanswered (by omega)).mono (List.Subset.refl _) (by omega)

theorem Knows.rely {p : Phase} {sh sh' : Shared} (hrely : Rely delay recovery sh sh')
    (h : Knows delay recovery p sh) : Knows delay recovery p sh' := by
  have hnow := hrely.now
  have hanswered : ∀ t age c, sh.Answered t age c → sh'.Answered t age c :=
    fun t age c h => h.mono hrely.answers (Nat.le_refl _)
  cases p with
  | arrived => trivial
  | checking t => exact Nat.le_trans h hnow
  | comparing t => exact Nat.le_trans h hnow
  | loading t => exact Nat.le_trans h hnow
  | failed t => exact ⟨Nat.le_trans h.1 hnow, h.2⟩
  | reusing t => exact ⟨Nat.le_trans h.1 hnow, h.2⟩
  | storing t c =>
      exact ⟨Nat.le_trans h.1 hnow, hanswered _ _ _ h.2.1, fun hle => hanswered _ _ _ (h.2.2 hle)⟩
  | stamping t =>
      exact ⟨Nat.le_trans h.1 hnow, h.2.rely hrely h.1 (Nat.le_refl _) (Nat.le_refl _)⟩
  | logging t =>
      exact ⟨Nat.le_trans h.1 hnow, h.2.rely hrely h.1 (by omega) (by omega)⟩
  | choosing t =>
      exact ⟨Nat.le_trans h.1 hnow, h.2.rely hrely h.1 (by omega) (by omega)⟩
  | handling t c => exact ⟨hanswered _ _ _ h.1, fun hle => hanswered _ _ _ (h.2 hle)⟩
  | exited => exact h
  | panicked =>
      obtain ⟨c, hc, hlog⟩ := h
      exact ⟨c, hanswered _ _ _ hc, hlog⟩

theorem Consistent.rely {sh sh' : Shared} (h : Consistent delay recovery sh)
    (hrely : Rely delay recovery sh sh') (hsame : sh'.conf.lastUpdated = sh.conf.lastUpdated) :
    Consistent delay recovery sh' := by
  refine ⟨hsame ▸ Nat.le_trans h.lastUpdated hrely.now, ?_⟩
  rw [hsame]
  exact h.fresh.rely hrely h.lastUpdated (Nat.le_refl _) (Nat.le_refl _)

/-- One step of a request. -/
theorem advance_spec (hreload : reloadInterval reloadSec = 20) {answer : Answer} {p : Phase}
    {sh : Shared} (hstore : ∀ t c, p = .storing t c → sh.now ≤ t + delay)
    (hload : ∀ t, p = .loading t → recovery ≤ sh.now → loadEnforceConfig answer ≠ none)
    (hsh : Consistent delay recovery sh) (hp : Knows delay recovery p sh) :
    Consistent delay recovery (advance reloadSec answer p sh).2 ∧
      Rely delay recovery sh (advance reloadSec answer p sh).2 ∧
      Knows delay recovery (advance reloadSec answer p sh).1
        (advance reloadSec answer p sh).2 := by
  -- most steps only read
  have hread : ∀ {p'}, Knows delay recovery p' sh →
      Consistent delay recovery sh ∧ Rely delay recovery sh sh ∧ Knows delay recovery p' sh :=
    fun h => ⟨hsh, Rely.refl sh, h⟩
  obtain ⟨stored, hstored, hanswered⟩ := hsh.fresh.1
  cases p with
  | arrived => exact hread (Nat.le_refl _)
  | checking t =>
      simp only [advance, hstored]
      exact hread hp
  | comparing t =>
      simp only [advance]
      split
      · exact hread hp
      · rename_i hdue
        have hlt := lt_of_not_due hreload (Bool.eq_false_of_not_eq_true hdue)
        exact hread ⟨hp, hsh.fresh.mono fun hlate => by omega⟩
  | loading t =>
      cases hanswer : loadEnforceConfig answer with
      | none =>
          simp only [advance, hanswer]
          have hearly : ¬recovery ≤ sh.now := fun hle => hload t rfl hle hanswer
          exact hread ⟨hp, Nat.lt_of_le_of_lt hp (Nat.lt_of_not_le hearly)⟩
      | some c =>
          simp only [advance, hanswer]
          have hrely : Rely delay recovery sh { sh with answers := (sh.now, c) :: sh.answers } :=
            ⟨List.subset_cons_self _ _, Nat.le_refl _, Or.inl rfl⟩
          exact ⟨hsh.rely hrely rfl, hrely, hp, ⟨sh.now, List.mem_cons_self, Nat.zero_le _⟩,
            fun _ => ⟨sh.now, List.mem_cons_self, hp⟩⟩
  | failed t =>
      simp only [advance, hstored]
      exact hread hp
  | reusing t =>
      simp only [advance, hstored]
      exact hread ⟨hp.1, hanswered, fun hle => absurd hp.2 (Nat.not_lt.2 hle)⟩
  | storing t c =>
      simp only [advance]
      have hnow := hstore t c rfl
      obtain ⟨ht, hzero, hlate⟩ := hp
      have hrely : Rely delay recovery sh { sh with conf.shieldConfig := some c } := by
        refine ⟨List.Subset.refl _, Nat.le_refl _, Or.inr ⟨c, rfl, hzero, fun hle => ?_⟩⟩
        exact (hlate (by omega)).mono (List.Subset.refl _) (by omega)
      refine ⟨hsh.rely hrely rfl, hrely, ht, ⟨c, rfl, hzero⟩, fun hle => ⟨c, rfl, ?_⟩⟩
      exact (hlate (by omega)).mono (List.Subset.refl _) (by omega)
  | stamping t =>
      simp only [advance]
      obtain ⟨ht, hfresh⟩ := hp
      exact ⟨⟨ht, hfresh⟩, ⟨List.Subset.refl _, Nat.le_refl _, Or.inl rfl⟩, ht,
        hfresh.mono fun hle => by omega⟩
  | logging t =>
      cases hlog : stored.log with
      | some log =>
          simp only [advance, hstored, hlog]
          exact hread hp
      | none =>
          simp only [advance, hstored, hlog]
          exact hread ⟨stored, hanswered, hlog⟩
  | choosing t =>
      simp only [advance, hstored]
      refine hread ⟨hanswered, fun hle => ?_⟩
      obtain ⟨c, hc, hfresh⟩ := hp.2.2 hle
      cases hstored.symm.trans hc
      exact hfresh
  | handling t c => exact hread hp
  | exited => exact absurd hp id
  | panicked => exact hread hp

/-- What holds at all times. -/
theorem knows_run (hreload : reloadInterval reloadSec = 20) (t wait : ℕ) (c : ShieldConfig)
    {actions : List (Action ℕ Unit Answer ℕ)}
    (hmeets : Meets (requests reloadSec) (Timely delay recovery) (started t wait c) actions) :
    ∀ i p, (run (requests reloadSec) (started t wait c) actions).processes i = some p →
      Knows delay recovery p (run (requests reloadSec) (started t wait c) actions).shared := by
  have hcreate : ∀ s sh, Consistent delay recovery sh →
      Knows delay recovery ((requests reloadSec).create s) sh := fun _ _ _ => trivial
  refine (rely_guarantee (Rely delay recovery) (Consistent delay recovery) (Knows delay recovery)
    (fun p sh sh' => Knows.rely) hcreate ?_ ?_ ?_ ?_ hmeets).2
  · intro sys i answer p hp hgood hsh hknows
    simp only [Timely, hp] at hgood
    refine advance_spec hreload ?_ ?_ hsh hknows
    · rintro t c rfl
      exact hgood
    · rintro t rfl
      exact hgood
  · intro sys d _ hsh
    have hrely : Rely delay recovery sys.shared { sys.shared with now := sys.shared.now + d } :=
      ⟨List.Subset.refl _, Nat.le_add_right _ _, Or.inl rfl⟩
    exact ⟨hsh.rely hrely rfl, hrely⟩
  · exact ⟨Nat.le_add_right _ _, ⟨c, rfl, t + wait, List.mem_singleton_self _, Nat.zero_le _⟩,
      fun _ => ⟨c, rfl, t + wait, List.mem_singleton_self _, by show t ≤ _; omega⟩⟩
  · intro i p hp
    exact absurd hp.symm (Option.some_ne_none p)

end Freshness

end IshieldServer
end IntegrityShield
