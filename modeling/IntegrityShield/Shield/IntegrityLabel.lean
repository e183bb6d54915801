/-
# The integrity label

The patch of an allowed request labels the object `verified` or `unverified`
(`generatePatchBytes`), by the context of the check: by the signature evaluation
that it holds, and by the break glass flag.

The context is shared.  Every profile writes to it in turn, a profile that sees no
mutation leaves the evaluation of an earlier one, and `overwriteDecision` allows
afterwards.  What makes the label right is that a profile that refuses always
leaves its own evaluation, which does not allow (`Stage.Honest`), and that only
`overwriteDecision` raises the flag.
-/

import IntegrityShield.Shield.Stages

namespace IntegrityShield
namespace Shield

open Common Apis Mapnode

/-- `sigResult.Checked && sigResult.Allow`, for the evaluation in the context. -/
def CheckContext.signed (ctx : CheckContext) : Bool :=
  ctx.signatureEvalResult.checked && ctx.signatureEvalResult.allow

/-- A stage that has not touched what the label is made from. -/
structure Stage.Keeps (s : Stage) (ctx : CheckContext) : Prop where
  signatureEvalResult : s.ctx.signatureEvalResult = ctx.signatureEvalResult
  breakGlass : s.ctx.breakGlassModeEnabled = ctx.breakGlassModeEnabled

/-- A stage that refuses does not hold an evaluation that allows. -/
def Stage.Honest (s : Stage) : Prop := s.ctx.allow = false → s.ctx.signed = false

theorem Stage.Keeps.honest {s : Stage} (h : s.Keeps {}) : s.Honest := by
  intro _
  rw [CheckContext.signed, h.signatureEvalResult]
  rfl

/-- The response carries a patch that sets the integrity label to a value. -/
def AdmissionResponse.SetsLabel (resp : AdmissionResponse) (value : String) : Prop :=
  ∃ patch, resp.patch = some patch ∧ patch.labels.lookup resourceIntegrityLabelKey = some value

theorem verifyResultLabel_eq (ctx : CheckContext) :
    verifyResultLabel ctx = if ctx.signed then labelValueVerified
      else if ctx.breakGlassModeEnabled then labelValueUnverified else "" := by
  rw [verifyResultLabel, CheckContext.signed]
  cases ctx.signatureEvalResult.checked && ctx.signatureEvalResult.allow with
  | true => rfl
  | false => simp only [Bool.not_false, Bool.and_true]

theorem verifyResultLabel_eq_verified_iff (ctx : CheckContext) :
    verifyResultLabel ctx = labelValueVerified ↔ ctx.signed = true := by
  rw [verifyResultLabel_eq]
  split_ifs with hsigned hflagged
  · simp [hsigned]
  · simp [hsigned, labelValueVerified, labelValueUnverified]
  · simp [hsigned, labelValueVerified]

theorem verifyResultLabel_eq_unverified_iff (ctx : CheckContext) :
    verifyResultLabel ctx = labelValueUnverified ↔
      ctx.signed = false ∧ ctx.breakGlassModeEnabled = true := by
  rw [verifyResultLabel_eq]
  split_ifs with hsigned hflagged
  · simp [hsigned, labelValueVerified, labelValueUnverified]
  · simp [hsigned, hflagged]
  · simp [hflagged, labelValueUnverified]

theorem verifyResultLabel_cases {ctx : CheckContext} (h : verifyResultLabel ctx ≠ "") :
    verifyResultLabel ctx = labelValueVerified ∨ verifyResultLabel ctx = labelValueUnverified := by
  rw [verifyResultLabel_eq] at h ⊢
  split_ifs at h ⊢ with hsigned hflagged
  · exact .inl rfl
  · exact .inr rfl
  · exact absurd rfl h

section Stages

variable {config : ShieldConfig} {reqc : ReqContext} {data : RunData} {ctx : CheckContext}
  {s : Stage}

theorem inScopeCheck_keeps {answers : RuleAnswers}
    (h : inScopeCheck reqc config answers data ctx = .ok s) : s.Keeps ctx := by
  rw [inScopeCheck] at h
  split_ifs at h
  · obtain rfl := Except.ok.inj h
    exact ⟨rfl, rfl⟩
  · obtain rfl := Except.ok.inj h
    exact ⟨rfl, rfl⟩
  · obtain ⟨ignored, _, h⟩ := Go.bind_eq_ok.1 h
    split_ifs at h
    · obtain rfl := Except.ok.inj h
      exact ⟨rfl, rfl⟩
    · obtain rfl := Except.ok.inj h
      exact ⟨rfl, rfl⟩

theorem iShieldResourceCheck_keeps (h : iShieldResourceCheck reqc config data ctx = .ok s) :
    s.Keeps ctx := by
  rw [iShieldResourceCheck, Go.bind_eq_ok] at h
  obtain ⟨_, _, h⟩ := h
  obtain ⟨_, _, h⟩ := Go.bind_eq_ok.1 h
  obtain ⟨_, _, h⟩ := Go.bind_eq_ok.1 h
  split_ifs at h
  · obtain rfl := Except.ok.inj h
    exact ⟨rfl, rfl⟩
  · obtain ⟨_, _, h⟩ := Go.bind_eq_ok.1 h
    split_ifs at h
    · obtain rfl := Except.ok.inj h
      exact ⟨rfl, rfl⟩
    · obtain rfl := Except.ok.inj h
      exact ⟨rfl, rfl⟩

theorem deleteCheck_keeps (reqc : ReqContext) (data : RunData) (ctx : CheckContext) :
    (deleteCheck reqc data ctx).Keeps ctx := by
  rw [deleteCheck]
  split_ifs
  · exact ⟨rfl, rfl⟩
  · exact ⟨rfl, rfl⟩

theorem protectedCheck_keeps {answers : RuleAnswers} {profiles : List ResourceSigningProfile}
    (h : protectedCheck reqc config answers data ctx = .ok (s, profiles)) : s.Keeps ctx := by
  rw [protectedCheck] at h
  split at h
  · cases h
    exact ⟨rfl, rfl⟩
  · obtain ⟨p, _, h⟩ := Go.bind_eq_ok.1 h
    split_ifs at h
    · cases h
      exact ⟨rfl, rfl⟩
    · cases h
      exact ⟨rfl, rfl⟩
    · cases h
      exact ⟨rfl, rfl⟩

/-- The profiles that the protection check passes on are those of the table. -/
theorem protectedCheck_undetermined {answers : RuleAnswers}
    {profiles : List ResourceSigningProfile}
    (h : protectedCheck reqc config answers data ctx = .ok (s, profiles))
    (hs : s.decision.isUndetermined = true) :
    ∃ table p, s.data.ruleTable = some table ∧ table.checkIfProtected reqc.map = .ok p ∧
      profiles = p.matchedProfiles := by
  rw [protectedCheck] at h
  split at h
  · cases h
    cases hs
  · rename_i table htable
    obtain ⟨p, hp, h⟩ := Go.bind_eq_ok.1 h
    split_ifs at h
    · cases h
      cases hs
    · cases h
      cases hs
    · cases h
      exact ⟨table, p, htable, hp, rfl⟩

/-- **The overwriting and the label**: it keeps the evaluation, and raises the flag
if it lets a refused request through for break glass alone. -/
theorem overwriteDecision_flag {answer : Answer SignerConfigResource} {s' : Stage}
    (h : Handler.overwriteDecision config reqc answer s = .ok s') :
    s'.ctx.signatureEvalResult = s.ctx.signatureEvalResult ∧
    (s.ctx.breakGlassModeEnabled = false → (s'.ctx.breakGlassModeEnabled = true ↔
      s.decision.isAllowed = false ∧ config.mode ≠ .detect ∧
        checkIfBreakGlassEnabled reqc s'.data.signerConfig = .ok true)) := by
  obtain ⟨breakGlass, hbreak, h⟩ := Go.bind_eq_ok.1 h
  have hdetect : checkIfDetectOnly config = true ↔ config.mode = .detect := by
    simp [checkIfDetectOnly]
  have hglass : checkIfBreakGlassEnabled reqc (s.data.getSignerConfig answer).signerConfig =
      .ok true ↔ breakGlass = true := by
    rw [hbreak, Except.ok.injEq]
  dsimp only at h
  split_ifs at h with hnone hd hb
  · obtain rfl := Except.ok.inj h
    rw [Bool.and_eq_true, Bool.not_eq_true', Bool.not_eq_true'] at hnone
    refine ⟨rfl, fun hflag => ?_⟩
    rw [hflag, hglass, hnone.1]
    simp
  · obtain rfl := Except.ok.inj h
    rw [Bool.and_eq_true, hdetect] at hd
    refine ⟨rfl, fun hflag => ?_⟩
    change s.ctx.breakGlassModeEnabled = true ↔ _
    rw [hflag]
    simp [hd.2]
  · obtain rfl := Except.ok.inj h
    rw [Bool.and_eq_true, Bool.not_eq_true'] at hb
    rw [hb.1, Bool.not_false, Bool.true_and, hdetect] at hd
    exact ⟨rfl, fun _ => ⟨fun _ => ⟨hb.1, hd, hglass.2 hb.2⟩, fun _ => rfl⟩⟩
  · obtain rfl := Except.ok.inj h
    refine ⟨rfl, fun hflag => ?_⟩
    rw [hflag, hglass]
    constructor
    · exact fun hc => absurd hc Bool.false_ne_true
    · rintro ⟨hallowed, _, hbg⟩
      rw [hallowed, hbg] at hb
      exact absurd rfl hb

variable [Outside]

theorem formatCheck_keeps (h : formatCheck reqc config data ctx = .ok s) : s.Keeps ctx := by
  obtain ⟨⟨ok, msg⟩, _, h⟩ := Go.bind_eq_ok.1 h
  cases ok with
  | false =>
      obtain rfl := Except.ok.inj h
      exact ⟨rfl, rfl⟩
  | true =>
      obtain rfl := Except.ok.inj h
      exact ⟨rfl, rfl⟩

/-- **The two ways through the check**: a stage before the profiles has decided, and
kept what the label is made from, or the loop over the profiles has. -/
theorem check_cases {world : World} (h : Handler.check config reqc world data ctx = .ok s) :
    s.Keeps ctx ∨ ∃ t profiles t',
      protectedCheck reqc config world.protect (scopeData reqc config world.scope data) ctx =
        .ok (t, profiles) ∧
      t.decision.isUndetermined = true ∧
      Handler.checkProfiles config reqc world.profile 0 profiles t = .ok t' ∧
      s = Handler.settle t' := by
  rw [Handler.check] at h
  rcases eq_ok_of_then h with hscope | ⟨s₁, hscope, h⟩
  · exact .inl (inScopeCheck_keeps hscope)
  obtain ⟨rfl, _⟩ := inScopeCheck_passedBy_iff.1 hscope
  rcases eq_ok_of_then h with hformat | ⟨s₂, hformat, h⟩
  · exact .inl (formatCheck_keeps hformat)
  obtain ⟨rfl, _⟩ := formatCheck_passedBy_iff.1 hformat
  rcases eq_ok_of_then h with hshield | ⟨s₃, hshield, h⟩
  · exact .inl (iShieldResourceCheck_keeps hshield)
  obtain ⟨rfl, _⟩ := iShieldResourceCheck_passedBy_iff.1 hshield
  dsimp only at h
  split_ifs at h with hdelete
  · obtain rfl := Except.ok.inj h
    exact .inl (deleteCheck_keeps ..)
  obtain ⟨hpassed, _⟩ := deleteCheck_passedBy_iff.1 ⟨rfl, by simpa using hdelete⟩
  rw [hpassed] at h
  obtain ⟨⟨t, profiles⟩, hprotected, h⟩ := Go.bind_eq_ok.1 h
  split_ifs at h with hdecided
  · obtain rfl := Except.ok.inj h
    exact .inl (protectedCheck_keeps hprotected)
  obtain ⟨t', hloop, h⟩ := Go.bind_eq_ok.1 h
  obtain rfl := Except.ok.inj h
  refine .inr ⟨t, profiles, t', hprotected, ?_, hloop, rfl⟩
  simpa using hdecided

/-- A profile has evaluated a signature with a result; `data` holds the signer
configuration and the signatures. -/
def Evaluates (config : ShieldConfig) (reqc : ReqContext) (data : RunData)
    (p : ResourceSigningProfile) (r : SignatureEvalResult) : Prop :=
  ∃ signerConfig, data.signerConfig = some signerConfig ∧
    (newSignatureEvaluator config signerConfig.config).eval reqc data.resSigList p = .ok r

/-- What the check of one profile writes of the evaluation of signatures. -/
theorem singleProfileCheck_sigResult {p : ResourceSigningProfile} {c : ProfileCheck}
    (h : singleProfileCheck reqc config p data.signerConfig data.resSigList = .ok c) :
    (∀ r ∈ c.sigResult, Evaluates config reqc data p r) ∧
    (c.allowed = false → ∃ r ∈ c.sigResult, (r.checked && r.allow) = false) := by
  rw [singleProfileCheck, Go.bind_eq_ok] at h
  obtain ⟨mutResult, _, h⟩ := h
  split_ifs at h with hun
  · obtain rfl := Except.ok.inj h
    exact ⟨fun r hr => absurd hr (Option.not_mem_none r),
      fun hc => absurd hc.symm Bool.false_ne_true⟩
  · obtain ⟨signerConfig, hsigner, h⟩ := Go.bind_eq_ok.1 h
    obtain ⟨r, hr, h⟩ := Go.bind_eq_ok.1 h
    have heval : ∀ r' ∈ some r, Evaluates config reqc data p r' := by
      rintro r' hr'
      obtain rfl := Option.some.inj hr'
      exact ⟨signerConfig, Go.deref_eq_ok.1 hsigner, hr⟩
    split_ifs at h with hs
    · obtain rfl := Except.ok.inj h
      exact ⟨heval, fun hc => absurd hc.symm Bool.false_ne_true⟩
    · have hunsigned : ∃ r' ∈ some r, (r'.checked && r'.allow) = false :=
        ⟨r, rfl, Bool.eq_false_iff.2 hs⟩
      split at h
      · obtain rfl := Except.ok.inj h
        exact ⟨heval, fun _ => hunsigned⟩
      · obtain rfl := Except.ok.inj h
        exact ⟨heval, fun _ => hunsigned⟩

/-- One profile: its evaluation replaces that of the context, or the context keeps
the one it has, but not if the profile refuses. -/
theorem resourceSigningProfileCheck_signed {answers : ProfileAnswers}
    {p : ResourceSigningProfile}
    (h : resourceSigningProfileCheck reqc config p answers data ctx = .ok s) :
    s.ctx.breakGlassModeEnabled = ctx.breakGlassModeEnabled ∧ s.Honest ∧
    (s.ctx.signatureEvalResult = ctx.signatureEvalResult ∨
      Evaluates config reqc (answers.loadInto data) p s.ctx.signatureEvalResult) := by
  obtain ⟨c, hc, h⟩ := Go.bind_eq_ok.1 h
  obtain rfl := Except.ok.inj h
  obtain ⟨heval, hrefuse⟩ := singleProfileCheck_sigResult hc
  refine ⟨rfl, fun hallow => ?_, ?_⟩
  · obtain ⟨r, hr, hunsigned⟩ := hrefuse hallow
    rw [CheckContext.signed]
    simp only [ProfileCheck.stage, Option.mem_def.1 hr, Option.getD_some, hunsigned]
  · cases hsig : c.sigResult with
    | none => exact .inl (by simp only [ProfileCheck.stage, hsig, Option.getD_none])
    | some r =>
        right
        simpa only [ProfileCheck.stage, hsig, Option.getD_some] using heval r hsig

/-- **The loop over the profiles**: the evaluation in the context is the one before
it, or of one of the profiles; the induction is on the profiles that are left. -/
theorem checkProfiles_signed {answers : ℕ → ProfileAnswers} (start : RunData)
    {profiles : List ResourceSigningProfile} {i : ℕ} {s' : Stage}
    (h : Handler.checkProfiles config reqc answers i profiles s = .ok s')
    (hdata : s.data = dataAfter answers start i) (hs : s.Honest) :
    s'.ctx.breakGlassModeEnabled = s.ctx.breakGlassModeEnabled ∧ s'.Honest ∧
    (s'.ctx.signatureEvalResult = s.ctx.signatureEvalResult ∨
      ∃ j p, profiles[j]? = some p ∧
        Evaluates config reqc (dataAfter answers start (i + j + 1)) p
          s'.ctx.signatureEvalResult) := by
  induction profiles generalizing i s with
  | nil =>
      obtain rfl := Except.ok.inj h
      exact ⟨rfl, hs, .inl rfl⟩
  | cons prof rest ih =>
      rw [Handler.checkProfiles, Go.bind_eq_ok] at h
      obtain ⟨t, ht, h⟩ := h
      obtain ⟨htdata, _⟩ := resourceSigningProfileCheck_eq_ok ht
      obtain ⟨hbreak, hhonest, hkept⟩ := resourceSigningProfileCheck_signed ht
      have hload : (answers i).loadInto s.data = dataAfter answers start (i + 1) := by
        rw [hdata]
        rfl
      rw [hload] at htdata hkept
      have hfirst : t.ctx.signatureEvalResult = s.ctx.signatureEvalResult ∨
          ∃ j p, (prof :: rest)[j]? = some p ∧
            Evaluates config reqc (dataAfter answers start (i + j + 1)) p
              t.ctx.signatureEvalResult :=
        hkept.imp_right fun heval => ⟨0, prof, rfl, heval⟩
      split_ifs at h with hallowed
      · obtain ⟨hbreak', hhonest', hkept'⟩ := ih h htdata hhonest
        refine ⟨hbreak'.trans hbreak, hhonest', ?_⟩
        rcases hkept' with hsame | ⟨j, p, hp, heval⟩
        · rw [hsame]
          exact hfirst
        · refine .inr ⟨j + 1, p, hp, ?_⟩
          rwa [show i + (j + 1) + 1 = i + 1 + j + 1 by omega]
      · obtain rfl := Except.ok.inj h
        exact ⟨hbreak, hhonest, hfirst⟩

/-- All the profiles that protect a request accept it, and one of them has evaluated
a signature with a result; `data` holds the table that the protection check saw. -/
def SignedFor (config : ShieldConfig) (reqc : ReqContext) (answers : ℕ → ProfileAnswers)
    (data : RunData) (r : SignatureEvalResult) : Prop :=
  ∃ table p, data.ruleTable = some table ∧ table.checkIfProtected reqc.map = .ok p ∧
    (∀ i profile, p.matchedProfiles[i]? = some profile →
      Accepts config reqc (dataAfter answers data (i + 1)) profile) ∧
    ∃ i profile, p.matchedProfiles[i]? = some profile ∧
      Evaluates config reqc (dataAfter answers data (i + 1)) profile r

/-- **What the check leaves for the label.**  The flag is not raised; if the request
is refused, the evaluation in the context does not allow; and if that evaluation
allows, it is of a profile of this run, and all that protect the request accept it. -/
theorem check_signed {world : World} (h : Handler.check config reqc world data {} = .ok s) :
    s.ctx.breakGlassModeEnabled = false ∧ s.Honest ∧
    (s.ctx.signed = true → SignedFor config reqc world.profile
      ((scopeData reqc config world.scope data).getRuleTable config.namespace world.protect)
      s.ctx.signatureEvalResult) := by
  have hdecides := check_eq_ok h
  rcases check_cases h with hkeeps | ⟨t, profiles, t', hprotected, hundetermined, hloop, rfl⟩
  · refine ⟨hkeeps.breakGlass, hkeeps.honest, fun hsigned => ?_⟩
    rw [CheckContext.signed, hkeeps.signatureEvalResult] at hsigned
    cases hsigned
  · have hkeeps := protectedCheck_keeps hprotected
    obtain ⟨hdata, hpassed⟩ := protectedCheck_eq_ok hprotected
    obtain ⟨table, p, htable, hp, rfl⟩ := protectedCheck_undetermined hprotected hundetermined
    obtain ⟨hbreak, hhonest, hkept⟩ := checkProfiles_signed t.data hloop rfl hkeeps.honest
    have hloops := checkProfiles_eq_ok t.data hloop rfl fun hnil => ?_
    · rw [settle_of_not_undetermined hloops.isUndetermined]
      refine ⟨hbreak.trans hkeeps.breakGlass, hhonest, fun hsigned => ?_⟩
      rw [← hdata]
      refine ⟨table, p, htable, hp, ?_, ?_⟩
      · rcases hloops with ⟨_, haccept⟩ | ⟨hdenies, _⟩
        · simpa only [Nat.zero_add] using haccept
        · rw [hhonest hdenies.ctx] at hsigned
          cases hsigned
      · rcases hkept with hsame | ⟨j, profile, hprofile, heval⟩
        · rw [CheckContext.signed, hsame, hkeeps.signatureEvalResult] at hsigned
          cases hsigned
        · rw [Nat.zero_add] at heval
          exact ⟨j, profile, hprofile, heval⟩
    · rcases hpassed with ⟨hallows, _⟩ | ⟨_, hne, _⟩
      · exact hallows
      · exact absurd hnil hne

/-- A request that the check refuses is left without an evaluation that allows. -/
theorem check_refused {world : World} (h : Handler.check config reqc world data {} = .ok s)
    (hrefused : s.decision.isAllowed = false) : s.ctx.signed = false := by
  rcases check_eq_ok h with ⟨hallows, _⟩ | ⟨hdenies, _⟩
  · rw [DecisionResult.isAllowed, hallows.decision] at hrefused
    cases hrefused
  · exact (check_signed h).2.1 hdenies.ctx

/-- The patch of a response sets the label of its context. -/
theorem respond_patch (hpatch : config.patchEnabled reqc = true) (s : Stage) (now : String) :
    (s.ctx.allow = false ∨ verifyResultLabel s.ctx = "" →
      (Handler.respond config reqc s now).patch = none) ∧
    (s.ctx.allow = true → verifyResultLabel s.ctx ≠ "" → ∃ patch,
      (Handler.respond config reqc s now).patch = some patch ∧
      patch.labels.lookup resourceIntegrityLabelKey = some (verifyResultLabel s.ctx)) := by
  have hrespond : (Handler.respond config reqc s now).patch =
      generatePatchBytes reqc s.ctx now := by
    rw [Handler.respond]
    split_ifs
    all_goals exact if_pos hpatch
  rw [hrespond, generatePatchBytes]
  constructor
  · rintro (hallow | hlabel)
    · rw [hallow]
      rfl
    · rw [if_pos hlabel, ite_self]
  · intro hallow hlabel
    rw [hallow, if_neg hlabel]
    exact ⟨_, rfl, AList.lookup_insert _⟩

/-- A response sets a label precisely if its context has that label. -/
theorem setsLabel_iff (hpatch : config.patchEnabled reqc = true) (s : Stage) (now : String)
    {value : String} (hvalue : value ≠ "") :
    (Handler.respond config reqc s now).SetsLabel value ↔
      s.ctx.allow = true ∧ verifyResultLabel s.ctx = value := by
  obtain ⟨hnone, hsome⟩ := respond_patch hpatch s now
  constructor
  · rintro ⟨patch, hp, hlookup⟩
    by_cases hskip : s.ctx.allow = false ∨ verifyResultLabel s.ctx = ""
    · rw [hnone hskip] at hp
      cases hp
    · rw [not_or, Bool.not_eq_false] at hskip
      obtain ⟨patch', hp', hlookup'⟩ := hsome hskip.1 hskip.2
      obtain rfl := Option.some.inj (hp.symm.trans hp')
      exact ⟨hskip.1, Option.some.inj (hlookup'.symm.trans hlookup)⟩
  · rintro ⟨hallow, rfl⟩
    exact hsome hallow hvalue

/-- **The integrity label tells the truth.**  A denied response carries no patch.  The
label `verified` is of a request that the check itself has allowed, that all the
profiles protecting it accept, and with a signature evaluation of this run that
allows.  The label `unverified` is of a request that the check has refused and break
glass has let through, and of each of them.  No other patch is made. -/
theorem run_label (config : ShieldConfig) (req : AdmissionRequest) (world : World)
    (reqc : ReqContext) (hreqc : newReqContext req = .ok reqc)
    (hpatch : config.patchEnabled reqc = true) (r : Handler.RunResult)
    (hrun : Handler.run config req world = .ok r) :
    (r.response.allowed = false → r.response.patch = none) ∧
    (r.response.SetsLabel labelValueVerified →
      r.checked.isAllowed = true ∧ r.final.ctx.signed = true ∧
      SignedFor config reqc world.profile
        ((scopeData reqc config world.scope (RunData.init config world.init)).getRuleTable
          config.namespace world.protect) r.final.ctx.signatureEvalResult) ∧
    (r.response.SetsLabel labelValueUnverified ↔
      r.checked.isAllowed = false ∧ config.mode ≠ .detect ∧
        checkIfBreakGlassEnabled reqc r.final.data.signerConfig = .ok true) ∧
    (r.response.patch ≠ none →
      r.response.SetsLabel labelValueVerified ∨ r.response.SetsLabel labelValueUnverified) := by
  obtain ⟨reqc', s, hreqc', hcheck, hfinal, hchecked, hresponse⟩ := run_eq_ok hrun
  obtain rfl := Except.ok.inj (hreqc.symm.trans hreqc')
  obtain ⟨hlowered, hhonest, hsigned⟩ := check_signed hcheck
  obtain ⟨hkept, hflag⟩ := overwriteDecision_flag hfinal
  obtain ⟨_, hdecides⟩ := overwriteDecision_eq_ok (check_eq_ok hcheck) hfinal
  obtain ⟨hskip, _⟩ := respond_patch hpatch r.final world.now
  have hanswer := (respond_allowed config reqc hdecides world.now).1
  have hsame : r.final.ctx.signed = s.ctx.signed := by
    rw [CheckContext.signed, hkept]
    rfl
  rw [hresponse, setsLabel_iff hpatch _ _ (by decide : labelValueVerified ≠ ""),
    setsLabel_iff hpatch _ _ (by decide : labelValueUnverified ≠ ""),
    verifyResultLabel_eq_verified_iff, verifyResultLabel_eq_unverified_iff, hanswer, hchecked,
    ← hflag hlowered, hkept, hsame]
  refine ⟨fun hdenied => hskip (.inl hdenied), ?_, ?_, ?_⟩
  · rintro ⟨_, hs⟩
    refine ⟨?_, hs, hsigned hs⟩
    by_contra hrefused
    rw [check_refused hcheck (Bool.eq_false_iff.2 hrefused)] at hs
    cases hs
  · refine ⟨fun h => h.2.2, fun hflagged => ?_⟩
    obtain ⟨hrefused, _, hglass⟩ := (hflag hlowered).1 hflagged
    refine ⟨?_, check_refused hcheck hrefused, hflagged⟩
    rcases hdecides with ⟨hallows, _⟩ | ⟨_, hnot⟩
    · exact hallows.ctx
    · exact absurd (.inr (.inl hglass)) hnot
  · intro hpatched
    have hlabelled := mt hskip hpatched
    rw [not_or, Bool.not_eq_false] at hlabelled
    have hlabel := verifyResultLabel_cases hlabelled.2
    rw [verifyResultLabel_eq_verified_iff, verifyResultLabel_eq_unverified_iff, hsame] at hlabel
    exact hlabel.imp (⟨hlabelled.1, ·⟩) (⟨hlabelled.1, ·⟩)

end Stages

/-- A shield that labels what it allows. -/
def patchingConfig : ShieldConfig := { guardedConfig with patch := some true }

theorem run_label_breakGlass :
    letI := Outside.silent
    ∃ r, Handler.run patchingConfig (malloryCreates "secure" "cm")
        (guardedWorld [{ namespaces := ["secure"] }]) = .ok r ∧
      r.checked.isAllowed = false ∧ r.response.SetsLabel labelValueUnverified := by
  let _ := Outside.silent
  obtain ⟨r, hr, hres⟩ : ∃ r, Handler.run patchingConfig (malloryCreates "secure" "cm")
      (guardedWorld [{ namespaces := ["secure"] }]) = .ok r ∧
        (r.checked.isAllowed, r.response.patch.isSome) = (false, true) :=
    Go.exists_of_toOption_map (by decide +kernel)
  obtain ⟨reqc, hreqc, hpatch⟩ : ∃ reqc, newReqContext (malloryCreates "secure" "cm") = .ok reqc ∧
      patchingConfig.patchEnabled reqc = true := Go.exists_of_toOption_map (by decide +kernel)
  obtain ⟨hdenied, hpatched⟩ := Prod.mk.inj hres
  rw [Option.isSome_iff_ne_none] at hpatched
  obtain ⟨_, hverified, _, hlabelled⟩ := run_label patchingConfig _ _ reqc hreqc hpatch r hr
  refine ⟨r, hr, hdenied, (hlabelled hpatched).resolve_left fun hv => ?_⟩
  rw [(hverified hv).1] at hdenied
  cases hdenied

end Shield
end IntegrityShield
