/-
# Signer policies

`SignerConfig` of `shield/pkg/common/policy.go`, and `SignerInfo` of
`shield/pkg/common/common.go`: which signers a policy accepts in a namespace,
and under which keys.
-/

import IntegrityShield.Base.FlatMap
import IntegrityShield.Common.Pattern

namespace IntegrityShield
namespace Common

/-- `SignerInfo`. -/
structure SignerInfo where
  email : String := ""
  name : String := ""
  comment : String := ""
  uid : String := ""
  country : String := ""
  organization : String := ""
  organizationalUnit : String := ""
  locality : String := ""
  province : String := ""
  streetAddress : String := ""
  postalCode : String := ""
  commonName : String := ""
  serialNumber : Option ℤ := none
  fingerprint : Option String := none
deriving DecidableEq

/-- `SignerInfo.GetName`. -/
def SignerInfo.getName (self : SignerInfo) : String :=
  if self.commonName ≠ "" then self.commonName
  else if self.email ≠ "" then self.email
  else self.name

/-- `SignerInfo.GetNameWithFingerprint`. -/
def SignerInfo.getNameWithFingerprint (self : SignerInfo) : String :=
  match self.fingerprint with
  | some fingerprint => self.getName ++ " (" ++ fingerprint ++ ")"
  | none => self.getName

/-- `SubjectMatchPattern`. -/
structure SubjectMatchPattern where
  email : String := ""
  uid : String := ""
  country : String := ""
  organization : String := ""
  organizationalUnit : String := ""
  locality : String := ""
  province : String := ""
  streetAddress : String := ""
  postalCode : String := ""
  commonName : String := ""
  serialNumber : String := ""
deriving DecidableEq

/-- `SignerCondition`. -/
structure SignerCondition where
  name : String := ""
  keyConfig : String := ""
  subjects : List SubjectMatchPattern := []
deriving DecidableEq

/-- `SignerConfigCondition`. -/
structure SignerConfigCondition where
  scope : String := ""
  namespaces : List String := []
  excludeNamespaces : List String := []
  signers : List String := []
deriving DecidableEq

/-- `BreakGlassCondition`. -/
structure BreakGlassCondition where
  scope : String := ""
  namespaces : List String := []
deriving DecidableEq

/-- `SignerConfig`. -/
structure SignerConfig where
  policies : List SignerConfigCondition := []
  signers : List SignerCondition := []
  breakGlass : List BreakGlassCondition := []
deriving DecidableEq

/-- `SubjectCondition`. -/
structure SubjectCondition where
  name : String
  keyConfig : String
  subject : SubjectMatchPattern
deriving DecidableEq

/-- `big.Int.SetString` of a string that is no number leaves an undefined value. -/
class UndefinedBigInt where
  undefined : String → ℤ

/-- `SubjectCondition.Match`. -/
def SubjectCondition.matchSigner [UndefinedBigInt] (self : SubjectCondition)
    (signer : SignerInfo) : Go Bool :=
  let texts := [(self.subject.email, signer.email), (self.subject.uid, signer.uid),
    (self.subject.country, signer.country), (self.subject.organization, signer.organization),
    (self.subject.organizationalUnit, signer.organizationalUnit),
    (self.subject.locality, signer.locality), (self.subject.province, signer.province),
    (self.subject.streetAddress, signer.streetAddress),
    (self.subject.postalCode, signer.postalCode), (self.subject.commonName, signer.commonName)]
  if texts.all fun (pattern, value) => matchPattern pattern value then
    matchBigInt UndefinedBigInt.undefined self.subject.serialNumber signer.serialNumber
  else .ok false

/-- A serial number pattern asks for a number. -/
def AsksNumber (pattern : String) : Prop :=
  let pattern := Strings.trimSpace pattern
  pattern ≠ "" ∧ pattern ≠ "*" ∧ pattern ≠ "-" ∧
    (Strings.contains pattern ":" = true ∨ (Strings.atoi pattern).2 = none)

instance (pattern : String) : Decidable (AsksNumber pattern) :=
  inferInstanceAs (Decidable (_ ∧ _ ∧ _ ∧ (_ ∨ _)))

theorem matchBigInt_some (undefined : String → ℤ) (pattern : String) (n : ℤ) :
    ∃ matched, matchBigInt undefined pattern (some n) = .ok matched := by
  unfold matchBigInt
  dsimp only
  split_ifs
  · exact ⟨_, rfl⟩
  · exact ⟨_, rfl⟩
  · exact ⟨_, rfl⟩
  · exact ⟨_, rfl⟩
  · split
    · exact ⟨_, rfl⟩
    · exact ⟨_, rfl⟩

/-- A number that is not there is followed exactly if it is asked for. -/
theorem matchBigInt_none (undefined : String → ℤ) (pattern : String) (e : Fault) :
    matchBigInt undefined pattern none = .error e ↔ e = .nilDeref ∧ AsksNumber pattern := by
  unfold matchBigInt AsksNumber
  dsimp only
  by_cases hempty : Strings.trimSpace pattern = ""
  · simp [hempty]
  by_cases hstar : Strings.trimSpace pattern = "*"
  · simp [hstar]
  by_cases hdash : Strings.trimSpace pattern = "-"
  · simp [hdash]
  by_cases hcolon : Strings.contains (Strings.trimSpace pattern) ":" = true
  · simp [hempty, hstar, hdash, hcolon, Go.deref, bind, Except.bind, eq_comm]
  · rw [Bool.not_eq_true] at hcolon
    cases hatoi : Strings.atoi (Strings.trimSpace pattern) with
    | mk i err =>
        cases err with
        | some _ => simp [hempty, hstar, hdash, hcolon]
        | none => simp [hempty, hstar, hdash, hcolon, Go.deref, bind, Except.bind, eq_comm]

/-- The texts of a subject match those of a signer. -/
def SubjectCondition.TextsMatch (sc : SubjectCondition) (signer : SignerInfo) : Prop :=
  matchPattern sc.subject.email signer.email = true ∧
  matchPattern sc.subject.uid signer.uid = true ∧
  matchPattern sc.subject.country signer.country = true ∧
  matchPattern sc.subject.organization signer.organization = true ∧
  matchPattern sc.subject.organizationalUnit signer.organizationalUnit = true ∧
  matchPattern sc.subject.locality signer.locality = true ∧
  matchPattern sc.subject.province signer.province = true ∧
  matchPattern sc.subject.streetAddress signer.streetAddress = true ∧
  matchPattern sc.subject.postalCode signer.postalCode = true ∧
  matchPattern sc.subject.commonName signer.commonName = true

/-- The serial number of a signer that has none is compared: the texts of the
subject match, and its serial number asks for a number. -/
def SubjectCondition.ComparesNil (sc : SubjectCondition) (signer : SignerInfo) : Prop :=
  sc.TextsMatch signer ∧ signer.serialNumber = none ∧ AsksNumber sc.subject.serialNumber

theorem SubjectCondition.matchSigner_eq_error_iff [UndefinedBigInt] (sc : SubjectCondition)
    (signer : SignerInfo) (e : Fault) :
    sc.matchSigner signer = .error e ↔ e = .nilDeref ∧ sc.ComparesNil signer := by
  unfold matchSigner ComparesNil
  dsimp only
  have htexts : (List.all [(sc.subject.email, signer.email), (sc.subject.uid, signer.uid),
      (sc.subject.country, signer.country), (sc.subject.organization, signer.organization),
      (sc.subject.organizationalUnit, signer.organizationalUnit),
      (sc.subject.locality, signer.locality), (sc.subject.province, signer.province),
      (sc.subject.streetAddress, signer.streetAddress),
      (sc.subject.postalCode, signer.postalCode), (sc.subject.commonName, signer.commonName)]
      fun (pattern, value) => matchPattern pattern value) = true ↔ sc.TextsMatch signer := by
    simp only [List.all_cons, List.all_nil, Bool.and_true, Bool.and_eq_true, TextsMatch]
  split_ifs with hall
  · cases hserial : signer.serialNumber with
    | some n =>
        obtain ⟨matched, hmatched⟩ := matchBigInt_some UndefinedBigInt.undefined
          sc.subject.serialNumber n
        simp [hmatched]
    | none => simp [matchBigInt_none, htexts.1 hall]
  · constructor
    · exact fun h => nomatch h
    · exact fun h => absurd (htexts.2 h.2.1) hall

namespace SignerConfig

/-- The subject conditions of a signer. -/
def subjectConditions (si : SignerCondition) : List SubjectCondition :=
  si.subjects.map fun sj => ⟨si.name, si.keyConfig, sj⟩

/-- `SignerConfig.GetSignerMap`: of several signers of one name the last one
stays. -/
def getSignerMap (self : SignerConfig) : GoMap String (List SubjectCondition) :=
  GoMap.writes ∅ (self.signers.map fun si => (si.name, subjectConditions si))

/-- Whether a policy applies to a namespace, as both loops over the policies
decide it. -/
def appliesTo (spc : SignerConfigCondition) (ns : String) : Bool :=
  if ns = "" then spc.scope == "Cluster"
  else spc.scope != "Cluster" && matchWithPatternArray ns spc.namespaces &&
    !matchWithPatternArray ns spc.excludeNamespaces

theorem appliesTo_iff (policy : SignerConfigCondition) (ns : String) :
    appliesTo policy ns = true ↔
      (ns = "" ∧ policy.scope = "Cluster") ∨
      (ns ≠ "" ∧ policy.scope ≠ "Cluster" ∧ matchWithPatternArray ns policy.namespaces = true ∧
        matchWithPatternArray ns policy.excludeNamespaces = false) := by
  unfold appliesTo
  by_cases h : ns = "" <;> simp [h, and_assoc]

/-- The names of the key configurations of the signers that apply. -/
def candidateKeyConfigs (self : SignerConfig) (ns : String) : List String :=
  (self.policies.filter fun spc => appliesTo spc ns).flatMap fun spc =>
    spc.signers.flatMap fun signerName =>
      (self.signers.filter fun si => si.name == signerName).map SignerCondition.keyConfig

/-- Where a key path goes in `GetCandidatePubkeys`: the first candidate that
occurs in it decides. -/
inductive KeyKind where
  | pgp
  | x509
deriving DecidableEq

def keyKind (candidates : List String) (keyPath : String) : Option KeyKind :=
  candidates.findSome? fun keyConfName =>
    if Strings.contains keyPath ("/" ++ keyConfName ++ "/pgp/") then some .pgp
    else if Strings.contains keyPath ("/" ++ keyConfName ++ "/x509/") then some .x509
    else none

/-- `SignerConfig.GetCandidatePubkeys`: the candidate paths of one type. -/
def getCandidatePubkeys (self : SignerConfig) (keyPathList : List String) (ns : String)
    (kind : KeyKind) : List String :=
  keyPathList.filter fun keyPath => keyKind (self.candidateKeyConfigs ns) keyPath == some kind

section

variable [UndefinedBigInt]

/-- The subject conditions of one signer against the signer and the verified
paths.  The loop goes on after a hit, so a later condition may still fault. -/
def matchConditions (signer : SignerInfo) (verifiedKeyPathList : List String) :
    List SubjectCondition → Go Bool
  | [] => .ok false
  | sc :: rest => do
      let subjectOk ← sc.matchSigner signer
      let hit := subjectOk && verifiedKeyPathList.any fun keyPath =>
        Strings.contains keyPath ("/" ++ sc.keyConfig ++ "/")
      let later ← matchConditions signer verifiedKeyPathList rest
      return hit || later

/-- The signers of one policy: the first that matches ends the loop. -/
def matchSigners (self : SignerConfig) (spc : SignerConfigCondition) (signer : SignerInfo)
    (verifiedKeyPathList : List String) : Go Bool :=
  spc.signers.anyM fun signerName =>
    match self.getSignerMap.lookup signerName with
    | none => .ok false
    | some conditions => matchConditions signer verifiedKeyPathList conditions

/-- `SignerConfig.Match`.  The signers of every policy are gone through, also of
those that do not apply. -/
def matchConfig (self : SignerConfig) (ns : String) (signer : SignerInfo)
    (verifiedKeyPathList : List String) : Go (Option SignerConfigCondition) :=
  self.policies.findM? fun spc => do
    let signerMatched ← self.matchSigners spc signer verifiedKeyPathList
    return appliesTo spc ns && signerMatched

/-- A hit among the conditions of a signer is a subject that matches, and a verified path with
the name of its key configuration. -/
theorem matchConditions_eq_ok {signer : SignerInfo} {verifiedKeyPathList : List String}
    {conditions : List SubjectCondition} {hit : Bool}
    (h : matchConditions signer verifiedKeyPathList conditions = .ok hit) :
    hit = true ↔ ∃ sc ∈ conditions, sc.matchSigner signer = .ok true ∧
      ∃ keyPath ∈ verifiedKeyPathList,
        Strings.contains keyPath ("/" ++ sc.keyConfig ++ "/") = true := by
  induction conditions generalizing hit with
  | nil =>
      obtain rfl := Except.ok.inj h
      exact iff_of_false Bool.false_ne_true fun ⟨_, h, _⟩ => absurd h List.not_mem_nil
  | cons sc rest ih =>
      rw [matchConditions, Go.bind_eq_ok] at h
      obtain ⟨subjectOk, hsubject, h⟩ := h
      obtain ⟨later, hlater, h⟩ := Go.bind_eq_ok.1 h
      rw [← Except.ok.inj h, Bool.or_eq_true, Bool.and_eq_true, List.any_eq_true, ih hlater,
        List.exists_mem_cons_iff, hsubject, Except.ok.injEq]

/-- The conditions of a signer are all gone through, so any of them may fault. -/
theorem matchConditions_eq_error_iff (signer : SignerInfo) (verifiedKeyPathList : List String)
    (conditions : List SubjectCondition) (e : Fault) :
    matchConditions signer verifiedKeyPathList conditions = .error e ↔
      e = .nilDeref ∧ ∃ sc ∈ conditions, sc.ComparesNil signer := by
  induction conditions with
  | nil =>
      constructor
      · exact fun h => nomatch h
      · rintro ⟨_, _, h, _⟩
        cases h
  | cons sc rest ih =>
      rw [matchConditions, List.exists_mem_cons_iff]
      cases hsc : sc.matchSigner signer with
      | error e' =>
          obtain ⟨rfl, hnil⟩ := (sc.matchSigner_eq_error_iff signer e').1 hsc
          constructor
          · exact fun h => ⟨(Except.error.inj h).symm, .inl hnil⟩
          · rintro ⟨rfl, _⟩
            rfl
      | ok subjectOk =>
          have hno : ¬sc.ComparesNil signer := by
            intro hnil
            rw [(sc.matchSigner_eq_error_iff signer .nilDeref).2 ⟨rfl, hnil⟩] at hsc
            cases hsc
          rw [or_iff_right hno, ← ih]
          cases matchConditions signer verifiedKeyPathList rest with
          | error e' => rfl
          | ok later => exact ⟨fun h => (nomatch h), fun h => (nomatch h)⟩

/-- A policy's signers fault if one that is come to, before any that matches, has a
subject that compares a serial number which is not there. -/
def ComparesNil (self : SignerConfig) (spc : SignerConfigCondition) (signer : SignerInfo)
    (verifiedKeyPathList : List String) : Prop :=
  ∃ pre signerName post, spc.signers = pre ++ signerName :: post ∧
    (∀ name ∈ pre, ∀ conditions ∈ self.getSignerMap.lookup name,
      matchConditions signer verifiedKeyPathList conditions = .ok false) ∧
    ∃ conditions ∈ self.getSignerMap.lookup signerName, ∃ sc ∈ conditions, sc.ComparesNil signer

theorem matchSigners_eq_error_iff (self : SignerConfig) (spc : SignerConfigCondition)
    (signer : SignerInfo) (verifiedKeyPathList : List String) (e : Fault) :
    self.matchSigners spc signer verifiedKeyPathList = .error e ↔
      e = .nilDeref ∧ self.ComparesNil spc signer verifiedKeyPathList := by
  have hpass : ∀ name : String, (match self.getSignerMap.lookup name with
      | none => (.ok false : Go Bool)
      | some conditions => matchConditions signer verifiedKeyPathList conditions) = .ok false ↔
      ∀ conditions ∈ self.getSignerMap.lookup name,
        matchConditions signer verifiedKeyPathList conditions = .ok false := by
    intro name
    cases self.getSignerMap.lookup name with
    | none => simp
    | some conditions => simp
  have hfault : ∀ name : String, (match self.getSignerMap.lookup name with
      | none => (.ok false : Go Bool)
      | some conditions => matchConditions signer verifiedKeyPathList conditions) = .error e ↔
      e = .nilDeref ∧ ∃ conditions ∈ self.getSignerMap.lookup name,
        ∃ sc ∈ conditions, sc.ComparesNil signer := by
    intro name
    cases self.getSignerMap.lookup name with
    | none => simp
    | some conditions => simp [matchConditions_eq_error_iff]
  rw [matchSigners, Go.anyM_eq_error_iff, ComparesNil]
  simp only [hpass, hfault]
  constructor
  · rintro ⟨pre, name, post, heq, hpre, he, hname⟩
    exact ⟨he, pre, name, post, heq, hpre, hname⟩
  · rintro ⟨he, pre, name, post, heq, hpre, hname⟩
    exact ⟨pre, name, post, heq, hpre, he, hname⟩

/-- **What a policy that matches has shown.** -/
theorem matchConfig_eq_some {self : SignerConfig} {ns : String} {signer : SignerInfo}
    {verifiedKeyPathList : List String} {spc : SignerConfigCondition}
    (h : self.matchConfig ns signer verifiedKeyPathList = .ok (some spc)) :
    spc ∈ self.policies ∧ appliesTo spc ns = true ∧
      ∃ signerName ∈ spc.signers, ∃ conditions,
        self.getSignerMap.lookup signerName = some conditions ∧
        ∃ sc ∈ conditions, sc.matchSigner signer = .ok true ∧
          ∃ keyPath ∈ verifiedKeyPathList,
            Strings.contains keyPath ("/" ++ sc.keyConfig ++ "/") = true := by
  obtain ⟨hmem, hspc⟩ := Go.findM_eq_some h
  obtain ⟨signerMatched, hsigners, hspc⟩ := Go.bind_eq_ok.1 hspc
  have hand := Except.ok.inj hspc
  rw [Bool.and_eq_true] at hand
  obtain ⟨happlies, rfl⟩ := hand
  obtain ⟨signerName, hname, hsigner⟩ := Go.exists_of_anyM hsigners
  cases hlookup : self.getSignerMap.lookup signerName with
  | none =>
      simp only [hlookup] at hsigner
      cases hsigner
  | some conditions =>
      simp only [hlookup] at hsigner
      exact ⟨hmem, happlies, signerName, hname, conditions, hlookup,
        (matchConditions_eq_ok hsigner).1 rfl⟩

/-- Further verified paths never undo a hit, and never make a subject fault. -/
theorem matchConditions_mono {signer : SignerInfo} {verified verified' : List String}
    (hsub : verified ⊆ verified') {conditions : List SubjectCondition} {b : Bool}
    (h : matchConditions signer verified conditions = .ok b) :
    ∃ b', matchConditions signer verified' conditions = .ok b' ∧ (b = true → b' = true) := by
  induction conditions generalizing b with
  | nil => exact ⟨b, h, id⟩
  | cons sc rest ih =>
      rw [matchConditions, Go.bind_eq_ok] at h
      obtain ⟨subjectOk, hsubject, h⟩ := h
      obtain ⟨later, hlater, h⟩ := Go.bind_eq_ok.1 h
      obtain ⟨later', hlater', himp⟩ := ih hlater
      rw [matchConditions, hsubject]
      simp only [bind, Except.bind, hlater']
      refine ⟨_, rfl, ?_⟩
      rw [← Except.ok.inj h, Bool.or_eq_true, Bool.or_eq_true, Bool.and_eq_true, Bool.and_eq_true]
      rintro (⟨hok, hpath⟩ | hl)
      · obtain ⟨keyPath, hmem, hcontains⟩ := List.any_eq_true.1 hpath
        exact .inl ⟨hok, List.any_eq_true.2 ⟨keyPath, hsub hmem, hcontains⟩⟩
      · exact .inr (himp hl)

/-- **A signer that is accepted stays so with further verified paths.** -/
theorem matchConfig_mono {self : SignerConfig} {ns : String} {signer : SignerInfo}
    {verified verified' : List String} (hsub : verified ⊆ verified')
    {policy : SignerConfigCondition}
    (h : self.matchConfig ns signer verified = .ok (some policy)) :
    ∃ policy', self.matchConfig ns signer verified' = .ok (some policy') := by
  refine Go.findM_mono (fun spc _ b hb => ?_) h
  obtain ⟨signerMatched, hsigners, hb⟩ := Go.bind_eq_ok.1 hb
  have hnames : ∀ name ∈ spc.signers, ∀ b,
      (match self.getSignerMap.lookup name with
        | none => (.ok false : Go Bool)
        | some conditions => matchConditions signer verified conditions) = .ok b →
      ∃ b', (match self.getSignerMap.lookup name with
        | none => (.ok false : Go Bool)
        | some conditions => matchConditions signer verified' conditions) = .ok b' ∧
        (b = true → b' = true) := by
    intro name _
    cases self.getSignerMap.lookup name with
    | none => exact fun b hb => ⟨b, hb, id⟩
    | some conditions => exact fun b hb => matchConditions_mono hsub hb
  obtain ⟨signerMatched', hsigners', himp⟩ := Go.anyM_mono hnames hsigners
  refine ⟨appliesTo spc ns && signerMatched', ?_, ?_⟩
  · rw [matchSigners, hsigners']
    rfl
  · rw [← Except.ok.inj hb, Bool.and_eq_true, Bool.and_eq_true]
    exact fun hboth => ⟨hboth.1, himp hboth.2⟩

end

end SignerConfig

end Common
end IntegrityShield
